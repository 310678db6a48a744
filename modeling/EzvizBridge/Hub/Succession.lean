import EzvizBridge.Hub.Steps

/-!
# Producers and their successors

`run_producer` compares its generation once, when its session has returned, and `record_result`
then writes `last_failure`, waits for the metrics, writes `failures`, waits again and clears the
map of the subscribers. A producer that passed the comparison is *completing* until it has cleared
the map.

A `subscribe` that finds the map empty starts the next generation whatever the task of the current
one is doing. When that task is completing, it goes on: it overwrites the failure state of the new
generation and removes its subscribers (`completion_clears_successor`). This is the only way in
which a completion reaches a generation that is not its own, together with a start over a map that
still holds subscribers of a producer that gave up its backoff. In a run without such starts
(`StartsAlone`) every completion works on its own generation (`completion_own_generation`).
-/

namespace EzvizBridge

namespace RawInner

variable {cfg : HubConfig} {s s' : RawInner}

/-- What may remove subscriber `i` from the map: its own `unsubscribe` or drop, a chunk that its
own queue cannot take (or whose receiver is gone), `close`, and the completion of the producer
under which it was inserted. -/
def Removes (cfg : HubConfig) (s : RawInner) (i : ℕ) : Event → Prop
  | .unsubscribe id => id = i
  | .drop id => id = i
  | .consume g chunk =>
    s.producerGeneration = g ∧
      ((s.channels i).alive = false ∨
        cfg.queueChunks < (s.channels i).queue.length + (chunks 65536 chunk).length)
  | .closeClear _ => True
  | .advance g => s.phase g = some .draining ∧ s.history.born i = g
  | _ => False

/-- A step touches the subscribers and the failure state only as the generation it belongs to:
nobody is removed other than as `Removes` allows, and a producer writes `failures` or
`last_failure` only while its generation is the current one. -/
def Harmless (cfg : HubConfig) (s : RawInner) (e : Event) (s' : RawInner) : Prop :=
  (∀ i ∈ s.subscribers, i ∉ s'.subscribers → s.Removes cfg i e) ∧
  ∀ g, e = .advance g → (s'.failures ≠ s.failures ∨ s'.lastFailure ≠ s.lastFailure) →
    s.producerGeneration = g

/-- A new generation is started only when it is alone: a first subscriber does not arrive while a
producer is completing, and a further one arrives only while the stored producer is unfinished, so
that it starts nothing. -/
def StartsAlone (cfg : HubConfig) (s : RawInner) : Event → Prop
  | .join _ =>
    s.subscribers.length < cfg.maxSubscribers →
      (s.subscribers = [] → ∀ g p, s.phase g = some p → p.completing = false) ∧
      (s.subscribers ≠ [] → ∃ g, s.producer = some g ∧ s.isFinished g = false)
  | _ => True

/-! ### The invariant -/

/-- A completing producer is the current one, and so is the producer of every subscriber. -/
structure OwnGeneration (s : RawInner) : Prop where
  completing : ∀ g p, s.phase g = some p → p.completing = true → s.producerGeneration = g
  born : ∀ i ∈ s.subscribers, s.history.born i = s.producerGeneration

theorem ownGeneration_new : OwnGeneration {} where
  completing := fun _ _ h => nomatch h
  born := fun _ h => absurd h List.not_mem_nil

theorem OwnGeneration.keeps (h : s.OwnGeneration) (hk : s.Keeps s') : s'.OwnGeneration := by
  refine ⟨fun g p hp hc => ?_, fun i hi => ?_⟩
  · rw [hk.generation]
    rw [hk.phase] at hp
    exact h.completing g p hp hc
  · rw [hk.born, hk.generation]
    exact h.born i (hk.subscribers i hi)

/-- A task enters the completing phases only through the comparison of its generation. -/
theorem completing_of_moves {g : ℕ} {p q : Phase}
    (h : Phase.Moves (s.producerGeneration = g) p q) (hq : q.completing = true) :
    p.completing = true ∨ s.producerGeneration = g := by
  cases h with
  | record result hcur => exact .inr hcur
  | tally | count | reset | counted | wasReset => exact .inl rfl
  | _ => exact nomatch hq

theorem OwnGeneration.taskMoves {g : ℕ} {p q : Phase} (h : s.OwnGeneration)
    (ht : s.TaskMoves g p q s') : s'.OwnGeneration := by
  refine ⟨fun x r hr hc => ?_, fun i hi => ?_⟩
  · rw [ht.generation]
    rw [ht.phase] at hr
    by_cases hx : x = g
    · subst hx
      rw [Function.update_self] at hr
      obtain rfl := Option.some.inj hr
      rcases completing_of_moves ht.moves hc with hp | hcur
      · exact h.completing x p ht.was hp
      · exact hcur
    · rw [Function.update_of_ne hx] at hr
      exact h.completing x r hr hc
  · rw [ht.history, ht.generation]
    rw [ht.subscribers] at hi
    split at hi
    · exact absurd hi List.not_mem_nil
    · exact h.born i hi

theorem OwnGeneration.join {id : ℕ} (h : s.OwnGeneration)
    (halone : StartsAlone cfg s (.join id)) : (s.join cfg id).OwnGeneration := by
  rcases join_cases cfg s id with ⟨-, heq⟩ | ⟨hlt, hins, hrun⟩
  · rw [heq]
    exact ⟨h.completing, h.born⟩
  · -- the new subscriber is born under the generation that the admission leaves behind
    have hborn : (∀ i ∈ s.subscribers, s.history.born i = (s.join cfg id).producerGeneration) →
        ∀ i ∈ (s.join cfg id).subscribers,
          (s.join cfg id).history.born i = (s.join cfg id).producerGeneration := by
      intro hold i hi
      rw [hins.born]
      by_cases hid : i = id
      · rw [hid, Function.update_self]
      · rw [Function.update_of_ne hid]
        rw [hins.subscribers, List.mem_append, List.mem_singleton] at hi
        exact hold i (hi.resolve_right hid)
    obtain ⟨hempty, hfull⟩ := halone hlt
    rcases hrun with ⟨-, hphase, -, hgen⟩ | ⟨hstarts, hphase, -, hgen⟩
    · refine ⟨?_, hborn ?_⟩
      · rw [hphase, hgen]
        exact h.completing
      · rw [hgen]
        exact h.born
    · -- a start over a nonempty map is what `StartsAlone` excludes
      have hnil : s.subscribers = [] := by
        by_contra hne
        obtain ⟨g, hg, hfin⟩ := hfull hne
        rcases hstarts with hnil | hdone
        · exact hne hnil
        · exact Bool.false_ne_true (hfin.symm.trans (hdone g hg))
      refine ⟨fun g p hp hc => ?_, hborn ?_⟩
      · rw [hphase] at hp
        by_cases hg : g = s.producerGeneration + 1
        · rw [hgen, hg]
        · rw [Function.update_of_ne hg] at hp
          exact absurd hc (by rw [hempty hnil g p hp]; exact Bool.false_ne_true)
      · rw [hnil]
        exact fun i hi => absurd hi List.not_mem_nil

theorem OwnGeneration.step {e : Event} (h : s.OwnGeneration) (halone : StartsAlone cfg s e)
    (hstep : s.step cfg e = some s') : s'.OwnGeneration := by
  cases e with
  | join id =>
    obtain ⟨-, rfl⟩ := EventSystem.guarded hstep
    exact h.join halone
  | advance g | giveUp g | ret g _ =>
    obtain ⟨p, q, ht⟩ := step_task (g := g) hstep rfl
    exact h.taskMoves ht
  | _ => exact h.keeps (step_keeps hstep id)

/-! ### Single steps -/

/-- A task that is not completing leaves the failure state alone. -/
theorem advance_failures {g : ℕ} (h : s.advance g = some s')
    (hnot : ∀ p, s.phase g = some p → p.completing = false) :
    s'.failures = s.failures ∧ s'.lastFailure = s.lastFailure := by
  rw [advance] at h
  cases htask : s.tasks g with
  | none =>
    rw [htask] at h
    cases h
  | some task =>
    rw [htask] at h
    obtain ⟨cancelled, p⟩ := task
    have hp : p.completing = false := hnot p (by rw [RawInner.phase, htask, Option.map_some])
    cases p with
    | recording | tallying | counting | resetting | draining => cases hp
    | givenUp | streaming | finished => cases h
    | starting | cleared =>
      obtain rfl := Option.some.inj h
      exact ⟨rfl, rfl⟩
    | spawned =>
      simp only at h
      split at h
      · split at h <;> obtain rfl := Option.some.inj h <;> exact ⟨rfl, rfl⟩
      · obtain rfl := Option.some.inj h
        exact ⟨rfl, rfl⟩
    | sleeping wakeAt =>
      obtain ⟨-, rfl⟩ := EventSystem.guarded h
      exact ⟨rfl, rfl⟩
    | returned result =>
      simp only at h
      split at h <;> obtain rfl := Option.some.inj h <;> exact ⟨rfl, rfl⟩

/-- A subscriber that a chunk removes could not take all of its slices. -/
theorem consume_removes {g i : ℕ} {chunk : List UInt8} (hi : i ∈ s.subscribers)
    (hout : i ∉ ((s.consume cfg g chunk).2.logOutput g chunk).subscribers) :
    s.Removes cfg i (.consume g chunk) := by
  change i ∉ (s.consume cfg g chunk).2.subscribers at hout
  rcases consume_eq cfg s g chunk with ⟨-, heq⟩ | ⟨hgen, started, heq⟩
  · rw [heq] at hout
    exact absurd hi hout
  · refine ⟨hgen, ?_⟩
    rw [heq, foldl_retain] at hout
    by_cases halive : (s.channels i).alive = true
    · refine .inr (Nat.lt_of_not_le fun hle => hout ?_)
      refine List.mem_filter.mpr ⟨hi, ?_⟩
      rw [Channel.sendAll_eq halive]
      exact decide_eq_true (by omega)
    · exact .inl (Bool.not_eq_true _ ▸ halive)

theorem OwnGeneration.harmless {e : Event} (h : s.OwnGeneration)
    (hstep : s.step cfg e = some s') : s.Harmless cfg e s' := by
  refine ⟨fun i hi hout => ?_, fun g he hwrite => ?_⟩
  · cases e with
    | tick d =>
      obtain rfl := Option.some.inj hstep
      exact absurd hi hout
    | enter =>
      simp only [RawInner.step] at hstep
      split at hstep <;> obtain rfl := Option.some.inj hstep <;> exact absurd hi hout
    | join id =>
      obtain ⟨-, rfl⟩ := EventSystem.guarded hstep
      rcases join_cases cfg s id with ⟨-, heq⟩ | ⟨-, hins, -⟩
      · rw [heq] at hout
        exact absurd hi hout
      · rw [hins.subscribers] at hout
        exact absurd (List.mem_append_left _ hi) hout
    | hand id | abandon id | recv id | idleSleep | idleTest wakeAt =>
      obtain ⟨-, rfl⟩ := EventSystem.guarded hstep
      exact absurd hi hout
    | unsubscribe id =>
      obtain rfl := Option.some.inj hstep
      by_contra hne
      exact hout (List.mem_filter.mpr ⟨hi, decide_eq_true fun h => hne h.symm⟩)
    | drop id =>
      obtain ⟨-, rfl⟩ := EventSystem.guarded hstep
      by_contra hne
      exact hout (List.mem_filter.mpr ⟨hi, decide_eq_true fun h => hne h.symm⟩)
    | idleCancel =>
      obtain ⟨-, rfl⟩ := EventSystem.guarded hstep
      obtain ⟨tasks, heq⟩ := elim_cancel_eq s s.producer
      rw [heq] at hout
      exact absurd hi hout
    | close =>
      obtain rfl := Option.some.inj hstep
      exact absurd hi hout
    | closeTake =>
      obtain ⟨-, rfl⟩ := EventSystem.guarded hstep
      obtain ⟨tasks, heq⟩ := elim_cancel_eq s s.producer
      rw [heq] at hout
      exact absurd hi hout
    | closeClear taken => trivial
    | advance g =>
      -- only the move out of `draining` removes anybody, and it removes its own subscribers
      obtain ⟨p, q, ht⟩ := step_task (g := g) hstep rfl
      rw [ht.subscribers] at hout
      by_cases hp : p = .draining
      · subst hp
        exact ⟨ht.was, (h.born i hi).trans (h.completing g _ ht.was rfl)⟩
      · rw [if_neg hp] at hout
        exact absurd hi hout
    | giveUp g =>
      simp only [RawInner.step] at hstep
      split at hstep
      · obtain rfl := Option.some.inj hstep
        exact absurd hi hout
      · cases hstep
    | consume g chunk =>
      obtain ⟨-, rfl⟩ := EventSystem.guarded hstep
      exact consume_removes hi hout
    | ret g result =>
      obtain ⟨-, rfl⟩ := EventSystem.guarded hstep
      exact absurd hi hout
  · subst he
    by_contra hne
    obtain ⟨hfail, hlast⟩ := advance_failures hstep fun p hp => by
      by_contra hc
      exact hne (h.completing g p hp (by simpa using hc))
    exact hwrite.elim (fun h => h hfail) (fun h => h hlast)

/-! ### Runs -/

/-- **Completions stay in their own generation.** In a run in which every new generation was
started alone, no step removes a subscriber other than by its own unsubscription, drop or full
queue, by `close`, or by the completion of the producer under which it was inserted; and a
completion writes the failure state only while no newer generation has started. -/
theorem completion_own_generation (cfg : HubConfig) {es : List Event} {e : Event}
    {s s' : RawInner} (hrun : EventSystem.run (step cfg) {} es = some s)
    (hstep : s.step cfg e = some s')
    (halone : EventSystem.Steps (step cfg) (StartsAlone cfg) {} (es ++ [e])) :
    s.Harmless cfg e s' := by
  obtain ⟨hbefore, -⟩ := halone.concat hrun
  have hinv : s.OwnGeneration := EventSystem.run_invariant OwnGeneration
    (fun _ _ _ h hok hs => h.step hok hs) ownGeneration_new hbefore hrun
  exact hinv.harmless hstep

def sampleSession : List Event :=
  [.enter, .join 1, .hand 1, .advance 1, .advance 1, .ret 1 none, .advance 1, .advance 1,
    .advance 1, .advance 1, .advance 1, .advance 1]

def sampleNext : List Event :=
  [.enter, .join 2, .hand 2, .advance 2, .advance 2, .ret 2 (some .timeout), .advance 2, .advance 2,
    .advance 2, .advance 2]

theorem completion_own_generation_sample :
    ∃ s s', EventSystem.run (step sampleConfig) {} (sampleSession ++ sampleNext) = some s ∧
      s.step sampleConfig (.advance 2) = some s' ∧ s.producerGeneration = 2 ∧ 2 ∈ s.subscribers ∧
      2 ∉ s'.subscribers ∧ s.Harmless sampleConfig (.advance 2) s' := by
  have hfirst : EventSystem.Steps (step sampleConfig) (StartsAlone sampleConfig)
      {} sampleSession := by
    -- this admission meets a hub on which nothing was ever started
    refine ⟨trivial, fun s hs => ⟨fun _ => ?_, ?_⟩⟩
    · obtain rfl := Option.some.inj hs
      exact ⟨fun _ g p hp => (by cases hp), fun hne => absurd rfl hne⟩
    · simp [EventSystem.Steps, StartsAlone]
  have halone : EventSystem.Steps (step sampleConfig) (StartsAlone sampleConfig) {}
      (sampleSession ++ (sampleNext ++ [.advance 2])) := by
    refine hfirst.append fun s hs => ⟨trivial, fun s' hs' => ⟨fun _ => ?_, ?_⟩⟩
    · -- and this one a hub whose only task is finished
      obtain rfl := Option.some.inj hs
      obtain rfl := Option.some.inj hs'
      refine ⟨fun _ g p hp => ?_, fun hne => absurd rfl hne⟩
      rcases g with - | - | g
      · cases hp
      · obtain rfl := Option.some.inj hp
        rfl
      · cases hp
    · simp [EventSystem.Steps, StartsAlone]
  rw [← List.append_assoc] at halone
  exact ⟨_, _, rfl, rfl, rfl, by decide, by decide,
    completion_own_generation sampleConfig rfl rfl halone⟩

def sampleOvertaken : List Event :=
  [.enter, .join 1, .hand 1, .advance 1, .advance 1, .ret 1 (some .timeout), .advance 1,
    .unsubscribe 1, .enter, .join 2, .hand 2, .advance 1, .advance 1, .advance 1]

/-- The completion of the first generation, overtaken by the second, clears the map in which only
the subscriber of the second is left. -/
theorem completion_clears_successor :
    ¬ ∀ (cfg : HubConfig) (es : List Event) (e : Event) (s s' : RawInner),
      EventSystem.run (step cfg) {} es = some s → s.step cfg e = some s' →
        s.Harmless cfg e s' := by
  intro h
  have hstep := h sampleConfig sampleOvertaken (.advance 1) _ _ rfl rfl
  have hborn := (hstep.1 2 (by decide) (by decide)).2
  exact absurd hborn (by decide)

end RawInner

end EzvizBridge
