import EzvizBridge.Hub.Steps

/-!
# The fan-out of the hub

Every subscriber reads from a bounded channel of its own. `Distributor::consume` holds the guard of
the map while it compares the generation and while it sends, so a chunk reaches either all the
subscribers of the current generation, slice by slice and each up to the room in its own queue, or
none of them.

The generation changes under another lock, but always inside the critical section of `subscribe`,
and over a nonempty map only when the current producer has given up before it opened a session:
a producer that did open one empties the map before its task ends. This is the invariant `FedFrom`,
and with it each channel holds an initial part of the slices that one generation handed over since
the subscriber was inserted (`fan_out`).
-/

namespace EzvizBridge

/-- The 64 KiB slices of a list of chunks. -/
def sliced (output : List (List UInt8)) : List (List UInt8) := output.flatMap (chunks 65536)

/-- One more chunk adds its slices at the end of what came after any earlier point. -/
theorem sliced_drop_concat {output : List (List UInt8)} {m : ℕ} (h : m ≤ output.length)
    (chunk : List UInt8) :
    sliced ((output ++ [chunk]).drop m) = sliced (output.drop m) ++ chunks 65536 chunk := by
  rw [List.drop_append_of_le_length h, sliced, List.flatMap_append]
  simp only [List.flatMap_cons, List.flatMap_nil, List.append_nil]
  rfl

namespace Channel

/-- How many more slices the channel takes. -/
def room (capacity : ℕ) (self : Channel) : ℕ :=
  if self.alive then capacity - self.queue.length else 0

/-- A channel takes as many slices as it has room for. -/
theorem sendAll_room (capacity : ℕ) (c : Channel) (slices : List (List UInt8)) :
    (c.sendAll capacity slices).1.delivered = c.delivered ++ slices.take (c.room capacity) ∧
      ((c.sendAll capacity slices).2 = true ↔ slices.length ≤ c.room capacity) := by
  by_cases halive : c.alive = true
  · rw [sendAll_eq halive, room, if_pos halive]
    exact ⟨(List.append_assoc ..).symm, decide_eq_true_iff⟩
  · rw [sendAll_dead (by simpa using halive), room, if_neg halive]
    refine ⟨by rw [List.take_zero, List.append_nil], ?_⟩
    rw [List.isEmpty_iff, Nat.le_zero_eq, List.length_eq_zero_iff]

end Channel

namespace RawInner

variable {cfg : HubConfig} {s s' : RawInner}

/-! ### Identifiers -/

/-- The ids of the calls that have not reached their critical section are distinct and fresh. -/
structure FreshIds (s : RawInner) : Prop where
  nodup : s.entering.Nodup
  entering : ∀ i ∈ s.entering, i < s.nextId
  subscribers : ∀ i ∈ s.subscribers, i < s.nextId ∧ i ∉ s.entering

theorem freshIds_new : FreshIds {} where
  nodup := List.nodup_nil
  entering := fun _ h => absurd h List.not_mem_nil
  subscribers := fun _ h => absurd h List.not_mem_nil

/-- Only the two halves of `subscribe` touch the ids. -/
theorem step_ids {e : Event} (h : s.step cfg e = some s') (henter : e ≠ .enter)
    (hjoin : ∀ id, e ≠ .join id) : s'.entering = s.entering ∧ s'.nextId = s.nextId := by
  -- by the event; only `enter` and `join` are left out
  cases e with
  | enter => exact absurd rfl henter
  | join id => exact absurd rfl (hjoin id)
  | tick _ | unsubscribe _ | close =>
    obtain rfl := Option.some.inj h
    exact ⟨rfl, rfl⟩
  | hand _ | abandon _ | recv _ | drop _ | idleSleep | idleTest _ | closeClear _ =>
    obtain ⟨-, rfl⟩ := EventSystem.guarded h
    exact ⟨rfl, rfl⟩
  -- cancelling a producer writes the task states only
  | idleCancel | closeTake =>
    obtain ⟨-, rfl⟩ := EventSystem.guarded h
    obtain ⟨tasks, heq⟩ := elim_cancel_eq s s.producer
    rw [heq]
    exact ⟨rfl, rfl⟩
  | advance g | giveUp g | ret g _ =>
    obtain ⟨p, q, ht⟩ := step_task (g := g) h rfl
    exact ⟨ht.entering, ht.nextId⟩
  | consume g chunk =>
    obtain ⟨-, rfl⟩ := EventSystem.guarded h
    -- a chunk of an older generation is dropped, a current one is sent to everybody in the map
    rcases consume_eq cfg s g chunk with ⟨-, heq⟩ | ⟨-, started, heq⟩
    · rw [heq]
      exact ⟨rfl, rfl⟩
    · rw [heq, foldl_retain]
      exact ⟨rfl, rfl⟩

/-- A subscriber in the map after a step was there before, or was just inserted. -/
theorem mem_of_step {e : Event} {i : ℕ} (h : s.step cfg e = some s') (hi : i ∈ s'.subscribers) :
    i ∈ s.subscribers ∨ (e = .join i ∧ i ∈ s.entering) := by
  cases e with
  | join id =>
    obtain ⟨hid, rfl⟩ := EventSystem.guarded h
    -- the hub may have been closed in between
    rcases join_cases cfg s id with ⟨-, heq⟩ | ⟨-, hins, -⟩
    · rw [heq] at hi
      exact .inl hi
    · rw [hins.subscribers, List.mem_append, List.mem_singleton] at hi
      rcases hi with hi | rfl
      · exact .inl hi
      · exact .inr ⟨rfl, hid⟩
  -- a task that ends clears the map
  | advance g | giveUp g | ret g _ =>
    obtain ⟨p, q, ht⟩ := step_task (g := g) h rfl
    rw [ht.subscribers] at hi
    split at hi
    · exact absurd hi List.not_mem_nil
    · exact .inl hi
  -- the other events insert nobody
  | _ => exact .inl ((step_keeps h id).subscribers i hi)

/-- Every step keeps the ids apart. -/
theorem FreshIds.step {e : Event} (hf : s.FreshIds) (h : s.step cfg e = some s') :
    s'.FreshIds := by
  have hmem : ∀ i ∈ s'.subscribers, i ∈ s.subscribers ∨ (e = .join i ∧ i ∈ s.entering) :=
    fun i hi => mem_of_step h hi
  cases e with
  | enter =>
    simp only [RawInner.step] at h
    -- a closed hub gives out no id
    split at h <;> obtain rfl := Option.some.inj h
    · exact hf
    · -- the new id is above every id in use
      refine ⟨?_, fun i hi => ?_, fun i hi => ?_⟩
      · refine List.nodup_append.mpr ⟨hf.nodup, List.nodup_singleton _, fun a ha b hb => ?_⟩
        have hlt := hf.entering a ha
        rw [List.mem_singleton] at hb
        omega
      · rcases List.mem_append.mp hi with hi | hi
        · exact Nat.lt_succ_of_lt (hf.entering i hi)
        · rw [List.mem_singleton.mp hi]
          exact Nat.lt_succ_self _
      · obtain ⟨hlt, hout⟩ := hf.subscribers i hi
        refine ⟨Nat.lt_succ_of_lt hlt, fun h => ?_⟩
        rcases List.mem_append.mp h with h | h
        · exact hout h
        · rw [List.mem_singleton.mp h] at hlt
          exact Nat.lt_irrefl _ hlt
  | join id =>
    obtain ⟨hid, rfl⟩ := EventSystem.guarded h
    have hids : (s.join cfg id).entering = s.entering.erase id ∧
        (s.join cfg id).nextId = s.nextId := by
      rcases join_cases cfg s id with ⟨-, heq⟩ | ⟨-, hins, -⟩
      · rw [heq]
        exact ⟨rfl, rfl⟩
      · exact ⟨hins.entering, hins.nextId⟩
    -- the id that joins is not waiting any more
    refine ⟨?_, fun i hi => ?_, fun i hi => ?_⟩
    · rw [hids.1]
      exact hf.nodup.erase id
    · rw [hids.1] at hi
      rw [hids.2]
      exact hf.entering i (List.mem_of_mem_erase hi)
    -- it was below `next_id`, and is not waiting twice
    · rw [hids.1, hids.2]
      rcases hmem i hi with hi | ⟨he, -⟩
      · obtain ⟨hlt, hout⟩ := hf.subscribers i hi
        exact ⟨hlt, fun h => hout (List.mem_of_mem_erase h)⟩
      · obtain rfl := Event.join.inj he
        exact ⟨hf.entering id hid, fun h => hf.nodup.not_mem_erase h⟩
  -- the other events leave the ids alone
  | _ =>
    obtain ⟨hent, hnext⟩ := step_ids h (by rintro ⟨⟩) (by rintro _ ⟨⟩)
    refine ⟨by rw [hent]; exact hf.nodup, by rw [hent, hnext]; exact hf.entering, fun i hi => ?_⟩
    rw [hent, hnext]
    rcases hmem i hi with hi | ⟨he, -⟩
    · exact hf.subscribers i hi
    · cases he

/-! ### Where each channel was fed from -/

/-- What generation `g` has handed over since subscriber `i` was inserted, in slices. -/
def since (s : RawInner) (i g : ℕ) : List (List UInt8) :=
  sliced ((s.history.output g).drop (s.history.mark i g))

/-- The invariant of a hub that is not being closed. The stored producer is the current one; only a
generation that opened its session has output; one that opened it empties the map before its task
ends. A subscriber in the map holds everything that the current generation handed over since its
insertion, and any other one an initial part of what some generation did. -/
structure FedFrom (s : RawInner) : Prop where
  closing : s.closing = 0
  producer : s.producer = if s.producerGeneration = 0 then none else some s.producerGeneration
  tasks : ∀ g p, s.phase g = some p → 0 < g ∧ g ≤ s.producerGeneration
  output : ∀ g, s.history.output g ≠ [] → ∃ p, s.phase g = some p ∧ p.opened = true
  ended : ∀ p, s.phase s.producerGeneration = some p → p.opened = true →
    p = .cleared ∨ p.isFinished = true → s.subscribers = []
  mark : ∀ i g, s.history.mark i g ≤ (s.history.output g).length
  current : ∀ i ∈ s.subscribers,
    (s.channels i).delivered = s.since i s.producerGeneration
  one : ∀ i, ∃ g, (s.channels i).delivered <+: s.since i g

/-- Nothing was handed over yet. -/
theorem fedFrom_new : FedFrom {} where
  closing := rfl
  producer := rfl
  tasks := fun _ _ h => nomatch h
  output := fun _ h => absurd rfl h
  ended := fun _ h => nomatch h
  mark := fun _ _ => Nat.le_refl 0
  current := fun _ h => absurd h List.not_mem_nil
  one := fun _ => ⟨0, List.nil_prefix⟩

/-- A step that moves no producer and delivers nothing. -/
structure Silent (s s' : RawInner) : Prop extends s.Keeps s' where
  delivered : ∀ i, (s'.channels i).delivered = (s.channels i).delivered
  output : s'.history.output = s.history.output
  producer : s'.producer = s.producer
  closing : s'.closing = 0

/-- A step that hands nothing over and inserts nobody keeps the account. -/
theorem FedFrom.silent (h : s.FedFrom) (hs : s.Silent s') : s'.FedFrom := by
  have hsince : ∀ i g, s'.since i g = s.since i g := by
    intro i g
    rw [since, since, hs.output, hs.mark]
  refine ⟨hs.closing, ?_, ?_, ?_, fun p hp ho he => ?_, ?_, fun i hi => ?_, fun i => ?_⟩
  · rw [hs.producer, hs.generation]
    exact h.producer
  · rw [hs.phase, hs.generation]
    exact h.tasks
  · rw [hs.phase, hs.output]
    exact h.output
  · rw [hs.phase, hs.generation] at hp
    -- nobody is new, and the map was empty
    have hnil := h.ended p hp ho he
    refine List.eq_nil_iff_forall_not_mem.mpr fun i hi => ?_
    have := hs.subscribers i hi
    rw [hnil] at this
    exact absurd this List.not_mem_nil
  · rw [hs.mark, hs.output]
    exact h.mark
  · rw [hs.delivered, hs.generation, hsince]
    exact h.current i (hs.subscribers i hi)
  · obtain ⟨g, hg⟩ := h.one i
    exact ⟨g, by rw [hs.delivered, hsince]; exact hg⟩

/-! ### Steps of a producer task -/

/-- A task that has opened its source stays past that point. -/
theorem opened_of_moves {current : Prop} {p q : Phase} (h : Phase.Moves current p q)
    (hp : p.opened = true) : q.opened = true := by
  cases h with
  | backoff | start | wake | giveUp | session => exact nomatch hp
  | _ => rfl

/-- The ways in which the task of the current generation ends after its session. -/
theorem ended_of_moves {current : Prop} {p q : Phase} (h : Phase.Moves current p q)
    (hcur : current) (ho : q.opened = true) (he : q = .cleared ∨ q.isFinished = true) :
    p = .draining ∨ p = .cleared := by
  cases h with
  | clear => exact .inl rfl
  | finish => exact .inr rfl
  | stale result hnot => exact absurd hcur hnot
  | giveUp => exact nomatch ho
  | _ => exact he.elim (fun h => nomatch h) (fun h => nomatch h)

/-- A task that moves hands nothing over. -/
theorem FedFrom.taskMoves {g : ℕ} {p q : Phase} (h : s.FedFrom) (ht : s.TaskMoves g p q s') :
    s'.FedFrom := by
  have hsince : ∀ i x, s'.since i x = s.since i x := by
    intro i x
    rw [since, since, ht.history]
  -- at most the map is cleared
  have hsub : ∀ i ∈ s'.subscribers, i ∈ s.subscribers := by
    intro i hi
    rw [ht.subscribers] at hi
    split at hi
    · exact absurd hi List.not_mem_nil
    · exact hi
  refine ⟨by rw [ht.closing, h.closing], ?_, fun x r hr => ?_, fun x hx => ?_,
    fun r hr ho he => ?_, ?_, fun i hi => ?_, fun i => ?_⟩
  · rw [ht.producer, ht.generation]
    exact h.producer
  -- the generations that have a task
  · rw [ht.generation]
    rw [ht.phase] at hr
    by_cases hxg : x = g
    · subst hxg
      exact h.tasks x p ht.was
    · rw [Function.update_of_ne hxg] at hr
      exact h.tasks x r hr
  · rw [ht.history] at hx
    obtain ⟨r, hr, ho⟩ := h.output x hx
    -- the task has opened its source, or is another one
    rw [ht.phase]
    by_cases hxg : x = g
    · subst hxg
      obtain rfl := Option.some.inj (hr.symm.trans ht.was)
      exact ⟨q, Function.update_self .., opened_of_moves ht.moves ho⟩
    · exact ⟨r, by rw [Function.update_of_ne hxg]; exact hr, ho⟩
  · rw [ht.phase, ht.generation] at hr
    by_cases hcur : s.producerGeneration = g
    · -- the task of the current generation passes through the clearing of the map
      rw [hcur, Function.update_self] at hr
      obtain rfl := Option.some.inj hr
      rw [ht.subscribers]
      rcases ended_of_moves ht.moves hcur ho he with rfl | rfl
      · rfl
      · exact h.ended _ (by rw [hcur]; exact ht.was) rfl (.inl rfl)
    · rw [Function.update_of_ne hcur] at hr
      have hnil := h.ended r hr ho he
      refine List.eq_nil_iff_forall_not_mem.mpr fun i hi => ?_
      have := hsub i hi
      rw [hnil] at this
      exact absurd this List.not_mem_nil
  · rw [ht.history]
    exact h.mark
  · rw [ht.channels, ht.generation, hsince]
    exact h.current i (hsub i hi)
  -- the channels and the history are untouched
  · obtain ⟨x, hx⟩ := h.one i
    exact ⟨x, by rw [ht.channels, hsince]; exact hx⟩

/-! ### The critical section of `subscribe` -/

/-- A generation that never spawned a task, or whose task never opened its session, handed nothing
over. -/
theorem FedFrom.output_eq_nil (h : s.FedFrom) {g : ℕ}
    (hg : ∀ p, s.phase g = some p → p.opened = false) : s.history.output g = [] := by
  by_contra hne
  obtain ⟨p, hp, ho⟩ := h.output g hne
  exact Bool.false_ne_true ((hg p hp).symm.trans ho)

/-- When a new generation starts over subscribers that are still in the map, the current one has
handed nothing over. -/
theorem FedFrom.silent_start (h : s.FedFrom) (hstarts : s.starts) (hne : s.subscribers ≠ []) :
    s.history.output s.producerGeneration = [] := by
  -- the map is not empty, so the start was decided by the task
  have hdone := hstarts.resolve_left hne
  refine h.output_eq_nil fun p hp => ?_
  have hpos := (h.tasks _ p hp).1
  have hprod : s.producer = some s.producerGeneration := by
    rw [h.producer, if_neg (by omega)]
  -- that task is finished
  have hfin : p.isFinished = true := by
    have := hdone _ hprod
    rw [isFinished, hp] at this
    exact this
  -- a finished task of the current generation has cleared the map
  by_contra ho
  exact hne (h.ended p hp (by simpa using ho) (.inr hfin))

/-- A new subscriber keeps the account, also when it starts a generation. -/
theorem FedFrom.join (id : ℕ) (h : s.FedFrom) : (s.join cfg id).FedFrom := by
  rcases join_cases cfg s id with ⟨-, heq⟩ | ⟨-, hins, hrun⟩
  -- the hub is closed
  · rw [heq]
    exact ⟨h.closing, h.producer, h.tasks, h.output, h.ended, h.mark, h.current, h.one⟩
  · -- the channel of the new subscriber is empty, and so is what came after its insertion
    have hnew : ∀ g, (s.join cfg id).since id g = [] := by
      intro g
      rw [since, hins.output, hins.mark, Function.update_self, List.drop_length]
      rfl
    have hold : ∀ i g, i ≠ id → (s.join cfg id).since i g = s.since i g := by
      intro i g hi
      rw [since, since, hins.output, hins.mark, Function.update_of_ne hi]
    have hchannel : ∀ i, i ≠ id → (s.join cfg id).channels i = s.channels i := by
      intro i hi
      rw [hins.channels, Function.update_of_ne hi]
    have hempty : ((s.join cfg id).channels id).delivered = [] := by
      rw [hins.channels, Function.update_self]
      rfl
    -- its mark is at the end of what has been handed over
    have hmark : ∀ i g,
        (s.join cfg id).history.mark i g ≤ ((s.join cfg id).history.output g).length := by
      intro i g
      rw [hins.mark, hins.output]
      by_cases hi : i = id
      · rw [hi, Function.update_self]
      · rw [Function.update_of_ne hi]
        exact h.mark i g
    -- nothing was delivered to it, so any generation explains that
    have hone : ∀ i, ∃ g, ((s.join cfg id).channels i).delivered <+: (s.join cfg id).since i g := by
      intro i
      by_cases hi : i = id
      · exact ⟨0, by rw [hi, hempty]; exact List.nil_prefix⟩
      · obtain ⟨g, hg⟩ := h.one i
        exact ⟨g, by rw [hchannel i hi, hold i g hi]; exact hg⟩
    have hcurrent : (∀ i ∈ s.subscribers, (s.channels i).delivered
          = s.since i (s.join cfg id).producerGeneration) →
        ∀ i ∈ (s.join cfg id).subscribers, ((s.join cfg id).channels i).delivered
          = (s.join cfg id).since i (s.join cfg id).producerGeneration := by
      intro hcur i hi
      by_cases hid : i = id
      · rw [hid, hempty, hnew]
      · rw [hins.subscribers, List.mem_append, List.mem_singleton] at hi
        rw [hchannel i hid, hold i _ hid]
        exact hcur i (hi.resolve_right hid)
    have hclosing : (s.join cfg id).closing = 0 := by rw [hins.closing, h.closing]
    -- the generation goes on, or this subscriber starts one
    rcases hrun with ⟨hkeep, hphase, hprod, hgen⟩ | ⟨hstarts, hphase, hprod, hgen⟩
    · refine ⟨hclosing, ?_, ?_, ?_, fun p hp ho he => ?_, hmark, hcurrent ?_, hone⟩
      · rw [hprod, hgen]
        exact h.producer
      · rw [hphase, hgen]
        exact h.tasks
      · rw [hphase, hins.output]
        exact h.output
      · rw [hphase, hgen] at hp
        -- the map is not empty any more
        exact absurd (.inl (h.ended p hp ho he)) hkeep
      · rw [hgen]
        exact h.current
    -- the new generation has no task yet, and so no output
    · have hfresh : s.phase (s.producerGeneration + 1) = none := by
        by_contra hne
        obtain ⟨p, hp⟩ := Option.ne_none_iff_exists'.mp hne
        have := (h.tasks _ p hp).2
        omega
      have hnext : s.history.output (s.producerGeneration + 1) = [] :=
        h.output_eq_nil fun p hp => nomatch hfresh.symm.trans hp
      refine ⟨hclosing, ?_, fun g p hp => ?_, fun g hg => ?_, fun p hp ho he => ?_, hmark,
        hcurrent fun i hi => ?_, hone⟩
      -- the new task is the only one of its generation
      · rw [hprod, hgen, if_neg (Nat.succ_ne_zero _)]
      · rw [hphase] at hp
        rw [hgen]
        by_cases hg : g = s.producerGeneration + 1
        · omega
        · rw [Function.update_of_ne hg] at hp
          have := h.tasks g p hp
          omega
      · rw [hins.output] at hg
        obtain ⟨p, hp, ho⟩ := h.output g hg
        refine ⟨p, ?_, ho⟩
        rw [hphase, Function.update_of_ne]
        · exact hp
        · rintro rfl
          exact hg hnext
      -- it has not opened its source
      · rw [hphase, hgen, Function.update_self] at hp
        obtain rfl := Option.some.inj hp
        exact nomatch ho
      · -- a subscriber that was waiting under a generation without output has an empty channel
        have hnone := h.silent_start hstarts (List.ne_nil_of_mem hi)
        rw [h.current i hi, since, since, hgen, hnext, hnone, List.drop_nil, List.drop_nil]

/-! ### Chunks -/

/-- What a chunk of generation `g` does to subscriber `i`: it gets the slices for which its own
queue has room, when `g` is current and it is in the map, and it stays in the map exactly when that
is all of them. -/
theorem consume_channel (cfg : HubConfig) (s : RawInner) (g i : ℕ) (chunk : List UInt8) :
    ((((s.consume cfg g chunk).2.logOutput g chunk).channels i).delivered
      = (s.channels i).delivered ++
        if i ∈ s.subscribers ∧ s.producerGeneration = g then
          (chunks 65536 chunk).take ((s.channels i).room cfg.queueChunks)
        else []) ∧
    (i ∈ ((s.consume cfg g chunk).2.logOutput g chunk).subscribers ↔
      i ∈ s.subscribers ∧ (s.producerGeneration = g →
        (chunks 65536 chunk).length ≤ (s.channels i).room cfg.queueChunks)) := by
  change (((s.consume cfg g chunk).2.channels i).delivered = _) ∧
    (i ∈ (s.consume cfg g chunk).2.subscribers ↔ _)
  -- the generation is asked under the lock
  rcases consume_eq cfg s g chunk with ⟨hgen, heq⟩ | ⟨hgen, started, heq⟩
  · rw [heq, if_neg fun h => hgen h.2, List.append_nil]
    exact ⟨rfl, fun hi => ⟨hi, fun h => absurd h hgen⟩, fun hi => hi.1⟩
  · rw [heq, foldl_retain]
    obtain ⟨hdel, hstay⟩ :=
      Channel.sendAll_room cfg.queueChunks (s.channels i) (chunks 65536 chunk)
    constructor
    -- a subscriber in the map gets what it has room for
    · by_cases hi : i ∈ s.subscribers
      · rw [if_pos ⟨hi, hgen⟩, ← hdel]
        exact congrArg Channel.delivered (if_pos hi)
      · rw [if_neg fun h => hi h.1, List.append_nil]
        exact congrArg Channel.delivered (if_neg hi)
    -- it stays when that was everything
    · rw [List.mem_filter, hstay]
      exact and_congr_right fun _ => ⟨fun h _ => h, fun h => h hgen⟩

/-- What a generation has handed over since a subscriber came grows by the slices of the chunk. -/
theorem since_logOutput (h : s.FedFrom) (g : ℕ) (chunk : List UInt8) (i x : ℕ) :
    ((s.consume cfg g chunk).2.logOutput g chunk).since i x
      = s.since i x ++ if x = g then chunks 65536 chunk else [] := by
  -- the history is written apart from the channels
  have hhist : ((s.consume cfg g chunk).2).history = s.history := by
    rcases consume_eq cfg s g chunk with ⟨-, heq⟩ | ⟨-, started, heq⟩
    · rw [heq]
    · rw [heq, foldl_retain]
  rw [since, logOutput, hhist]
  -- for another generation nothing changes
  by_cases hx : x = g
  · subst hx
    simp only [Function.update_self, if_true]
    exact sliced_drop_concat (h.mark i x) chunk
  · simp only [Function.update_of_ne hx, hx, if_false, List.append_nil]
    rfl

/-- A chunk keeps the account. -/
theorem FedFrom.consume (h : s.FedFrom) {g : ℕ} {chunk : List UInt8}
    (hopened : (s.phase g).any Phase.opened = true) :
    ((s.consume cfg g chunk).2.logOutput g chunk).FedFrom := by
  set s' := (s.consume cfg g chunk).2.logOutput g chunk with hs'
  have hk : s.Keeps s' := consume_keeps cfg s g chunk
  -- what a chunk leaves alone
  have hrest : s'.closing = s.closing ∧ s'.producer = s.producer ∧
      s'.history.output = Function.update s.history.output g (s.history.output g ++ [chunk]) := by
    rw [hs', logOutput]
    rcases consume_eq cfg s g chunk with ⟨-, heq⟩ | ⟨-, started, heq⟩
    · rw [heq]
      exact ⟨rfl, rfl, rfl⟩
    · rw [heq, foldl_retain]
      exact ⟨rfl, rfl, rfl⟩
  obtain ⟨hclosing, hprod, hout⟩ := hrest
  -- what it does to each channel, and to what was handed over since
  have hchannel : ∀ i, _ := fun i => consume_channel cfg s g i chunk
  have hsince : ∀ i x, s'.since i x = _ := fun i x => since_logOutput h g chunk i x
  refine ⟨by rw [hclosing, h.closing], ?_, ?_, fun x hx => ?_, fun p hp ho he => ?_, fun i x => ?_,
    fun i hi => ?_, fun i => ?_⟩
  · rw [hprod, hk.generation]
    exact h.producer
  · rw [hk.phase, hk.generation]
    exact h.tasks
  · rw [hk.phase]
    -- the generation has opened its source
    by_cases hxg : x = g
    · subst hxg
      exact (Option.any_eq_true _ _).mp hopened
    · rw [hout, Function.update_of_ne hxg] at hx
      exact h.output x hx
  -- the map was empty already
  · rw [hk.phase, hk.generation] at hp
    have hnil := h.ended p hp ho he
    refine List.eq_nil_iff_forall_not_mem.mpr fun i hi => ?_
    have := hk.subscribers i hi
    rw [hnil] at this
    exact absurd this List.not_mem_nil
  · rw [hk.mark, hout]
    -- marks lie within what was handed over before
    by_cases hxg : x = g
    · rw [hxg, Function.update_self, List.length_append]
      exact Nat.le_add_right_of_le (h.mark i g)
    · rw [Function.update_of_ne hxg]
      exact h.mark i x
  · -- who is still in the map has taken every slice of the chunk
    obtain ⟨hdel, hmem⟩ := hchannel i
    obtain ⟨hi, hfits⟩ := hmem.mp hi
    rw [hdel, hsince, hk.generation, h.current i hi]
    by_cases hgen : s.producerGeneration = g
    · rw [if_pos ⟨hi, hgen⟩, if_pos hgen, List.take_of_length_le (hfits hgen)]
    · rw [if_neg fun h => hgen h.2, if_neg hgen]
  · obtain ⟨hdel, -⟩ := hchannel i
    -- the current generation feeds this subscriber, as it did before
    by_cases hcase : i ∈ s.subscribers ∧ s.producerGeneration = g
    · refine ⟨g, ?_⟩
      rw [hdel, hsince, if_pos hcase, if_pos rfl, h.current i hcase.1, hcase.2]
      exact (List.prefix_append_right_inj _).mpr (List.take_prefix _ _)
    · obtain ⟨x, hx⟩ := h.one i
      refine ⟨x, ?_⟩
      rw [hdel, hsince, if_neg hcase, List.append_nil]
      exact hx.trans (List.prefix_append _ _)

/-! ### Runs -/

/-- Only `close` sets the flag, and nothing takes it back. -/
theorem step_closed {e : Event} (h : s.step cfg e = some s') (he : e ≠ .close) :
    s'.closed = s.closed := by
  -- by the event
  cases e with
  | close => exact absurd rfl he
  | tick _ | unsubscribe _ =>
    obtain rfl := Option.some.inj h
    rfl
  | enter =>
    simp only [RawInner.step] at h
    split at h <;> obtain rfl := Option.some.inj h <;> rfl
  | join id =>
    obtain ⟨-, rfl⟩ := EventSystem.guarded h
    rcases join_cases cfg s id with ⟨-, heq⟩ | ⟨-, hins, -⟩
    · rw [heq]
    · exact hins.closed
  -- guarded steps that touch channels only
  | hand _ | abandon _ | recv _ | drop _ | idleSleep | idleTest _ | closeClear _ =>
    obtain ⟨-, rfl⟩ := EventSystem.guarded h
    rfl
  | idleCancel | closeTake =>
    obtain ⟨-, rfl⟩ := EventSystem.guarded h
    obtain ⟨tasks, heq⟩ := elim_cancel_eq s s.producer
    rw [heq]
  | advance g | giveUp g | ret g _ =>
    obtain ⟨p, q, ht⟩ := step_task (g := g) h rfl
    exact ht.closed
  | consume g chunk =>
    obtain ⟨-, rfl⟩ := EventSystem.guarded h
    rcases consume_eq cfg s g chunk with ⟨-, heq⟩ | ⟨-, started, heq⟩
    · rw [heq]
      rfl
    · rw [heq, foldl_retain]
      rfl

/-- Every step except `close` keeps the account. -/
theorem FedFrom.step {e : Event} (hf : s.FedFrom) (h : s.step cfg e = some s')
    (hclose : e ≠ .close) : s'.FedFrom := by
  -- reading and hanging up deliver nothing
  have hchannels : ∀ (id : ℕ) (c : Channel), c.delivered = (s.channels id).delivered →
      ∀ i, (Function.update s.channels id c i).delivered = (s.channels i).delivered := by
    intro id c hc i
    by_cases hi : i = id
    · rw [hi, Function.update_self, hc]
    · rw [Function.update_of_ne hi]
  cases e with
  | join id =>
    obtain ⟨-, rfl⟩ := EventSystem.guarded h
    exact hf.join id
  -- a task moves
  | advance g | giveUp g | ret g _ =>
    obtain ⟨p, q, ht⟩ := step_task (g := g) h rfl
    exact hf.taskMoves ht
  | consume g chunk =>
    obtain ⟨hopened, rfl⟩ := EventSystem.guarded h
    exact hf.consume hopened
  | close => exact absurd rfl hclose
  | closeTake =>
    -- no call of `close` is under way
    obtain ⟨hpos, -⟩ := EventSystem.guarded h
    rw [hf.closing] at hpos
    exact absurd hpos (Nat.lt_irrefl 0)
  -- the others hand nothing over and insert nobody
  | tick _ | unsubscribe _ =>
    have hk := step_keeps h id
    obtain rfl := Option.some.inj h
    exact hf.silent ⟨hk, fun _ => rfl, rfl, rfl, hf.closing⟩
  | hand _ | idleSleep | idleTest _ | closeClear _ =>
    have hk := step_keeps h id
    obtain ⟨-, rfl⟩ := EventSystem.guarded h
    exact hf.silent ⟨hk, fun _ => rfl, rfl, rfl, hf.closing⟩
  | enter =>
    have hk := step_keeps h id
    simp only [RawInner.step] at h
    split at h <;> obtain rfl := Option.some.inj h
    · exact hf.silent ⟨hk, fun _ => rfl, rfl, rfl, hf.closing⟩
    · exact hf.silent ⟨hk, fun _ => rfl, rfl, rfl, hf.closing⟩
  | abandon id | drop id =>
    have hk := step_keeps h (fun h => h)
    obtain ⟨-, rfl⟩ := EventSystem.guarded h
    exact hf.silent ⟨hk, hchannels id _ rfl, rfl, rfl, hf.closing⟩
  | recv id =>
    have hk := step_keeps h (fun h => h)
    obtain ⟨-, rfl⟩ := EventSystem.guarded h
    exact hf.silent ⟨hk, hchannels id _ (Channel.delivered_read _), rfl, rfl, hf.closing⟩
  | idleCancel =>
    have hk := step_keeps h id
    obtain ⟨-, rfl⟩ := EventSystem.guarded h
    obtain ⟨tasks, heq⟩ := elim_cancel_eq s s.producer
    refine hf.silent ⟨hk, fun _ => ?_, ?_, ?_, ?_⟩
    all_goals rw [heq]
    exact hf.closing

/-- In every state of a run that does not close the hub, each channel was fed from one
generation. -/
theorem run_fedFrom {es : List Event} (hrun : EventSystem.run (RawInner.step cfg) {} es = some s)
    (hopen : s.closed = false) : s.FedFrom ∧ s.FreshIds := by
  -- without `close` the account holds, and the ids are apart
  have hinv : (s.closed = false → s.FedFrom) ∧ s.FreshIds := by
    refine EventSystem.run_keeps (fun m => (m.closed = false → m.FedFrom) ∧ m.FreshIds) ?_
      ⟨fun _ => fedFrom_new, freshIds_new⟩ hrun
    intro m e m' hm hstep
    refine ⟨fun hopen' => ?_, hm.2.step hstep⟩
    by_cases he : e = .close
    · -- `close` leaves the flag set
      subst he
      obtain rfl := Option.some.inj hstep
      exact nomatch hopen'
    · rw [step_closed hstep he] at hopen'
      exact (hm.1 hopen').step hstep he
  exact ⟨hinv.1 hopen, hinv.2⟩

/-! ### One subscriber by itself -/

/-- What the hub holds of subscriber `i`: its channel, and whether it is in the map. -/
def view (s : RawInner) (i : ℕ) : Channel × Bool := (s.channels i, decide (i ∈ s.subscribers))

/-- What an event does to subscriber `i`, from what the hub holds of it, the current generation and
the places of the producer tasks. No other subscriber enters into it. -/
def localStep (cfg : HubConfig) (i generation : ℕ) (phase : ℕ → Option Phase)
    (v : Channel × Bool) : Event → Channel × Bool
  | .recv id => if id = i then (v.1.read, v.2) else v
  | .abandon id => if id = i then ({ v.1 with alive := false }, v.2) else v
  | .unsubscribe id => if id = i then (v.1, false) else v
  | .drop id => if id = i then ({ v.1 with alive := false }, false) else v
  | .closeClear _ => (v.1, false)
  | .advance g => if phase g = some .draining then (v.1, false) else v
  | .consume g chunk =>
    if generation = g ∧ v.2 = true then v.1.sendAll cfg.queueChunks (chunks 65536 chunk) else v
  | _ => v

/-- What the hub holds of a subscriber is its channel and whether it is in the map. -/
theorem view_eq {i : ℕ} (hc : s'.channels i = s.channels i)
    (hs : i ∈ s'.subscribers ↔ i ∈ s.subscribers) : s'.view i = s.view i := by
  rw [view, view, hc, decide_eq_decide.mpr hs]

/-- A new state of the channel of `id`, seen by another subscriber or by `id` itself. -/
theorem view_setChannel (s : RawInner) (id i : ℕ) (c : Channel) :
    (s.setChannel id c).view i = if id = i then (c, (s.view i).2) else s.view i := by
  change (Function.update s.channels id c i, (s.view i).2) = _
  by_cases hid : id = i
  · rw [if_pos hid, hid, Function.update_self]
  · rw [if_neg hid, Function.update_of_ne fun h => hid h.symm]
    rfl

/-- The map without `id`, seen by another subscriber or by `id` itself. -/
theorem view_removeSubscriber (s : RawInner) (id i : ℕ) :
    (s.removeSubscriber id).view i = if id = i then (s.channels i, false) else s.view i := by
  have hmem : i ∈ (s.removeSubscriber id).subscribers ↔ i ∈ s.subscribers ∧ i ≠ id := by
    rw [removeSubscriber, List.mem_filter, decide_eq_true_iff]
  by_cases hid : id = i
  · rw [if_pos hid, view, decide_eq_false fun h => (hmem.mp h).2 hid.symm]
    rfl
  · rw [if_neg hid]
    exact view_eq rfl ⟨fun h => (hmem.mp h).1, fun h => hmem.mpr ⟨h, fun h => hid h.symm⟩⟩

/-- A chunk, seen from one subscriber. -/
theorem view_consume (g i : ℕ) (chunk : List UInt8) :
    ((s.consume cfg g chunk).2.logOutput g chunk).view i
      = if s.producerGeneration = g ∧ (s.view i).2 = true then
          (s.view i).1.sendAll cfg.queueChunks (chunks 65536 chunk)
        else s.view i := by
  change (s.consume cfg g chunk).2.view i = _
  -- either the generation is not the current one
  rcases consume_eq cfg s g chunk with ⟨hgen, heq⟩ | ⟨hgen, started, heq⟩
  · rw [heq, if_neg fun h => hgen h.1]
  · rw [heq, foldl_retain]
    -- or the subscriber is in the map, or it is not
    by_cases hi : i ∈ s.subscribers
    · rw [if_pos ⟨hgen, decide_eq_true hi⟩]
      refine Prod.ext (if_pos hi) ?_
      change decide (i ∈ s.subscribers.filter _) = _
      simp only [List.mem_filter, hi, true_and, Bool.decide_eq_true]
      rfl
    · rw [if_neg fun h => hi (decide_eq_true_iff.mp h.2)]
      refine view_eq (if_neg hi) ?_
      exact ⟨fun h => (List.mem_filter.mp h).1, fun h => absurd h hi⟩

/-- **One subscriber by itself.** What a step other than its own insertion does to a subscriber is
decided by what the hub holds of that subscriber, by the generation and by the producer tasks. -/
theorem step_local {e : Event} {i : ℕ} (h : s.step cfg e = some s') (hjoin : e ≠ .join i) :
    s'.view i = localStep cfg i s.producerGeneration s.phase (s.view i) e := by
  -- by the event, each seen from this subscriber alone
  cases e with
  | tick _ | close =>
    obtain rfl := Option.some.inj h
    rfl
  | enter =>
    simp only [RawInner.step] at h
    split at h <;> obtain rfl := Option.some.inj h <;> rfl
  | hand _ | idleSleep | idleTest _ | ret _ _ =>
    obtain ⟨-, rfl⟩ := EventSystem.guarded h
    rfl
  -- somebody else joins
  | join id =>
    obtain ⟨-, rfl⟩ := EventSystem.guarded h
    have hne : i ≠ id := fun hi => hjoin (by rw [hi])
    rcases join_cases cfg s id with ⟨-, heq⟩ | ⟨-, hins, -⟩
    · rw [heq]
      rfl
    · refine view_eq (by rw [hins.channels, Function.update_of_ne hne]) ?_
      rw [hins.subscribers, List.mem_append, List.mem_singleton]
      exact or_iff_left hne
  -- its own receiver, or that of another one
  | abandon id =>
    obtain ⟨-, rfl⟩ := EventSystem.guarded h
    change (s.hangUp id).view i = _
    rw [hangUp, view_setChannel, localStep]
    split
    · next hid => rw [hid, view]
    · rfl
  | recv id =>
    obtain ⟨-, rfl⟩ := EventSystem.guarded h
    rw [view_setChannel, localStep]
    split
    · next hid => rw [hid, view]
    · rfl
  | unsubscribe id =>
    obtain rfl := Option.some.inj h
    exact view_removeSubscriber s id i
  -- the guard is dropped: it leaves the map and hangs up
  | drop id =>
    obtain ⟨-, rfl⟩ := EventSystem.guarded h
    change ((s.removeSubscriber id).hangUp id).view i = _
    rw [hangUp, view_setChannel, view_removeSubscriber, localStep]
    by_cases hid : id = i
    · rw [if_pos hid, if_pos hid, if_pos hid, hid]
      rfl
    · rw [if_neg hid, if_neg hid, if_neg hid]
  | idleCancel | closeTake =>
    obtain ⟨-, rfl⟩ := EventSystem.guarded h
    obtain ⟨tasks, heq⟩ := elim_cancel_eq s s.producer
    rw [heq]
    rfl
  | closeClear _ =>
    obtain ⟨-, rfl⟩ := EventSystem.guarded h
    rfl
  -- the task clears the map when it drains
  | advance g =>
    obtain ⟨p, q, ht⟩ := step_task (g := g) h rfl
    rw [localStep, ht.was, view, ht.channels, ht.subscribers]
    by_cases hp : p = .draining
    · rw [if_pos hp, if_pos (by rw [hp])]
      rfl
    · rw [if_neg hp, if_neg fun h => hp (Option.some.inj h)]
      rfl
  | giveUp g =>
    simp only [RawInner.step] at h
    split at h
    · obtain rfl := Option.some.inj h
      rfl
    · cases h
  | consume g chunk =>
    obtain ⟨-, rfl⟩ := EventSystem.guarded h
    exact view_consume g i chunk

/-- Nobody but a chunk puts anything into a channel, and a chunk only while the subscriber is in the
map: outside it, what was delivered stays as it is. -/
theorem localStep_outside (cfg : HubConfig) (i generation : ℕ) (phase : ℕ → Option Phase)
    (c : Channel) (e : Event) :
    (localStep cfg i generation phase (c, false) e).1.delivered = c.delivered ∧
      (localStep cfg i generation phase (c, false) e).2 = false := by
  -- each branch of `localStep` is a choice between these two
  have hite : ∀ (p : Prop) [Decidable p] (d : Channel), d.delivered = c.delivered →
      (if p then (d, false) else (c, false)).1.delivered = c.delivered ∧
        (if p then (d, false) else (c, false)).2 = false := by
    intro p _ d hd
    split
    · exact ⟨hd, rfl⟩
    · exact ⟨rfl, rfl⟩
  cases e with
  | recv id => exact hite _ _ (Channel.delivered_read c)
  | abandon id | drop id | unsubscribe id | advance g => exact hite _ _ rfl
  -- a chunk asks whether the subscriber is in the map
  | consume g chunk =>
    rw [localStep, if_neg fun h => Bool.false_ne_true h.2]
    exact ⟨rfl, rfl⟩
  | _ => exact ⟨rfl, rfl⟩

/-- Once a subscriber has left the map, it stays outside and is given nothing any more. -/
theorem run_outside {i : ℕ} {es : List Event} (hid : i < s.nextId) (hent : i ∉ s.entering)
    (hout : i ∉ s.subscribers) (hrun : EventSystem.run (RawInner.step cfg) s es = some s') :
    i ∉ s'.subscribers ∧ (s'.channels i).delivered = (s.channels i).delivered := by
  have hinv : i < s'.nextId ∧ i ∉ s'.entering ∧ i ∉ s'.subscribers ∧
      (s'.channels i).delivered = (s.channels i).delivered := by
    refine EventSystem.run_keeps (fun m => i < m.nextId ∧ i ∉ m.entering ∧ i ∉ m.subscribers ∧
      (m.channels i).delivered = (s.channels i).delivered) ?_ ⟨hid, hent, hout, rfl⟩ hrun
    rintro m e m' ⟨hid, hent, hout, hdel⟩ hstep
    -- its id was used, so it is not inserted again
    have hjoin : e ≠ .join i := by
      rintro rfl
      exact hent (EventSystem.guarded hstep).1
    have hids : i < m'.nextId ∧ i ∉ m'.entering := by
      cases e with
      -- a new id is above this one
      | enter =>
        simp only [RawInner.step] at hstep
        split at hstep <;> obtain rfl := Option.some.inj hstep
        · exact ⟨hid, hent⟩
        · refine ⟨Nat.lt_succ_of_lt hid, fun h => ?_⟩
          rcases List.mem_append.mp h with h | h
          · exact hent h
          · exact absurd (List.mem_singleton.mp h) (Nat.ne_of_lt hid)
      -- somebody else has joined
      | join id =>
        obtain ⟨-, rfl⟩ := EventSystem.guarded hstep
        rcases join_cases cfg m id with ⟨-, heq⟩ | ⟨-, hins, -⟩
        · rw [heq]
          exact ⟨hid, fun h => hent (List.mem_of_mem_erase h)⟩
        · rw [hins.nextId, hins.entering]
          exact ⟨hid, fun h => hent (List.mem_of_mem_erase h)⟩
      | _ =>
        obtain ⟨h₁, h₂⟩ := step_ids hstep (by rintro ⟨⟩) (by rintro _ ⟨⟩)
        rw [h₁, h₂]
        exact ⟨hid, hent⟩
    -- seen from the subscriber, it is outside before and after
    have hview := step_local hstep hjoin
    have hm : m.view i = (m.channels i, false) := by rw [view, decide_eq_false hout]
    rw [hm] at hview
    obtain ⟨hd, hmem⟩ := localStep_outside cfg i m.producerGeneration m.phase
      (m.channels i) e
    rw [← hview] at hd hmem
    exact ⟨hids.1, hids.2, of_decide_eq_false hmem, hd.trans hdel⟩
  exact ⟨hinv.2.2.1, hinv.2.2.2⟩

/-- **Fan-out without gaps or mixing.** In every state of every run in which the hub is not being
closed, and for every subscriber `i`:

* what it has read, and what waits in its queue after that, is an initial part of the slices that
  one generation has handed over since `i` was inserted;
* while it is in the map, it is all that the current generation has handed over since then;
* a chunk gives it the slices for which its own queue has room, from the first one on, and it stays
  in the map exactly when these are all of them;
* once it has left the map, it is given nothing any more;
* what a step does to it is decided by what the hub holds of it, by the current generation and by
  the producer tasks, and the removal of another subscriber changes none of these. -/
theorem fan_out (cfg : HubConfig) {es : List Event} {s : RawInner}
    (hrun : EventSystem.run (step cfg) {} es = some s) (hopen : s.closed = false) (i : ℕ) :
    (∃ g, (s.channels i).received ++ (s.channels i).queue
      <+: sliced ((s.history.output g).drop (s.history.mark i g))) ∧
    (i ∈ s.subscribers → (s.channels i).received ++ (s.channels i).queue
      = sliced ((s.history.output s.producerGeneration).drop
          (s.history.mark i s.producerGeneration))) ∧
    (∀ g chunk s', s.step cfg (.consume g chunk) = some s' →
      ((s'.channels i).received ++ (s'.channels i).queue
        = (s.channels i).received ++ (s.channels i).queue ++
          if i ∈ s.subscribers ∧ s.producerGeneration = g then
            (chunks 65536 chunk).take ((s.channels i).room cfg.queueChunks)
          else []) ∧
      (i ∈ s'.subscribers ↔ i ∈ s.subscribers ∧ (s.producerGeneration = g →
        (chunks 65536 chunk).length ≤ (s.channels i).room cfg.queueChunks))) ∧
    (i < s.nextId → i ∉ s.entering → i ∉ s.subscribers →
      ∀ es' s', EventSystem.run (step cfg) s es' = some s' →
        i ∉ s'.subscribers ∧
        (s'.channels i).received ++ (s'.channels i).queue
          = (s.channels i).received ++ (s.channels i).queue) ∧
    (i ∈ s.subscribers →
      (∀ e s', s.step cfg e = some s' →
        s'.view i = localStep cfg i s.producerGeneration s.phase (s.view i) e) ∧
      ∀ j, j ≠ i → (s.removeSubscriber j).view i = s.view i ∧
        (s.removeSubscriber j).producerGeneration = s.producerGeneration ∧
        (s.removeSubscriber j).phase = s.phase) := by
  -- the account of the channels, and the ids
  obtain ⟨hfed, hfresh⟩ := run_fedFrom hrun hopen
  refine ⟨hfed.one i, hfed.current i, fun g chunk s' hstep => ?_, fun hid hent hout es' s' h => ?_,
    fun hi => ⟨fun e s' hstep => ?_, fun j hj => ?_⟩⟩
  · obtain ⟨-, rfl⟩ := EventSystem.guarded hstep
    exact consume_channel cfg s g i chunk
  · exact run_outside hid hent hout h
  · refine step_local hstep fun he => ?_
    subst he
    -- the subscriber is in the map already, so it does not join again
    exact (hfresh.subscribers i hi).2 (EventSystem.guarded hstep).1
  · refine ⟨?_, rfl, rfl⟩
    rw [view_removeSubscriber, if_neg hj]

/-- The session of a first subscriber ends; a second one starts the next generation, and reads the
first of the two chunks that its session hands over. -/
def sampleReading : List Event :=
  [.enter, .join 1, .hand 1, .advance 1, .advance 1, .consume 1 [1, 2], .ret 1 none, .advance 1,
    .advance 1, .advance 1, .advance 1, .advance 1, .advance 1, .enter, .join 2, .hand 2,
    .advance 2, .advance 2, .consume 2 [3], .consume 2 [4], .recv 2]

/-- Two generations: the second subscriber has read the chunk of the second one. -/
theorem fan_out_sample :
    ∃ s, EventSystem.run (step sampleConfig) {} sampleReading = some s ∧ s.closed = false ∧
      s.producerGeneration = 2 ∧ s.subscribers = [2] ∧ (s.channels 2).received = [[3]] ∧
      (s.channels 2).received ++ (s.channels 2).queue
        = sliced ((s.history.output 2).drop (s.history.mark 2 2)) ∧
      ∃ g, (s.channels 1).received ++ (s.channels 1).queue
        <+: sliced ((s.history.output g).drop (s.history.mark 1 g)) := by
  have hrun : EventSystem.run (step sampleConfig) {} sampleReading = some _ := rfl
  exact ⟨_, hrun, rfl, rfl, by decide, by decide, (fan_out sampleConfig hrun rfl 2).2.1 (by decide),
    (fan_out sampleConfig hrun rfl 1).1⟩

end RawInner

end EzvizBridge
