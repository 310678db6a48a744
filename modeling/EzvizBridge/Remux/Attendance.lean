import EzvizBridge.Remux.Model

/-!
# Who feeds a subscriber of the MPEG-TS hub

A subscriber is inserted before `ensure_running` is called, and `ensure_running` starts a task only
when the stored one is finished. The last thing a task does before its final `await` is to clear the
map and the warm cache. A `subscribe` whose entry is made after the clearing and whose
`ensure_running` comes before the end of the task finds nobody who will ever feed or close it
(`subscriber_left_alone`); the raw hub restarts its producer in the same situation
(`RawInner.needsFreshStream`).

`LeavesAttended` excludes exactly this: a `subscribe` comes out of its `await` while the task is
between its clearing and its end, or, if it is dropped there, while no task is left to clear its
entry. In a run without such steps every entry of the map that no `subscribe` is still working on
has a task that will clear the map (`subscribers_attended`).
-/

namespace EzvizBridge

namespace MpegTsHub

variable {cfg : HubConfig} {s s' : MpegTsHub}

/-- The hub stores a task that has not cleared the map yet. -/
def Attended (s : MpegTsHub) : Prop :=
  ∃ g p, s.producer = some g ∧ s.phase g = some p ∧ p.serving = true

/-- A `subscribe` leaves its `await` when its entry is in good hands: not between the clearing of
the map and the end of the task, and, if its future is dropped, only while a task serves the map.
An entry that is no longer in the map does not matter. -/
def LeavesAttended (s : MpegTsHub) : Remux.Event → Prop
  | .ensure id =>
    id ∈ s.subscribers →
      ∀ g, s.producer = some g → s.phase g ≠ some .clearing ∧ s.phase g ≠ some .cleared
  | .abandon id => id ∈ s.subscribers → s.Attended
  | _ => True

/-! ### Phases -/

/-- The phases after one task has moved. -/
theorem phase_goto (s : MpegTsHub) (g : ℕ) (p : RemuxPhase) (x : ℕ) :
    (s.goto g p).phase x = if x = g then (s.phase g).map fun _ => p else s.phase x := by
  by_cases hx : x = g
  · subst hx
    simp only [phase, goto, Function.update_self, if_pos, Option.map_map]
    rfl
  · simp only [phase, goto, Function.update_of_ne hx, if_neg hx]

/-- A cancellation moves no phase. -/
theorem phase_cancel (s : MpegTsHub) (token : Option ℕ) (x : ℕ) :
    (s.cancel token).phase x = s.phase x := by
  cases token with
  | none => rfl
  | some g =>
    by_cases hx : x = g
    · subst hx
      simp only [phase, cancel, Function.update_self, Option.map_map]
      rfl
    · simp only [phase, cancel, Function.update_of_ne hx]

theorem cancel_eq (s : MpegTsHub) (token : Option ℕ) :
    ∃ tasks, s.cancel token = { s with tasks := tasks } := by
  cases token with
  | none => exact ⟨s.tasks, rfl⟩
  | some g => exact ⟨_, rfl⟩

/-! ### The invariant -/

/-- Every entry of an open hub belongs to a `subscribe` that has yet to call `ensure_running`, or
has a task. -/
structure Watched (s : MpegTsHub) : Prop where
  closing : 0 < s.closing → s.closed = true
  stored : ∀ g, s.producer = some g → (s.phase g).isSome
  attended : s.closed = false → ∀ i ∈ s.subscribers, i ∈ s.waiting ∨ s.Attended

theorem watched_new : Watched {} where
  closing := fun h => absurd h (Nat.lt_irrefl 0)
  stored := fun _ h => nomatch h
  attended := fun _ _ h => absurd h List.not_mem_nil

/-- What a step may do to the hub without anybody losing its task: entries go, `subscribe`s stay in
their `await`, and the stored task moves on without clearing the map. -/
structure Spares (s s' : MpegTsHub) : Prop where
  subscribers : ∀ i ∈ s'.subscribers, i ∈ s.subscribers
  waiting : s'.waiting = s.waiting
  producer : s'.producer = s.producer
  phase : ∀ g p, s.phase g = some p → ∃ q, s'.phase g = some q ∧
    (p.serving = true → q.serving = true)
  closed : s'.closed = s.closed
  closing : s'.closing = s.closing

/-- The steps that touch none of the parts. -/
theorem Spares.of_eq (hs : ∀ i ∈ s'.subscribers, i ∈ s.subscribers) (hw : s'.waiting = s.waiting)
    (hp : s'.producer = s.producer) (hphase : ∀ g, s'.phase g = s.phase g)
    (hc : s'.closed = s.closed) (hclosing : s'.closing = s.closing) : s.Spares s' where
  subscribers := hs
  waiting := hw
  producer := hp
  phase := fun g p h => ⟨p, (hphase g).trans h, fun hserve => hserve⟩
  closed := hc
  closing := hclosing

theorem Attended.spared (h : s.Attended) (hs : s.Spares s') : s'.Attended := by
  obtain ⟨g, p, hprod, hphase, hserve⟩ := h
  obtain ⟨q, hq, hkeep⟩ := hs.phase g p hphase
  exact ⟨g, q, hs.producer.trans hprod, hq, hkeep hserve⟩

/-- What spares the hub leaves it watched. -/
theorem Watched.spared (h : s.Watched) (hs : s.Spares s') : s'.Watched := by
  refine ⟨fun hpos => ?_, fun g hg => ?_, fun hopen i hi => ?_⟩
  · rw [hs.closed]
    exact h.closing (hs.closing ▸ hpos)
  · obtain ⟨p, hp⟩ := Option.isSome_iff_exists.mp (h.stored g (hs.producer ▸ hg))
    obtain ⟨q, hq, -⟩ := hs.phase g p hp
    rw [hq]
    rfl
  · rw [hs.waiting]
    refine (h.attended (hs.closed ▸ hopen) i (hs.subscribers i hi)).imp_right ?_
    intro hatt
    exact hatt.spared hs

/-- A task that moves between phases in which it serves the map. -/
theorem spares_goto {g : ℕ} {p q : RemuxPhase} (hp : s.phase g = some p)
    (hq : p.serving = true → q.serving = true) : s.Spares (s.goto g q) where
  subscribers := fun _ hi => hi
  waiting := rfl
  producer := rfl
  phase := by
    intro x r hr
    rw [phase_goto]
    -- the task that moves, or another one
    by_cases hx : x = g
    · subst hx
      obtain rfl := Option.some.inj (hp.symm.trans hr)
      exact ⟨q, by rw [if_pos rfl, hp]; rfl, hq⟩
    · exact ⟨r, by rw [if_neg hx, hr], fun hserve => hserve⟩
  closed := rfl
  closing := rfl

/-- The clearing of the map leaves nobody to attend to. -/
theorem Watched.emptied (h : s.Watched) (hnil : s'.subscribers = [])
    (hclosing : 0 < s'.closing → s'.closed = true)
    (hstored : ∀ g, s'.producer = some g → (s.phase g).isSome → (s'.phase g).isSome)
    (hprod : s'.producer = s.producer) : s'.Watched := by
  refine ⟨hclosing, fun g hg => hstored g hg (h.stored g (hprod ▸ hg)), fun _ i hi => ?_⟩
  rw [hnil] at hi
  exact absurd hi List.not_mem_nil

/-! ### Single steps -/

/-- A task that moves on leaves the hub watched. -/
theorem Watched.advance {g : ℕ} (h : s.Watched) (hstep : s.advance g = some s') : s'.Watched := by
  -- no task vanishes
  have hsome : ∀ (q : RemuxPhase) x, (s.phase x).isSome → ((s.goto g q).phase x).isSome := by
    intro q x hx
    rw [phase_goto]
    split_ifs with hxg
    · subst hxg
      rwa [Option.isSome_map]
    · exact hx
  rw [MpegTsHub.advance] at hstep
  split at hstep
  case h_4 hp =>
    -- the map is cleared here, and only here
    obtain rfl := Option.some.inj hstep
    exact h.emptied rfl h.closing (fun x _ hx => hsome .clearing x hx) rfl
  case h_5 hp =>
    obtain rfl := Option.some.inj hstep
    have hs := spares_goto (q := .cleared) hp (fun hserve => nomatch hserve)
    exact (h.spared hs).spared (Spares.of_eq (fun _ hi => hi) rfl rfl (fun _ => rfl) rfl rfl)
  case h_7 => exact nomatch hstep
  all_goals
    obtain rfl := Option.some.inj hstep
    exact h.spared (spares_goto ‹_› (by decide))

/-- After `ensure_running` a task serves the map, unless the stored one has cleared it already and
is not finished. -/
theorem attended_ensureRunning (h : s.Watched)
    (hwindow : ∀ g, s.producer = some g → s.phase g ≠ some .clearing ∧ s.phase g ≠ some .cleared) :
    s.ensureRunning.Attended := by
  have hstart : s.startProducer.Attended := by
    refine ⟨s.nextTask, .spawned, rfl, ?_, rfl⟩
    simp only [phase, startProducer, Function.update_self, Option.map_some]
  -- a stored task that has not finished, or a new one
  rw [ensureRunning]
  split
  case h_1 current hcur =>
    split_ifs with hfin
    · exact hstart
    · obtain ⟨p, hp⟩ := Option.isSome_iff_exists.mp (h.stored current hcur)
      obtain ⟨hclearing, hcleared⟩ := hwindow current hcur
      rw [hp] at hclearing hcleared
      have hnot : p ≠ .finished := by
        rintro rfl
        exact hfin (by rw [isFinished, hp]; rfl)
      -- what is left of the phases serves the map
      refine ⟨current, p, hcur, hp, ?_⟩
      cases p with
      | clearing => exact absurd rfl hclearing
      | cleared => exact absurd rfl hcleared
      | finished => exact absurd rfl hnot
      | _ => rfl
  case h_2 => exact hstart

/-- `ensure_running` keeps whoever is attended attended: it replaces a finished task only. -/
theorem Attended.ensureRunning (h : s.Attended) : s.ensureRunning = s := by
  obtain ⟨g, p, hprod, hp, hserve⟩ := h
  rw [MpegTsHub.ensureRunning, hprod]
  refine if_neg ?_
  rw [isFinished, hp]
  cases p with
  | finished => exact nomatch hserve
  | _ => decide

/-- A start leaves the map and the callers alone. -/
theorem ensureRunning_fields (s : MpegTsHub) :
    s.ensureRunning.subscribers = s.subscribers ∧ s.ensureRunning.waiting = s.waiting ∧
      s.ensureRunning.closed = s.closed ∧ s.ensureRunning.closing = s.closing := by
  rw [ensureRunning]
  split
  · split_ifs <;> exact ⟨rfl, rfl, rfl, rfl⟩
  · exact ⟨rfl, rfl, rfl, rfl⟩

/-- What is stored behind a start is a task. -/
theorem stored_ensureRunning (h : s.Watched) {g : ℕ} (hg : s.ensureRunning.producer = some g) :
    (s.ensureRunning.phase g).isSome := by
  have hstart : ∀ x, s.startProducer.producer = some x → (s.startProducer.phase x).isSome := by
    intro x hx
    obtain rfl := Option.some.inj hx
    simp only [phase, startProducer, Function.update_self, Option.map_some, Option.isSome_some]
  rw [ensureRunning] at hg ⊢
  split at hg
  case h_1 current hcur =>
    split_ifs at hg ⊢ with hfin
    · exact hstart g hg
    · exact h.stored g hg
  case h_2 hnone => exact hstart g hg

/-- A start leaves the hub watched. -/
theorem Watched.ensure {id : ℕ} (h : s.Watched) (hok : s.LeavesAttended (.ensure id)) :
    Watched { s.ensureRunning with
      waiting := s.waiting.erase id
      held := s.held ++ [id] } := by
  obtain ⟨hsub, -, hclosed, hclosing⟩ := ensureRunning_fields s
  refine ⟨fun hpos => ?_, fun g hg => stored_ensureRunning h hg, fun hopen i hi => ?_⟩
  · change s.ensureRunning.closed = true
    change 0 < s.ensureRunning.closing at hpos
    rw [hclosed]
    exact h.closing (hclosing ▸ hpos)
  · change s.ensureRunning.closed = false at hopen
    change i ∈ s.ensureRunning.subscribers at hi
    change i ∈ s.waiting.erase id ∨ s.ensureRunning.Attended
    rw [hsub] at hi
    by_cases hid : i = id
    · -- the entry of this very call: its task is the one `ensure_running` leaves behind
      subst hid
      exact .inr (attended_ensureRunning h (hok hi))
    · rcases h.attended (hclosed ▸ hopen) i hi with hwait | hatt
      · exact .inl ((List.mem_erase_of_ne hid).mpr hwait)
      · rw [hatt.ensureRunning]
        exact .inr hatt

/-- An admission leaves the hub watched. -/
theorem Watched.join {id : ℕ} (h : s.Watched) : (s.join cfg id).Watched := by
  have hkeep : Watched { s with entering := s.entering.erase id } :=
    ⟨h.closing, h.stored, h.attended⟩
  have hins : ∀ channel,
      Watched (insert { s with entering := s.entering.erase id } id channel) := by
    intro channel
    refine ⟨h.closing, h.stored, fun hopen i hi => ?_⟩
    -- the new entry is waiting for its own `ensure_running`
    rcases List.mem_append.mp hi with hold | hnew
    · exact (h.attended hopen i hold).imp_left (List.mem_append_left _)
    · exact .inl (List.mem_append_right _ hnew)
  rw [MpegTsHub.join]
  dsimp only
  split_ifs
  · exact hkeep
  · split
    · exact hins _
    · split
      · exact hkeep
      · exact hins _

/-- Every event that leaves the hub attended leaves it watched. -/
theorem Watched.step {e : Remux.Event} (h : s.Watched) (hok : s.LeavesAttended e)
    (hstep : s.step cfg e = some s') : s'.Watched := by
  -- event by event
  cases e with
  | join id =>
    obtain ⟨-, rfl⟩ := EventSystem.guarded hstep
    exact h.join
  | ensure id =>
    obtain ⟨-, rfl⟩ := EventSystem.guarded hstep
    exact h.ensure hok
  | abandon id =>
    obtain ⟨-, rfl⟩ := EventSystem.guarded hstep
    refine ⟨h.closing, h.stored, fun hopen i hi => ?_⟩
    by_cases hid : i = id
    · subst hid
      exact .inr (hok hi)
    · exact (h.attended hopen i hi).imp_left (List.mem_erase_of_ne hid).mpr
  | advance g => exact h.advance hstep
  | fail g =>
    simp only [MpegTsHub.step, MpegTsHub.fail] at hstep
    split at hstep
    case h_4 => exact nomatch hstep
    all_goals
      obtain rfl := Option.some.inj hstep
      exact h.spared (spares_goto ‹_› (by decide))
  | stop g =>
    obtain ⟨hp, rfl⟩ := EventSystem.guarded hstep
    exact h.spared (spares_goto hp (by decide))
  | publish g chunk =>
    obtain ⟨-, rfl⟩ := EventSystem.guarded hstep
    exact h.spared
      (Spares.of_eq (fun _ hi => List.mem_of_mem_filter hi) rfl rfl (fun _ => rfl) rfl rfl)
  | unsubscribe id =>
    obtain rfl := Option.some.inj hstep
    exact h.spared
      (Spares.of_eq (fun _ hi => List.mem_of_mem_filter hi) rfl rfl (fun _ => rfl) rfl rfl)
  | drop id =>
    obtain ⟨-, rfl⟩ := EventSystem.guarded hstep
    exact h.spared
      (Spares.of_eq (fun _ hi => List.mem_of_mem_filter hi) rfl rfl (fun _ => rfl) rfl rfl)
  | tick d =>
    obtain rfl := Option.some.inj hstep
    exact h.spared (Spares.of_eq (fun _ hi => hi) rfl rfl (fun _ => rfl) rfl rfl)
  | enter =>
    simp only [MpegTsHub.step] at hstep
    split_ifs at hstep <;> obtain rfl := Option.some.inj hstep
    · exact h
    · exact h.spared (Spares.of_eq (fun _ hi => hi) rfl rfl (fun _ => rfl) rfl rfl)
  | recv id | capture | idleSleep token | idleTest wakeAt token | closeWarm =>
    obtain ⟨-, rfl⟩ := EventSystem.guarded hstep
    exact h.spared (Spares.of_eq (fun _ hi => hi) rfl rfl (fun _ => rfl) rfl rfl)
  | idleCancel token =>
    obtain ⟨-, rfl⟩ := EventSystem.guarded hstep
    have hphase := phase_cancel s token
    obtain ⟨tasks, heq⟩ := cancel_eq s token
    rw [heq] at hphase ⊢
    exact h.spared (Spares.of_eq (fun _ hi => hi) rfl rfl hphase rfl rfl)
  | close =>
    obtain rfl := Option.some.inj hstep
    exact ⟨fun _ => rfl, h.stored, fun hopen => nomatch hopen⟩
  | closeTake =>
    obtain ⟨hpos, rfl⟩ := EventSystem.guarded hstep
    -- only a closed hub gives its task away
    have hclosed := h.closing hpos
    obtain ⟨tasks, heq⟩ := cancel_eq s s.producer
    rw [heq]
    refine ⟨fun _ => hclosed, (fun _ hg => nomatch hg), fun hopen => ?_⟩
    exact nomatch hclosed.symm.trans hopen
  | closeClear taken =>
    obtain ⟨-, rfl⟩ := EventSystem.guarded hstep
    exact h.emptied rfl h.closing (fun _ _ hx => hx) rfl

/-! ### Runs -/

/-- **No subscriber is left alone.** In a run in which every `subscribe` leaves its `await` with its
entry in good hands, every entry of an open hub that no `subscribe` is still working on has a task
that has not cleared the map yet. -/
theorem subscribers_attended (cfg : HubConfig) {es : List Remux.Event} {s : MpegTsHub}
    (hrun : EventSystem.run (step cfg) {} es = some s)
    (hok : EventSystem.Steps (step cfg) LeavesAttended {} es)
    (hopen : s.closed = false) (hidle : s.waiting = []) :
    ∀ i ∈ s.subscribers, ∃ g p, s.producer = some g ∧ s.phase g = some p ∧ p.serving = true := by
  intro i hi
  have hinv : s.Watched := EventSystem.run_invariant Watched
    (fun _ _ _ h hcond hs => h.step hcond hs) watched_new hok hrun
  rcases hinv.attended hopen i hi with hwait | hatt
  · rw [hidle] at hwait
    exact absurd hwait List.not_mem_nil
  · exact hatt

def sampleReading : List Remux.Event :=
  [.enter, .join 1, .ensure 1, .advance 0, .advance 0]

def sampleAgain : List Remux.Event :=
  [.stop 0, .advance 0, .advance 0, .advance 0, .advance 0, .enter, .join 2, .ensure 2, .advance 1,
    .advance 1]

/-- The task of the first subscriber ends, and the second one gets its own. -/
theorem subscribers_attended_sample :
    ∃ s, EventSystem.run (step sampleConfig) {} (sampleReading ++ sampleAgain) = some s ∧
      s.phase 0 = some .finished ∧ 1 ∉ s.subscribers ∧ 2 ∈ s.subscribers ∧
      ∃ g p, s.producer = some g ∧ s.phase g = some p ∧ p.serving = true := by
  have hfirst : EventSystem.Steps (step sampleConfig) LeavesAttended {} sampleReading := by
    refine .cons trivial rfl (.cons trivial rfl (.cons ?_ rfl (.cons trivial rfl
      (.cons trivial rfl trivial))))
    -- nothing was started before the first `ensure_running`
    exact fun _ g hg => (by cases hg)
  have hok : EventSystem.Steps (step sampleConfig) LeavesAttended {}
      (sampleReading ++ sampleAgain) := by
    refine hfirst.append fun s hs => ?_
    obtain rfl := Option.some.inj hs
    refine .cons trivial rfl (.cons trivial rfl (.cons trivial rfl (.cons trivial rfl
      (.cons trivial rfl (.cons trivial rfl (.cons trivial rfl (.cons ?_ rfl (.cons trivial rfl
        (.cons trivial rfl trivial)))))))))
    -- the first task is over when the second subscriber leaves its `await`
    intro _ g hg
    obtain rfl := Option.some.inj hg
    exact ⟨by decide, by decide⟩
  exact ⟨_, rfl, rfl, by decide, by decide,
    subscribers_attended sampleConfig rfl hok rfl rfl 2 (by decide)⟩

def sampleTooLate : List Remux.Event :=
  sampleReading ++
    [.stop 0, .advance 0, .advance 0, .advance 0, .enter, .join 2, .ensure 2, .advance 0]

/-- The second subscriber stays in the map of an open hub whose task is finished. -/
theorem subscriber_left_alone :
    ¬ ∀ (cfg : HubConfig) (es : List Remux.Event) (s : MpegTsHub),
      EventSystem.run (step cfg) {} es = some s → s.closed = false → s.entering = [] →
        s.waiting = [] →
          ∀ i ∈ s.subscribers,
            ∃ g p, s.producer = some g ∧ s.phase g = some p ∧ p.serving = true := by
  intro h
  obtain ⟨g, p, hprod, hp, hserve⟩ :=
    h sampleConfig sampleTooLate _ rfl rfl rfl rfl 2 (by decide)
  obtain rfl := Option.some.inj hprod
  obtain rfl := Option.some.inj hp
  exact nomatch hserve

end MpegTsHub

end EzvizBridge
