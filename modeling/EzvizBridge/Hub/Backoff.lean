import EzvizBridge.Hub.Steps
import EzvizBridge.Lib.Prefixes

/-!
# The backoff of the hub

After a failure the next producer waits before it calls `stream_mpeg_ps`. It looks at `next_start`
once, when it starts; what is recorded after that it does not see. A producer that is current has
nothing to fear from this, since only the result of the current producer is recorded. But a producer
that was superseded goes on if it is past its wait, and so it may call `stream_mpeg_ps` right after
a failure of the next one.

`leap` takes `record_result` as one step.
-/

namespace EzvizBridge

open Prefixes

/-- The pause after the `count`-th failure in a row. -/
def backoffAfter (count : ℕ) (error : BridgeError) : ℕ :=
  max (if count < 3 then secs (2 ^ count) else secs 600)
    (if error = .cameraOffline then secs 30 else 0)

/-- The pause is the same when the count is at its limit. -/
theorem backoffAfter_min (count : ℕ) (error : BridgeError) :
    backoffAfter (min count 4294967295 + 1) error = backoffAfter (count + 1) error := by
  unfold backoffAfter
  by_cases hlimit : count ≤ 4294967295
  · rw [Nat.min_eq_left hlimit]
  · rw [if_neg (by omega : ¬min count 4294967295 + 1 < 3), if_neg (by omega : ¬count + 1 < 3)]

/-- A failure counts up, and sets the end of its pause. -/
theorem Failures.record_eq (self : Failures) (error : BridgeError) (now : ℕ) :
    self.record error now =
      ⟨min (self.count + 1) 4294967295, some (now + backoffAfter (self.count + 1) error)⟩ := by
  have hlimit : 3 ≤ min (self.count + 1) 4294967295 ↔ ¬self.count + 1 < 3 := by omega
  unfold Failures.record backoffAfter
  -- the first failures have no pause
  by_cases hfew : self.count + 1 < 3
  · have hsmall : min (self.count + 1) 4294967295 = self.count + 1 := by omega
    simp only [hsmall, if_pos hfew, if_neg (show ¬3 ≤ self.count + 1 by omega)]
    split
    · rfl
    · rw [Nat.max_eq_left (Nat.zero_le _)]
  · simp only [if_neg hfew, if_pos (hlimit.mpr hfew)]
    split
    · rfl
    · rw [Nat.max_eq_left (Nat.zero_le _)]

/-- What a producer in this phase has made of `next_start`, as long as nothing is recorded: it
sleeps up to then, or that time has come. -/
def Phase.Heeds (nextStart : Option ℕ) (now : ℕ) : Phase → Prop
  | .sleeping wakeAt => ∀ start ∈ nextStart, start ≤ wakeAt
  | .spawned | .givenUp | .finished => True
  | _ => ∀ start ∈ nextStart, start ≤ now

theorem Phase.Heeds.mono {p : Phase} {nextStart : Option ℕ} {now now' : ℕ}
    (h : p.Heeds nextStart now) (hnow : now ≤ now') : p.Heeds nextStart now' := by
  cases p <;> first | exact h | exact fun start hmem => (h start hmem).trans hnow

namespace RawInner

variable {cfg : HubConfig} {s s' : RawInner} {g : ℕ} {e : Event}

/-! ### Leaps -/

/-- `record_result`. -/
def recordResult (self : RawInner) (g : ℕ) (cancelled : Bool) (result : Option BridgeError) :
    RawInner :=
  { self.goto g .finished with
    lastFailure := result.map StreamFailure.fromError
    failures := match cancelled, result with
      | false, some error => self.failures.record error self.now
      | _, _ => {}
    producerStarted := none
    subscribers := [] }

/-- One event, with `record_result` as one step. -/
def leap (cfg : HubConfig) (self : RawInner) : Event → Option RawInner
  | .advance g =>
    match self.tasks g with
    | some ⟨cancelled, .recording result⟩ => some (self.recordResult g cancelled result)
    | some ⟨_, .spawned⟩ | some ⟨_, .sleeping _⟩ | some ⟨_, .starting⟩ | some ⟨_, .returned _⟩ =>
      self.advance g
    | _ => none
  | event => self.step cfg event

/-- The task behind a move to another phase. -/
theorem tasks_goto {task : Task} (h : s.tasks g = some task) (phase : Phase) :
    (s.goto g phase).tasks g = some { task with phase } := by
  simp only [goto, Function.update_self, h, Option.map_some]

/-- Of two moves in a row only the second one leaves a trace. -/
theorem goto_goto (s : RawInner) (g : ℕ) (phase phase' : Phase) :
    (s.goto g phase).goto g phase' = s.goto g phase' := by
  simp only [goto, Function.update_self, Function.update_idem, Option.map_map, Function.comp_def]

/-- One step of a task, and then the others. -/
theorem run_advance {s' : RawInner} (h : s.advance g = some s') (n : ℕ) :
    EventSystem.run (step cfg) s (List.replicate (n + 1) (.advance g)) =
      EventSystem.run (step cfg) s' (List.replicate n (.advance g)) := by
  rw [List.replicate_succ, EventSystem.run]
  show (s.advance g).bind _ = _
  rw [h, Option.bind_some]

/-- The steps of `record_result` come to the same. -/
theorem run_recordResult {cancelled : Bool} {result : Option BridgeError}
    (h : s.tasks g = some ⟨cancelled, .recording result⟩) :
    EventSystem.run (step cfg) s (List.replicate 5 (.advance g)) =
      some (s.recordResult g cancelled result) := by
  -- `last_failure`
  have htallying : s.advance g = some { s.goto g (.tallying result) with
      lastFailure := result.map StreamFailure.fromError } := by
    rw [advance, h]
  set tallied : RawInner := { s.goto g (.tallying result) with
    lastFailure := result.map StreamFailure.fromError }
  have htallied : tallied.tasks g = some ⟨cancelled, .tallying result⟩ := tasks_goto h _
  -- `failures`, by way of the counter when a session that was not cancelled has failed
  have hfailures : ∃ counted, tallied.advance g = some counted ∧
      counted.advance g = some { tallied.goto g .draining with
        failures := (s.recordResult g cancelled result).failures
        producerStarted := none } := by
    rcases cancelled with _ | _ <;> rcases result with _ | error
    case false.some =>
      refine ⟨tallied.goto g (.counting error), by rw [advance, htallied], ?_⟩
      simp only [advance, tasks_goto htallied, goto_goto]
      rfl
    all_goals
      refine ⟨tallied.goto g .resetting, by rw [advance, htallied], ?_⟩
      simp only [advance, tasks_goto htallied, goto_goto]
      rfl
  obtain ⟨counted, hcounted, hdraining⟩ := hfailures
  set drained : RawInner := { tallied.goto g .draining with
    failures := (s.recordResult g cancelled result).failures
    producerStarted := none }
  have hdrained : drained.tasks g = some ⟨cancelled, .draining⟩ := tasks_goto htallied _
  -- the map of subscribers, and the end
  have hcleared : drained.advance g = some { drained.goto g .cleared with subscribers := [] } := by
    rw [advance, hdrained]
  set cleared : RawInner := { drained.goto g .cleared with subscribers := [] }
  have hfinished : cleared.advance g = some (cleared.goto g .finished) := by
    have hphase : cleared.tasks g = some ⟨cancelled, .cleared⟩ := tasks_goto hdrained _
    rw [advance, hphase]
  rw [run_advance htallying, run_advance hcounted, run_advance hdraining, run_advance hcleared,
    run_advance hfinished]
  show some _ = some _
  simp [cleared, drained, tallied, goto, recordResult, Function.comp_def]

/-- A leap is made of steps of the hub. -/
theorem leap_run (h : s.leap cfg e = some s') :
    ∃ n, EventSystem.run (step cfg) s (List.replicate n e) = some s' := by
  have hone : s.step cfg e = some s' → EventSystem.run (step cfg) s [e] = some s' := by
    intro hstep
    rw [EventSystem.run, hstep]
    rfl
  cases e with
  | advance g =>
    -- a record of a result is the five steps of the source
    simp only [leap] at h
    split at h
    · next cancelled result htask =>
      obtain rfl := Option.some.inj h
      exact ⟨5, run_recordResult htask⟩
    · exact ⟨1, hone h⟩
    · exact ⟨1, hone h⟩
    · exact ⟨1, hone h⟩
    · exact ⟨1, hone h⟩
    · cases h
  | _ => exact ⟨1, hone h⟩

/-! ### What the history of a run says -/

/-- A step of a run, and the state in which it is taken. -/
abbrev Taken := RawInner × Event

/-- What a step records: a failure, or a success or a cancelled session (`none`). -/
def outcome (taken : Taken) : Option (Option BridgeError) :=
  match taken.2 with
  | .advance g =>
    match taken.1.tasks g with
    | some ⟨cancelled, .recording result⟩ => some (if cancelled then none else result)
    | _ => none
  | _ => none

/-- The step calls `stream_mpeg_ps`. -/
def Calls (taken : Taken) : Prop :=
  ∃ g, taken.2 = .advance g ∧ taken.1.phase g = some .starting

/-- How many failures were recorded in a row, up to now. -/
def streak (past : List Taken) : ℕ :=
  past.foldl
    (fun count taken =>
      match outcome taken with
      | none => count
      | some none => 0
      | some (some _) => count + 1)
    0

/-- The end of the pause after a failure, which was recorded after `earlier`. -/
def pauseEnd (earlier : List Taken) (failed : Taken) (error : BridgeError) : ℕ :=
  failed.1.now + backoffAfter (streak earlier + 1) error

/-- What the backoff is for: no call of `stream_mpeg_ps` in the pause after a failure, and in the
pause neither the count nor the reason is lost. -/
structure Protects (past : List Taken) (s : RawInner) : Prop where
  waits : Each (fun before call => Calls call → Each (fun earlier failed => ∀ error,
    outcome failed = some (some error) → pauseEnd earlier failed error ≤ call.1.now) before) past
  count : s.failures.count = min (streak past) 4294967295
  reports : Each (fun earlier failed => ∀ error, outcome failed = some (some error) →
    s.now < pauseEnd earlier failed error →
      s.failures = ⟨min (streak earlier + 1) 4294967295, some (pauseEnd earlier failed error)⟩ ∧
        s.startupError = (StreamFailure.fromError error).intoError) past

/-- The producer task that a step moves on. -/
def advanced : Event → Option ℕ
  | .advance g => some g
  | _ => none

/-- The next step of the task calls `stream_mpeg_ps` or records the result. -/
def commits (s : RawInner) (g : ℕ) : Bool :=
  match s.phase g with
  | some .starting | some (.recording _) => true
  | _ => false

/-- A producer that was superseded neither calls `stream_mpeg_ps` nor enters `record_result`. -/
def OnlyCurrent (s : RawInner) (e : Event) : Prop :=
  ∀ g ∈ advanced e, s.commits g = true → s.producerGeneration = g

instance (s : RawInner) (e : Event) : Decidable (s.OnlyCurrent e) :=
  inferInstanceAs (Decidable (∀ g ∈ advanced e, _))

/-- One more step. -/
theorem streak_concat (past : List Taken) (taken : Taken) :
    streak (past ++ [taken]) = match outcome taken with
      | none => streak past
      | some none => 0
      | some (some _) => streak past + 1 := by
  rw [streak, List.foldl_append]
  rfl

/-! ### Shapes of a leap -/

/-- What a leap does to the producers, the failures and the clock. -/
inductive Leaps (s s' : RawInner) : Event → Prop
  | kept {e : Event} (none_recorded : outcome (s, e) = none) (phase : s'.phase = s.phase)
      (generation : s'.producerGeneration = s.producerGeneration)
        (failures : s'.failures = s.failures)
      (lastFailure : s'.lastFailure = s.lastFailure) (now : s.now ≤ s'.now) : Leaps s s' e
  | moved {e : Event} (none_recorded : outcome (s, e) = none) (g : ℕ) (p q : Phase)
      (was : s.phase g = some p) (phase : s'.phase = Function.update s.phase g (some q))
      (heeds : p.Heeds s.failures.nextStart s.now → q.Heeds s.failures.nextStart s.now)
      (generation : s'.producerGeneration = s.producerGeneration)
        (failures : s'.failures = s.failures)
      (lastFailure : s'.lastFailure = s.lastFailure) (now : s'.now = s.now) : Leaps s s' e
  | started {e : Event} (none_recorded : outcome (s, e) = none)
      (phase : s'.phase s'.producerGeneration = some .spawned) (failures : s'.failures = s.failures)
      (lastFailure : ∀ start, s.failures.nextStart = some start → s.now < start →
        s'.lastFailure = s.lastFailure)
      (now : s'.now = s.now) : Leaps s s' e
  | recorded (g : ℕ) (cancelled : Bool) (result : Option BridgeError)
      (was : s.tasks g = some ⟨cancelled, .recording result⟩)
      (eq : s' = s.recordResult g cancelled result) : Leaps s s' (.advance g)

/-- A step that is not of a producer and no admission leaves the failures alone. -/
theorem step_quiet (h : s.step cfg e = some s') (he : ¬acts e) :
    s'.failures = s.failures ∧ s'.lastFailure = s.lastFailure ∧ s.now ≤ s'.now := by
  -- on the event: none of them touches the failures
  cases e with
  | tick duration =>
    obtain rfl := Option.some.inj h
    exact ⟨rfl, rfl, Nat.le_add_right _ _⟩
  | enter =>
    simp only [step] at h
    split at h <;> obtain rfl := Option.some.inj h <;> exact ⟨rfl, rfl, le_rfl⟩
  | unsubscribe id | close =>
    obtain rfl := Option.some.inj h
    exact ⟨rfl, rfl, le_rfl⟩
  | hand id | abandon id | recv id | drop id | idleSleep | idleTest wakeAt | closeClear taken =>
    obtain ⟨-, rfl⟩ := EventSystem.guarded h
    exact ⟨rfl, rfl, le_rfl⟩
  | idleCancel | closeTake =>
    obtain ⟨-, rfl⟩ := EventSystem.guarded h
    obtain ⟨tasks, heq⟩ := elim_cancel_eq s s.producer
    rw [heq]
    exact ⟨rfl, rfl, le_rfl⟩
  -- a chunk is handed on, and may start the stream
  | consume g chunk =>
    obtain ⟨-, rfl⟩ := EventSystem.guarded h
    rcases consume_eq cfg s g chunk with ⟨-, hconsume⟩ | ⟨-, started, hconsume⟩
    · rw [hconsume]
      exact ⟨rfl, rfl, le_rfl⟩
    · rw [hconsume, foldl_retain]
      exact ⟨rfl, rfl, le_rfl⟩
  | advance _ | giveUp _ | ret _ _ | join _ => exact absurd trivial he

/-- A start before the end of a pause keeps the failure that it shows. -/
theorem startProducer_lastFailure (s : RawInner) {start : ℕ} (h : s.failures.nextStart = some start)
    (hnow : s.now < start) : s.startProducer.lastFailure = s.lastFailure := by
  simp only [startProducer, h, Option.any_some, decide_eq_true hnow, if_true]

/-- An admission. -/
theorem leaps_join (cfg : HubConfig) (s : RawInner) (id : ℕ) :
    Leaps s (s.join cfg id) (.join id) := by
  -- the request is refused, joins a producer, or starts one
  rcases join_cases cfg s id with ⟨_, hrefused⟩ | ⟨hroom, _, hjoined⟩
  · rw [hrefused]
    exact .kept rfl rfl rfl rfl rfl le_rfl
  · have hjoin : s.join cfg id = (ensureRunning { s with entering := s.entering.erase id }
        (needsFreshStream { s with entering := s.entering.erase id })).insert id :=
      if_neg (Nat.not_le.mpr hroom)
    rcases ensureRunning_cases { s with entering := s.entering.erase id } with
      ⟨_, t, ht, hrun⟩ | ⟨_, hrun⟩
    · have hsame : t.failures = s.failures ∧ t.lastFailure = s.lastFailure ∧ t.now = s.now := by
        rcases ht with rfl | ⟨current, rfl⟩ <;> exact ⟨rfl, rfl, rfl⟩
      rw [hjoin, hrun]
      refine .started rfl ?_ hsame.1 (fun start hstart hnow => ?_) hsame.2.2
      · show t.startProducer.phase (t.producerGeneration + 1) = some .spawned
        rw [phase_startProducer, Function.update_self]
      · rw [← hsame.1] at hstart
        rw [← hsame.2.2] at hnow
        exact (startProducer_lastFailure t hstart hnow).trans hsame.2.1
    · rw [hjoin, hrun]
      exact .kept rfl rfl rfl rfl rfl le_rfl

/-- A step of a producer task. -/
theorem leaps_advance (h : s.leap cfg (.advance g) = some s') : Leaps s s' (.advance g) := by
  rcases htask : s.tasks g with _ | ⟨cancelled, p⟩
  · simp only [leap, htask] at h
    cases h
  have was : s.phase g = some p := by rw [RawInner.phase, htask, Option.map_some]
  -- on the phase of the task
  have hgoto := phase_goto htask
  have hnone : (∀ result, p ≠ .recording result) → outcome (s, .advance g) = none := by
    intro hp
    simp only [outcome, htask]
    split
    · next heq =>
      obtain ⟨rfl, rfl⟩ := Task.mk.inj (Option.some.inj heq)
      exact absurd rfl (hp _)
    · rfl
  simp only [leap, htask] at h
  cases p with
  | recording result =>
    obtain rfl := Option.some.inj h
    exact .recorded g cancelled result htask rfl
  | spawned =>
    have hsilent : outcome (s, .advance g) = none := hnone (by rintro result ⟨⟩)
    -- the task looks at `next_start`, and sleeps if it is ahead
    simp only [advance, htask] at h
    cases hstart : s.failures.nextStart with
    | none =>
      rw [hstart] at h
      obtain rfl := Option.some.inj h
      exact .moved hsilent g _ _ was (hgoto _)
        (fun _ start hmem => by simp [hstart] at hmem) rfl rfl rfl
        rfl
    | some start =>
      simp only [hstart] at h
      split at h
      · -- it sleeps up to `next_start`
        obtain rfl := Option.some.inj h
        refine .moved hsilent g _ _ was (hgoto _) (fun _ found hmem => ?_) rfl rfl rfl rfl
        rw [hstart] at hmem
        exact (Option.some.inj hmem).ge
      · next hpast =>
        obtain rfl := Option.some.inj h
        refine .moved hsilent g _ _ was (hgoto _) (fun _ found hmem => ?_) rfl rfl rfl rfl
        rw [hstart] at hmem
        exact (Option.some.inj hmem) ▸ Nat.le_of_not_lt hpast
  -- it wakes when the time has come
  | sleeping wakeAt =>
    have hsilent : outcome (s, .advance g) = none := hnone (by rintro result ⟨⟩)
    simp only [advance, htask] at h
    obtain ⟨hwake, rfl⟩ := EventSystem.guarded h
    exact .moved hsilent g _ _ was (hgoto _)
      (fun hheeds start hmem => (hheeds start hmem).trans hwake) rfl rfl rfl rfl
  | starting =>
    have hsilent : outcome (s, .advance g) = none := hnone (by rintro result ⟨⟩)
    simp only [advance, htask] at h
    obtain rfl := Option.some.inj h
    exact .moved hsilent g _ _ was (hgoto _) id rfl rfl rfl rfl
  | returned result =>
    have hsilent : outcome (s, .advance g) = none := hnone (by rintro result ⟨⟩)
    simp only [advance, htask] at h
    split at h
    · obtain rfl := Option.some.inj h
      exact .moved hsilent g _ _ was (hgoto _) (fun _ => trivial) rfl rfl rfl rfl
    · obtain rfl := Option.some.inj h
      exact .moved hsilent g _ _ was (hgoto _) id rfl rfl rfl rfl
  | givenUp | streaming | tallying | counting | resetting | draining | cleared | finished =>
    cases h

theorem leap_of_not_acts (he : ¬acts e) : s.leap cfg e = s.step cfg e := by
  cases e <;> first | rfl | exact absurd trivial he

/-- Every leap has one of the shapes. -/
theorem leap_cases (h : s.leap cfg e = some s') : Leaps s s' e := by
  -- the producers, the admission, and the rest
  cases e with
  | advance g => exact leaps_advance h
  | join id =>
    obtain ⟨-, rfl⟩ := EventSystem.guarded (show (if id ∈ s.entering then _ else _) = _ from h)
    exact leaps_join cfg s id
  | giveUp g =>
    have hstep : s.step cfg (.giveUp g) = some s' := h
    simp only [step] at hstep
    split at hstep
    · next wakeAt htask =>
      obtain rfl := Option.some.inj hstep
      have was : s.phase g = some (.sleeping wakeAt) := by
        rw [RawInner.phase, htask, Option.map_some]
      exact .moved rfl g _ _ was (phase_goto htask _) (fun _ => trivial) rfl rfl rfl rfl
    · cases hstep
  | ret g result =>
    obtain ⟨was, rfl⟩ := EventSystem.guarded
      (show (if s.phase g = some .streaming then _ else _) = _ from h)
    obtain ⟨task, htask, -⟩ := Option.map_eq_some_iff.mp was
    exact .moved rfl g _ _ was (phase_goto htask _) id rfl rfl rfl rfl
  | _ =>
    rw [leap_of_not_acts id] at h
    have hkeeps := step_keeps h id
    obtain ⟨hfailures, hlast, hnow⟩ := step_quiet h id
    exact .kept rfl hkeeps.phase hkeeps.generation hfailures hlast hnow

/-! ### The invariant -/

/-- The pause after a failure goes on: the count and its end are in place, and the reason is
known. -/
structure Pausing (s : RawInner) (count until_ : ℕ) (error : BridgeError) : Prop where
  failures : s.failures = ⟨min count 4294967295, some until_⟩
  lastFailure : s.lastFailure = some (.fromError error)

/-- Every failure so far is over or the last one, and the current producer heeds the last one. -/
structure Paced (past : List Taken) (s : RawInner) : Prop where
  waits : Each (fun before call => Calls call → Each (fun earlier failed => ∀ error,
    outcome failed = some (some error) → pauseEnd earlier failed error ≤ call.1.now) before) past
  count : s.failures.count = min (streak past) 4294967295
  pauses : Each (fun earlier failed => ∀ error, outcome failed = some (some error) →
    pauseEnd earlier failed error ≤ s.now ∨
      s.Pausing (streak earlier + 1) (pauseEnd earlier failed error) error) past
  heeds : ∀ p, s.phase s.producerGeneration = some p → p.Heeds s.failures.nextStart s.now

theorem paced_new : Paced [] {} where
  waits := .nil
  count := rfl
  pauses := .nil
  heeds _ hp := nomatch hp

section Step

variable {past : List Taken}

/-- When `next_start` has come, no pause goes on. -/
theorem Paced.over (h : Paced past s) (hstart : ∀ start ∈ s.failures.nextStart, start ≤ s.now) :
    Each (fun earlier failed => ∀ error, outcome failed = some (some error) →
      pauseEnd earlier failed error ≤ s.now) past := by
  refine h.pauses.imp fun earlier failed _ hpause error herror => ?_
  rcases hpause error herror with hover | hpausing
  · exact hover
  · exact hstart _ (by rw [hpausing.failures]; rfl)

/-- The current producer calls and records only when `next_start` has come. -/
theorem Paced.start_le (h : Paced past s) (hcurrent : s.OnlyCurrent e) (hg : advanced e = some g)
    (hcommits : s.commits g = true) : ∀ start ∈ s.failures.nextStart, start ≤ s.now := by
  have hgen := hcurrent g hg hcommits
  subst hgen
  unfold commits at hcommits
  split at hcommits
  · next hphase => exact h.heeds _ hphase
  · next hphase => exact h.heeds _ hphase
  · cases hcommits

/-- A call is made behind the pauses of all failures before it. -/
theorem Paced.waits_step (h : Paced past s) (hcurrent : s.OnlyCurrent e) :
    Each (fun before call => Calls call → Each (fun earlier failed => ∀ error,
      outcome failed = some (some error) → pauseEnd earlier failed error ≤ call.1.now) before)
      (past ++ [(s, e)]) := by
  refine each_concat.mpr ⟨h.waits, ?_⟩
  rintro ⟨g, rfl, hphase⟩
  exact h.over (h.start_le hcurrent rfl (by unfold commits; rw [hphase]))

/-- A step that records nothing leaves the streak. -/
theorem streak_none (h : outcome (s, e) = none) : streak (past ++ [(s, e)]) = streak past := by
  rw [streak_concat, h]

/-- A step that records nothing. -/
theorem Paced.of_unrecorded (h : Paced past s) (hcurrent : s.OnlyCurrent e)
    (hnone : outcome (s, e) = none) (hfailures : s'.failures = s.failures) (hnow : s.now ≤ s'.now)
    (hlast : ∀ start, s.failures.nextStart = some start → s.now < start →
      s'.lastFailure = s.lastFailure)
    (hheeds : ∀ p, s'.phase s'.producerGeneration = some p → p.Heeds s.failures.nextStart s'.now) :
    Paced (past ++ [(s, e)]) s' where
  waits := h.waits_step hcurrent
  count := by rw [hfailures, streak_none hnone, h.count]
  -- a pause of before is over, or still goes on
  pauses := by
    refine each_concat.mpr ⟨h.pauses.imp fun earlier failed _ hpause error herror => ?_, ?_⟩
    · rcases hpause error herror with hover | hpausing
      · exact .inl (hover.trans hnow)
      · by_cases hend : pauseEnd earlier failed error ≤ s.now
        · exact .inl (hend.trans hnow)
        · refine .inr ⟨hfailures.trans hpausing.failures, ?_⟩
          rw [hlast _ (by rw [hpausing.failures]) (Nat.lt_of_not_le hend), hpausing.lastFailure]
    · intro error herror
      rw [hnone] at herror
      cases herror
  heeds := by rwa [hfailures]

/-- A result of the current producer is recorded when no pause goes on. -/
theorem Paced.of_recorded {cancelled : Bool} {result : Option BridgeError} (h : Paced past s)
    (hcurrent : s.OnlyCurrent (.advance g))
    (htask : s.tasks g = some ⟨cancelled, .recording result⟩) :
    Paced (past ++ [(s, .advance g)]) (s.recordResult g cancelled result) := by
  have hphase : s.phase g = some (.recording result) := by
    rw [RawInner.phase, htask, Option.map_some]
  have hcommits : s.commits g = true := by unfold commits; rw [hphase]
  have houtcome : outcome (s, .advance g) = some (if cancelled then none else result) := by
    simp only [outcome, htask]
  have hover := h.over (h.start_le hcurrent rfl hcommits)
  -- the task that has recorded is at its end
  have hheeds : ∀ p, (s.recordResult g cancelled result).phase s.producerGeneration = some p →
      p.Heeds (s.recordResult g cancelled result).failures.nextStart s.now := by
    intro p hp
    rw [hcurrent g rfl hcommits,
      show (s.recordResult g cancelled result).phase = _ from phase_goto htask .finished,
      Function.update_self] at hp
    obtain rfl := Option.some.inj hp
    trivial
  -- a success or a cancellation ends the streak
  have hreset : outcome (s, .advance g) = some none →
      (s.recordResult g cancelled result).failures = {} →
      Paced (past ++ [(s, .advance g)]) (s.recordResult g cancelled result) := by
    intro hnone hfailures
    refine ⟨h.waits_step hcurrent, ?_, ?_, hheeds⟩
    · rw [streak_concat, hnone, hfailures]
      rfl
    · refine each_concat.mpr ⟨hover.imp fun earlier failed _ hend error herror =>
        .inl (hend error herror), fun error herror => ?_⟩
      rw [hnone] at herror
      cases herror
  cases cancelled with
  | true => exact hreset houtcome rfl
  | false =>
    cases result with
    | none => exact hreset houtcome rfl
    -- the failure is counted, and its pause begins
    | some error =>
      have hfailures : (s.recordResult g false (some error)).failures =
          ⟨min (streak past + 1) 4294967295, some (pauseEnd past (s, .advance g) error)⟩ := by
        show s.failures.record error s.now = _
        rw [Failures.record_eq, h.count, backoffAfter_min]
        congr 1
        omega
      refine ⟨h.waits_step hcurrent, ?_, ?_, hheeds⟩
      · rw [streak_concat, houtcome, hfailures]
        rfl
      · refine each_concat.mpr ⟨hover.imp fun earlier failed _ hend found hfound =>
          .inl (hend found hfound), fun found hfound => ?_⟩
        rw [houtcome] at hfound
        obtain rfl : error = found := Option.some.inj (Option.some.inj hfound)
        exact .inr ⟨hfailures, rfl⟩

/-- One leap. -/
theorem Paced.step (h : Paced past s) (hcurrent : s.OnlyCurrent e)
    (hleap : s.leap cfg e = some s') :
    Paced (past ++ [(s, e)]) s' := by
  cases leap_cases hleap with
  -- the shapes of a leap
  | kept hnone hphase hgen hfailures hlast hnow =>
    refine h.of_unrecorded hcurrent hnone hfailures hnow (fun _ _ _ => hlast) fun p hp => ?_
    rw [hphase, hgen] at hp
    exact (h.heeds p hp).mono hnow
  | moved hnone g p q hwas hphase hheeds hgen hfailures hlast hnow =>
    refine h.of_unrecorded hcurrent hnone hfailures hnow.ge
      (fun _ _ _ => hlast) fun found hfound => ?_
    rw [hphase, hgen] at hfound
    rw [hnow]
    by_cases hg : s.producerGeneration = g
    · subst hg
      rw [Function.update_self] at hfound
      obtain rfl := Option.some.inj hfound
      exact hheeds (h.heeds p hwas)
    · rw [Function.update_of_ne hg] at hfound
      exact h.heeds found hfound
  | started hnone hphase hfailures hlast hnow =>
    refine h.of_unrecorded hcurrent hnone hfailures hnow.ge hlast fun p hp => ?_
    rw [hphase] at hp
    obtain rfl := Option.some.inj hp
    trivial
  | recorded g cancelled result hwas heq =>
    subst heq
    exact h.of_recorded hcurrent hwas

/-- What is paced protects the camera. -/
theorem Paced.protects (h : Paced past s) : Protects past s where
  waits := h.waits
  count := h.count
  reports := h.pauses.imp fun earlier failed _ hpause error herror hnow => by
    rcases hpause error herror with hover | hpausing
    · exact absurd hnow (Nat.not_lt.mpr hover)
    · refine ⟨hpausing.failures, ?_⟩
      rw [startupError, hpausing.lastFailure]
      rfl

end Step

/-! ### Runs -/

/-- The backoff protects the camera, in every run in which no producer that was superseded calls
`stream_mpeg_ps` or enters `record_result`. -/
theorem backoff_protects (cfg : HubConfig) {es : List Event} {s : RawInner}
    (hrun : EventSystem.run (leap cfg) {} es = some s)
    (hcurrent : EventSystem.Steps (leap cfg) OnlyCurrent {} es) :
    Protects (EventSystem.trace (leap cfg) {} es) s := by
  have h := EventSystem.run_history_of Paced
    (fun past s e s' h hok hleap => h.step hok hleap) paced_new
    hcurrent hrun
  exact h.protects

/-- The camera is offline, and a subscriber that comes back waits for half a minute. -/
def samplePatience : List Event :=
  [.enter, .join 1, .hand 1, .advance 1, .advance 1, .ret 1 (some .cameraOffline), .advance 1,
    .advance 1, .tick (secs 5), .enter, .join 2, .advance 2, .tick (secs 25), .advance 2,
    .advance 2]

/-- The second call is made behind the pause of the failure before it. -/
theorem backoff_protects_sample :
    ∃ s, EventSystem.run (leap sampleConfig) {} samplePatience = some s ∧
      s.phase 2 = some .streaming ∧
        streak (EventSystem.trace (leap sampleConfig) {} samplePatience) = 1 ∧
      Protects (EventSystem.trace (leap sampleConfig) {} samplePatience) s :=
  ⟨_, rfl, by decide, by decide, backoff_protects sampleConfig rfl (by decide)⟩

def sampleSuperseded : List Event :=
  [.enter, .join 1, .hand 1, .advance 1, .unsubscribe 1, .enter, .join 2, .advance 2, .advance 2,
    .ret 2 (some .cameraOffline), .advance 2, .advance 2, .advance 1]

/-- A producer that was superseded may call in the pause of a failure of the new one. -/
theorem call_of_superseded :
    ¬∀ (cfg : HubConfig) (es : List Event) (s : RawInner),
      EventSystem.run (leap cfg) {} es = some s →
        Protects (EventSystem.trace (leap cfg) {} es) s := by
  intro h
  have hwaits := (h sampleConfig sampleSuperseded _ rfl).waits
  -- the last step is the call, and the one before it records the failure
  have hcall := hwaits ((EventSystem.trace (leap sampleConfig) {} sampleSuperseded).take 12)
    (_, _) [] rfl
    ⟨1, rfl, by decide⟩
  have hpause := hcall ((EventSystem.trace (leap sampleConfig) {} sampleSuperseded).take 11)
    (_, _) [] rfl
    .cameraOffline (by decide)
  exact absurd hpause (by decide)

end RawInner

end EzvizBridge
