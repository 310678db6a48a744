import EzvizBridge.Session.SingleFlight

/-!
# Cooldowns of the refresh

The store remembers one failure. That is enough: as long as the generation of a failure is the
current one, no other refresh can overwrite it before its cooldown is over, and afterwards no
refresh is for that generation any more.
-/

namespace EzvizBridge

namespace Session

/-! ### Shapes of a step -/

/-- The task has the lock and is not done. -/
def Stage.Busy : Stage → Prop
  | .waiting | .finished _ | .ended _ => False
  | _ => True

theorem Stage.Busy.holds {stage : Stage} (h : stage.Busy) : stage.Holds := by
  cases stage <;> first | exact h | trivial

/-- What a step does to the tasks, the generation, the clock and the failure. -/
inductive Effect (s s' : State) : Event → Prop
  | quiet {event : Event} (tasks : s'.tasks = s.tasks) (generation : s'.generation = s.generation)
      (failure : s'.failure = s.failure) (clock : s.clock ≤ s'.clock)
      (no_release : ∀ task, event ≠ .release task) : Effect s s' event
  | moved {event : Event} (id : ℕ) (work : Work) (new : Stage)
      (old : s.tasks id = none ∧ new = .waiting ∨ s.tasks id = some ⟨work, .waiting⟩ ∨
        ∃ old, s.tasks id = some ⟨work, old⟩ ∧ old.Busy)
      (new_not_ok : new ≠ .finished (.ok ())) (new_not_ended : ∀ result, new ≠ .ended result)
      (tasks : s'.tasks = Function.update s.tasks id (some ⟨work, new⟩))
      (generation : s'.generation = s.generation) (failure : s'.failure = s.failure)
      (clock : s'.clock = s.clock) (no_release : ∀ task, event ≠ .release task) : Effect s s' event
  | bumped (id : ℕ) (work : Work) (old : s.tasks id = some ⟨work, .swapped⟩)
      (tasks : s'.tasks = Function.update s.tasks id (some ⟨work, .finished (.ok ())⟩))
      (generation : s'.generation = if work.renews then s.generation + 1 else s.generation)
      (failure : s'.failure = s.failure) (clock : s'.clock = s.clock) : Effect s s' (.bump id)
  | released (id : ℕ) (work : Work) (result : Except BridgeError Unit)
      (old : s.tasks id = some ⟨work, .finished result⟩)
      (tasks : s'.tasks = Function.update s.tasks id (some ⟨work, .ended result⟩))
      (generation : s'.generation = s.generation)
      (failure : s'.failure = work.record s.failure s.clock result) (clock : s'.clock = s.clock) :
      Effect s s' (.release id)
  | spawned (call id : ℕ) (old : s.tasks id = none)
      (tasks : s'.tasks = Function.update s.tasks id (some ⟨.rotate s.generation, .holding⟩))
      (cool : recentFailure s.failure s.clock s.generation = none)
      (generation : s'.generation = s.generation) (failure : s'.failure = s.failure)
      (clock : s'.clock = s.clock) : Effect s s' (.enter call id)

/-- A step of the task with the lock that leaves generation, failure and clock alone. -/
theorem Effect.of_put {s s' : State} {event : Event} {id : ℕ} {work : Work} {old new : Stage}
    (hid : s.tasks id = some ⟨work, old⟩)
    (htasks : s'.tasks = Function.update s.tasks id (some ⟨work, new⟩)) (hbusy : old.Busy)
    (hnew : new ≠ .finished (.ok ())) (hended : ∀ result, new ≠ .ended result)
    (hgen : s'.generation = s.generation) (hfailure : s'.failure = s.failure)
    (hclock : s'.clock = s.clock) (hevent : ∀ task, event ≠ .release task) : Effect s s' event :=
  .moved id work new (.inr (.inr ⟨old, hid, hbusy⟩)) hnew hended htasks hgen hfailure hclock hevent

/-- Every step has one of the shapes. -/
theorem effect_of_step {s s' : State} {event : Event} (h : step s event = some s') :
    Effect s s' event := by
  -- on the event; where it is not enabled there is no step
  cases event with
  | update id change =>
    change s.start id _ = _ at h
    unfold State.start at h
    split at h
    case h_2 => exact nomatch h
    case h_1 hid =>
    obtain rfl := Option.some.inj h
    exact .moved id _ _ (.inl ⟨hid, rfl⟩) nofun nofun rfl rfl rfl rfl nofun
  | adopt id name =>
    change s.start id _ = _ at h
    unfold State.start at h
    split at h
    case h_2 => exact nomatch h
    case h_1 hid =>
    obtain rfl := Option.some.inj h
    exact .moved id _ _ (.inl ⟨hid, rfl⟩) nofun nofun rfl rfl rfl rfl nofun
  | acquire id =>
    change s.acquire id = _ at h
    unfold State.acquire at h
    split at h
    case h_2 => exact nomatch h
    case h_1 work hid hfree =>
    obtain rfl := Option.some.inj h
    exact .moved id work .holding (.inr (.inl hid)) nofun nofun rfl rfl rfl rfl nofun
  | readToken id =>
    change s.readToken id = _ at h
    unfold State.readToken at h
    split at h
    case h_3 => exact nomatch h
    -- the token file can be read, and the feature code is known or not
    case h_1 seen hid _ =>
      split at h
      · obtain rfl := Option.some.inj h
        exact .of_put hid rfl trivial nofun nofun rfl rfl rfl nofun
      · obtain rfl := Option.some.inj h
        exact .of_put hid rfl trivial nofun nofun rfl rfl rfl nofun
    -- an update needs no request
    case h_2 change hid _ =>
      obtain rfl := Option.some.inj h
      exact .of_put hid rfl trivial nofun nofun rfl rfl rfl nofun
  | send id =>
    change s.send id = _ at h
    unfold State.send at h
    split at h
    case h_2 => exact nomatch h
    case h_1 seen current hid =>
    obtain rfl := Option.some.inj h
    exact .of_put hid rfl trivial nofun nofun rfl rfl rfl nofun
  | answer id reply =>
    change s.answer id reply = _ at h
    unfold State.answer at h
    split at h
    case h_2 => exact nomatch h
    case h_1 seen current hid =>
    -- the reply is an error, or a token
    split at h
    case h_1 error _ =>
      obtain rfl := Option.some.inj h
      exact .of_put hid rfl trivial nofun nofun rfl rfl rfl nofun
    case h_2 updated _ =>
      obtain ⟨-, rfl⟩ := EventSystem.guarded h
      exact .of_put hid rfl trivial nofun nofun rfl rfl rfl nofun
  | takeStaged id renamed =>
    change s.takeStaged id renamed = _ at h
    unfold State.takeStaged at h
    split at h
    case h_2 => exact nomatch h
    case h_1 name hid =>
    -- the staged token is missing, or its file is renamed or not
    split at h
    case h_1 error _ =>
      obtain rfl := Option.some.inj h
      exact .of_put hid rfl trivial nofun nofun rfl rfl rfl nofun
    case h_2 token _ =>
      split at h
      · obtain rfl := Option.some.inj h
        exact .of_put hid rfl trivial nofun nofun rfl rfl rfl nofun
      · obtain rfl := Option.some.inj h
        exact .of_put hid rfl trivial nofun nofun rfl rfl rfl nofun
  | write id written =>
    change s.write id written = _ at h
    unfold State.write at h
    split at h
    case h_2 => exact nomatch h
    case h_1 work token hid =>
    -- the file was written or not
    split at h
    all_goals
      obtain rfl := Option.some.inj h
      exact .of_put hid rfl trivial nofun nofun rfl rfl rfl nofun
  | swap id =>
    change s.swap id = _ at h
    unfold State.swap at h
    split at h
    case h_2 => exact nomatch h
    case h_1 work token hid =>
    obtain ⟨-, rfl⟩ := EventSystem.guarded h
    exact .of_put hid rfl trivial nofun nofun rfl rfl rfl nofun
  | bump id =>
    change s.bump id = _ at h
    unfold State.bump at h
    split at h
    case h_2 => exact nomatch h
    case h_1 work hid =>
    obtain rfl := Option.some.inj h
    exact .bumped id work hid rfl rfl rfl rfl
  | release id =>
    change s.release id = _ at h
    unfold State.release at h
    split at h
    case h_2 => exact nomatch h
    case h_1 work result hid =>
    obtain rfl := Option.some.inj h
    exact .released id work result hid rfl rfl rfl rfl
  | call id kind =>
    change s.call id kind = _ at h
    unfold State.call at h
    split at h
    case h_2 => exact nomatch h
    case h_1 hid =>
    obtain rfl := Option.some.inj h
    exact .quiet rfl rfl rfl le_rfl nofun
  | read id =>
    change s.read id = _ at h
    unfold State.read at h
    split at h
    case h_2 => exact nomatch h
    case h_1 =>
    obtain rfl := Option.some.inj h
    exact .quiet rfl rfl rfl le_rfl nofun
  | loadGeneration id =>
    change s.loadGeneration id = _ at h
    unfold State.loadGeneration at h
    split at h
    case h_2 => exact nomatch h
    case h_1 =>
    obtain rfl := Option.some.inj h
    exact .quiet rfl rfl rfl le_rfl nofun
  | reply id answer =>
    change s.reply id answer = _ at h
    unfold State.reply at h
    split at h
    case h_2 => exact nomatch h
    case h_1 =>
    obtain rfl := Option.some.inj h
    exact .quiet rfl rfl rfl le_rfl nofun
  | enter id task =>
    change s.enter id task = _ at h
    unfold State.enter at h
    split at h
    case h_2 => exact nomatch h
    case h_1 kind seen requests hid hfree htask =>
    -- the call joins the refresh under way, or starts one
    split at h
    case isTrue =>
      obtain rfl := Option.some.inj h
      exact .quiet rfl rfl rfl le_rfl nofun
    case isFalse heq =>
    obtain rfl := not_not.mp heq
    -- a failure that is recent is answered without a refresh
    split at h
    case h_1 error _ =>
      obtain rfl := Option.some.inj h
      exact .quiet rfl rfl rfl le_rfl nofun
    case h_2 hcool =>
      obtain rfl := Option.some.inj h
      exact .spawned id task htask rfl hcool rfl rfl rfl
  | join id =>
    change s.join id = _ at h
    unfold State.join at h
    split at h
    case h_2 => exact nomatch h
    case h_1 =>
    split at h
    case h_2 => exact nomatch h
    case h_1 =>
    obtain rfl := Option.some.inj h
    exact .quiet rfl rfl rfl le_rfl nofun
  | cancel id =>
    change s.cancel id = _ at h
    unfold State.cancel at h
    split at h
    case h_1 => exact nomatch h
    case h_2 => exact nomatch h
    case h_3 =>
    obtain rfl := Option.some.inj h
    exact .quiet rfl rfl rfl le_rfl nofun
  | enrol name token =>
    obtain ⟨-, rfl⟩ := EventSystem.guarded h
    exact .quiet rfl rfl rfl le_rfl nofun
  | consume rfSessionId =>
    obtain rfl := Option.some.inj h
    exact .quiet rfl rfl rfl le_rfl nofun
  | tick duration =>
    obtain rfl := Option.some.inj h
    exact .quiet rfl rfl rfl (Nat.le_add_right _ _) nofun

/-! ### Failures in the past of a run -/

/-- The cooldown after a failure, in milliseconds. -/
def cooldown (error : BridgeError) : ℕ :=
  if error = .reauthRequired then rejectedCooldown else transientCooldown

/-- A `rotate` for the generation has failed. -/
def Failed (generation : ℕ) (error : BridgeError) (point : State × Event) : Prop :=
  ∃ id, point.2 = .release id ∧
    point.1.tasks id = some ⟨.rotate generation, .finished (.error error)⟩

/-- An `adopt` has succeeded. -/
def Adopted (point : State × Event) : Prop :=
  ∃ id name, point.2 = .release id ∧ point.1.tasks id = some ⟨.adopt name, .finished (.ok ())⟩

/-- The record of a failure. -/
def failureOf (generation : ℕ) (error : BridgeError) (since : ℕ) : Failure :=
  ⟨generation, since, error = .reauthRequired⟩

/-- A recent failure is one whose cooldown is not over. -/
theorem recentFailure_failureOf {generation since now : ℕ} {error : BridgeError}
    (hle : since ≤ now) :
    recentFailure (some (failureOf generation error since)) now generation = none ↔
      since + cooldown error ≤ now := by
  unfold recentFailure failureOf cooldown
  simp only [ne_eq, not_true_eq_false, ↓reduceIte, decide_eq_true_eq]
  by_cases herror : error = .reauthRequired
  · simp only [herror, ↓reduceIte, ite_eq_right_iff, reduceCtorEq, imp_false, not_lt]
    omega
  · simp only [herror, ↓reduceIte, ite_eq_right_iff, reduceCtorEq, imp_false, not_lt]
    omega

/-- What is known of the failures so far. -/
structure Cooling (past : List (State × Event)) (s : State) : Prop where
  kept : s.Kept
  /-- No failure is of a later generation; one of this generation is over, or it is remembered. -/
  failed : ∀ generation error point, point ∈ past → Failed generation error point →
    point.1.clock ≤ s.clock ∧ generation ≤ s.generation ∧
      (generation = s.generation → point.1.clock + cooldown error ≤ s.clock ∨
        s.failure = some (failureOf generation error point.1.clock))
  /-- What is remembered has happened. -/
  remembered : ∀ failure, s.failure = some failure →
    ∃ generation error, ∃ point ∈ past, Failed generation error point ∧
      failure = failureOf generation error point.1.clock
  /-- A refresh under way is for this generation, and every cooldown of this generation is over. -/
  rotating : ∀ id seen stage, s.tasks id = some ⟨.rotate seen, stage⟩ → stage.Holds →
    stage ≠ .finished (.ok ()) → seen = s.generation ∧
      ∀ error, ∀ point ∈ past, Failed seen error point → point.1.clock + cooldown error ≤ s.clock
  /-- A task that has renewed the session has left all failures behind. -/
  renewed : ∀ id work, s.tasks id = some ⟨work, .finished (.ok ())⟩ → work.renews →
    ∀ generation error, ∀ point ∈ past, Failed generation error point → generation < s.generation

/-- A step that is no release adds no failure. -/
theorem failed_of_append {past : List (State × Event)} {s : State} {event : Event}
    (hevent : ∀ task, event ≠ .release task) {generation : ℕ} {error : BridgeError}
    {point : State × Event} (hmem : point ∈ past ++ [(s, event)])
    (h : Failed generation error point) : point ∈ past := by
  rcases List.mem_append.mp hmem with hmem | hmem
  · exact hmem
  · obtain rfl := List.mem_singleton.mp hmem
    obtain ⟨id, hid, -⟩ := h
    exact absurd hid (hevent id)

/-- A store that was just loaded knows of no failure. -/
theorem cooling_load (token : EzvizToken) (consumed issued : Finset String) :
    Cooling [] (State.load token consumed issued) where
  kept := State.kept_load token consumed issued
  failed _ _ _ hmem := absurd hmem List.not_mem_nil
  remembered _ h := (Option.some_ne_none _ h.symm).elim
  rotating _ _ _ h := (Option.some_ne_none _ h.symm).elim
  renewed _ _ _ _ _ _ _ hmem := absurd hmem List.not_mem_nil

namespace Cooling

variable {past : List (State × Event)} {s s' : State}

/-- What is remembered has happened, also behind one more step. -/
theorem remembers {event : Event} (h : Cooling past s) {failure : Failure}
    (hf : s.failure = some failure) :
    ∃ generation error, ∃ point ∈ past ++ [(s, event)], Failed generation error point ∧
      failure = failureOf generation error point.1.clock := by
  obtain ⟨generation, error, point, hmem, hpoint⟩ := h.remembered failure hf
  exact ⟨generation, error, point, List.mem_append_left _ hmem, hpoint⟩

/-- Beside a task that holds the lock no other one is under way. -/
theorem idle (h : Cooling past s) {id : ℕ} {task : Task} (hold : s.tasks id = some task)
    (hholds : task.stage.Holds) (j : ℕ) (other : Work) (stage : Stage) (hne : j ≠ id)
    (hj : s.tasks j = some ⟨other, stage⟩) : ¬stage.Holds := by
  intro hboth
  have hlock := (h.kept.working.locked.holds j _ hj).mp hboth
  rw [(h.kept.working.locked.holds id _ hold).mp hholds] at hlock
  exact hne (Option.some.inj hlock).symm

/-- Neither the tasks nor the failure have changed. -/
theorem quiet {event : Event} (h : Cooling past s) (hkept : s'.Kept) (htasks : s'.tasks = s.tasks)
    (hgen : s'.generation = s.generation) (hfailure : s'.failure = s.failure)
    (hclock : s.clock ≤ s'.clock) (hevent : ∀ task, event ≠ .release task) :
    Cooling (past ++ [(s, event)]) s' where
  kept := hkept
  -- the failures are those of before, and the clock has only moved on
  failed := by
    intro generation error point hmem hfailed
    obtain ⟨hbefore, hle, hcase⟩ :=
      h.failed generation error point (failed_of_append hevent hmem hfailed) hfailed
    rw [hgen, hfailure]
    refine ⟨hbefore.trans hclock, hle, fun heq => ?_⟩
    exact (hcase heq).imp_left fun hover => hover.trans hclock
  remembered _ hf := h.remembers (hfailure ▸ hf)
  -- the refreshes are those of before
  rotating := by
    rw [htasks, hgen]
    intro id seen stage hid hholds hne
    obtain ⟨hseen, hover⟩ := h.rotating id seen stage hid hholds hne
    refine ⟨hseen, fun error point hmem hfailed => ?_⟩
    exact (hover error point (failed_of_append hevent hmem hfailed) hfailed).trans hclock
  renewed := by
    rw [htasks, hgen]
    intro id work hid hrenews generation error point hmem hfailed
    exact h.renewed id work hid hrenews generation error point
      (failed_of_append hevent hmem hfailed) hfailed

/-- A task has moved, and is not done. -/
theorem moved {event : Event} {id : ℕ} {work : Work} {new : Stage} (h : Cooling past s)
    (hkept : s'.Kept)
    (hold : s.tasks id = none ∧ new = .waiting ∨ s.tasks id = some ⟨work, .waiting⟩ ∨
      ∃ old, s.tasks id = some ⟨work, old⟩ ∧ old.Busy)
    (hnew : new ≠ .finished (.ok ()))
    (htasks : s'.tasks = Function.update s.tasks id (some ⟨work, new⟩))
    (hgen : s'.generation = s.generation) (hfailure : s'.failure = s.failure)
    (hclock : s'.clock = s.clock) (hevent : ∀ task, event ≠ .release task) :
    Cooling (past ++ [(s, event)]) s' where
  kept := hkept
  failed := by
    intro generation error point hmem hfailed
    rw [hgen, hfailure, hclock]
    exact h.failed generation error point (failed_of_append hevent hmem hfailed) hfailed
  remembered _ hf := h.remembers (hfailure ▸ hf)
  rotating := by
    rw [htasks, hgen, hclock]
    intro j seen stage hj hholds hne
    -- the refresh was under way before the step, in another stage or in this one
    have hbefore : ∃ old, s.tasks j = some ⟨.rotate seen, old⟩ ∧ old.Holds ∧
        old ≠ .finished (.ok ()) := by
      rcases of_update_eq_some hj with ⟨rfl, heq⟩ | ⟨_, hj⟩
      · obtain ⟨rfl, rfl⟩ := Task.mk.inj heq
        -- a task that was not there before has not reached the lock
        rcases hold with ⟨-, rfl⟩ | hwait | ⟨old, hid, hbusy⟩
        · exact hholds.elim
        · exact absurd hwait (h.kept.working.prompt j seen)
        · refine ⟨old, hid, hbusy.holds, ?_⟩
          rintro rfl
          exact hbusy
      · exact ⟨stage, hj, hholds, hne⟩
    obtain ⟨old, hid, hold, hne'⟩ := hbefore
    obtain ⟨hseen, hover⟩ := h.rotating j seen old hid hold hne'
    exact ⟨hseen, fun error point hmem hfailed =>
      hover error point (failed_of_append hevent hmem hfailed) hfailed⟩
  renewed := by
    rw [htasks, hgen]
    intro j other hj hrenews generation error point hmem hfailed
    rcases of_update_eq_some hj with ⟨rfl, heq⟩ | ⟨_, hj⟩
    -- the task is not done, so it has renewed nothing
    · exact absurd (Task.mk.inj heq).2 hnew
    · exact h.renewed j other hj hrenews generation error point
        (failed_of_append hevent hmem hfailed) hfailed

/-- The generation is counted up: all failures are of an earlier one. -/
theorem bumped {id : ℕ} {work : Work} (h : Cooling past s) (hkept : s'.Kept)
    (hold : s.tasks id = some ⟨work, .swapped⟩)
    (htasks : s'.tasks = Function.update s.tasks id (some ⟨work, .finished (.ok ())⟩))
    (hgen : s'.generation = if work.renews then s.generation + 1 else s.generation)
    (hfailure : s'.failure = s.failure) (hclock : s'.clock = s.clock) :
    Cooling (past ++ [(s, .bump id)]) s' := by
  have hevent : ∀ task, Event.bump id ≠ .release task := nofun
  have hidle := h.idle hold trivial
  refine ⟨hkept, ?_, ?_, ?_, ?_⟩
  -- the failures of the generation are now those of an earlier one
  · intro generation error point hmem hfailed
    obtain ⟨hbefore, hle, hcase⟩ :=
      h.failed generation error point (failed_of_append hevent hmem hfailed) hfailed
    rw [hgen, hfailure, hclock]
    refine ⟨hbefore, ?_, ?_⟩
    · split
      · exact Nat.le_succ_of_le hle
      · exact hle
    · split
      · intro heq
        exact absurd (heq ▸ hle) (Nat.not_succ_le_self _)
      · exact hcase
  · exact fun _ hf => h.remembers (hfailure ▸ hf)
  -- this task is done, and no other one holds the lock
  · rw [htasks]
    intro j seen stage hj hholds hne
    rcases of_update_eq_some hj with ⟨rfl, heq⟩ | ⟨hother, hj⟩
    · exact absurd (Task.mk.inj heq).2.symm hne
    · exact absurd hholds (hidle j _ stage hother hj)
  -- all failures are of a generation below the new one
  · rw [htasks, hgen]
    intro j other hj hrenews generation error point hmem hfailed
    obtain ⟨-, hle, -⟩ :=
      h.failed generation error point (failed_of_append hevent hmem hfailed) hfailed
    rcases of_update_eq_some hj with ⟨rfl, heq⟩ | ⟨hother, hj⟩
    · obtain ⟨rfl, -⟩ := Task.mk.inj heq
      rw [if_pos hrenews]
      exact Nat.lt_succ_of_le hle
    · exact absurd trivial (hidle j _ _ hother hj)

/-- A new refresh starts: no failure of its generation is recent. -/
theorem spawned {call id : ℕ} (h : Cooling past s) (hkept : s'.Kept) (hold : s.tasks id = none)
    (htasks : s'.tasks = Function.update s.tasks id (some ⟨.rotate s.generation, .holding⟩))
    (hcool : recentFailure s.failure s.clock s.generation = none)
    (hgen : s'.generation = s.generation) (hfailure : s'.failure = s.failure)
    (hclock : s'.clock = s.clock) : Cooling (past ++ [(s, .enter call id)]) s' := by
  have hevent : ∀ task, Event.enter call id ≠ .release task := nofun
  -- the check of the recent failure says that the cooldown is over
  have hover : ∀ error, ∀ point ∈ past, Failed s.generation error point →
      point.1.clock + cooldown error ≤ s.clock := by
    intro error point hmem hfailed
    obtain ⟨hbefore, -, hcase⟩ := h.failed s.generation error point hmem hfailed
    rcases hcase rfl with hover | hslot
    · exact hover
    · rw [hslot] at hcool
      exact (recentFailure_failureOf hbefore).mp hcool
  refine ⟨hkept, ?_, ?_, ?_, ?_⟩
  · intro generation error point hmem hfailed
    rw [hgen, hfailure, hclock]
    exact h.failed generation error point (failed_of_append hevent hmem hfailed) hfailed
  · exact fun _ hf => h.remembers (hfailure ▸ hf)
  -- the new refresh is for the current generation
  · rw [htasks, hgen, hclock]
    intro j seen stage hj hholds hne
    rcases of_update_eq_some hj with ⟨rfl, heq⟩ | ⟨_, hj⟩
    · obtain ⟨hwork, -⟩ := Task.mk.inj heq
      obtain rfl := Work.rotate.inj hwork
      exact ⟨rfl, fun error point hmem hfailed =>
        hover error point (failed_of_append hevent hmem hfailed) hfailed⟩
    · obtain ⟨hseen, hpast⟩ := h.rotating j seen stage hj hholds hne
      exact ⟨hseen, fun error point hmem hfailed =>
        hpast error point (failed_of_append hevent hmem hfailed) hfailed⟩
  · rw [htasks, hgen]
    intro j other hj hrenews generation error point hmem hfailed
    rcases of_update_eq_some hj with ⟨rfl, heq⟩ | ⟨_, hj⟩
    · exact nomatch (Task.mk.inj heq).2
    · exact h.renewed j other hj hrenews generation error point
        (failed_of_append hevent hmem hfailed) hfailed

/-- A task records its result: the failure that it overwrites is over, or of an earlier
generation. -/
theorem released {id : ℕ} {work : Work} {result : Except BridgeError Unit} (h : Cooling past s)
    (hkept : s'.Kept) (hold : s.tasks id = some ⟨work, .finished result⟩)
    (htasks : s'.tasks = Function.update s.tasks id (some ⟨work, .ended result⟩))
    (hgen : s'.generation = s.generation)
    (hfailure : s'.failure = work.record s.failure s.clock result) (hclock : s'.clock = s.clock) :
    Cooling (past ++ [(s, .release id)]) s' := by
  have hidle := h.idle hold trivial
  -- the point is a new one only if this is a refresh that has failed
  have hnew : ∀ generation error, Failed generation error (s, .release id) →
      work = .rotate generation ∧ result = .error error := by
    rintro generation error ⟨j, hj, htask⟩
    obtain rfl := Event.release.inj hj
    obtain ⟨hwork, hstage⟩ := Task.mk.inj (Option.some.inj (hold.symm.trans htask))
    exact ⟨hwork, Stage.finished.inj hstage⟩
  refine ⟨hkept, ?_, ?_, ?_, ?_⟩
  · intro generation error point hmem hfailed
    rw [hgen, hfailure, hclock]
    -- a failure that was recorded before
    rcases List.mem_append.mp hmem with hmem | hmem
    · obtain ⟨hbefore, hle, hcase⟩ := h.failed generation error point hmem hfailed
      refine ⟨hbefore, hle, fun heq => ?_⟩
      cases work with
      -- a refresh records its result, an adoption its success only
      | rotate seen =>
        cases result with
        | ok _ =>
          have hlt := h.renewed id _ hold rfl generation error point hmem hfailed
          exact absurd heq hlt.ne
        | error other =>
          obtain ⟨rfl, hover⟩ := h.rotating id seen _ hold trivial nofun
          exact .inl (hover error point hmem (heq ▸ hfailed))
      | update _ => exact hcase heq
      | adopt _ =>
        cases result with
        | ok _ =>
          have hlt := h.renewed id _ hold rfl generation error point hmem hfailed
          exact absurd heq hlt.ne
        | error _ => exact hcase heq
    -- the failure that is recorded now
    · obtain rfl := List.mem_singleton.mp hmem
      obtain ⟨rfl, rfl⟩ := hnew generation error hfailed
      obtain ⟨rfl, -⟩ := h.rotating id generation _ hold trivial nofun
      exact ⟨le_rfl, le_rfl, fun _ => .inr rfl⟩
  -- the slot holds the failure of before, or the new one
  · intro failure hf
    rw [hfailure] at hf
    cases work with
    | rotate seen =>
      cases result with
      | ok _ => exact nomatch hf
      | error error =>
        refine ⟨seen, error, (s, .release id), List.mem_append_right _ (List.mem_singleton_self _),
          ⟨id, rfl, hold⟩, (Option.some.inj hf).symm⟩
    | update _ => exact h.remembers hf
    | adopt _ =>
      cases result with
      | ok _ => exact nomatch hf
      | error _ => exact h.remembers hf
  -- the lock is free now
  · rw [htasks]
    intro j seen stage hj hholds hne
    rcases of_update_eq_some hj with ⟨rfl, heq⟩ | ⟨hother, hj⟩
    · rw [← (Task.mk.inj heq).2] at hholds
      exact hholds.elim
    · exact absurd hholds (hidle j _ stage hother hj)
  · rw [htasks]
    intro j other hj
    rcases of_update_eq_some hj with ⟨rfl, heq⟩ | ⟨hother, hj⟩
    · exact nomatch (Task.mk.inj heq).2
    · exact absurd trivial (hidle j _ _ hother hj)

/-- What one step preserves. -/
theorem step {event : Event} (h : Cooling past s) (hs : Session.step s event = some s') :
    Cooling (past ++ [(s, event)]) s' := by
  -- the shapes of a step, one lemma for each
  have hkept := h.kept.step hs
  cases effect_of_step hs with
  | quiet htasks hgen hfailure hclock hevent =>
    exact h.quiet hkept htasks hgen hfailure hclock hevent
  | moved id work new hold hnew _ htasks hgen hfailure hclock hevent =>
    exact h.moved hkept hold hnew htasks hgen hfailure hclock hevent
  | bumped id work hold htasks hgen hfailure hclock =>
    exact h.bumped hkept hold htasks hgen hfailure hclock
  | released id work result hold htasks hgen hfailure hclock =>
    exact h.released hkept hold htasks hgen hfailure hclock
  | spawned call id hold htasks hcool hgen hfailure hclock =>
    exact h.spawned hkept hold htasks hcool hgen hfailure hclock

/-- On a whole run. -/
theorem run {token : EzvizToken} {consumed issued : Finset String} {events : List Event}
    (hrun : EventSystem.run Session.step (State.load token consumed issued) events = some s) :
    Cooling (EventSystem.trace Session.step (State.load token consumed issued) events) s := by
  have h := EventSystem.run_history Cooling (fun _ _ _ _ hc hs => hc.step hs)
    (cooling_load token consumed issued) hrun
  rwa [List.nil_append] at h

/-- Nothing is recent if no failure of the generation is. -/
theorem recentFailure_eq_none (h : Cooling past s)
    (hover : ∀ error, ∀ point ∈ past, Failed s.generation error point →
      point.1.clock + cooldown error ≤ s.clock) :
    recentFailure s.failure s.clock s.generation = none := by
  cases hslot : s.failure with
  | none => rfl
  -- the slot holds the last failure, of this generation or of another one
  | some failure =>
    obtain ⟨generation, error, point, hmem, hfailed, rfl⟩ := h.remembered failure hslot
    -- its cooldown is over by assumption
    by_cases hgen : generation = s.generation
    · subst hgen
      obtain ⟨hbefore, -, -⟩ := h.failed _ error point hmem hfailed
      exact (recentFailure_failureOf hbefore).mpr (hover error point hmem hfailed)
    · exact if_pos hgen

end Cooling

/-! ### Results -/

/-- The call sends a refresh, and no time has to pass. -/
def SendsAtOnce (s : State) (id task : ℕ) : Prop :=
  ∃ s', EventSystem.run step s [.enter id task, .readToken task, .send task] = some s' ∧
    s'.clock = s.clock ∧
    s'.log = s.log ++ [.sent s.token.rfSessionId s.generation s.generation]

/-- A call that finds the lock free and no recent failure sends its refresh in the next three steps.
-/
theorem sendsAtOnce {s : State} (hkept : s.Kept) {id task : ℕ} {kind : CallKind}
    {requests : List (EzvizToken × ℕ)} (hfree : s.lock = none)
    (hcall : s.calls id = some ⟨kind, .locking s.generation, requests⟩)
    (htask : s.tasks task = none) (hfeature : s.token.featureCode.isSome)
    (hcool : recentFailure s.failure s.clock s.generation = none) : SendsAtOnce s id task := by
  have hwriter := hkept.working.locked.writer_of_free hfree
  obtain ⟨feature, hfeature⟩ := Option.isSome_iff_exists.mp hfeature
  -- the three steps, one after the other
  let s₁ : State :=
    { (s.setCall id ⟨kind, .joined s.generation task, requests⟩).put task (.rotate s.generation)
        .holding with lock := some task }
  have hstep₁ : step s (.enter id task) = some s₁ := by
    simp only [step, State.enter, hcall, hfree, htask, ne_eq, not_true_eq_false, ↓reduceIte, hcool]
    rfl
  let s₂ : State := s₁.put task (.rotate s.generation) (.requesting s.token)
  have hstep₂ : step s₁ (.readToken task) = some s₂ := by
    have htask₁ : s₁.tasks task = some ⟨.rotate s.generation, .holding⟩ :=
      Function.update_self _ _ _
    have hwriter₁ : s₁.writer = none := hwriter
    have hfeature₁ : s₁.token.featureCode = some feature := hfeature
    simp only [step, State.readToken, htask₁, hwriter₁, hfeature₁]
    rfl
  have htask₂ : s₂.tasks task = some ⟨.rotate s.generation, .requesting s.token⟩ :=
    Function.update_self _ _ _
  let s₃ : State :=
    { s₂.put task (.rotate s.generation) (.sent s.token) with
      log := s₂.log ++ [.sent s.token.rfSessionId s.generation s₂.generation] }
  have hstep₃ : step s₂ (.send task) = some s₃ := by
    simp only [step, State.send, htask₂]
    rfl
  refine ⟨s₃, ?_, rfl, rfl⟩
  rw [EventSystem.run, hstep₁, Option.bind_some, EventSystem.run, hstep₂, Option.bind_some,
    EventSystem.run, hstep₃, Option.bind_some, EventSystem.run]

/-- Any run of the store: a refresh for a generation is not sent before the cooldowns of all its
failures are over; no other failure makes a refresh wait; and none does after an adoption. -/
theorem refresh_cooldowns {token : EzvizToken} {consumed issued : Finset String}
    {events : List Event} {s : State}
    (hrun : EventSystem.run step (State.load token consumed issued) events = some s) :
    (∀ generation error, ∀ point ∈ EventSystem.trace step (.load token consumed issued) events,
      Failed generation error point → ∀ id current,
        s.tasks id = some ⟨.rotate generation, .requesting current⟩ →
          point.1.clock + cooldown error ≤ s.clock) ∧
      (∀ current reply, refreshedSession reply = .error .reauthRequired →
        refreshedToken current (.ok reply) = .error .reauthRequired) ∧
      (∀ id task kind requests, s.lock = none →
        s.calls id = some ⟨kind, .locking s.generation, requests⟩ → s.tasks task = none →
        s.token.featureCode.isSome →
        (∀ error, ∀ point ∈ EventSystem.trace step (.load token consumed issued) events,
          Failed s.generation error point → point.1.clock + cooldown error ≤ s.clock) →
        SendsAtOnce s id task) ∧
      ∀ earlier adoption later,
        EventSystem.trace step (.load token consumed issued) events =
          earlier ++ adoption :: later →
        Adopted adoption → adoption.1.generation = s.generation →
        (∀ error, ∀ point ∈ later, ¬Failed s.generation error point) →
        ∀ id task kind requests, s.lock = none →
          s.calls id = some ⟨kind, .locking s.generation, requests⟩ → s.tasks task = none →
          s.token.featureCode.isSome → SendsAtOnce s id task := by
  -- the invariant of the run, and then its four readings
  have h := Cooling.run hrun
  refine ⟨?_, ?_, ?_, ?_⟩
  · intro generation error point hmem hfailed id current hid
    exact (h.rotating id generation _ hid trivial nofun).2 error point hmem hfailed
  · intro current reply hreply
    simp only [refreshedToken, hreply, bind, Except.bind]
  · intro id task kind requests hfree hcall htask hfeature hover
    exact sendsAtOnce h.kept hfree hcall htask hfeature (h.recentFailure_eq_none hover)
  · rintro earlier ⟨m, event⟩ later htrace
      ⟨adopter, name, hevent, hadopter⟩ hgen hlater id task kind
      requests hfree hcall htask hfeature
    refine sendsAtOnce h.kept hfree hcall htask hfeature (h.recentFailure_eq_none ?_)
    intro error point hmem hfailed
    rw [htrace] at hmem
    -- every failure of this generation would be before the adoption or after it
    rcases List.mem_append.mp hmem with hmem | hmem
    · -- a failure before the adoption is of an earlier generation
      obtain ⟨before, after, -, hbefore, htrace'⟩ := EventSystem.trace_split hrun htrace
      have hlt := (Cooling.run hbefore).renewed adopter _ hadopter rfl s.generation error point
        (htrace' ▸ hmem) hfailed
      exact absurd hgen.symm hlt.ne
    -- the adoption itself is no failure
    · rcases List.mem_cons.mp hmem with rfl | hmem
      · obtain ⟨other, hother, hrotate⟩ := hfailed
        obtain rfl := Event.release.inj (hevent.symm.trans hother)
        exact nomatch hadopter.symm.trans hrotate
      · exact absurd hfailed (hlater error point hmem)

def sampleRetry : List Event :=
  [.call 0 (.refresh 0), .enter 0 0, .readToken 0, .send 0, .answer 0 (.error (.http "timeout")),
    .release 0, .call 1 (.refresh 0), .tick 10000, .enter 1 1, .readToken 1]

/-- The task asks for a new token. -/
def asksForToken : Option Task → Bool
  | some ⟨.rotate 0, .requesting _⟩ => true
  | _ => false

/-- A refresh fails, and is tried again after its cooldown. -/
theorem refresh_cooldowns_sample :
    ∃ s, EventSystem.run step (State.load sampleToken ∅ ∅) sampleRetry = some s ∧
      s.clock = 10000 ∧
      (∃ current, s.tasks 1 = some ⟨.rotate 0, .requesting current⟩) ∧
      ∀ error, ∀ point ∈ EventSystem.trace step (.load sampleToken ∅ ∅) sampleRetry,
        Failed 0 error point → point.1.clock + cooldown error ≤ s.clock := by
  have hsome : (EventSystem.run step (State.load sampleToken ∅ ∅) sampleRetry).isSome := by
    decide +kernel
  have hclock : ∀ s ∈ EventSystem.run step (State.load sampleToken ∅ ∅) sampleRetry,
      s.clock = 10000 := by
    decide +kernel
  have hfacts : ∀ s ∈ EventSystem.run step (State.load sampleToken ∅ ∅) sampleRetry,
      asksForToken (s.tasks 1) = true := by
    decide +kernel
  obtain ⟨s, hs⟩ := Option.isSome_iff_exists.mp hsome
  have htask := hfacts s hs
  unfold asksForToken at htask
  split at htask
  case h_2 => cases htask
  case h_1 current hcurrent =>
  refine ⟨s, hs, hclock s hs, ⟨current, hcurrent⟩, ?_⟩
  intro error point hmem hfailed
  exact (refresh_cooldowns hs).1 0 error point hmem hfailed 1 current hcurrent

end Session

end EzvizBridge
