import EzvizBridge.Lib.EventSystem
import EzvizBridge.Lib.Roster

/-!
# Serialized writes and PTZ steps

`update`, `ptz` and `set_account_defence` of `controls/update.rs`, as an event system: in what order
they take the lock `writes`, read, write, read back and roll back. What the reads return is up to
the vendor. A call may be dropped wherever it waits; then it lets go of the lock, and the request it
waits for is gone. The PTZ step is a detached task: it goes on when its call is dropped.

`issued` and `stopFailed` are not in the program: they record the commands of a PTZ step.
-/

namespace EzvizBridge

namespace Controls

namespace Writes

open Roster

/-- `PtzDirection`. -/
inductive PtzDirection
  | up
  | down
  | left
  | right
  deriving DecidableEq

/-- `PtzAction`. -/
inductive PtzAction
  | start
  | stop
  deriving DecidableEq

/-- `VERIFY_DELAYS.len()`. -/
def verifyDelays : ℕ := 3

/-- What is called. -/
inductive Operation
  | update
  | ptz (camera : String) (direction : PtzDirection)
  | setAccountDefence
  deriving DecidableEq

/-- How far a call is. -/
inductive Phase
  /-- Waits for the lock. -/
  | waiting
  /-- Has the lock, and reads the controls, the snapshot or the mode. -/
  | reading
  /-- Waits for the write. -/
  | writing (undoable : Bool)
  /-- Waits for a delay or a read-back; so many are left, and one may have shown another value. -/
  | verifying (undoable : Bool) (left : ℕ) (mismatch : Bool)
  /-- Waits for the rollback. -/
  | undoing
  /-- Drops the cached reads. -/
  | invalidating
  /-- `ptz` waits for its task. -/
  | stepping (task : ℕ)
  | ended
  | dropped
  deriving DecidableEq

/-- A call. -/
structure Call where
  operation : Operation
  phase : Phase := .waiting
  deriving DecidableEq

/-- How far a PTZ step is. -/
inductive Stage
  | spawned
  | starting
  | stopping
  /-- The first STOP has failed. -/
  | stoppingAgain
  | done
  deriving DecidableEq

/-- The detached task of a `ptz`. -/
structure Task where
  camera : String
  direction : PtzDirection
  stage : Stage := .spawned
  issued : List PtzAction := []
  stopFailed : Bool := false
  deriving DecidableEq

/-- The service, as far as writes go. -/
structure State where
  /-- The call that has the lock `writes`. -/
  writes : Option ℕ := none
  calls : List Call := []
  tasks : List Task := []
  deriving DecidableEq

/-- What can happen. -/
inductive Event
  | call (operation : Operation)
  | lock (i : ℕ)
  /-- The first read of a call ends: the call returns, or it goes on. `undoable` is whether there is
  a previous value to go back to; for `update` there always is. -/
  | read (i : ℕ) (proceed : Bool) (undoable : Bool)
  | wrote (i : ℕ) (ok : Bool)
  /-- A read-back ends: with the desired value, without it, or not at all. -/
  | readBack (i : ℕ) (matches_ : Option Bool)
  | undone (i : ℕ)
  | invalidated (i : ℕ)
  /-- The task sends START. -/
  | begin (k : ℕ)
  /-- The command of the task returns. -/
  | answered (k : ℕ) (ok : Bool)
  /-- The task of the call has ended. -/
  | joined (i : ℕ)
  /-- The client has gone. -/
  | drop (i : ℕ)

/-- The call has the lock. -/
def Phase.holds : Phase → Bool
  | .waiting | .ended | .dropped => false
  | _ => true

/-- The call waits for a vendor write. -/
def Phase.writes : Phase → Bool
  | .writing _ | .undoing => true
  | _ => false

/-- The call is at an await. -/
def Phase.live : Phase → Bool
  | .ended | .dropped => false
  | _ => true

namespace State

variable (s : State)

def setPhase (i : ℕ) (operation : Operation) (phase : Phase) : State :=
  { s with calls := s.calls.set i ⟨operation, phase⟩ }

/-- A call is over, and its guard is gone. -/
def finish (i : ℕ) (operation : Operation) (phase : Phase) : State :=
  { s with writes := if s.writes = some i then none else s.writes }.setPhase i operation phase

end State

/-- What follows when no read-back is left. -/
def Phase.verdict (undoable mismatch : Bool) : Phase :=
  if undoable && mismatch then .undoing else .invalidating

/-- The next command of a task. -/
def Task.answer (self : Task) (ok : Bool) : Option Task :=
  match self.stage with
  | .starting => some { self with stage := .stopping, issued := self.issued ++ [.stop] }
  | .stopping =>
    if ok then some { self with stage := .done }
    else
      some
        { self with
          stage := .stoppingAgain, issued := self.issued ++ [.stop], stopFailed := true }
  | .stoppingAgain => some { self with stage := .done }
  | .spawned | .done => none

/-- One step. -/
def step (s : State) : Event → Option State
  | .call operation => some { s with calls := s.calls ++ [{ operation }] }
  | .lock i =>
    match s.calls[i]?, s.writes with
    | some ⟨operation, .waiting⟩, none =>
      some ({ s with writes := some i }.setPhase i operation .reading)
    | _, _ => none
  | .read i proceed undoable =>
    match s.calls[i]? with
    | some ⟨operation, .reading⟩ =>
      if proceed then
        match operation with
        | .update => some (s.setPhase i operation (.writing true))
        | .setAccountDefence => some (s.setPhase i operation (.writing undoable))
        | .ptz camera direction =>
          let task : Task := { camera, direction }
          some
            ({ s with tasks := s.tasks ++ [task] }.setPhase i operation (.stepping s.tasks.length))
      else some (s.finish i operation .ended)
    | _ => none
  | .wrote i ok =>
    match s.calls[i]? with
    | some ⟨operation, .writing undoable⟩ =>
      some (s.setPhase i operation
        (if ok then .verifying undoable verifyDelays false else .invalidating))
    | _ => none
  | .readBack i matches_ =>
    match s.calls[i]? with
    | some ⟨operation, .verifying undoable (left + 1) mismatch⟩ =>
      match matches_ with
      | some true => some (s.finish i operation .ended)
      | other =>
        let mismatch := mismatch || other = some false
        some
          (s.setPhase i operation
            (if left = 0 then .verdict undoable mismatch else .verifying undoable left mismatch))
    | _ => none
  | .undone i =>
    match s.calls[i]? with
    | some ⟨operation, .undoing⟩ => some (s.setPhase i operation .invalidating)
    | _ => none
  | .invalidated i =>
    match s.calls[i]? with
    | some ⟨operation, .invalidating⟩ => some (s.finish i operation .ended)
    | _ => none
  | .begin k =>
    match s.tasks[k]? with
    | some ⟨camera, direction, .spawned, issued, stopFailed⟩ =>
      some
        { s with
          tasks := s.tasks.set k ⟨camera, direction, .starting, issued ++ [.start], stopFailed⟩ }
    | _ => none
  | .answered k ok =>
    match s.tasks[k]? with
    | some task => (task.answer ok).map fun task => { s with tasks := s.tasks.set k task }
    | none => none
  | .joined i =>
    match s.calls[i]? with
    | some ⟨operation, .stepping k⟩ =>
      if s.tasks[k]?.any fun task => task.stage = .done then some (s.finish i operation .ended)
      else none
    | _ => none
  | .drop i =>
    match s.calls[i]? with
    | some ⟨operation, phase⟩ => if phase.live then some (s.finish i operation .dropped) else none
    | none => none

/-! ### What a step can do -/

/-- The task that the call waits for. -/
def Phase.task : Phase → Option ℕ
  | .stepping k => some k
  | _ => none

/-- The call `i` goes from one phase to another: what becomes of the lock and of the tasks. -/
inductive Moves (s : State) (i : ℕ) : Event → Phase → Phase → Option ℕ → List Task → Prop
  | locked (hfree : s.writes = none) : Moves s i (.lock i) .waiting .reading (some i) s.tasks
  | spawned {event : Event} (camera : String) (direction : PtzDirection) :
      Moves s i event .reading (.stepping s.tasks.length) s.writes
        (s.tasks ++ [⟨camera, direction, .spawned, [], false⟩])
  | advanced {event : Event} {phase phase' : Phase} (hholds : phase.holds = true)
      (htask : phase.task = none) (htask' : phase'.task = none) :
      Moves s i event phase phase' s.writes s.tasks
  | ended {event : Event} {phase : Phase}
      (htask : ∀ k, phase.task = some k → ∃ task, s.tasks[k]? = some task ∧ task.stage = .done) :
      Moves s i event phase .ended (if s.writes = some i then none else s.writes) s.tasks
  | dropped {phase : Phase} :
      Moves s i (.drop i) phase .dropped (if s.writes = some i then none else s.writes) s.tasks

/-- A task goes on. -/
inductive Task.Moves : Task → Task → Prop
  | begun (camera : String) (direction : PtzDirection) (issued : List PtzAction)
    (stopFailed : Bool) :
      Task.Moves ⟨camera, direction, .spawned, issued, stopFailed⟩
        ⟨camera, direction, .starting, issued ++ [.start], stopFailed⟩
  | answered {task task' : Task} (ok : Bool) (h : task.answer ok = some task') :
    Task.Moves task task'

variable {s s' : State} {event : Event}

/-- What a step can do. -/
theorem step_cases (h : step s event = some s') :
    (∃ operation, s' = { s with calls := s.calls ++ [{ operation }] }) ∨
      (∃ i operation phase phase', s.calls[i]? = some ⟨operation, phase⟩ ∧
        Moves s i event phase phase' s'.writes s'.tasks ∧
        s'.calls = s.calls.set i ⟨operation, phase'⟩) ∨
      ∃ k task task', s.tasks[k]? = some task ∧ Task.Moves task task' ∧
        s' = { s with tasks := s.tasks.set k task' } := by
  cases event with
  | call operation => exact .inl ⟨operation, (Option.some.inj h).symm⟩
  | lock i =>
    simp only [step] at h
    split at h
    case h_2 => exact nomatch h
    case h_1 operation hi hfree =>
    obtain rfl := Option.some.inj h
    exact .inr (.inl ⟨i, operation, _, _, hi, .locked hfree, rfl⟩)
  | read i proceed undoable =>
    simp only [step] at h
    split at h
    case h_2 => exact nomatch h
    case h_1 operation hi =>
    split at h
    case isFalse =>
      obtain rfl := Option.some.inj h
      exact .inr (.inl ⟨i, operation, _, _, hi, .ended fun _ htask => (nomatch htask), rfl⟩)
    case isTrue =>
      cases operation with
      | update =>
        obtain rfl := Option.some.inj h
        exact .inr (.inl ⟨i, _, _, _, hi, .advanced rfl rfl rfl, rfl⟩)
      | setAccountDefence =>
        obtain rfl := Option.some.inj h
        exact .inr (.inl ⟨i, _, _, _, hi, .advanced rfl rfl rfl, rfl⟩)
      | ptz camera direction =>
        obtain rfl := Option.some.inj h
        exact .inr (.inl ⟨i, _, _, _, hi, .spawned camera direction, rfl⟩)
  | wrote i ok =>
    simp only [step] at h
    split at h
    case h_2 => exact nomatch h
    case h_1 operation undoable hi =>
    obtain rfl := Option.some.inj h
    refine .inr (.inl ⟨i, operation, _, _, hi, .advanced rfl rfl ?_, rfl⟩)
    split <;> rfl
  | readBack i matches_ =>
    simp only [step] at h
    split at h
    case h_2 => exact nomatch h
    case h_1 operation undoable left mismatch hi =>
    split at h
    case h_1 =>
      obtain rfl := Option.some.inj h
      exact .inr (.inl ⟨i, operation, _, _, hi, .ended fun _ htask => (nomatch htask), rfl⟩)
    case h_2 =>
      obtain rfl := Option.some.inj h
      refine .inr (.inl ⟨i, operation, _, _, hi, .advanced rfl rfl ?_, rfl⟩)
      split
      · rw [Phase.verdict]
        split <;> rfl
      · rfl
  | undone i =>
    simp only [step] at h
    split at h
    case h_2 => exact nomatch h
    case h_1 operation hi =>
    obtain rfl := Option.some.inj h
    exact .inr (.inl ⟨i, operation, _, _, hi, .advanced rfl rfl rfl, rfl⟩)
  | invalidated i =>
    simp only [step] at h
    split at h
    case h_2 => exact nomatch h
    case h_1 operation hi =>
    obtain rfl := Option.some.inj h
    exact .inr (.inl ⟨i, operation, _, _, hi, .ended fun _ htask => (nomatch htask), rfl⟩)
  | begin k =>
    simp only [step] at h
    split at h
    case h_2 => exact nomatch h
    case h_1 camera direction issued stopFailed hk =>
    obtain rfl := Option.some.inj h
    exact .inr (.inr ⟨k, _, _, hk, .begun camera direction issued stopFailed, rfl⟩)
  | answered k ok =>
    simp only [step] at h
    split at h
    case h_2 => exact nomatch h
    case h_1 task hk =>
    obtain ⟨task', hanswer, rfl⟩ := Option.map_eq_some_iff.mp h
    exact .inr (.inr ⟨k, task, task', hk, .answered ok hanswer, rfl⟩)
  | joined i =>
    simp only [step] at h
    split at h
    case h_2 => exact nomatch h
    case h_1 operation k hi =>
    split at h
    case isFalse => exact nomatch h
    case isTrue hdone =>
    obtain rfl := Option.some.inj h
    refine .inr (.inl ⟨i, operation, _, _, hi, .ended fun found htask => ?_, rfl⟩)
    obtain rfl := Option.some.inj htask
    obtain ⟨task, hk, hstage⟩ := (Option.any_eq_true _ _).mp hdone
    exact ⟨task, hk, of_decide_eq_true hstage⟩
  | drop i =>
    simp only [step] at h
    split at h
    case h_2 => exact nomatch h
    case h_1 operation phase hi =>
    split at h
    case isFalse => exact nomatch h
    case isTrue =>
    obtain rfl := Option.some.inj h
    exact .inr (.inl ⟨i, operation, _, _, hi, .dropped, rfl⟩)

/-! ### The invariants -/

/-- Who is past the lock has it. -/
def Guarded (s : State) : Prop :=
  ∀ (i : ℕ) call, s.calls[i]? = some call → call.phase.holds = true → s.writes = some i

theorem Guarded.step (h : Guarded s) (hs : step s event = some s') : Guarded s' := by
  intro j found hj hholds
  rcases step_cases hs with ⟨operation, rfl⟩ | ⟨i, operation, phase, phase', hi, hmoves, hcalls⟩ |
    ⟨k, task, task', hk, hmoves, rfl⟩
  · rcases of_concat_eq_some hj with ⟨-, rfl⟩ | ⟨-, hold⟩
    · exact nomatch hholds
    · exact h j found hold hholds
  · rw [hcalls] at hj
    rcases of_set_eq_some hj with ⟨rfl, rfl⟩ | ⟨hne, hold⟩
    · -- a call that is past the lock now was so before, or it has just got it
      obtain ⟨writes, calls, tasks⟩ := s'
      cases hmoves with
      | locked => rfl
      | spawned => exact h j _ hi rfl
      | advanced hbefore => exact h j _ hi hbefore
      | ended => exact nomatch hholds
      | dropped => exact nomatch hholds
    · have hother := h j found hold hholds
      have hrelease : (if s.writes = some i then none else s.writes) = some j := by
        rw [hother, if_neg]
        exact fun heq => hne (Option.some.inj heq)
      obtain ⟨writes, calls, tasks⟩ := s'
      cases hmoves with
      | locked hfree => exact nomatch hfree.symm.trans hother
      | spawned => exact hother
      | advanced => exact hother
      | ended => exact hrelease
      | dropped => exact hrelease
  · exact h j found hj hholds

/-- The commands of a task, as far as it is. -/
def Task.Sound (self : Task) : Prop :=
  match self.stage with
  | .spawned => self.issued = [] ∧ self.stopFailed = false
  | .starting => self.issued = [.start] ∧ self.stopFailed = false
  | .stopping => self.issued = [.start, .stop] ∧ self.stopFailed = false
  | .stoppingAgain => self.issued = [.start, .stop, .stop] ∧ self.stopFailed = true
  | .done => self.issued = [.start, .stop] ∧ self.stopFailed = false ∨
      self.issued = [.start, .stop, .stop] ∧ self.stopFailed = true

theorem Task.Sound.moves {task task' : Task} (h : task.Sound) (hmoves : Task.Moves task task') :
    task'.Sound := by
  cases hmoves with
  | begun camera direction issued stopFailed =>
    obtain ⟨rfl, rfl⟩ := h
    exact ⟨rfl, rfl⟩
  | answered ok hanswer =>
    obtain ⟨camera, direction, stage, issued, stopFailed⟩ := task
    cases stage with
    | spawned => exact nomatch hanswer
    | starting =>
      obtain rfl := Option.some.inj hanswer
      obtain ⟨rfl, rfl⟩ := h
      exact ⟨rfl, rfl⟩
    | stopping =>
      obtain ⟨rfl, rfl⟩ := h
      cases ok with
      | true =>
        obtain rfl := Option.some.inj hanswer
        exact .inl ⟨rfl, rfl⟩
      | false =>
        obtain rfl := Option.some.inj hanswer
        exact ⟨rfl, rfl⟩
    | stoppingAgain =>
      obtain rfl := Option.some.inj hanswer
      exact .inr h
    | done => exact nomatch hanswer

/-- All tasks send the commands of a step, in order. -/
def Commanding (s : State) : Prop := ∀ (k : ℕ) task, s.tasks[k]? = some task → task.Sound

theorem Commanding.step (h : Commanding s) (hs : step s event = some s') : Commanding s' := by
  intro l found hl
  rcases step_cases hs with ⟨operation, rfl⟩ | ⟨i, operation, phase, phase', hi, hmoves, hcalls⟩ |
    ⟨k, task, task', hk, hmoves, rfl⟩
  · exact h l found hl
  · obtain ⟨writes, calls, tasks⟩ := s'
    cases hmoves with
    | spawned camera direction =>
      rcases of_concat_eq_some hl with ⟨-, rfl⟩ | ⟨-, hold⟩
      · exact ⟨rfl, rfl⟩
      · exact h l found hold
    | _ => exact h l found hl
  · rcases of_set_eq_some hl with ⟨-, rfl⟩ | ⟨-, hold⟩
    · exact (h k task hk).moves hmoves
    · exact h l found hold

/-- No `ptz` is dropped while its step runs. -/
def Attended (s : State) : Event → Prop
  | .drop i => ∀ call ∈ s.calls[i]?, ∀ k ∈ call.phase.task, ∀ task ∈ s.tasks[k]?, task.stage = .done
  | _ => True

instance : ∀ (s : State) (event : Event), Decidable (Attended s event)
  | s, .drop i => inferInstanceAs (Decidable (∀ call ∈ s.calls[i]?, ∀ k ∈ call.phase.task,
      ∀ task ∈ s.tasks[k]?, task.stage = .done))
  | _, .call _ | _, .lock _ | _, .read _ _ _ | _, .wrote _ _ | _, .readBack _ _ | _, .undone _
  | _, .invalidated _ | _, .begin _ | _, .answered _ _ | _, .joined _ =>
    inferInstanceAs (Decidable True)

/-- A step that runs has its `ptz`, which has the lock. -/
def Accompanied (s : State) : Prop :=
  ∀ (k : ℕ) task, s.tasks[k]? = some task → task.stage ≠ .done →
    ∃ (i : ℕ) (call : Call), s.calls[i]? = some call ∧ call.phase = .stepping k

theorem Accompanied.step (h : Accompanied s) (hok : Attended s event)
    (hs : step s event = some s') : Accompanied s' := by
  intro l found hl hrunning
  rcases step_cases hs with ⟨operation, rfl⟩ | ⟨i, operation, phase, phase', hi, hmoves, hcalls⟩ |
    ⟨k, task, task', hk, hmoves, rfl⟩
  · obtain ⟨j, call, hj, hphase⟩ := h l found hl hrunning
    exact ⟨j, call, concat_of_eq_some hj, hphase⟩
  · have hself : s'.calls[i]? = some ⟨operation, phase'⟩ := by
      rw [hcalls, set_self hi]
    -- the call that was there stays, unless it is the one that moves
    have hkeep : s.tasks[l]? = some found → phase.task ≠ some l →
        ∃ (j : ℕ) (call : Call), s'.calls[j]? = some call ∧ call.phase = .stepping l := by
      intro hold hother
      obtain ⟨j, call, hj, hphase⟩ := h l found hold hrunning
      have hne : j ≠ i := by
        rintro rfl
        obtain rfl := Option.some.inj (hi.symm.trans hj)
        exact hother (congrArg Phase.task hphase)
      refine ⟨j, call, ?_, hphase⟩
      rw [hcalls, set_other hne]
      exact hj
    obtain ⟨writes, calls, tasks⟩ := s'
    cases hmoves with
    | locked => exact hkeep hl fun hphase => (nomatch hphase)
    | spawned camera direction =>
      rcases of_concat_eq_some hl with ⟨rfl, -⟩ | ⟨-, hold⟩
      · exact ⟨i, _, hself, rfl⟩
      · exact hkeep hold fun hphase => (nomatch hphase)
    | advanced _ htask =>
      exact hkeep hl fun hphase => (nomatch htask.symm.trans hphase)
    | ended htask =>
      refine hkeep hl fun hphase => ?_
      obtain ⟨task, hk, hdone⟩ := htask l hphase
      obtain rfl := Option.some.inj (hl.symm.trans hk)
      exact hrunning hdone
    | dropped => exact hkeep hl fun hphase => hrunning (hok _ hi l hphase found hl)
  · rcases of_set_eq_some hl with ⟨rfl, rfl⟩ | ⟨-, hold⟩
    · have hbefore : task.stage ≠ .done := by
        intro hdone
        cases hmoves with
        | begun => exact nomatch hdone
        | answered ok hanswer =>
          rw [Task.answer, hdone] at hanswer
          exact nomatch hanswer
      exact h l task hk hbefore
    · exact h l found hold hrunning

/-- How many steps of its own a task has left at most. -/
def Stage.left : Stage → ℕ
  | .spawned => 4
  | .starting => 3
  | .stopping => 2
  | .stoppingAgain => 1
  | .done => 0

/-- A task that runs can go on, whatever has become of its call. -/
theorem exists_next {k : ℕ} {task : Task} (hk : s.tasks[k]? = some task)
    (hrunning : task.stage ≠ .done) (ok : Bool) :
    ∃ event s' task', (event = .begin k ∨ event = .answered k ok) ∧ step s event = some s' ∧
      s'.tasks[k]? = some task' ∧ task'.stage.left < task.stage.left := by
  obtain ⟨camera, direction, stage, issued, stopFailed⟩ := task
  -- what `answered` does, once the next task is known
  have hanswered : ∀ task' : Task,
      Task.answer ⟨camera, direction, stage, issued, stopFailed⟩ ok = some task' →
      task'.stage.left < stage.left →
      ∃ event s' task', (event = .begin k ∨ event = .answered k ok) ∧ step s event = some s' ∧
        s'.tasks[k]? = some task' ∧ task'.stage.left < stage.left := by
    intro task' hanswer hleft
    refine ⟨.answered k ok, { s with tasks := s.tasks.set k task' }, task', .inr rfl, ?_,
      set_self hk, hleft⟩
    simp only [step, hk, hanswer, Option.map_some]
  cases stage with
  | spawned =>
    let task' : Task := ⟨camera, direction, .starting, issued ++ [.start], stopFailed⟩
    refine ⟨.begin k, { s with tasks := s.tasks.set k task' }, task', .inl rfl, ?_, set_self hk,
      Nat.lt_succ_self 3⟩
    simp only [step, hk, task']
  | starting => exact hanswered _ rfl (Nat.lt_succ_self 2)
  | stopping =>
    cases ok with
    | true => exact hanswered _ rfl (Nat.succ_pos 1)
    | false => exact hanswered _ rfl (Nat.lt_succ_self 1)
  | stoppingAgain => exact hanswered _ rfl (Nat.succ_pos 0)
  | done => exact absurd rfl hrunning

theorem Phase.holds_of_writes {phase : Phase} (h : phase.writes = true) :
    phase.holds = true ∧ phase.task = none := by
  cases phase <;> first | exact ⟨rfl, rfl⟩ | exact nomatch h

/-- A run in which no `ptz` is dropped while its step runs. While a step runs, no vendor write is in
progress and no other step runs; a step that has ended has sent START, a STOP, and a second STOP if
the first one failed, and a step that has not ended can go on to its end, whatever its call does;
and two vendor writes are never in progress at the same time. -/
theorem writes_serialized {events : List Event}
    (hok : EventSystem.Steps step Attended {} events)
    (hrun : EventSystem.run step {} events = some s) :
    (∀ (k : ℕ) task, s.tasks[k]? = some task → task.stage ≠ .done →
      (∀ (i : ℕ) call, s.calls[i]? = some call → call.phase.writes = false) ∧
        ∀ (l : ℕ) other, s.tasks[l]? = some other → other.stage ≠ .done → l = k) ∧
      (∀ (k : ℕ) task, s.tasks[k]? = some task →
        (task.stage = .done → task.issued = [.start, .stop] ∧ task.stopFailed = false ∨
          task.issued = [.start, .stop, .stop] ∧ task.stopFailed = true) ∧
        (task.stage ≠ .done → ∀ ok, ∃ event s' task',
          (event = .begin k ∨ event = .answered k ok) ∧ step s event = some s' ∧
            s'.tasks[k]? = some task' ∧ task'.stage.left < task.stage.left)) ∧
      ∀ (i j : ℕ) a b, s.calls[i]? = some a → s.calls[j]? = some b → a.phase.writes = true →
        b.phase.writes = true → i = j := by
  have hcalls : ∀ (i : ℕ) call, ([] : List Call)[i]? ≠ some call := fun i call h =>
    Option.some_ne_none call (h.symm.trans List.getElem?_nil)
  have htasks : ∀ (k : ℕ) task, ([] : List Task)[k]? ≠ some task := fun k task h =>
    Option.some_ne_none task (h.symm.trans List.getElem?_nil)
  have hguarded : Guarded s := EventSystem.run_keeps Guarded (fun _ _ _ h hs => h.step hs)
    (fun i call hi => absurd hi (hcalls i call)) hrun
  have hcommanding : Commanding s := EventSystem.run_keeps Commanding (fun _ _ _ h hs => h.step hs)
    (fun k task hk => absurd hk (htasks k task)) hrun
  have haccompanied : Accompanied s :=
    EventSystem.run_invariant Accompanied (fun _ _ _ h hok hs => h.step hok hs)
      (fun k task hk => absurd hk (htasks k task)) hok hrun
  refine ⟨?_, ?_, ?_⟩
  · intro k task hk hrunning
    obtain ⟨i, call, hi, hphase⟩ := haccompanied k task hk hrunning
    have hholder := hguarded i call hi (by rw [hphase]; rfl)
    refine ⟨?_, ?_⟩
    · intro j other hj
      rw [Bool.eq_false_iff]
      intro hwrites
      -- a call that writes has the lock, so it is the `ptz`, which does not write
      have hholder' := hguarded j other hj (Phase.holds_of_writes hwrites).1
      obtain rfl := Option.some.inj (hholder.symm.trans hholder')
      obtain rfl := Option.some.inj (hi.symm.trans hj)
      rw [hphase] at hwrites
      exact nomatch hwrites
    · intro l other hl hother
      obtain ⟨j, call', hj, hphase'⟩ := haccompanied l other hl hother
      have hholder' := hguarded j call' hj (by rw [hphase']; rfl)
      obtain rfl := Option.some.inj (hholder.symm.trans hholder')
      obtain rfl := Option.some.inj (hi.symm.trans hj)
      exact Phase.stepping.inj (hphase'.symm.trans hphase)
  · intro k task hk
    refine ⟨fun hdone => ?_, fun hrunning ok => exists_next hk hrunning ok⟩
    have hsound := hcommanding k task hk
    rw [Task.Sound, hdone] at hsound
    exact hsound
  · intro i j a b hi hj ha hb
    have hholder := hguarded i a hi (Phase.holds_of_writes ha).1
    have hholder' := hguarded j b hj (Phase.holds_of_writes hb).1
    exact Option.some.inj (hholder.symm.trans hholder')

/-- A step whose first STOP fails, and three updates that wait for it: the first is dropped as it
waits, the second as it writes. -/
def sampleStep : List Event :=
  [.call (.ptz "front" .left), .lock 0, .call .update, .call .update, .read 0 true true, .begin 0,
    .drop 1, .answered 0 true, .answered 0 false, .answered 0 true, .joined 0, .lock 2,
    .read 2 true true, .call .update, .drop 2, .lock 3, .read 3 true true]

theorem writes_serialized_sample :
    ∃ s task, EventSystem.run step {} sampleStep = some s ∧ s.tasks[0]? = some task ∧
      s.calls.map (·.phase) = [.ended, .dropped, .dropped, .writing true] ∧
      (task.issued = [.start, .stop] ∧ task.stopFailed = false ∨
        task.issued = [.start, .stop, .stop] ∧ task.stopFailed = true) := by
  have hok : EventSystem.Steps step Attended {} sampleStep := by
    decide +kernel
  have hsome : ∃ s, EventSystem.run step {} sampleStep = some s ∧
      s.tasks[0]? = some ⟨"front", .left, .done, [.start, .stop, .stop], true⟩ ∧
      s.calls.map (·.phase) = [.ended, .dropped, .dropped, .writing true] := ⟨_, rfl, rfl, rfl⟩
  obtain ⟨s, hrun, htask, hcalls⟩ := hsome
  obtain ⟨-, htasks, -⟩ := writes_serialized hok hrun
  exact ⟨s, _, hrun, htask, hcalls, (htasks 0 _ htask).1 rfl⟩

/-- The client of a `ptz` goes after START was sent. An update gets the lock, and its write is in
progress while the camera still turns. -/
theorem write_before_stop :
    ∃ s task, EventSystem.run step {}
        [.call (.ptz "front" .left), .lock 0, .read 0 true true, .begin 0, .drop 0,
          .call .update, .lock 1, .read 1 true true] = some s ∧
      s.tasks[0]? = some task ∧ task.stage = .starting ∧ task.issued = [.start] ∧
      s.calls[1]? = some ⟨.update, .writing true⟩ :=
  ⟨_, _, rfl, rfl, rfl, rfl, rfl⟩

end Writes

end Controls

end EzvizBridge
