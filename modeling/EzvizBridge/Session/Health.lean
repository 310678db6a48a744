import EzvizBridge.Session.Cooldown

/-!
# The health of the session

`session_health.rs`: a state and four counters, each of them atomic, and what the API lets through
by them. Nothing else is: an outcome is reported in several operations, and `refresh_failed` reads
the state before it writes it. Between two of them anything else may happen, as long as the store
allows it: the tasks of the store report while they have its lock, but a call of `authed` confirms
the session whenever its answer arrives.

So this is a second system around that of the store. It stays what it would be if each outcome were
reported at one moment (`health_reported`).

`log` and `released` are not in the program. The counters have 64 bits in the source.
-/

namespace EzvizBridge

namespace Session

/-! ### The state and the counters -/

inductive SessionState
  | ok
  | degraded
  | reauthRequired
  deriving DecidableEq, Repr

/-- `SessionState::code`. -/
def SessionState.code : SessionState → ℕ
  | .ok => 0
  | .degraded => 1
  | .reauthRequired => 2

/-- `SessionState::from_code`. -/
def SessionState.fromCode : ℕ → SessionState
  | 0 => .ok
  | 2 => .reauthRequired
  | _ => .degraded

inductive Counter
  | refreshOk
  | refreshFailed
  | sessionRejected
  | persistFailed
  deriving DecidableEq, Repr

/-- `SessionHealth`. -/
structure Health where
  code : ℕ := SessionState.degraded.code
  counters : Counter → ℕ := fun _ => 0

namespace Health

variable (self : Health)

def state : SessionState := SessionState.fromCode self.code

def reauthRequired : Bool := self.state = .reauthRequired

def set (state : SessionState) : Health := { self with code := state.code }

/-- `fetch_add`. -/
def add (counter : Counter) : Health :=
  { self with counters := Function.update self.counters counter (self.counters counter + 1) }

@[simp] theorem state_set (state : SessionState) : (self.set state).state = state := by
  cases state <;> rfl

end Health

/-! ### What is reported -/

/-- An atomic operation of a report. -/
inductive Action
  | add (counter : Counter)
  | set (state : SessionState)
  /-- `if !self.reauth_required()`; then `set` to degraded. -/
  | degrade
  deriving DecidableEq

def refreshSucceeded : List Action := [.add .refreshOk, .set .ok]

def sessionRejected : List Action := [.add .sessionRejected, .set .reauthRequired]

def refreshFailed (rejected : Bool) : List Action :=
  .add .refreshFailed :: if rejected then sessionRejected else [.degrade]

/-- What `record` and `adopt` report. -/
def Work.report (result : Except BridgeError Unit) : Work → List Action
  | .rotate _ =>
    match result with
    | .ok _ => refreshSucceeded
    | .error error => refreshFailed (error = .reauthRequired)
  | .adopt _ =>
    match result with
    | .ok _ => [.set .ok]
    | .error _ => []
  | .update _ => []

/-- What a report is about. -/
inductive Outcome
  /-- An authenticated call has succeeded. -/
  | confirmed
  | refreshed
  | adopted
  | rejected
  /-- A refresh has failed for another reason. -/
  | failed
  deriving DecidableEq, Repr

/-- The outcome of a task, if it is one that is reported. -/
def Work.outcome (result : Except BridgeError Unit) : Work → Option Outcome
  | .rotate _ =>
    match result with
    | .ok _ => some .refreshed
    | .error error => some (if error = .reauthRequired then .rejected else .failed)
  | .adopt _ =>
    match result with
    | .ok _ => some .adopted
    | .error _ => none
  | .update _ => none

/-! ### The system -/

/-- The store and its health, with the operations that each finished task has still to do. -/
structure Monitored where
  store : State
  health : Health := {}
  reports : ℕ → Option (List Action) := fun _ => none
  log : List Outcome := []
  /-- The tasks that have let the lock go, with their results. -/
  released : List (ℕ × Work × Except BridgeError Unit) := []

namespace Monitored

def load (token : EzvizToken) (consumed issued : Finset String) : Monitored :=
  { store := .load token consumed issued }

variable (w : Monitored)

/-- `health.confirmed()` in `authed`: only a real success proves the session. -/
def proves : Except BridgeError (ℕ × Option ℤ) → Bool
  | .error _ => false
  | .ok (status, code) =>
    !sessionExpired status code && isSuccess status && (code = none || code = some 200)

/-- A step of the store. A task lets the lock go when it has reported. -/
def act (event : Session.Event) : Option Monitored :=
  (Session.step w.store event).bind fun store =>
    match event with
    | .reply _ answer =>
      if proves answer then
        some { w with store := store, health := w.health.set .ok, log := w.log ++ [.confirmed] }
      else some { w with store := store }
    | .write _ (.failed _) => some { w with store := store, health := w.health.add .persistFailed }
    | .release task =>
      match w.store.tasks task, w.reports task with
      | some ⟨work, .finished result⟩, some [] =>
        some
          { w with
            store := store
            reports := Function.update w.reports task none
            released := w.released ++ [(task, work, result)] }
      | _, _ => none
    | _ => some { w with store := store }

/-- A finished task begins its report. -/
def report (task : ℕ) : Option Monitored :=
  match w.store.tasks task, w.reports task with
  | some ⟨work, .finished result⟩, none =>
    some { w with reports := Function.update w.reports task (some (work.report result)) }
  | _, _ => none

/-- The next operation of a report. -/
def next (task : ℕ) : Option Monitored :=
  match w.store.tasks task, w.reports task with
  | some ⟨work, .finished result⟩, some (action :: rest) =>
    let after (rest : List Action) : Monitored :=
      { w with reports := Function.update w.reports task (some rest) }
    match action with
    | .add counter => some { after rest with health := w.health.add counter }
    | .set state =>
      some
        { after rest with
          health := w.health.set state
          log := w.log ++ (work.outcome result).toList }
    | .degrade =>
      -- the state is read here, and written in an operation of its own
      if w.health.reauthRequired then
        some { after rest with log := w.log ++ (work.outcome result).toList }
      else some (after (.set .degraded :: rest))
  | _, _ => none

end Monitored

/-- What can happen. -/
inductive HealthEvent
  | store (event : Event)
  | report (task : ℕ)
  | next (task : ℕ)

def Monitored.step (w : Monitored) : HealthEvent → Option Monitored
  | .store event => w.act event
  | .report task => w.report task
  | .next task => w.next task

/-! ### The API -/

def needsSession (path : List Char) : Bool :=
  "/v1/".toList.isPrefixOf path && !"/v1/recordings".toList.isPrefixOf path &&
    !"/v1/enrollments".toList.isPrefixOf path

/-- What a request gets. -/
inductive Gate
  | handler
  /-- 401: a wrong bridge token. -/
  | unauthorized
  /-- 403: `reauth_required`. -/
  | reauthRequired
  deriving DecidableEq, Repr

/-- The routes of a generic camera, which can only send basic credentials. -/
def genericCamera (path : List Char) : Bool :=
  "/snapshot.jpg".toList.isSuffixOf path || "/live.ts".toList.isSuffixOf path

/-- `authenticate` of `api_session.rs`; `accepts` is that of the authenticator on the request's
headers, with or without basic credentials. -/
def authenticate (health : Health) (accepts : Bool → Bool) (path : List Char) : Gate :=
  if path = "/healthz".toList then .handler
  else if ¬accepts (genericCamera path) then .unauthorized
  else if health.reauthRequired ∧ needsSession path then .reauthRequired
  else .handler

/-! ### Outcomes one after another -/

/-- The state after one more outcome: only a success ends a rejection. -/
def Outcome.apply (current : SessionState) : Outcome → SessionState
  | .confirmed | .refreshed | .adopted => .ok
  | .rejected => .reauthRequired
  | .failed => if current = .reauthRequired then .reauthRequired else .degraded

def stateAfter (log : List Outcome) : SessionState := log.foldl Outcome.apply .degraded

/-- The counters that an outcome is counted in. -/
def Outcome.adds : Outcome → List Counter
  | .confirmed | .adopted => []
  | .refreshed => [.refreshOk]
  | .rejected => [.refreshFailed, .sessionRejected]
  | .failed => [.refreshFailed]

/-- How often the outcomes are counted in a counter. -/
def tally (log : List Outcome) (counter : Counter) : ℕ := (log.flatMap Outcome.adds).count counter

/-- The outcome of a report is decided here. -/
def Action.decides : Action → Bool
  | .add _ => false
  | .set _ | .degrade => true

/-- What the tasks have reported that have let the lock go. -/
def Monitored.outcomes (w : Monitored) : List Outcome :=
  w.released.filterMap fun task => task.2.1.outcome task.2.2

section Reports

variable {log : List Outcome} {outcome : Outcome} {counter : Counter} {work : Work}
  {result : Except BridgeError Unit}

theorem stateAfter_concat (log : List Outcome) (outcome : Outcome) :
    stateAfter (log ++ [outcome]) = outcome.apply (stateAfter log) := by
  rw [stateAfter, List.foldl_append]
  rfl

theorem tally_append (log log' : List Outcome) (counter : Counter) :
    tally (log ++ log') counter = tally log counter + tally log' counter := by
  rw [tally, List.flatMap_append, List.count_append]
  rfl

/-- A rejection stays until a success. -/
theorem stateAfter_rejected (log : List Outcome) :
    stateAfter log = .reauthRequired ↔ (log.filter (· ≠ .failed)).getLast? = some .rejected := by
  -- on the log from its end: a failure changes no rejection, anything else decides alone
  induction log using List.reverseRecOn with
  | nil => decide
  | append_singleton log outcome ih =>
    rw [stateAfter_concat, List.filter_append]
    by_cases hfailed : outcome = .failed
    · subst hfailed
      -- `degrade` leaves `reauth_required` as it is
      rw [show [Outcome.failed].filter (· ≠ .failed) = [] from rfl, List.append_nil, ← ih,
        Outcome.apply]
      split
      · next hrejected => exact iff_of_true rfl hrejected
      · next hother => exact iff_of_false SessionState.noConfusion hother
    · rw [List.filter_singleton, decide_eq_true hfailed, cond_true, List.getLast?_concat,
        Option.some.injEq]
      -- the last outcome that is no failure is this one
      cases outcome with
      | rejected => exact iff_of_true rfl rfl
      | failed => exact absurd rfl hfailed
      | confirmed | refreshed | adopted =>
        exact iff_of_false SessionState.noConfusion Outcome.noConfusion

/-- A task confirms nothing; confirmations come from calls. -/
theorem outcome_ne_confirmed (h : work.outcome result = some outcome) : outcome ≠ .confirmed := by
  rintro rfl
  cases work with
  | rotate seen =>
    cases result with
    | ok value => cases h
    | error error =>
      simp only [Work.outcome, Option.some.injEq] at h
      split at h <;> cases h
  | adopt staged => cases result <;> cases h
  | update change => cases h

/-- A report decides its outcome, and counts it. -/
theorem report_decides :
    (work.report result).any Action.decides = (work.outcome result).isSome := by
  cases work with
  | rotate seen =>
    cases result with
    | ok value => rfl
    | error error =>
      rw [Work.report, refreshFailed]
      split <;> rfl
  | adopt staged => cases result <;> rfl
  | update change => rfl

/-- What a report counts is what its outcome counts. -/
theorem report_counts :
    (work.report result).count (.add counter) = tally (work.outcome result).toList counter := by
  -- the reports differ by the work, by its result, and for a failed refresh by whether the session
  -- was rejected
  cases work with
  | rotate seen =>
    cases result with
    | ok value => cases counter <;> rfl
    | error error =>
      -- `refresh_failed` counts a failure, and sets the state for a rejection only
      by_cases hrejected : error = .reauthRequired
      · rw [Work.report, refreshFailed, Work.outcome, if_pos hrejected,
          if_pos (decide_eq_true hrejected)]
        cases counter <;> rfl
      · rw [Work.report, refreshFailed, Work.outcome, if_neg hrejected,
          if_neg (by simpa using hrejected)]
        cases counter <;> rfl
  | adopt staged => cases result <;> rfl
  | update change => rfl

/-- Nothing is behind the decision. -/
theorem report_last : (work.report result).Pairwise fun action _ => action.decides = false := by
  cases work with
  | rotate seen =>
    cases result with
    | ok value => simp [Work.report, refreshSucceeded, Action.decides]
    | error error =>
      rw [Work.report, refreshFailed]
      split <;> simp [sessionRejected, Action.decides]
  | adopt staged => cases result <;> simp [Work.report]
  | update change => exact List.Pairwise.nil

/-- The state of a success or a rejection is the same whatever it was. -/
theorem report_sets {state : SessionState} (h : .set state ∈ work.report result) :
    ∃ outcome, work.outcome result = some outcome ∧ outcome ≠ .failed ∧
      ∀ current, outcome.apply current = state := by
  -- each report sets one state at most
  cases work with
  | rotate seen =>
    cases result with
    | ok value =>
      -- a success of `refresh_succeeded`
      obtain rfl : state = .ok := by simpa [Work.report, refreshSucceeded] using h
      exact ⟨.refreshed, rfl, Outcome.noConfusion, fun _ => rfl⟩
    | error error =>
      by_cases hrejected : error = .reauthRequired
      -- a rejection sets `reauth_required`
      · obtain rfl : state = .reauthRequired := by
          simpa [Work.report, refreshFailed, hrejected, sessionRejected] using h
        exact ⟨.rejected, by rw [Work.outcome, if_pos hrejected], Outcome.noConfusion, fun _ => rfl⟩
      -- another failure degrades, and sets nothing before it has looked
      · simp [Work.report, refreshFailed, hrejected] at h
  | adopt staged =>
    cases result with
    | ok value =>
      obtain rfl : state = .ok := by simpa [Work.report] using h
      exact ⟨.adopted, rfl, Outcome.noConfusion, fun _ => rfl⟩
    | error error => cases h
  | update change => cases h

/-- Only a failed refresh that is no rejection degrades. -/
theorem report_degrades (h : .degrade ∈ work.report result) :
    work.outcome result = some .failed := by
  cases work with
  | rotate seen =>
    cases result with
    | ok value => simp [Work.report, refreshSucceeded] at h
    | error error =>
      by_cases hrejected : error = .reauthRequired
      · simp [Work.report, refreshFailed, hrejected, sessionRejected] at h
      · rw [Work.outcome, if_neg hrejected]
  | adopt staged =>
    cases result with
    | ok value => simp [Work.report] at h
    | error error => cases h
  | update change => cases h

end Reports

/-! ### Reports under the lock -/

namespace Monitored

/-- A report that has come as far as `actions`. -/
structure Underway (w : Monitored) (work : Work) (result : Except BridgeError Unit)
    (actions : List Action) :
    Prop where
  told : w.log.filter (· ≠ .confirmed) ++
    (if actions.any Action.decides then (work.outcome result).toList else []) =
      w.outcomes ++ (work.outcome result).toList
  counted : ∀ counter, counter ≠ .persistFailed →
    w.health.counters counter + actions.count (.add counter) =
      tally (w.outcomes ++ (work.outcome result).toList) counter
  sets : ∀ state, .set state ∈ actions → ∃ outcome, work.outcome result = some outcome ∧
    outcome.apply w.health.state = state ∧ (outcome = .failed → w.health.state ≠ .reauthRequired)
  degrades : .degrade ∈ actions → work.outcome result = some .failed
  last : actions.Pairwise fun action _ => action.decides = false

/-- The health of a store. -/
structure Reporting (w : Monitored) : Prop where
  kept : w.store.Kept
  state : w.health.state = stateAfter w.log
  underway : ∀ id actions, w.reports id = some actions →
    ∃ work result, w.store.tasks id = some ⟨work, .finished result⟩ ∧ w.Underway work result actions
  idle : (∀ id, w.reports id = none) → w.log.filter (· ≠ .confirmed) = w.outcomes ∧
    ∀ counter, counter ≠ .persistFailed → w.health.counters counter = tally w.outcomes counter
  ended : ∀ id work result, (id, work, result) ∈ w.released ↔
    w.store.tasks id = some ⟨work, .ended result⟩

variable {w w' : Monitored}

/-- At the start nothing has been reported, and nothing is under way. -/
theorem reporting_load (token : EzvizToken) (consumed issued : Finset String) :
    (load token consumed issued).Reporting where
  kept := State.kept_load token consumed issued
  state := rfl
  underway := by
    intro id actions h
    cases h
  idle := fun _ => ⟨rfl, fun _ _ => rfl⟩
  ended := by
    refine fun id work result => iff_of_false List.not_mem_nil fun h => ?_
    cases h

/-- Only the task with the lock reports. -/
theorem Reporting.alone (h : w.Reporting) {id task : ℕ} {actions : List Action} {work : Work}
    {result : Except BridgeError Unit} (hid : w.reports id = some actions)
    (htask : w.store.tasks task = some ⟨work, .finished result⟩) : id = task := by
  obtain ⟨work', result', hstored, -⟩ := h.underway id actions hid
  have hlocked := h.kept.working.locked
  have hlock := (hlocked.holds id _ hstored).mp trivial
  exact Option.some.inj (hlock.symm.trans ((hlocked.holds task _ htask).mp trivial))

/-! ### Steps of the store -/

/-- A task that is neither waiting nor busy stays as it is, until it lets the lock go. -/
theorem task_stays {s s' : State} {event : Event} {id : ℕ} {task : Task}
    (hstep : Session.step s event = some s') (hid : s.tasks id = some task)
    (hwaiting : task.stage ≠ .waiting) (hbusy : ¬task.stage.Busy)
    (hrelease : ∀ result, task.stage = .finished result → event ≠ .release id) :
    s'.tasks id = some task := by
  -- a step writes one task, so the question is whether it is this one
  have hother : ∀ {j : ℕ} {new : Option Task}, s'.tasks = Function.update s.tasks j new → j ≠ id →
      s'.tasks id = some task := by
    intro j new htasks hne
    rw [htasks, Function.update_of_ne (Ne.symm hne), hid]
  cases effect_of_step hstep with
  | quiet htasks => rw [htasks, hid]
  -- a task that moves was waiting, busy, or not there
  | moved j work new hold _ _ htasks =>
    refine hother htasks ?_
    rintro rfl
    rw [hid] at hold
    rcases hold with ⟨hnone, -⟩ | hold | ⟨old, hold, hbusy'⟩
    · cases hnone
    · exact hwaiting (by rw [Option.some.inj hold])
    · exact hbusy (by rwa [Option.some.inj hold])
  -- a rotation that is overtaken is busy
  | bumped j work hold htasks =>
    refine hother htasks ?_
    rintro rfl
    rw [hid] at hold
    exact hbusy (by rw [Option.some.inj hold]; exact trivial)
  -- the task lets the lock go, which is excluded
  | released j work result hold htasks =>
    refine hother htasks ?_
    rintro rfl
    rw [hid] at hold
    exact hrelease result (by rw [Option.some.inj hold]) rfl
  -- a new task has a new number
  | spawned call j hold htasks =>
    refine hother htasks ?_
    rintro rfl
    rw [hid] at hold
    cases hold

/-- A finished task stays finished until it lets the lock go. -/
theorem finished_stays {s s' : State} {event : Event} {id : ℕ} {work : Work}
    {result : Except BridgeError Unit} (hstep : Session.step s event = some s')
    (hid : s.tasks id = some ⟨work, .finished result⟩) (hne : event ≠ .release id) :
    s'.tasks id = some ⟨work, .finished result⟩ :=
  task_stays hstep hid Stage.noConfusion (fun hbusy => hbusy) fun _ _ => hne

theorem ended_stays {s s' : State} {event : Event} {id : ℕ} {work : Work}
    {result : Except BridgeError Unit} (hstep : Session.step s event = some s')
    (hid : s.tasks id = some ⟨work, .ended result⟩) : s'.tasks id = some ⟨work, .ended result⟩ :=
  task_stays hstep hid Stage.noConfusion (fun hbusy => hbusy) fun _ h => Stage.noConfusion h

/-- A task ends as it lets the lock go. -/
theorem ended_of_step {s s' : State} {event : Event} {id : ℕ} {work : Work}
    {result : Except BridgeError Unit} (hstep : Session.step s event = some s')
    (hid : s'.tasks id = some ⟨work, .ended result⟩) (hne : event ≠ .release id) :
    s.tasks id = some ⟨work, .ended result⟩ := by
  -- a step that writes a stage which is not an end leaves the ended tasks as they were
  have hother : ∀ {j : ℕ} {new : Task}, s'.tasks = Function.update s.tasks j (some new) →
      (∀ result, new.stage ≠ .ended result) → s.tasks id = some ⟨work, .ended result⟩ := by
    intro j new htasks hnew
    rw [htasks] at hid
    by_cases hj : id = j
    · rw [hj, Function.update_self] at hid
      exact absurd (congrArg Task.stage (Option.some.inj hid)) (hnew result)
    · rwa [Function.update_of_ne hj] at hid
  cases effect_of_step hstep with
  | quiet htasks => rwa [htasks] at hid
  | moved _ _ _ _ _ hended htasks => exact hother htasks hended
  | bumped _ _ _ htasks => exact hother htasks fun _ => Stage.noConfusion
  -- the task that lets the lock go is another one
  | released j _ _ _ htasks =>
    have hj : id ≠ j := fun heq => hne (heq ▸ rfl)
    rwa [htasks, Function.update_of_ne hj] at hid
  | spawned _ _ _ htasks => exact hother htasks fun _ => Stage.noConfusion

/-- What a step of the store leaves of the reports: the state changes with the log, and the counters
of outcomes do not change. -/
structure Beside (w w' : Monitored) : Prop where
  reports : w'.reports = w.reports
  released : w'.released = w.released
  counters : ∀ counter, counter ≠ .persistFailed →
    w'.health.counters counter = w.health.counters counter
  log : w'.health.state = w.health.state ∧ w'.log = w.log ∨
    w'.health.state = .ok ∧ w'.log = w.log ++ [.confirmed]

/-- The log of the tasks is the same beside a confirmation. -/
theorem Beside.tasks (h : Beside w w') :
    w'.log.filter (· ≠ .confirmed) = w.log.filter (· ≠ .confirmed) := by
  rcases h.log with ⟨-, hlog⟩ | ⟨-, hlog⟩
  · rw [hlog]
  · rw [hlog, List.filter_append]
    exact List.append_nil _

/-- The outcomes of the released tasks are the same. -/
theorem Beside.outcomes (h : Beside w w') : w'.outcomes = w.outcomes := by
  rw [Monitored.outcomes, h.released]
  rfl

/-- A confirmation changes nothing that a report relies on. -/
theorem Underway.beside {work : Work} {result : Except BridgeError Unit} {actions : List Action}
    (h : w.Underway work result actions) (hbeside : Beside w w') :
    w'.Underway work result actions where
  told := by rw [hbeside.tasks, hbeside.outcomes, h.told]
  counted := by
    intro counter hcounter
    rw [hbeside.counters counter hcounter, hbeside.outcomes, h.counted counter hcounter]
  sets := by
    intro state hstate
    obtain ⟨outcome, houtcome, happly, hfailed⟩ := h.sets state hstate
    -- nothing was logged, or a confirmation has set the state to `ok`
    rcases hbeside.log with ⟨hsame, -⟩ | ⟨hok, -⟩
    · rw [hsame]
      exact ⟨outcome, houtcome, happly, hfailed⟩
    · rw [hok]
      refine ⟨outcome, houtcome, ?_, fun _ => SessionState.noConfusion⟩
      -- for a failure the state is looked at again: it is `ok` now, and a failure degrades that
      cases outcome with
      | failed =>
        rw [← happly, Outcome.apply, Outcome.apply, if_neg (hfailed rfl),
          if_neg SessionState.noConfusion]
      | confirmed | refreshed | adopted | rejected => exact happly
  degrades := h.degrades
  last := h.last

/-- A step of the store that releases no task keeps the accounts. -/
theorem Reporting.beside {event : Event} (h : w.Reporting)
    (hstep : Session.step w.store event = some w'.store) (hrelease : ∀ task, event ≠ .release task)
    (hbeside : Beside w w') : w'.Reporting where
  kept := h.kept.step hstep
  state := by
    -- nothing is logged, or a confirmation, which sets the state it means
    rcases hbeside.log with ⟨hsame, hlog⟩ | ⟨hok, hlog⟩
    · rw [hsame, hlog, h.state]
    · rw [hok, hlog, stateAfter_concat]
      rfl
  underway := by
    intro id actions hid
    -- the report belongs to a task that is finished, and stays so
    rw [hbeside.reports] at hid
    obtain ⟨work, result, hstored, hunderway⟩ := h.underway id actions hid
    exact ⟨work, result, finished_stays hstep hstored (hrelease id), hunderway.beside hbeside⟩
  idle := by
    intro hidle
    rw [hbeside.reports] at hidle
    obtain ⟨htold, hcounted⟩ := h.idle hidle
    rw [hbeside.tasks, hbeside.outcomes]
    exact ⟨htold, fun counter hcounter => (hbeside.counters counter hcounter).trans
      (hcounted counter hcounter)⟩
  ended := by
    intro id work result
    rw [hbeside.released, h.ended]
    -- no other event ends a task
    exact ⟨ended_stays hstep, fun hid => ended_of_step hstep hid (hrelease id)⟩

/-- A task lets the lock go. -/
theorem Reporting.release {task : ℕ} {store : State} {work : Work}
    {result : Except BridgeError Unit} (h : w.Reporting)
    (hstep : Session.step w.store (.release task) = some store)
    (htask : w.store.tasks task = some ⟨work, .finished result⟩)
    (hreport : w.reports task = some []) :
    Reporting
      { w with
        store := store
        reports := Function.update w.reports task none
        released := w.released ++ [(task, work, result)] } := by
  -- the report of the task has been made to its end
  obtain ⟨work', result', hstored, hunderway⟩ := h.underway task [] hreport
  rw [htask] at hstored
  cases hstored
  -- the released task adds its outcome
  have houtcomes : Monitored.outcomes
      { w with
        store := store
        reports := Function.update w.reports task none
        released := w.released ++ [(task, work, result)] } = w.outcomes ++
          (work.outcome result).toList := by
    rw [Monitored.outcomes, List.filterMap_append, Monitored.outcomes]
    cases houtcome : work.outcome result <;> simp [houtcome]
  -- it was the only one that reported
  have hnone : ∀ id, Function.update w.reports task none id = none := by
    intro id
    by_cases hid : id = task
    · rw [hid, Function.update_self]
    · rw [Function.update_of_ne hid, Option.eq_none_iff_forall_ne_some]
      intro actions hactions
      exact hid (h.alone hactions htask)
  refine ⟨h.kept.step hstep, h.state, fun id actions hid => ?_, fun _ => ?_,
    fun id work' result' => ?_⟩
  · cases (hnone id).symm.trans hid
  · rw [houtcomes]
    refine ⟨?_, fun counter hcounter => hunderway.counted counter hcounter⟩
    -- the last action has decided, so the outcome is in the log already
    have htold := hunderway.told
    rwa [List.any_nil, if_neg Bool.false_ne_true, List.append_nil] at htold
  -- the lock goes with the end of the task
  · have hended : store.tasks =
        Function.update w.store.tasks task (some ⟨work, .ended result⟩) := by
      cases effect_of_step hstep with
      | quiet _ _ _ _ hrelease => exact absurd rfl (hrelease task)
      | moved _ _ _ _ _ _ _ _ _ _ hrelease => exact absurd rfl (hrelease task)
      | released _ _ _ hold htasks =>
        rw [htask] at hold
        cases hold
        exact htasks
    show _ ↔ store.tasks id = _
    rw [List.mem_append, List.mem_singleton, h.ended, hended]
    -- the other tasks are as they were
    by_cases hid : id = task
    · -- until now the task was not ended
      subst hid
      rw [htask, Function.update_self, Option.some.injEq, Option.some.injEq, Task.mk.injEq,
        Task.mk.injEq, Prod.mk.injEq, Prod.mk.injEq]
      constructor
      · rintro (⟨-, hstage⟩ | ⟨-, hwork, hresult⟩)
        · cases hstage
        · exact ⟨hwork.symm, congrArg Stage.ended hresult.symm⟩
      · rintro ⟨hwork, hresult⟩
        exact .inr ⟨rfl, hwork.symm, (Stage.ended.inj hresult).symm⟩
    · rw [Function.update_of_ne hid]
      exact or_iff_left fun heq => hid (congrArg Prod.fst heq)

/-- A step of the store keeps the accounts, whatever it is. -/
theorem Reporting.act {event : Event} (h : w.Reporting) (hact : w.act event = some w') :
    w'.Reporting := by
  -- the event decides what is noted besides the step
  obtain ⟨store, hstep, hafter⟩ := Option.bind_eq_some_iff.mp hact
  cases event with
  | release task =>
    simp only at hafter
    split at hafter
    · next work result htask hreport =>
      obtain rfl := Option.some.inj hafter
      exact h.release hstep htask hreport
    · cases hafter
  | reply id answer =>
    -- an answer that was authorized confirms the session
    simp only at hafter
    split at hafter
    · obtain rfl := Option.some.inj hafter
      exact h.beside hstep (fun _ => Event.noConfusion)
        ⟨rfl, rfl, fun _ _ => rfl, .inr ⟨Health.state_set _ _, rfl⟩⟩
    · obtain rfl := Option.some.inj hafter
      exact h.beside hstep (fun _ => Event.noConfusion) ⟨rfl, rfl, fun _ _ => rfl, .inl ⟨rfl, rfl⟩⟩
  | write task written =>
    -- a failed write is counted by a counter that no report relies on
    cases written with
    | saved =>
      obtain rfl := Option.some.inj hafter
      exact h.beside hstep (fun _ => Event.noConfusion) ⟨rfl, rfl, fun _ _ => rfl, .inl ⟨rfl, rfl⟩⟩
    | failed replaced =>
      obtain rfl := Option.some.inj hafter
      refine h.beside hstep (fun _ => Event.noConfusion)
        ⟨rfl, rfl, fun counter hcounter => ?_, .inl ⟨rfl, rfl⟩⟩
      exact Function.update_of_ne hcounter _ _
  | _ =>
    obtain rfl := Option.some.inj hafter
    exact h.beside hstep (fun _ => Event.noConfusion) ⟨rfl, rfl, fun _ _ => rfl, .inl ⟨rfl, rfl⟩⟩

/-! ### Steps of a report -/

/-- The counters may be ahead of the log, but nothing else is under way. -/
theorem Reporting.report {task : ℕ} (h : w.Reporting) (hreport : w.report task = some w') :
    w'.Reporting := by
  rw [Monitored.report] at hreport
  split at hreport
  · next work result htask hnone =>
    obtain rfl := Option.some.inj hreport
    -- nobody else is reporting: the task has the lock
    have hidle : ∀ id, w.reports id = none := by
      intro id
      rw [Option.eq_none_iff_forall_ne_some]
      intro actions hactions
      obtain rfl := h.alone hactions htask
      rw [hactions] at hnone
      cases hnone
    obtain ⟨htold, hcounted⟩ := h.idle hidle
    refine ⟨h.kept, h.state, fun id actions hid => ?_, fun hidle' => ?_, h.ended⟩
    -- the report that begins: all of its actions are still to be made
    · by_cases hsame : id = task
      · subst hsame
        obtain rfl : work.report result = actions := by
          simpa only [Function.update_self, Option.some.injEq] using hid
        refine ⟨work, result, htask, ?_, fun counter hcounter => ?_, fun state hstate => ?_,
          report_degrades, report_last⟩
        -- whether the outcome is in the log yet depends on the deciding action, which is still to
        -- come
        · show w.log.filter _ ++ _ = w.outcomes ++ _
          rw [htold, report_decides]
          cases work.outcome result <;> rfl
        -- what has been counted and what is left to count make up the outcome
        · show w.health.counters counter + _ = tally (w.outcomes ++ _) counter
          rw [hcounted counter hcounter, report_counts, tally_append]
        · obtain ⟨outcome, houtcome, hfailed, happly⟩ := report_sets hstate
          exact ⟨outcome, houtcome, happly _, fun heq => absurd heq hfailed⟩
      · have hold : w.reports id = some actions := by
          simpa only [Function.update_of_ne hsame] using hid
        rw [hidle id] at hold
        cases hold
    -- after the step something is under way
    · have hself := hidle' task
      simp only [Function.update_self] at hself
      cases hself
  · cases hreport

variable {task : ℕ} {work : Work} {result : Except BridgeError Unit} {rest : List Action}
  {reports : ℕ → Option (List Action)}

/-- One more counter of the report. -/
theorem Underway.add {counter : Counter} (h : w.Underway work result (.add counter :: rest)) :
    Underway { w with reports := reports, health := w.health.add counter } work result rest where
  told := by
    have htold := h.told
    rwa [List.any_cons, show Action.decides (.add counter) = false from rfl, Bool.false_or] at htold
  counted := by
    intro other hother
    have hcounted := h.counted other hother
    show Function.update w.health.counters counter _ other + rest.count (.add other) =
        tally (w.outcomes ++ _) other
    -- the counter that was added, and the others
    by_cases hsame : other = counter
    · subst hsame
      rw [List.count_cons_self] at hcounted
      rw [Function.update_self]
      omega
    · rw [List.count_cons_of_ne (fun heq => hsame (Action.add.inj heq).symm)] at hcounted
      rw [Function.update_of_ne hsame]
      exact hcounted
  sets := fun state hstate => h.sets state (List.mem_cons_of_mem _ hstate)
  degrades := fun hdegrade => h.degrades (List.mem_cons_of_mem _ hdegrade)
  last := (List.pairwise_cons.mp h.last).2

/-- The decision is the last operation. -/
theorem Underway.rest_eq {action : Action} (h : w.Underway work result (action :: rest))
    (hdecides : action.decides = true) : rest = [] := by
  rw [List.eq_nil_iff_forall_not_mem]
  intro later hlater
  have hnot := (List.pairwise_cons.mp h.last).1 later hlater
  rw [hdecides] at hnot
  cases hnot

/-- The report is decided. -/
theorem Underway.decide {action : Action} {health : Health}
    (h : w.Underway work result (action :: rest)) (hdecides : action.decides = true)
    (hcounters : health.counters = w.health.counters) :
    Underway
      { w with
        reports := reports
        health := health
        log := w.log ++ (work.outcome result).toList }
      work result rest := by
  -- nothing of the report is left behind the deciding action
  obtain rfl := h.rest_eq hdecides
  refine ⟨?_, fun counter hcounter => ?_, fun state hstate => absurd hstate List.not_mem_nil,
    fun hdegrade => absurd hdegrade List.not_mem_nil, List.Pairwise.nil⟩
  -- the outcome was not logged before
  · have htold := h.told
    rw [List.any_cons, hdecides, Bool.true_or, if_pos rfl] at htold
    rw [List.any_nil, if_neg Bool.false_ne_true, List.append_nil, List.filter_append]
    refine Eq.trans ?_ htold
    congr 1
    rw [List.filter_eq_self]
    intro outcome houtcome
    rw [Option.mem_toList] at houtcome
    exact decide_eq_true (outcome_ne_confirmed houtcome)
  · have hcounted := h.counted counter hcounter
    show health.counters counter + _ = _
    rw [hcounters]
    rw [List.count_cons_of_ne] at hcounted
    · exact hcounted
    · rintro rfl
      cases hdecides

/-- The state that is written is that of the log with the outcome. -/
theorem state_decided {outcome : Outcome} (h : w.health.state = stateAfter w.log)
    (houtcome : work.outcome result = some outcome) {state : SessionState}
    (hstate : outcome.apply w.health.state = state) :
    state = stateAfter (w.log ++ (work.outcome result).toList) := by
  rw [houtcome, Option.toList_some, stateAfter_concat, ← h, hstate]

/-- The report goes on by one action. -/
theorem Reporting.advance {actions : List Action} (h : w.Reporting)
    (htask : w.store.tasks task = some ⟨work, .finished result⟩) (hstore : w'.store = w.store)
    (hreports : w'.reports = Function.update w.reports task (some actions))
    (hreleased : w'.released = w.released) (hstate : w'.health.state = stateAfter w'.log)
    (hunderway : w'.Underway work result actions) :
    w'.Reporting := by
  refine ⟨by rw [hstore]; exact h.kept, hstate, fun id others hid => ?_, fun hidle => ?_, ?_⟩
  · rw [hreports] at hid
    -- the task that reports is the same one
    by_cases hsame : id = task
    · subst hsame
      rw [Function.update_self, Option.some.injEq] at hid
      rw [← hid, hstore]
      exact ⟨work, result, htask, hunderway⟩
    · rw [Function.update_of_ne hsame] at hid
      exact absurd (h.alone hid htask) hsame
  -- something is still under way
  · have hself := hidle task
    rw [hreports, Function.update_self] at hself
    cases hself
  · rw [hreleased, hstore]
    exact h.ended

/-- An action of a report keeps the accounts. -/
theorem Reporting.next (h : w.Reporting) (hnext : w.next task = some w') : w'.Reporting := by
  rw [Monitored.next] at hnext
  split at hnext
  · next work result action rest htask hreport =>
    obtain ⟨work', result', hstored, hunderway⟩ := h.underway task _ hreport
    rw [htask] at hstored
    cases hstored
    cases action with
    -- counting decides nothing
    | add counter =>
      obtain rfl := Option.some.inj hnext
      exact h.advance htask rfl rfl rfl h.state hunderway.add
    -- the state that is set is that of the outcome
    | set state =>
      obtain rfl := Option.some.inj hnext
      obtain ⟨outcome, houtcome, happly, -⟩ := hunderway.sets state List.mem_cons_self
      refine h.advance htask rfl rfl rfl ?_ (hunderway.decide rfl rfl)
      rw [Health.state_set]
      exact state_decided h.state houtcome happly
    -- `degrade` reads the state first
    | degrade =>
      have houtcome := hunderway.degrades List.mem_cons_self
      simp only at hnext
      split at hnext
      · next hrejected =>
        -- the rejection is still there, and nothing else is written
        obtain rfl := Option.some.inj hnext
        refine h.advance htask rfl rfl rfl ?_ (hunderway.decide rfl rfl)
        refine state_decided h.state houtcome ?_
        rw [Outcome.apply, if_pos (of_decide_eq_true hrejected)]
        exact (of_decide_eq_true hrejected).symm
      · next hother =>
        -- from here on only a confirmation can come before the write
        obtain rfl := Option.some.inj hnext
        -- the state that was read is no rejection, and the write is still to come
        have hstate : w.health.state ≠ .reauthRequired := fun heq => hother (decide_eq_true heq)
        obtain rfl := hunderway.rest_eq rfl
        refine h.advance htask rfl rfl rfl h.state ⟨hunderway.told, fun counter hcounter => ?_,
          fun state hset => ?_, fun hdegrade => ?_, List.pairwise_singleton _ _⟩
        · have hcounted := hunderway.counted counter hcounter
          rwa [List.count_cons_of_ne Action.noConfusion] at hcounted
        · obtain rfl := Action.set.inj (List.mem_singleton.mp hset)
          exact ⟨.failed, houtcome, by rw [Outcome.apply, if_neg hstate], fun _ => hstate⟩
        · cases List.mem_singleton.mp hdegrade
  · cases hnext

/-- Every step keeps the accounts. -/
theorem Reporting.step {event : HealthEvent} (h : w.Reporting) (hstep : w.step event = some w') :
    w'.Reporting := by
  cases event with
  | store event => exact h.act hstep
  | report task => exact h.report hstep
  | next task => exact h.next hstep

/-- A step of the store is one of the store alone. -/
theorem act_store {event : Event} (hact : w.act event = some w') :
    Session.step w.store event = some w'.store := by
  obtain ⟨store, hstep, hafter⟩ := Option.bind_eq_some_iff.mp hact
  -- beside the step of the store, only the health and the reports are written
  suffices hsame : w'.store = store by rw [hsame, hstep]
  cases event with
  | release task =>
    simp only at hafter
    split at hafter
    · rw [← Option.some.inj hafter]
    · cases hafter
  | reply id answer =>
    simp only at hafter
    split at hafter
    · rw [← Option.some.inj hafter]
    · rw [← Option.some.inj hafter]
  | write task written =>
    cases written with
    | saved | failed replaced => rw [← Option.some.inj hafter]
  | _ => rw [← Option.some.inj hafter]

theorem report_store {task : ℕ} (hreport : w.report task = some w') : w'.store = w.store := by
  rw [Monitored.report] at hreport
  split at hreport
  · rw [← Option.some.inj hreport]
  · cases hreport

/-- An action of a report leaves the store alone. -/
theorem next_store {task : ℕ} (hnext : w.next task = some w') : w'.store = w.store := by
  rw [Monitored.next] at hnext
  split at hnext
  · next work result action rest htask hreport =>
    cases action with
    | add counter | set state => rw [← Option.some.inj hnext]
    | degrade =>
      simp only at hnext
      split at hnext
      · rw [← Option.some.inj hnext]
      · rw [← Option.some.inj hnext]
  · cases hnext

/-- The store does what it would do alone. -/
theorem run_store {events : List HealthEvent}
    (hrun : EventSystem.run Monitored.step w events = some w') :
    ∃ steps, EventSystem.run Session.step w.store steps = some w'.store := by
  -- one event here is one step of the store, or none
  have hfollows : ∀ (w : Monitored) (event : HealthEvent) (w' : Monitored) (store : State),
      w.store = store →
      w.step event = some w' → ∃ steps store', (∀ step ∈ steps, True) ∧
        EventSystem.run Session.step store steps = some store' ∧ w'.store = store' := by
    rintro w event w' _ rfl hstep
    cases event with
    | store event =>
      refine ⟨[event], w'.store, fun _ _ => trivial, ?_, rfl⟩
      rw [EventSystem.run, act_store hstep]
      rfl
    | report task => exact ⟨[], w.store, fun _ _ => trivial, rfl, report_store hstep⟩
    | next task => exact ⟨[], w.store, fun _ _ => trivial, rfl, next_store hstep⟩
  obtain ⟨steps, store, -, hsteps, rfl⟩ :=
    EventSystem.run_simulates Session.step (fun (w : Monitored) store => w.store = store)
      (fun _ => True)
      hfollows rfl hrun
  exact ⟨steps, hsteps⟩

/-- While the lock is free, nothing is being reported. -/
theorem Reporting.idle_of_free (h : w.Reporting) (hfree : w.store.lock = none) (id : ℕ) :
    w.reports id = none := by
  rw [Option.eq_none_iff_forall_ne_some]
  intro actions hactions
  obtain ⟨work, result, hstored, -⟩ := h.underway id actions hactions
  have hlock := (h.kept.working.locked.holds id _ hstored).mp trivial
  rw [hfree] at hlock
  cases hlock

end Monitored

/-- Confirmations are not counted. -/
theorem tally_filter (log : List Outcome) (counter : Counter) :
    tally (log.filter (· ≠ .confirmed)) counter = tally log counter := by
  induction log with
  | nil => rfl
  | cons outcome log ih =>
    rw [← List.singleton_append, List.filter_append, tally_append, tally_append, ih]
    congr 1
    cases outcome <;> rfl

theorem not_needsSession_healthz : needsSession "/healthz".toList = false := by decide

/-- The request is let in, but for the session. -/
theorem authenticate_reauthRequired (health : Health) (accepts : Bool → Bool) (path : List Char) :
    authenticate health accepts path = .reauthRequired ↔
      accepts (genericCamera path) = true ∧ needsSession path = true ∧
        health.reauthRequired = true := by
  rw [authenticate]
  -- `/healthz` is let in before anything is asked
  by_cases hhealth : path = "/healthz".toList
  · rw [if_pos hhealth, hhealth, not_needsSession_healthz]
    exact iff_of_false Gate.noConfusion fun h => Bool.false_ne_true h.2.1
  · rw [if_neg hhealth]
    -- the token comes before the session
    by_cases haccepts : accepts (genericCamera path) = true
    · rw [if_neg (not_not.mpr haccepts)]
      by_cases hgate : health.reauthRequired = true ∧ needsSession path = true
      · rw [if_pos hgate]
        exact iff_of_true rfl ⟨haccepts, hgate.2, hgate.1⟩
      · rw [if_neg hgate]
        exact iff_of_false Gate.noConfusion fun h => hgate ⟨h.2.2, h.2.1⟩
    · rw [if_pos haccepts]
      exact iff_of_false Gate.noConfusion fun h => haccepts h.1

/-- **Whatever the calls, the refreshes and the adoptions do at once, the state is that of their
outcomes one after another.** So a rejection stays, and closes what needs the session, until an
authenticated call, a refresh or an adoption succeeds; and while the lock is free, what has been
reported is what the tasks that have ended have ended with, in their order, and the counters have
counted it. -/
theorem health_reported {token : EzvizToken} {consumed issued : Finset String}
    {events : List HealthEvent} {w : Monitored}
    (hrun : EventSystem.run Monitored.step (Monitored.load token consumed issued) events = some w) :
    (∃ steps, EventSystem.run step (State.load token consumed issued) steps = some w.store) ∧
      w.health.state = stateAfter w.log ∧
      (w.health.state = .reauthRequired ↔ (w.log.filter (· ≠ .failed)).getLast? = some .rejected) ∧
      (∀ accepts path, authenticate w.health accepts path = .reauthRequired ↔
        accepts (genericCamera path) = true ∧ needsSession path = true ∧
          (w.log.filter (· ≠ .failed)).getLast? = some .rejected) ∧
      (∀ task work result, (task, work, result) ∈ w.released ↔
        w.store.tasks task = some ⟨work, .ended result⟩) ∧
      (w.store.lock = none → w.log.filter (· ≠ .confirmed) = w.outcomes ∧
        ∀ counter, counter ≠ .persistFailed → w.health.counters counter = tally w.log counter) := by
  -- the accounts hold at the start, and every step keeps them
  have h : w.Reporting := EventSystem.run_keeps Monitored.Reporting
    (fun _ _ _ h hstep => h.step hstep)
    (Monitored.reporting_load token consumed issued) hrun
  have hrejected : w.health.state = .reauthRequired ↔
      (w.log.filter (· ≠ .failed)).getLast? = some .rejected := by
    rw [h.state, stateAfter_rejected]
  refine ⟨Monitored.run_store hrun, h.state, hrejected, fun accepts path => ?_, h.ended,
    fun hfree => ?_⟩
  -- the gate reads `reauth_required`, which is the last rejection
  · rw [authenticate_reauthRequired, ← hrejected]
    exact ⟨fun hgate => ⟨hgate.1, hgate.2.1, of_decide_eq_true hgate.2.2⟩,
      fun hgate => ⟨hgate.1, hgate.2.1, decide_eq_true hgate.2.2⟩⟩
  -- the lock is free, so nothing is under way
  · obtain ⟨htold, hcounted⟩ := h.idle (h.idle_of_free hfree)
    refine ⟨htold, fun counter hcounter => ?_⟩
    rw [hcounted counter hcounter, ← htold, tally_filter]

/-- EZVIZ refuses the refresh token. -/
def sampleRejection : List HealthEvent :=
  let refused : Except BridgeError RefreshReply := .ok ⟨403, none, none⟩
  [.store (.call 0 .authed), .store (.read 0), .store (.loadGeneration 0),
    .store (.reply 0 (.ok (401, none))), .store (.enter 0 0), .store (.readToken 0),
    .store (.send 0), .store (.answer 0 refused), .report 0, .next 0, .next 0, .next 0,
    .store (.release 0)]

/-- A refresh is rejected, and the gate closes. -/
theorem health_reported_sample :
    ∃ w ∈ EventSystem.run Monitored.step (Monitored.load sampleToken ∅ ∅) sampleRejection,
      w.health.state = .reauthRequired ∧ w.health.counters .refreshFailed = 1 ∧
        authenticate w.health id "/v1/cameras/front/live.ts".toList = .reauthRequired := by
  obtain ⟨w, hw, hlog, hfree⟩ :
      ∃ w ∈ EventSystem.run Monitored.step (Monitored.load sampleToken ∅ ∅) sampleRejection,
        w.log = [.rejected] ∧ w.store.lock = none := by
    decide +kernel
  obtain ⟨-, -, hstate, hgate, -, hcounted⟩ := health_reported hw
  refine ⟨w, hw, hstate.mpr (by rw [hlog]; rfl), ?_,
    (hgate id _).mpr ⟨by decide, by decide, by rw [hlog]; rfl⟩⟩
  rw [(hcounted hfree).2 .refreshFailed Counter.noConfusion, hlog]
  rfl

end Session

end EzvizBridge
