import EzvizBridge.Controls.Cell
import EzvizBridge.Lib.Roster

/-!
# Freshness of a cache cell

Any number of calls of `get` and `invalidate`, in any order. `Moves` says what a call can do when it
goes from one phase to the next. The invariant `Fresh` says where the values in the cell and the
values that the calls return come from: each is the result of a fetch, of the last one that had
succeeded when the call settled on it.
-/

namespace EzvizBridge

namespace Controls

open Roster

variable {α : Type} {lifetimes : Lifetimes} {s s' : State α} {event : Event α}

/-! ### What a call can do -/

/-- When `invalidate` has cleared the entry. -/
def Phase.since : Phase α → Option Stamp
  | .clearing since | .cleared since _ => some since
  | _ => none

/-- When an `invalidate` that has returned has cleared the entry. -/
def Phase.clearedSince : Phase α → Option Stamp
  | .cleared since _ => some since
  | _ => none

/-- What an invalidate clears while it runs is what it has cleared once it is over. -/
theorem Phase.since_of_clearedSince {phase : Phase α} {since : Stamp}
    (h : phase.clearedSince = some since) : phase.since = some since := by
  cases phase with
  | cleared since at_ => exact h
  | _ => exact nomatch h

/-- What a get has settled on. -/
def Phase.outcome : Phase α → Option (Stamp × Cached α)
  | .leaving settled value => some (settled, .stale value)
  | .returned settled _ result => some (settled, result)
  | _ => none

/-- The value of a result. -/
def Cached.stamped : Cached α → Option (Stamped α)
  | .value found | .stale found => some found
  | .failed _ => none

/-- The call `i` goes to another phase: what becomes of the cell, the lock and the fetches. -/
inductive Moves (lifetimes : Lifetimes) (s : State α) (i : ℕ) :
    Event α → Call α → Phase α → TtlCell α → Option ℕ → List (Fetch α) → Prop
  | hit {started : Stamp} {deadline expires : ℕ} {value : Stamped α} (hfree : s.holder = none)
      (hentry : s.cell.entry = some ⟨expires, .ok value⟩) (hfresh : s.clock < expires) :
      Moves lifetimes s i (.lock i) ⟨.get false deadline, started, .waiting⟩
        (.returned s.now s.now (.value value)) s.cell s.holder s.fetches
  | begun {started : Stamp} {force : Bool} {deadline : ℕ} (hfree : s.holder = none) :
      Moves lifetimes s i (.lock i) ⟨.get force deadline, started, .waiting⟩
        (.fetching s.fetches.length) s.cell (some i)
        (s.fetches ++ [{ call := i, began := s.now }])
  | emptied {started : Stamp} (hfree : s.holder = none) :
      Moves lifetimes s i (.lock i) ⟨.invalidate, started, .waiting⟩ (.clearing s.now)
        { s.cell with entry := none } s.holder s.fetches
  /-- The deadline has passed, or there is a recent failure; `category` says which. -/
  | aged {event : Event α} {started : Stamp} {deadline : ℕ} {good : Good α} {category : String}
      {holder : Option ℕ}
      (hcause : event = .timeout i ∧ category = "timeout" ∧ deadline ≤ s.clock ∧ holder = s.holder ∨
        event = .lock i ∧ s.holder = none ∧
          (category = "timeout" ∧ deadline ≤ s.clock ∧ holder = none ∧
              s.cell.look false deadline s.clock = .late ∨
            holder = some i ∧ s.cell.look false deadline s.clock = .failure category ∧
              ∃ expires, s.cell.entry = some ⟨expires, .error category⟩ ∧ s.clock < expires))
      (hgood : s.cell.good = some good) (hcategory : category ≠ "reauth_required")
      (hage : s.clock - good.at_ ≤ lifetimes.staleFor) :
      Moves lifetimes s i event ⟨.get false deadline, started, .waiting⟩
        (.leaving s.now good.value) s.cell holder s.fetches
  | missed {event : Event α} {started : Stamp} {force : Bool} {deadline : ℕ} {category : String} :
      Moves lifetimes s i event ⟨.get force deadline, started, .waiting⟩
        (.returned s.now s.now (.failed category)) s.cell (s.release i).holder s.fetches
  | succeeded {method : Method} {started : Stamp} {fetch : ℕ} {value : α} :
      Moves lifetimes s i (.fetched i (.ok value)) ⟨method, started, .fetching fetch⟩
        (.returned s.now s.now (.value ⟨value, fetch⟩))
        (.succeed lifetimes ⟨value, fetch⟩ s.clock) none
        (s.fetches.modify fetch fun fetch =>
          { fetch with succeeded := some s.now, value := some value })
  | failed {method : Method} {started : Stamp} {fetch : ℕ} (error : BridgeError) :
      Moves lifetimes s i (.fetched i (.error error)) ⟨method, started, .fetching fetch⟩
        (.recording error.diagnosticCode) s.cell s.holder s.fetches
  | recordedStale {started : Stamp} {deadline : ℕ} {good : Good α} {category : String}
      (hgood : s.cell.good = some good) (hcategory : category ≠ "reauth_required")
      (hage : s.clock - good.at_ ≤ lifetimes.staleFor) :
      Moves lifetimes s i (.counted i) ⟨.get false deadline, started, .recording category⟩
        (.leaving s.now good.value) (s.cell.fail lifetimes category s.clock) none s.fetches
  | recorded {started : Stamp} {force : Bool} {deadline : ℕ} {category : String} :
      Moves lifetimes s i (.counted i) ⟨.get force deadline, started, .recording category⟩
        (.returned s.now s.now (.failed category)) (s.cell.fail lifetimes category s.clock) none
        s.fetches
  | left {method : Method} {started settled : Stamp} {value : Stamped α} :
      Moves lifetimes s i (.counted i) ⟨method, started, .leaving settled value⟩
        (.returned settled s.now (.stale value)) s.cell (s.release i).holder s.fetches
  | cleared {method : Method} {started since : Stamp} :
      Moves lifetimes s i (.clear i) ⟨method, started, .clearing since⟩ (.cleared since s.now)
        { s.cell with good := none } s.holder s.fetches
  | cancelled {call : Call α} (hwaits : call.phase.waits = true) :
      Moves lifetimes s i (.cancel i) call .cancelled s.cell (s.release i).holder s.fetches

/-- `fallback` fails, or it finds a last good value that is not too old. -/
theorem TtlCell.fallback_cases (cell : TtlCell α) (lifetimes : Lifetimes) (force : Bool)
    (category : String) (now : ℕ) :
    cell.fallback lifetimes force category now = .failed category ∨
      ∃ good, cell.good = some good ∧ force = false ∧ category ≠ "reauth_required" ∧
        now - good.at_ ≤ lifetimes.staleFor ∧
        cell.fallback lifetimes force category now = .stale good.value := by
  rw [fallback]
  split
  case h_2 => exact .inl rfl
  case h_1 good hgood =>
  -- the filter on the last good value is the guard of the source: not forced, no `reauth_required`,
  -- not older than `staleFor`
  rw [Option.filter_eq_some_iff, Bool.and_eq_true, Bool.and_eq_true, Bool.not_eq_true',
    decide_eq_true_eq, decide_eq_true_eq] at hgood
  obtain ⟨hsome, ⟨hforce, hcategory⟩, hage⟩ := hgood
  exact .inr ⟨good, hsome, hforce, hcategory, hage, rfl⟩

/-- What `get` finds under the lock. -/
theorem TtlCell.look_cases (cell : TtlCell α) (force : Bool) (deadline now : ℕ) :
    (∃ expires value, cell.entry = some ⟨expires, .ok value⟩ ∧ force = false ∧ now < expires ∧
      cell.look force deadline now = .value value) ∨
    (∃ expires category, cell.entry = some ⟨expires, .error category⟩ ∧ force = false ∧
      now < expires ∧ cell.look force deadline now = .failure category) ∨
    (deadline ≤ now ∧ cell.look force deadline now = .late) ∨
    cell.look force deadline now = .fetch := by
  -- an entry that passes the filter is fresh, and the call is not forced
  have hfresh : ∀ entry, (cell.entry.filter fun entry => !force && decide (now < entry.expires)) =
      some entry → cell.entry = some entry ∧ force = false ∧ now < entry.expires := by
    intro entry hentry
    rw [Option.filter_eq_some_iff, Bool.and_eq_true, Bool.not_eq_true', decide_eq_true_eq] at hentry
    exact hentry
  rw [look]
  split
  case h_1 expires value hentry =>
    obtain ⟨hsome, hforce, hlt⟩ := hfresh _ hentry
    exact .inl ⟨expires, value, hsome, hforce, hlt, rfl⟩
  case h_2 expires category hentry =>
    obtain ⟨hsome, hforce, hlt⟩ := hfresh _ hentry
    exact .inr (.inl ⟨expires, category, hsome, hforce, hlt, rfl⟩)
  case h_3 =>
    split
    case isTrue hlate => exact .inr (.inr (.inl ⟨hlate, rfl⟩))
    case isFalse => exact .inr (.inr (.inr rfl))

/-- A call does one of its moves, and everything else stays. -/
structure Moved (lifetimes : Lifetimes) (s s' : State α) (event : Event α) (i : ℕ) (call : Call α)
    (phase : Phase α) : Prop where
  before : s.calls[i]? = some call
  moves : Moves lifetimes s i event call phase s'.cell s'.holder s'.fetches
  calls : s'.calls = s.calls.set i { call with phase }
  clock : s'.clock = s.clock

/-- What a step can do. -/
theorem act_cases (h : act lifetimes s event = some s') :
    (∃ duration, event = .tick duration ∧ s' = { s with clock := s.clock + duration }) ∨
      (∃ method, event = .call method ∧
        s' = { s with calls := s.calls ++ [{ method, started := s.now }] }) ∨
      ∃ i call phase, Moved lifetimes s s' event i call phase := by
  cases event with
  | tick duration => exact .inl ⟨duration, rfl, (Option.some.inj h).symm⟩
  | call method => exact .inr (.inl ⟨method, rfl, (Option.some.inj h).symm⟩)
  -- a call that waits may go on only while nobody has the lock
  | lock i =>
    simp only [act] at h
    split at h
    case h_2 => exact nomatch h
    case h_1 method started hi =>
    split at h
    case isFalse => exact nomatch h
    case isTrue hfree =>
    obtain rfl := Option.some.inj h
    cases method with
    | invalidate => exact .inr (.inr ⟨i, _, _, hi, .emptied hfree, rfl, rfl⟩)
    -- one case for each answer of `look`: a fresh value, a fresh failure, a passed deadline, a
    -- fetch
    | get force deadline =>
      simp only [State.enter]
      rcases s.cell.look_cases force deadline s.clock with
        ⟨expires, value, hentry, rfl, hlt, hlook⟩ |
        ⟨expires, category, hentry, rfl, hlt, hlook⟩ | ⟨hlate, hlook⟩ | hlook
      · rw [hlook]
        exact .inr (.inr ⟨i, _, _, hi, .hit hfree hentry hlt, rfl, rfl⟩)
      · rw [hlook]
        simp only [State.fall]
        -- a fresh failure is a miss that may still be answered by the last good value
        rcases s.cell.fallback_cases lifetimes false category s.clock with hfall |
          ⟨good, hgood, -, hcategory, hage, hfall⟩
        · rw [hfall]
          -- the lock is given back in the same step, so the holder is the one of the state before
          have hholder : (State.release { s with holder := some i } i).holder =
              (s.release i).holder := by
            rw [State.release, State.release, if_pos rfl, hfree]
            rfl
          refine .inr (.inr ⟨i, _, .returned s.now s.now (.failed category), hi, ?_, rfl, rfl⟩)
          show Moves lifetimes s i _ _ _ s.cell (State.release { s with holder := some i } i).holder
            s.fetches
          rw [hholder]
          exact .missed
        · rw [hfall]
          exact .inr (.inr ⟨i, _, _, hi,
            .aged (.inr ⟨rfl, hfree, .inr ⟨rfl, hlook, expires, hentry, hlt⟩⟩) hgood hcategory hage,
            rfl, rfl⟩)
      · rw [hlook]
        simp only [State.fall]
        -- the deadline has passed while the call waited, which counts as a failure of kind
        -- `timeout`
        rcases s.cell.fallback_cases lifetimes force "timeout" s.clock with hfall |
          ⟨good, hgood, rfl, hcategory, hage, hfall⟩
        · rw [hfall]
          exact .inr (.inr ⟨i, _, _, hi, .missed, rfl, rfl⟩)
        · rw [hfall]
          exact .inr (.inr ⟨i, _, _, hi,
            .aged (.inr ⟨rfl, hfree, .inl ⟨rfl, hlate, hfree, hlook⟩⟩) hgood hcategory hage,
            rfl, rfl⟩)
      · rw [hlook]
        exact .inr (.inr ⟨i, _, _, hi, .begun hfree, rfl, rfl⟩)
  | timeout i =>
    simp only [act] at h
    split at h
    case h_2 => exact nomatch h
    case h_1 force deadline started hi =>
    -- `timeout_at` gives up on a call that waits, without the lock
    split at h
    case isFalse => exact nomatch h
    case isTrue hlate =>
    obtain rfl := Option.some.inj h
    simp only [State.fall]
    rcases s.cell.fallback_cases lifetimes force "timeout" s.clock with hfall |
      ⟨good, hgood, rfl, hcategory, hage, hfall⟩
    · rw [hfall]
      exact .inr (.inr ⟨i, _, _, hi, .missed, rfl, rfl⟩)
    · rw [hfall]
      exact .inr (.inr ⟨i, _, _, hi, .aged (.inl ⟨rfl, rfl, hlate, rfl⟩) hgood hcategory hage,
        rfl, rfl⟩)
  | fetched i result =>
    simp only [act] at h
    split at h
    case h_2 => exact nomatch h
    case h_1 method started fetch hi =>
    obtain rfl := Option.some.inj h
    -- a failed fetch is counted first, so it does not touch the cell yet
    cases result with
    | ok value => exact .inr (.inr ⟨i, _, _, hi, .succeeded, rfl, rfl⟩)
    | error error => exact .inr (.inr ⟨i, _, _, hi, .failed error, rfl, rfl⟩)
  | counted i =>
    simp only [act] at h
    split at h
    case h_3 => exact nomatch h
    case h_1 force deadline started category hi =>
      obtain rfl := Option.some.inj h
      simp only [State.fall]
      -- the failure is recorded before the fallback looks at the cell
      rcases (s.cell.fail lifetimes category s.clock).fallback_cases lifetimes force
        category s.clock
        with hfall | ⟨good, hgood, rfl, hcategory, hage, hfall⟩
      · rw [hfall]
        exact .inr (.inr ⟨i, _, _, hi, .recorded, rfl, rfl⟩)
      · rw [hfall]
        exact .inr (.inr ⟨i, _, _, hi, .recordedStale hgood hcategory hage, rfl, rfl⟩)
    case h_2 method started settled value hi =>
      obtain rfl := Option.some.inj h
      exact .inr (.inr ⟨i, _, _, hi, .left, rfl, rfl⟩)
  | clear i =>
    simp only [act] at h
    split at h
    case h_2 => exact nomatch h
    case h_1 method started since hi =>
    obtain rfl := Option.some.inj h
    exact .inr (.inr ⟨i, _, _, hi, .cleared, rfl, rfl⟩)
  | cancel i =>
    simp only [act] at h
    split at h
    case h_2 => exact nomatch h
    case h_1 call hi =>
    -- only a call that waits for the lock or fetches can be dropped
    split at h
    case isFalse => exact nomatch h
    case isTrue hwaits =>
    obtain rfl := Option.some.inj h
    exact .inr (.inr ⟨i, _, _, hi, .cancelled hwaits, rfl, rfl⟩)

/-- What a step can do. -/
theorem step_cases (h : step lifetimes s event = some s') :
    s'.steps = s.steps + 1 ∧
      ((∃ duration, event = .tick duration ∧ s' =
          { s with clock := s.clock + duration, steps := s.steps + 1 }) ∨
        (∃ method, event = .call method ∧ s' =
          { s with
            calls := s.calls ++ [{ method, started := s.now }]
            steps := s.steps + 1 }) ∨
        ∃ i call phase, Moved lifetimes s s' event i call phase) := by
  -- `step` is `act` with the number of the step counted up
  obtain ⟨m, hm, rfl⟩ := Option.map_eq_some_iff.mp h
  refine ⟨rfl, ?_⟩
  rcases act_cases hm with ⟨duration, rfl, rfl⟩ | ⟨method, rfl, rfl⟩ |
    ⟨i, call, phase, hbefore, hmoves, hcalls, hclock⟩
  · exact .inl ⟨duration, rfl, rfl⟩
  · exact .inr (.inl ⟨method, rfl, rfl⟩)
  · exact .inr (.inr ⟨i, call, phase, hbefore, hmoves, hcalls, hclock⟩)

/-! ### The lock -/

/-- The call keeps the lock of the entry in this phase, whatever else happens. -/
def Phase.holds : Phase α → Bool
  | .fetching _ | .recording _ => true
  | _ => false

/-- Who fetches has the lock. -/
def Locked (s : State α) : Prop :=
  ∀ (i : ℕ) call, s.calls[i]? = some call → call.phase.holds = true → s.holder = some i

section

variable {i : ℕ} {call : Call α} {phase : Phase α}

/-- Giving back the lock of one call does not take it from another. -/
theorem State.release_other {j : ℕ} (hne : j ≠ i) (hj : s.holder = some j) :
    (s.release i).holder = some j := by
  rw [release, hj, if_neg]
  exact fun h => hne (Option.some.inj h)

/-- A call that has the lock, and keeps a phase that needs it, still has it. -/
theorem Moves.holder_self {cell : TtlCell α} {holder : Option ℕ} {fetches : List (Fetch α)}
    (h : Moves lifetimes s i event call phase cell holder fetches)
    (hcall : call.phase.holds = true → s.holder = some i) (hphase : phase.holds = true) :
    holder = some i := by
  cases h with
  | begun => rfl
  | failed error => exact hcall rfl
  | _ => exact nomatch hphase

/-- A call that does not have the lock leaves it to the one that has it. -/
theorem Moves.holder_other {cell : TtlCell α} {holder : Option ℕ} {fetches : List (Fetch α)}
    (h : Moves lifetimes s i event call phase cell holder fetches)
    (hcall : call.phase.holds = true → s.holder = some i) {j : ℕ} (hne : j ≠ i)
    (hj : s.holder = some j) :
    holder = some j ∧ fetches = s.fetches ∧ phase.since = call.phase.since := by
  -- another call has the lock, so a move that needs it free is impossible, and so is one of the
  -- call that has it
  have hlocked : ∀ {p : Prop}, s.holder = none → p := fun hfree => nomatch hfree.symm.trans hj
  have hheld : ∀ {p : Prop}, s.holder = some i → p := fun hi =>
    absurd (Option.some.inj (hj.symm.trans hi)) hne
  cases h with
  | hit hfree => exact hlocked hfree
  | begun hfree => exact hlocked hfree
  | emptied hfree => exact hlocked hfree
  | aged hcause =>
    rcases hcause with ⟨-, -, -, rfl⟩ | ⟨-, hfree, -⟩
    · exact ⟨hj, rfl, rfl⟩
    · exact hlocked hfree
  | missed => exact ⟨State.release_other hne hj, rfl, rfl⟩
  | succeeded => exact hheld (hcall rfl)
  | failed error => exact ⟨hj, rfl, rfl⟩
  | recordedStale => exact hheld (hcall rfl)
  | recorded => exact hheld (hcall rfl)
  | left => exact ⟨State.release_other hne hj, rfl, rfl⟩
  | cleared => exact ⟨hj, rfl, rfl⟩
  | cancelled hwaits =>
    refine ⟨State.release_other hne hj, rfl, ?_⟩
    -- a call that is dropped has not begun to clear
    cases hphase : call.phase <;> first | rfl | (rw [hphase] at hwaits; exact nomatch hwaits)

theorem Moved.self (h : Moved lifetimes s s' event i call phase) :
    s'.calls[i]? = some { call with phase } := by
  rw [h.calls, set_self h.before]

theorem Moved.other (h : Moved lifetimes s s' event i call phase) {j : ℕ} (hne : j ≠ i) :
    s'.calls[j]? = s.calls[j]? := by
  rw [h.calls, set_other hne]

/-- A call after a move: the one that moved, or another one. -/
theorem Moved.cases (h : Moved lifetimes s s' event i call phase) {j : ℕ} {found : Call α}
    (hj : s'.calls[j]? = some found) :
    j = i ∧ found = { call with phase } ∨ j ≠ i ∧ s.calls[j]? = some found := by
  rw [h.calls] at hj
  rcases of_set_eq_some hj with ⟨heq, rfl⟩ | hother
  · exact .inl ⟨heq, rfl⟩
  · exact .inr hother

/-- Every phase that needs the lock has it, also after a move. -/
theorem Locked.moved (h : Locked s) (hm : Moved lifetimes s s' event i call phase) : Locked s' := by
  have hcall := h i call hm.before
  intro j found hj hholds
  rcases hm.cases hj with ⟨rfl, rfl⟩ | ⟨hne, hold⟩
  · exact hm.moves.holder_self hcall hholds
  · exact (hm.moves.holder_other hcall hne (h j found hold hholds)).1

/-! ### What a move does to the record -/

/-- No fetch has succeeded in this step. -/
def Steady (s : State α) (i : ℕ) (fetches : List (Fetch α)) : Prop :=
  fetches = s.fetches ∨ fetches = s.fetches ++ [{ call := i, began := s.now }]

/-- The fetch of the call has succeeded in this step, with this value. -/
def Won (s : State α) (call : Call α) (v : Stamped α) (fetches : List (Fetch α)) : Prop :=
  call.phase = .fetching v.fetch ∧
    fetches = s.fetches.modify v.fetch fun fetch =>
      { fetch with succeeded := some s.now, value := some v.value }

variable {cell : TtlCell α} {holder : Option ℕ} {fetches : List (Fetch α)}

/-- A move leaves the fetches that have succeeded alone, or it is the success of the fetch of this
call. -/
theorem Moves.fetches_cases (h : Moves lifetimes s i event call phase cell holder fetches) :
    Steady s i fetches ∨ ∃ v, Won s call v fetches ∧ event = .fetched i (.ok v.value) := by
  cases h with
  | begun => exact .inl (.inr rfl)
  | @succeeded method started fetch value => exact .inr ⟨⟨value, fetch⟩, ⟨rfl, rfl⟩, rfl⟩
  | _ => exact .inl (.inl rfl)

/-- An entry is as it was, or it is the result of the fetch. -/
theorem Moves.entry_cases (h : Moves lifetimes s i event call phase cell holder fetches)
    {expires : ℕ} {v : Stamped α} (hentry : cell.entry = some ⟨expires, .ok v⟩) :
    s.cell.entry = some ⟨expires, .ok v⟩ ∧ Steady s i fetches ∧
        (∀ since, phase.since = some since → call.phase.since = some since) ∨
      expires = s.clock + lifetimes.ttl ∧ Won s call v fetches ∧ phase.since = none := by
  cases h with
  | emptied => exact nomatch hentry
  -- a new fetch is appended, and the entry is not touched
  | begun => exact .inl ⟨hentry, .inr rfl, fun _ hsince => nomatch hsince⟩
  | succeeded =>
    -- the only move that writes a value: it expires `ttl` later
    obtain ⟨rfl, hvalue⟩ := Entry.mk.inj (Option.some.inj hentry)
    obtain rfl := Except.ok.inj hvalue
    exact .inr ⟨rfl, ⟨rfl, rfl⟩, rfl⟩
  -- a recorded failure is an entry, but no value
  | recordedStale => exact nomatch (Entry.mk.inj (Option.some.inj hentry)).2
  | recorded => exact nomatch (Entry.mk.inj (Option.some.inj hentry)).2
  | cleared => exact .inl ⟨hentry, .inl rfl, fun _ hsince => hsince⟩
  -- the other moves touch neither the entry nor the fetches
  | _ => exact .inl ⟨hentry, .inl rfl, fun _ hsince => nomatch hsince⟩

/-- The last good value is as it was, or it is the result of the fetch. -/
theorem Moves.good_cases (h : Moves lifetimes s i event call phase cell holder fetches)
    {good : Good α} (hgood : cell.good = some good) :
    s.cell.good = some good ∧ Steady s i fetches ∧ phase.clearedSince = none ∨
      good.at_ = s.clock ∧ Won s call good.value fetches ∧ phase.clearedSince = none := by
  cases h with
  | begun => exact .inl ⟨hgood, .inr rfl, rfl⟩
  | succeeded =>
    obtain rfl := Option.some.inj hgood
    exact .inr ⟨rfl, ⟨rfl, rfl⟩, rfl⟩
  | cleared => exact nomatch hgood
  | _ => exact .inl ⟨hgood, .inl rfl, rfl⟩

/-- What a get settles on: it stays, or it is the entry, the last good value, or the result of the
fetch. -/
theorem Moves.outcome_cases (h : Moves lifetimes s i event call phase cell holder fetches)
    {settled : Stamp} {result : Cached α} {v : Stamped α}
    (hphase : phase.outcome = some (settled, result)) (hv : result.stamped = some v) :
    call.phase.outcome = some (settled, result) ∨
      settled = s.now ∧
        ((result = .value v ∧ fetches = s.fetches ∧
          (∃ deadline, call.method = .get false deadline) ∧
            ∃ expires, s.cell.entry = some ⟨expires, .ok v⟩ ∧ s.clock < expires) ∨
          (result = .stale v ∧ fetches = s.fetches ∧
            (∃ deadline, call.method = .get false deadline) ∧
            ∃ good, s.cell.good = some good ∧ good.value = v ∧
              s.clock - good.at_ ≤ lifetimes.staleFor) ∨
          result = .value v ∧ Won s call v fetches) := by
  cases h with
  | hit hfree hentry hfresh =>
    -- the entry was fresh under the lock
    obtain ⟨rfl, rfl⟩ := Prod.mk.inj (Option.some.inj hphase)
    obtain rfl := Option.some.inj hv
    exact .inr ⟨rfl, .inl ⟨rfl, rfl, ⟨_, rfl⟩, _, hentry, hfresh⟩⟩
  | aged hcause hgood hcategory hage =>
    -- the last good value is young enough
    obtain ⟨rfl, rfl⟩ := Prod.mk.inj (Option.some.inj hphase)
    obtain rfl := Option.some.inj hv
    exact .inr ⟨rfl, .inr (.inl ⟨rfl, rfl, ⟨_, rfl⟩, _, hgood, rfl, hage⟩)⟩
  | recordedStale hgood hcategory hage =>
    obtain ⟨rfl, rfl⟩ := Prod.mk.inj (Option.some.inj hphase)
    obtain rfl := Option.some.inj hv
    exact .inr ⟨rfl, .inr (.inl ⟨rfl, rfl, ⟨_, rfl⟩, _, hgood, rfl, hage⟩)⟩
  | succeeded =>
    -- the fetch of this call has just succeeded
    obtain ⟨rfl, rfl⟩ := Prod.mk.inj (Option.some.inj hphase)
    obtain rfl := Option.some.inj hv
    exact .inr ⟨rfl, .inr (.inr ⟨rfl, rfl, rfl⟩)⟩
  -- the value was settled on before, and is handed over now
  | left => exact .inl hphase
  | missed =>
    -- a failure carries no value
    obtain ⟨-, rfl⟩ := Prod.mk.inj (Option.some.inj hphase)
    exact nomatch hv
  | recorded =>
    obtain ⟨-, rfl⟩ := Prod.mk.inj (Option.some.inj hphase)
    exact nomatch hv
  -- the moves that are left settle on nothing
  | begun => exact nomatch hphase
  | emptied => exact nomatch hphase
  | failed error => exact nomatch hphase
  | cleared => exact nomatch hphase
  | cancelled => exact nomatch hphase

/-! ### Stamps -/

/-- The stamps of a call are in order, and in the past. -/
structure Call.Ordered (steps : ℕ) (call : Call α) : Prop where
  started : call.started.step < steps
  since : ∀ since, call.phase.since = some since →
    call.started.step ≤ since.step ∧ since.step < steps
  cleared : ∀ since at_, call.phase = .cleared since at_ → since.step ≤ at_.step ∧ at_.step < steps
  settled : ∀ settled result, call.phase.outcome = some (settled, result) →
    call.started.step ≤ settled.step ∧ settled.step < steps
  returned : ∀ settled at_ result, call.phase = .returned settled at_ result →
    settled.step ≤ at_.step ∧ ∀ value, result = .value value → settled = at_

/-- The order of a call's stamps survives the steps of others. -/
theorem Call.Ordered.mono {steps : ℕ} (h : call.Ordered steps) : call.Ordered (steps + 1) where
  started := h.started.trans (Nat.lt_succ_self _)
  since since hsince :=
    ⟨(h.since since hsince).1, (h.since since hsince).2.trans (Nat.lt_succ_self _)⟩
  cleared since at_ hcleared :=
    ⟨(h.cleared since at_ hcleared).1, (h.cleared since at_ hcleared).2.trans (Nat.lt_succ_self _)⟩
  settled settled result hsettled :=
    ⟨(h.settled settled result hsettled).1,
      (h.settled settled result hsettled).2.trans (Nat.lt_succ_self _)⟩
  returned := h.returned

/-- A phase without stamps asks for nothing. -/
theorem Call.ordered_of_bare {steps : ℕ} (hstarted : call.started.step < steps)
    (hsince : call.phase.since = none) (houtcome : call.phase.outcome = none) :
    call.Ordered steps := by
  refine ⟨hstarted, ?_, ?_, ?_, ?_⟩
  · intro since h
    exact nomatch hsince.symm.trans h
  · intro since at_ hphase
    rw [hphase] at hsince
    exact nomatch hsince
  · intro settled result h
    exact nomatch houtcome.symm.trans h
  · intro settled at_ result hphase
    rw [hphase] at houtcome
    exact nomatch houtcome

/-- A move is stamped with the step it happens in. -/
theorem Moves.ordered (h : Moves lifetimes s i event call phase cell holder fetches)
    (hcall : call.Ordered s.steps) : Call.Ordered (s.steps + 1) { call with phase } := by
  have hstarted : call.started.step < s.steps + 1 := hcall.started.trans (Nat.lt_succ_self _)
  have hnow : call.started.step ≤ s.now.step ∧ s.now.step < s.steps + 1 :=
    ⟨hcall.started.le, Nat.lt_succ_self _⟩
  -- a get that returns at once
  have hreturned : ∀ result : Cached α,
      Call.Ordered (s.steps + 1) { call with phase := .returned s.now s.now result } := by
    intro result
    refine ⟨hstarted, fun _ hsince => (nomatch hsince), fun _ _ hphase => (nomatch hphase), ?_, ?_⟩
    · intro settled found hsettled
      obtain ⟨rfl, -⟩ := Prod.mk.inj (Option.some.inj hsettled)
      exact hnow
    · intro settled at_ found hphase
      obtain ⟨rfl, rfl, -⟩ := Phase.returned.inj hphase
      exact ⟨le_rfl, fun _ _ => rfl⟩
  -- a get that has settled on a stale value and has not returned yet
  have hleaving : ∀ value : Stamped α,
      Call.Ordered (s.steps + 1) { call with phase := .leaving s.now value } := by
    intro value
    refine ⟨hstarted, fun _ hsince => (nomatch hsince), fun _ _ hphase => (nomatch hphase), ?_,
      fun _ _ _ hphase => (nomatch hphase)⟩
    intro settled found hsettled
    obtain ⟨rfl, -⟩ := Prod.mk.inj (Option.some.inj hsettled)
    exact hnow
  cases h with
  | hit => exact hreturned _
  | missed => exact hreturned _
  | succeeded => exact hreturned _
  | recorded => exact hreturned _
  | aged => exact hleaving _
  | recordedStale => exact hleaving _
  | begun => exact Call.ordered_of_bare hstarted rfl rfl
  | failed error => exact Call.ordered_of_bare hstarted rfl rfl
  | cancelled => exact Call.ordered_of_bare hstarted rfl rfl
  | emptied =>
    refine ⟨hstarted, ?_, fun _ _ hphase => (nomatch hphase),
      fun _ _ hsettled => (nomatch hsettled), fun _ _ _ hphase => (nomatch hphase)⟩
    -- an invalidate empties the cell in this step
    intro since hsince
    obtain rfl := Option.some.inj hsince
    exact hnow
  | @cleared method started since =>
    obtain ⟨hle, hlt⟩ := hcall.since since rfl
    refine ⟨hstarted, ?_, ?_, fun _ _ hsettled => (nomatch hsettled),
      fun _ _ _ hphase => (nomatch hphase)⟩
    -- the step of the emptying was before, the one of the return is now
    · intro found hsince
      obtain rfl := Option.some.inj hsince
      exact ⟨hle, hlt.trans (Nat.lt_succ_self _)⟩
    · intro found at_ hphase
      obtain ⟨rfl, rfl⟩ := Phase.cleared.inj hphase
      exact ⟨hlt.le, Nat.lt_succ_self _⟩
  | @left method started settled value =>
    obtain ⟨hle, hlt⟩ := hcall.settled settled (.stale value) rfl
    refine ⟨hstarted, fun _ hsince => (nomatch hsince), fun _ _ hphase => (nomatch hphase), ?_, ?_⟩
    -- it settled before, and it returns now
    · intro found result hsettled
      obtain ⟨rfl, -⟩ := Prod.mk.inj (Option.some.inj hsettled)
      exact ⟨hle, hlt.trans (Nat.lt_succ_self _)⟩
    · intro found at_ result hphase
      obtain ⟨rfl, rfl, rfl⟩ := Phase.returned.inj hphase
      exact ⟨hlt.le, fun _ hvalue => (nomatch hvalue)⟩

end

/-! ### The invariant -/

/-- The value is the result of a fetch that succeeded at `t`; no later one has succeeded, and it
began after the entry was cleared by the calls that `cleared` selects. -/
def Kept (s : State α) (cleared : Phase α → Option Stamp) (v : Stamped α) (t : Stamp) : Prop :=
  ∃ fetch, s.fetches[v.fetch]? = some fetch ∧ fetch.succeeded = some t ∧
    fetch.value = some v.value ∧
    (∀ (k : ℕ) other u, s.fetches[k]? = some other → other.succeeded = some u → k ≤ v.fetch) ∧
    ∀ (j : ℕ) other since, s.calls[j]? = some other → cleared other.phase = some since →
      since.step < fetch.began.step

/-- The fetch `k` of the call `i` is the last one, and it began after the entry was cleared. -/
def InProgress (s : State α) (i : ℕ) (call : Call α) (k : ℕ) : Prop :=
  s.fetches.length = k + 1 ∧
    ∃ fetch, s.fetches[k]? = some fetch ∧ fetch.call = i ∧ fetch.succeeded = none ∧
      call.started.step ≤ fetch.began.step ∧
      ∀ (j : ℕ) other since, s.calls[j]? = some other → other.phase.since = some since →
        since.step < fetch.began.step

/-- The method is a forced get. -/
def Method.forced : Method → Bool
  | .get force _ => force
  | .invalidate => false

/-- Where the value comes from that a get has settled on. -/
def Obtained (lifetimes : Lifetimes) (s : State α) (i : ℕ) (call : Call α) (settled : Stamp)
    (result : Cached α) (v : Stamped α) : Prop :=
  ∃ fetch t, s.fetches[v.fetch]? = some fetch ∧ fetch.succeeded = some t ∧
    fetch.value = some v.value ∧ t.step ≤ settled.step ∧ t.clock ≤ settled.clock ∧
    (result = .value v ∧ settled.clock ≤ t.clock + lifetimes.ttl ∨
      result = .stale v ∧ settled.clock ≤ t.clock + lifetimes.staleFor ∧
        call.method.forced = false) ∧
    (call.method.forced = true → fetch.call = i ∧ call.started.step ≤ fetch.began.step) ∧
    (∀ (k : ℕ) other u, s.fetches[k]? = some other → other.succeeded = some u →
      u.step < settled.step → k ≤ v.fetch) ∧
    ∀ (j : ℕ) other since at_, s.calls[j]? = some other → other.phase = .cleared since at_ →
      at_.step < call.started.step → since.step < fetch.began.step

/-- Where the values come from, and what the calls know of each other. -/
structure Fresh (lifetimes : Lifetimes) (s : State α) : Prop where
  locked : Locked s
  ordered : ∀ (i : ℕ) call, s.calls[i]? = some call → call.Ordered s.steps
  past : ∀ (k : ℕ) fetch t, s.fetches[k]? = some fetch → fetch.succeeded = some t →
    t.step < s.steps ∧ t.clock ≤ s.clock
  inProgress : ∀ (i : ℕ) call k, s.calls[i]? = some call → call.phase = .fetching k →
    InProgress s i call k
  entry : ∀ expires v, s.cell.entry = some ⟨expires, .ok v⟩ →
    ∃ t, Kept s Phase.since v t ∧ expires = t.clock + lifetimes.ttl
  good : ∀ good, s.cell.good = some good →
    ∃ t, Kept s Phase.clearedSince good.value t ∧ good.at_ = t.clock
  obtained : ∀ (i : ℕ) call settled result v, s.calls[i]? = some call →
    call.phase.outcome = some (settled, result) → result.stamped = some v →
    Obtained lifetimes s i call settled result v

/-- Time that passes changes no stamp, so everything that was fresh enough is still explained. -/
theorem Fresh.tick (h : Fresh lifetimes s) (duration : ℕ) :
    Fresh lifetimes { s with clock := s.clock + duration, steps := s.steps + 1 } where
  locked := h.locked
  ordered i call hi := (h.ordered i call hi).mono
  past k fetch t hk ht :=
    ⟨(h.past k fetch t hk ht).1.trans (Nat.lt_succ_self _),
      (h.past k fetch t hk ht).2.trans (Nat.le_add_right _ _)⟩
  inProgress := h.inProgress
  entry := h.entry
  good := h.good
  obtained := h.obtained

/-- A new call has cleared nothing. -/
theorem Kept.call {cleared : Phase α → Option Stamp} {v : Stamped α} {t : Stamp}
    (h : Kept s cleared v t) (hcleared : cleared .waiting = none) (method : Method) :
    Kept { s with
      calls := s.calls ++ [{ method, started := s.now }]
      steps := s.steps + 1 } cleared v t := by
  obtain ⟨fetch, hfetch, ht, hvalue, hlast, hsince⟩ := h
  refine ⟨fetch, hfetch, ht, hvalue, hlast, fun j other since hj hother => ?_⟩
  rcases of_concat_eq_some hj with ⟨-, rfl⟩ | ⟨-, hj⟩
  · exact nomatch hcleared.symm.trans hother
  · exact hsince j other since hj hother

/-- A new call waits: it has neither the lock nor a stamp, so every clause is that of an old call.
-/
theorem Fresh.call (h : Fresh lifetimes s) (method : Method) :
    Fresh lifetimes
      { s with
        calls := s.calls ++ [{ method, started := s.now }]
        steps := s.steps + 1 } where
  locked i call hi hholds := by
    -- the new call holds nothing
    rcases of_concat_eq_some hi with ⟨-, rfl⟩ | ⟨-, hold⟩
    · exact nomatch hholds
    · exact h.locked i call hold hholds
  ordered i call hi := by
    rcases of_concat_eq_some hi with ⟨-, rfl⟩ | ⟨-, hold⟩
    · exact Call.ordered_of_bare (Nat.lt_succ_self _) rfl rfl
    · exact (h.ordered i call hold).mono
  past k fetch t hk ht :=
    ⟨(h.past k fetch t hk ht).1.trans (Nat.lt_succ_self _), (h.past k fetch t hk ht).2⟩
  inProgress i call k hi hphase := by
    rcases of_concat_eq_some hi with ⟨-, rfl⟩ | ⟨-, hold⟩
    · exact nomatch hphase
    -- no fetch has been begun by the new call, so those in progress are the old ones
    · obtain ⟨hlength, fetch, hfetch, hcall, hnone, hstarted, hsince⟩ :=
        h.inProgress i call k hold hphase
      refine ⟨hlength, fetch, hfetch, hcall, hnone, hstarted, fun j other since hj hother => ?_⟩
      -- nor has it cleared anything
      rcases of_concat_eq_some hj with ⟨-, rfl⟩ | ⟨-, hj⟩
      · exact nomatch hother
      · exact hsince j other since hj hother
  entry expires v hentry := by
    obtain ⟨t, hkept, hexpires⟩ := h.entry expires v hentry
    exact ⟨t, hkept.call rfl method, hexpires⟩
  good good hgood := by
    obtain ⟨t, hkept, hat⟩ := h.good good hgood
    exact ⟨t, hkept.call rfl method, hat⟩
  obtained i call settled result v hi hphase hv := by
    rcases of_concat_eq_some hi with ⟨-, rfl⟩ | ⟨-, hold⟩
    · exact nomatch hphase
    · obtain ⟨fetch, t, hfetch, ht, hvalue, hstep, hclock, hresult, hforced, hlast, hcleared⟩ :=
        h.obtained i call settled result v hold hphase hv
      refine ⟨fetch, t, hfetch, ht, hvalue, hstep, hclock, hresult, hforced, hlast,
        fun j other since at_ hj hother => ?_⟩
      rcases of_concat_eq_some hj with ⟨-, rfl⟩ | ⟨-, hj⟩
      · exact nomatch hother
      · exact hcleared j other since at_ hj hother

section

variable {i : ℕ} {call : Call α} {phase : Phase α} {fetches : List (Fetch α)}

theorem Steady.kept (h : Steady s i fetches) {k : ℕ} {fetch : Fetch α}
    (hk : s.fetches[k]? = some fetch) : fetches[k]? = some fetch := by
  rcases h with rfl | rfl
  · exact hk
  · exact concat_of_eq_some hk

/-- A fetch that has succeeded had succeeded before. -/
theorem Steady.succeeded (h : Steady s i fetches) {k : ℕ} {fetch : Fetch α} {u : Stamp}
    (hk : fetches[k]? = some fetch) (hu : fetch.succeeded = some u) :
    s.fetches[k]? = some fetch := by
  rcases h with rfl | rfl
  · exact hk
  · rcases of_concat_eq_some hk with ⟨-, rfl⟩ | ⟨-, hold⟩
    · exact nomatch hu
    · exact hold

/-- The fetch that has succeeded is the last one. -/
theorem Won.self (h : Fresh lifetimes s) (hi : s.calls[i]? = some call) {v : Stamped α}
    (hwon : Won s call v fetches) :
    ∃ fetch : Fetch α, fetches[v.fetch]? =
        some { fetch with succeeded := some s.now, value := some v.value } ∧
      fetch.call = i ∧
      call.started.step ≤ fetch.began.step ∧
      (∀ (j : ℕ) other since, s.calls[j]? = some other → other.phase.since = some since →
        since.step < fetch.began.step) ∧
      ∀ (k : ℕ) other, fetches[k]? = some other → k ≤ v.fetch := by
  -- `inProgress` says which fetch this call waits for, and that no later one was begun
  obtain ⟨hphase, rfl⟩ := hwon
  obtain ⟨hlength, fetch, hfetch, hcall, -, hstarted, hsince⟩ :=
    h.inProgress i call v.fetch hi hphase
  refine ⟨fetch, ?_, hcall, hstarted, hsince, ?_⟩
  · rw [List.getElem?_modify_eq, hfetch]
    rfl
  · intro k other hk
    have hlt := (List.getElem?_eq_some_iff.mp hk).1
    rw [List.length_modify, hlength] at hlt
    exact Nat.lt_succ_iff.mp hlt

/-- What has succeeded stays as it is. -/
theorem Fresh.fetch_kept (h : Fresh lifetimes s)
    (hm : Moved lifetimes s s' event i call phase) {k : ℕ} {fetch : Fetch α} {u : Stamp}
    (hk : s.fetches[k]? = some fetch) (hu : fetch.succeeded = some u) :
    s'.fetches[k]? = some fetch := by
  rcases hm.moves.fetches_cases with hsteady | ⟨v, ⟨hphase, hfetches⟩, -⟩
  · exact hsteady.kept hk
  · rw [hfetches]
    -- the fetch that succeeds now had not succeeded before, so it is not the one in question
    obtain ⟨-, won, hwon, -, hnone, -⟩ := h.inProgress i call v.fetch hm.before hphase
    have hne : v.fetch ≠ k := by
      rintro rfl
      obtain rfl := Option.some.inj (hk.symm.trans hwon)
      exact nomatch hnone.symm.trans hu
    rw [List.getElem?_modify_ne _ _ hne]
    exact hk

/-- What has succeeded had succeeded before, or it does so now. -/
theorem Moved.succeeded (hm : Moved lifetimes s s' event i call phase) {k : ℕ} {fetch : Fetch α}
    {u : Stamp} (hk : s'.fetches[k]? = some fetch) (hu : fetch.succeeded = some u) :
    s.fetches[k]? = some fetch ∨ u = s.now ∧ call.phase = .fetching k ∧
      ∃ value, event = .fetched i (.ok value) ∧ fetch.value = some value := by
  rcases hm.moves.fetches_cases with hsteady | ⟨v, ⟨hphase, hfetches⟩, hevent⟩
  · exact .inl (hsteady.succeeded hk hu)
  -- either it is the fetch of this call, or its slot was not touched
  · rw [hfetches] at hk
    rcases eq_or_ne v.fetch k with rfl | hne
    · rw [List.getElem?_modify_eq, Option.map_eq_map, Option.map_eq_some_iff] at hk
      obtain ⟨old, -, rfl⟩ := hk
      exact .inr ⟨(Option.some.inj hu).symm, hphase, v.value, hevent, rfl⟩
    · rw [List.getElem?_modify_ne _ _ hne] at hk
      exact .inl hk

/-- A value that stays in the cell. -/
theorem Kept.moved {cleared : Phase α → Option Stamp} {v : Stamped α} {t : Stamp}
    (h : Kept s cleared v t) (hm : Moved lifetimes s s' event i call phase)
    (hsteady : Steady s i s'.fetches)
    (hsince : ∀ since, cleared phase = some since → cleared call.phase = some since) :
    Kept s' cleared v t := by
  -- no fetch succeeds in this step, and nothing new is cleared
  obtain ⟨fetch, hfetch, ht, hvalue, hlast, hbegan⟩ := h
  refine ⟨fetch, hsteady.kept hfetch, ht, hvalue, ?_, ?_⟩
  · intro k other u hk hu
    exact hlast k other u (hsteady.succeeded hk hu) hu
  · intro j other since hj hother
    rcases hm.cases hj with ⟨-, rfl⟩ | ⟨-, hold⟩
    · exact hbegan i call since hm.before (hsince since hother)
    · exact hbegan j other since hold hother

/-- A value that was just fetched. -/
theorem Fresh.won (h : Fresh lifetimes s) (hm : Moved lifetimes s s' event i call phase)
    {cleared : Phase α → Option Stamp} {v : Stamped α} (hwon : Won s call v s'.fetches)
    (hphase : cleared phase = none)
    (hcleared : ∀ phase since, cleared phase = some since → phase.since = some since) :
    Kept s' cleared v s.now := by
  obtain ⟨fetch, hfetch, -, -, hsince, hlast⟩ := Won.self h hm.before hwon
  refine ⟨_, hfetch, rfl, rfl, fun k other _ hk _ => hlast k other hk, ?_⟩
  intro j other since hj hother
  rcases hm.cases hj with ⟨-, rfl⟩ | ⟨-, hold⟩
  · exact nomatch hphase.symm.trans hother
  · exact hsince j other since hold (hcleared _ since hother)

/-- The fetch in progress: it has just begun, or it is the one of the call that has the lock. -/
theorem Fresh.inProgress_moved (h : Fresh lifetimes s)
    (hm : Moved lifetimes s s' event i call phase) {j k : ℕ} {found : Call α}
    (hj : s'.calls[j]? = some found) (hphase : found.phase = .fetching k) :
    InProgress s' j found k := by
  rcases hm.cases hj with ⟨rfl, rfl⟩ | ⟨hne, hold⟩
  · -- only a get that has just got the lock starts to fetch
    obtain ⟨hfetches, hk⟩ : s'.fetches = s.fetches ++ [{ call := j, began := s.now }] ∧
        k = s.fetches.length := by
      -- the only move into this phase is `begun`
      obtain ⟨cell, clock, steps, holder, calls, fetches⟩ := s'
      have hmoves := hm.moves
      obtain rfl : phase = .fetching k := hphase
      generalize hcall : call = c at hmoves
      cases hmoves
      exact ⟨rfl, rfl⟩
    have hstarted := (h.ordered j call hm.before).started
    refine ⟨?_, { call := j, began := s.now }, ?_, rfl, rfl, hstarted.le, ?_⟩
    · rw [hfetches, List.length_append, hk]
      rfl
    · rw [hfetches, hk, List.getElem?_concat_length]
    -- whatever is being cleared was begun before this step
    · intro l other since hl hother
      rcases hm.cases hl with ⟨-, rfl⟩ | ⟨-, hl⟩
      · rw [show phase = .fetching k from hphase] at hother
        exact nomatch hother
      · exact ((h.ordered l other hl).since since hother).2
  · obtain ⟨hlength, fetch, hfetch, hcall, hnone, hstarted, hsince⟩ :=
      h.inProgress j found k hold hphase
    -- the lock is with the call that fetches, so the move of another call changes no fetch
    have hholder := h.locked j found hold (by rw [hphase]; rfl)
    obtain ⟨-, hfetches, hsame⟩ := hm.moves.holder_other (h.locked i call hm.before) hne hholder
    refine ⟨?_, fetch, ?_, hcall, hnone, hstarted, ?_⟩
    · rw [hfetches]
      exact hlength
    · rw [hfetches]
      exact hfetch
    · intro l other since hl hother
      rcases hm.cases hl with ⟨-, rfl⟩ | ⟨-, hl⟩
      · exact hsince i call since hm.before (hsame ▸ hother)
      · exact hsince l other since hl hother

/-- A value that a get had settled on stays what it was: what succeeds now does so after that. -/
theorem Obtained.moved (h : Fresh lifetimes s) (hm : Moved lifetimes s s' event i call phase)
    {j : ℕ} {found found' : Call α} {settled : Stamp} {result : Cached α} {v : Stamped α}
    (hmethod : found'.method = found.method) (hstarted : found'.started = found.started)
    (hordered : found.Ordered s.steps) (hphase : found.phase.outcome = some (settled, result))
    (ho : Obtained lifetimes s j found settled result v) :
    Obtained lifetimes s' j found' settled result v := by
  obtain ⟨fetch, t, hfetch, ht, hvalue, hstep, hclock, hresult, hforced, hlast, hcleared⟩ := ho
  rw [← hmethod] at hresult hforced
  rw [← hstarted] at hforced hcleared
  -- only the last two clauses speak of what may be new
  refine ⟨fetch, t, h.fetch_kept hm hfetch ht, ht, hvalue, hstep, hclock, hresult, hforced, ?_, ?_⟩
  · intro k other u hk hu hlt
    -- a fetch that succeeds now does so after the get has settled
    rcases hm.succeeded hk hu with hold | ⟨rfl, -⟩
    · exact hlast k other u hold hu hlt
    · exact absurd hlt (not_lt.mpr (hordered.settled settled result hphase).2.le)
  · intro l other since at_ hl hother hlt
    rcases hm.cases hl with ⟨-, rfl⟩ | ⟨-, hl⟩
    · -- an invalidate that returns now does so after this get was called
      obtain rfl : at_ = s.now := by
        obtain ⟨cell, clock, steps, holder, calls, fetches⟩ := s'
        have hmoves := hm.moves
        obtain rfl : phase = .cleared since at_ := hother
        generalize hcall : call = c at hmoves
        cases hmoves
        rfl
      rw [hstarted] at hlt
      exact absurd hlt (not_lt.mpr hordered.started.le)
    · exact hcleared l other since at_ hl hother hlt

/-- What a get settles on. -/
theorem Fresh.obtained_moved (h : Fresh lifetimes s) (hm : Moved lifetimes s s' event i call phase)
    {settled : Stamp} {result : Cached α} {v : Stamped α}
    (hphase : phase.outcome = some (settled, result)) (hv : result.stamped = some v) :
    Obtained lifetimes s' i { call with phase } settled result v := by
  have hordered := h.ordered i call hm.before
  -- an invalidate that has returned before the get was called is one of those before
  have hbefore : ∀ (j : ℕ) other since at_, s'.calls[j]? = some other →
      other.phase = .cleared since at_ → ∃ other, s.calls[j]? = some other ∧
        other.phase.clearedSince = some since := by
    intro j other since at_ hj hother
    rcases hm.cases hj with ⟨-, rfl⟩ | ⟨-, hold⟩
    · rw [show phase = .cleared since at_ from hother] at hphase
      exact nomatch hphase
    · exact ⟨other, hold, by rw [hother]; rfl⟩
  -- which of the four ways to settle it was
  rcases hm.moves.outcome_cases hphase hv with hsame | ⟨rfl, hhit | hstale | ⟨rfl, hwon⟩⟩
  · refine Obtained.moved h hm ?_ ?_ hordered hsame
      (h.obtained i call settled result v hm.before hsame hv) <;> rfl
  -- the entry under the lock: it has not expired, and nothing was cleared after its fetch began
  · obtain ⟨rfl, hfetches, ⟨deadline, hmethod⟩, expires, hentry, hlt⟩ := hhit
    obtain ⟨t, ⟨fetch, hfetch, ht, hvalue, hlast, hsince⟩, rfl⟩ := h.entry expires v hentry
    obtain ⟨hstep, hclock⟩ := h.past v.fetch fetch t hfetch ht
    have hforced : call.method.forced = false := by
      rw [hmethod]
      rfl
    refine ⟨fetch, t, ?_, ht, hvalue, hstep.le, hclock, .inl ⟨rfl, hlt.le⟩,
      fun htrue => (nomatch hforced.symm.trans htrue), ?_, ?_⟩
    · rw [hfetches]
      exact hfetch
    · intro k other u hk hu _
      rw [hfetches] at hk
      exact hlast k other u hk hu
    · intro j other since at_ hj hother _
      obtain ⟨other, hold, hcleared⟩ := hbefore j other since at_ hj hother
      exact hsince j other since hold (Phase.since_of_clearedSince hcleared)
  -- the last good value: `good` of the invariant says when it was fetched
  · obtain ⟨rfl, hfetches, ⟨deadline, hmethod⟩, good, hgood, rfl, hage⟩ := hstale
    obtain ⟨t, ⟨fetch, hfetch, ht, hvalue, hlast, hsince⟩, hat⟩ := h.good good hgood
    obtain ⟨hstep, hclock⟩ := h.past _ fetch t hfetch ht
    have hforced : call.method.forced = false := by
      rw [hmethod]
      rfl
    refine ⟨fetch, t, ?_, ht, hvalue, hstep.le, hclock, .inr ⟨rfl, ?_, hforced⟩,
      fun htrue => (nomatch hforced.symm.trans htrue), ?_, ?_⟩
    · rw [hfetches]
      exact hfetch
    -- the age was measured on the clock of the step
    · rw [hat] at hage
      exact Nat.sub_le_iff_le_add'.mp hage
    · intro k other u hk hu _
      rw [hfetches] at hk
      exact hlast k other u hk hu
    · intro j other since at_ hj hother _
      obtain ⟨other, hold, hcleared⟩ := hbefore j other since at_ hj hother
      exact hsince j other since hold hcleared
  -- its own fetch: no other fetch is newer
  · obtain ⟨fetch, hfetch, hcall, hstarted, hsince, hlast⟩ := Won.self h hm.before hwon
    refine ⟨_, s.now, hfetch, rfl, rfl, le_rfl, le_rfl, .inl ⟨rfl, Nat.le_add_right _ _⟩,
      fun _ => ⟨hcall, hstarted⟩, fun k other _ hk _ _ => hlast k other hk, ?_⟩
    intro j other since at_ hj hother _
    obtain ⟨other, hold, hcleared⟩ := hbefore j other since at_ hj hother
    exact hsince j other since hold (Phase.since_of_clearedSince hcleared)

/-- A move of one call keeps every clause. The calls that do not move keep theirs by `moved` lemmas,
the one that moves gets its clause from the cases of its move. -/
theorem Fresh.moved (h : Fresh lifetimes s) (hsteps : s'.steps = s.steps + 1)
    (hm : Moved lifetimes s s' event i call phase) : Fresh lifetimes s' where
  locked := h.locked.moved hm
  ordered j found hj := by
    rw [hsteps]
    rcases hm.cases hj with ⟨-, rfl⟩ | ⟨-, hold⟩
    · exact hm.moves.ordered (h.ordered i call hm.before)
    · exact (h.ordered j found hold).mono
  past k fetch t hk ht := by
    rw [hsteps, hm.clock]
    -- a fetch has just succeeded, or it had before
    rcases hm.succeeded hk ht with hold | ⟨rfl, -⟩
    · obtain ⟨hstep, hclock⟩ := h.past k fetch t hold ht
      exact ⟨hstep.trans (Nat.lt_succ_self _), hclock⟩
    · exact ⟨Nat.lt_succ_self _, le_rfl⟩
  inProgress j found k hj hphase := h.inProgress_moved hm hj hphase
  entry expires v hentry := by
    -- the entry is the old one, or the value of the fetch that has just succeeded
    rcases hm.moves.entry_cases hentry with ⟨hold, hsteady, hsince⟩ | ⟨hexpires, hwon, hnone⟩
    · obtain ⟨t, hkept, hexpires⟩ := h.entry expires v hold
      exact ⟨t, hkept.moved hm hsteady hsince, hexpires⟩
    · exact ⟨s.now, h.won hm hwon hnone fun _ _ hsince => hsince, hexpires⟩
  good good hgood := by
    -- likewise for the last good value
    rcases hm.moves.good_cases hgood with ⟨hold, hsteady, hnone⟩ | ⟨hat, hwon, hnone⟩
    · obtain ⟨t, hkept, hat⟩ := h.good good hold
      exact ⟨t, hkept.moved hm hsteady fun _ hsince => (nomatch hnone.symm.trans hsince), hat⟩
    · exact ⟨s.now, h.won hm hwon hnone fun _ _ => Phase.since_of_clearedSince, hat⟩
  obtained j found settled result v hj hphase hv := by
    -- the call that moves, or one that had settled before
    rcases hm.cases hj with ⟨rfl, rfl⟩ | ⟨-, hold⟩
    · exact h.obtained_moved hm hphase hv
    · exact (h.obtained j found settled result v hold hphase hv).moved h hm rfl rfl
        (h.ordered j found hold) hphase

end

/-- Every step keeps the invariant. -/
theorem Fresh.step (h : Fresh lifetimes s) (hs : step lifetimes s event = some s') :
    Fresh lifetimes s' := by
  obtain ⟨hsteps, ⟨duration, -, rfl⟩ | ⟨method, -, rfl⟩ | ⟨i, call, phase, hm⟩⟩ := step_cases hs
  · exact h.tick duration
  · exact h.call method
  · exact h.moved hsteps hm

/-- A cell without calls. -/
theorem fresh_new (clock : ℕ) : Fresh lifetimes { clock : State α } := by
  have hcalls : ∀ (i : ℕ) call, ([] : List (Call α))[i]? ≠ some call := fun i call h =>
    Option.some_ne_none call (h.symm.trans List.getElem?_nil)
  have hfetches : ∀ (k : ℕ) fetch, ([] : List (Fetch α))[k]? ≠ some fetch := fun k fetch h =>
    Option.some_ne_none fetch (h.symm.trans List.getElem?_nil)
  exact ⟨fun i call hi => absurd hi (hcalls i call), fun i call hi => absurd hi (hcalls i call),
    fun k fetch _ hk => absurd hk (hfetches k fetch), fun i call _ hi => absurd hi (hcalls i call),
    fun _ _ hentry => (nomatch hentry), fun _ hgood => (nomatch hgood),
    fun i call _ _ _ hi => absurd hi (hcalls i call)⟩

/-- Every state that a run reaches is explained by its fetches. -/
theorem fresh_run {clock : ℕ} {events : List (Event α)}
    (hrun : EventSystem.run (step lifetimes) { clock } events = some s) : Fresh lifetimes s :=
  EventSystem.run_keeps (Fresh lifetimes) (fun _ _ _ h hs => h.step hs) (fresh_new clock) hrun

/-! ### Single steps -/

section

variable {i : ℕ} {call : Call α} {phase : Phase α} {cell : TtlCell α} {holder : Option ℕ}
  {fetches : List (Fetch α)}

/-- A get settles on a stale value when its deadline has passed, when there is a recent failure, or
when its fetch has failed. -/
theorem Moves.stale_cause (h : Moves lifetimes s i event call phase cell holder fetches)
    {settled : Stamp} {v : Stamped α} (hbefore : call.phase.outcome = none)
    (hphase : phase.outcome = some (settled, .stale v)) :
    (event = .timeout i ∧ ∃ deadline, call.method = .get false deadline ∧ deadline ≤ s.clock) ∨
      (event = .lock i ∧ ∃ deadline, call.method = .get false deadline ∧
        (deadline ≤ s.clock ∨ ∃ expires category,
          s.cell.entry = some ⟨expires, .error category⟩ ∧ s.clock < expires)) ∨
      event = .counted i ∧ ∃ category, call.phase = .recording category := by
  -- only two moves settle on a stale value
  cases h with
  | aged hcause =>
    -- a passed deadline outside the lock, a passed deadline under it, or a fresh failure under it
    rcases hcause with ⟨rfl, -, hlate, -⟩ | ⟨rfl, -, ⟨-, hlate, -⟩ | ⟨-, -, expires, hentry, hlt⟩⟩
    · exact .inl ⟨rfl, _, rfl, hlate⟩
    · exact .inr (.inl ⟨rfl, _, rfl, .inl hlate⟩)
    · exact .inr (.inl ⟨rfl, _, rfl, .inr ⟨expires, _, hentry, hlt⟩⟩)
  | recordedStale => exact .inr (.inr ⟨rfl, _, rfl⟩)
  | left => exact nomatch hbefore
  -- the others settle on a value, on a failure, or on nothing
  | hit => exact nomatch (Prod.mk.inj (Option.some.inj hphase)).2
  | missed => exact nomatch (Prod.mk.inj (Option.some.inj hphase)).2
  | succeeded => exact nomatch (Prod.mk.inj (Option.some.inj hphase)).2
  | recorded => exact nomatch (Prod.mk.inj (Option.some.inj hphase)).2
  | begun => exact nomatch hphase
  | emptied => exact nomatch hphase
  | failed error => exact nomatch hphase
  | cleared => exact nomatch hphase
  | cancelled => exact nomatch hphase

/-- Only `invalidate` and a fetch that succeeds touch the last good value. -/
theorem Moves.good_kept (h : Moves lifetimes s i event call phase cell holder fetches) :
    cell.good = s.cell.good ∨ event = .clear i ∨ ∃ value, event = .fetched i (.ok value) := by
  cases h with
  | succeeded => exact .inr (.inr ⟨_, rfl⟩)
  | cleared => exact .inr (.inl rfl)
  | _ => exact .inl rfl

end

/-- Any run of a cell. At most one fetch is in progress; a forced get returns what it has fetched,
or it fails; a value of an unforced get was fetched at most `ttl` before; a stale value is the
result of the last fetch that had succeeded when the get settled on it, at most `staleFor` before,
and the get settles on it when its deadline has passed, when there is a recent failure, or when its
fetch has failed; only `invalidate` and a fetch that succeeds touch the last good value; a get that
was called after an `invalidate` had returned does not return what was fetched before; and a get
that was called after another one had returned does not return the result of an earlier fetch. -/
theorem cell_fresh {clock : ℕ} {events : List (Event α)}
    (hrun : EventSystem.run (step lifetimes) { clock } events = some s) :
    (∀ (i j : ℕ) a b k l, s.calls[i]? = some a → s.calls[j]? = some b → a.phase = .fetching k →
      b.phase = .fetching l → i = j) ∧
      (∀ (i : ℕ) call deadline settled at_ result, s.calls[i]? = some call →
        call.method = .get true deadline → call.phase = .returned settled at_ result →
        (∃ category, result = .failed category) ∨
          ∃ v fetch t, result = .value v ∧ s.fetches[v.fetch]? = some fetch ∧ fetch.call = i ∧
            fetch.value = some v.value ∧ fetch.succeeded = some t ∧
            call.started.step ≤ fetch.began.step ∧ t.step ≤ at_.step) ∧
      (∀ (i : ℕ) call deadline settled at_ v, s.calls[i]? = some call →
        call.method = .get false deadline → call.phase = .returned settled at_ (.value v) →
        ∃ fetch t, s.fetches[v.fetch]? = some fetch ∧ fetch.value = some v.value ∧
          fetch.succeeded = some t ∧ t.clock ≤ at_.clock ∧ at_.clock ≤ t.clock + lifetimes.ttl) ∧
      (∀ (i : ℕ) call settled v, s.calls[i]? = some call →
        call.phase.outcome = some (settled, .stale v) →
        ∃ fetch t, s.fetches[v.fetch]? = some fetch ∧ fetch.value = some v.value ∧
          fetch.succeeded = some t ∧ t.clock ≤ settled.clock ∧
          settled.clock ≤ t.clock + lifetimes.staleFor ∧
          ∀ (k : ℕ) other u, s.fetches[k]? = some other → other.succeeded = some u →
            u.step < settled.step → k ≤ v.fetch) ∧
      (∀ event s' i call call' settled v, step lifetimes s event = some s' →
        s.calls[i]? = some call → s'.calls[i]? = some call' → call.phase.outcome = none →
        call'.phase.outcome = some (settled, .stale v) →
        (event = .timeout i ∧ ∃ deadline, call.method = .get false deadline ∧ deadline ≤ s.clock) ∨
          (event = .lock i ∧ ∃ deadline, call.method = .get false deadline ∧
            (deadline ≤ s.clock ∨ ∃ expires category,
              s.cell.entry = some ⟨expires, .error category⟩ ∧ s.clock < expires)) ∨
          event = .counted i ∧ ∃ category, call.phase = .recording category) ∧
      (∀ event s', step lifetimes s event = some s' → s'.cell.good = s.cell.good ∨
        ∃ i, event = .clear i ∨ ∃ value, event = .fetched i (.ok value)) ∧
      (∀ (i j : ℕ) call invalidate settled at_ since returned result v fetch,
        s.calls[i]? = some call → s.calls[j]? = some invalidate →
        invalidate.phase = .cleared since returned → returned.step < call.started.step →
        call.phase = .returned settled at_ result → result.stamped = some v →
        s.fetches[v.fetch]? = some fetch → invalidate.started.step < fetch.began.step) ∧
      ∀ (i j : ℕ) call earlier settled at_ result v settled' returned result' w,
        s.calls[i]? = some call → s.calls[j]? = some earlier →
        earlier.phase = .returned settled' returned result' → result'.stamped = some w →
        returned.step < call.started.step → call.phase = .returned settled at_ result →
        result.stamped = some v → w.fetch ≤ v.fetch := by
  -- the clauses are read off the invariant, each at the call it speaks of
  have h := fresh_run hrun
  refine ⟨?_, ?_, ?_, ?_, ?_, ?_, ?_, ?_⟩
  · intro i j a b k l hi hj ha hb
    -- both fetch, so both have the lock
    have hholder := h.locked i a hi (by rw [ha]; rfl)
    have hholder' := h.locked j b hj (by rw [hb]; rfl)
    exact Option.some.inj (hholder.symm.trans hholder')
  · intro i call deadline settled at_ result hi hmethod hphase
    -- a forced get that has a value has fetched it itself
    have hforced : call.method.forced = true := by
      rw [hmethod]
      rfl
    cases hv : result.stamped with
    | none =>
      cases result with
      | failed category => exact .inl ⟨category, rfl⟩
      | value v => exact nomatch hv
      | stale v => exact nomatch hv
    | some v =>
      have houtcome : call.phase.outcome = some (settled, result) := by
        rw [hphase]
        rfl
      obtain ⟨fetch, t, hfetch, ht, hvalue, hstep, -, hresult, hown, -⟩ :=
        h.obtained i call settled result v hi houtcome hv
      rcases hresult with ⟨rfl, -⟩ | ⟨-, -, hnot⟩
      · obtain ⟨hcall, hstarted⟩ := hown hforced
        have hle := ((h.ordered i call hi).returned settled at_ _ hphase).1
        exact .inr ⟨v, fetch, t, rfl, hfetch, hcall, hvalue, ht, hstarted, hstep.trans hle⟩
      -- a stale value is never given to a forced get
      · exact nomatch hnot.symm.trans hforced
  · intro i call deadline settled at_ v hi hmethod hphase
    have houtcome : call.phase.outcome = some (settled, .value v) := by
      rw [hphase]
      rfl
    obtain ⟨fetch, t, hfetch, ht, hvalue, -, hclock, hresult, -⟩ :=
      h.obtained i call settled _ v hi houtcome rfl
    -- a value is returned in the step in which it was settled on
    obtain rfl := ((h.ordered i call hi).returned settled at_ _ hphase).2 v rfl
    rcases hresult with ⟨-, httl⟩ | ⟨hstale, -⟩
    · exact ⟨fetch, t, hfetch, hvalue, ht, hclock, httl⟩
    · exact nomatch hstale
  · intro i call settled v hi houtcome
    -- the age of a stale value is measured when the get settles on it
    obtain ⟨fetch, t, hfetch, ht, hvalue, -, hclock, hresult, -, hlast, -⟩ :=
      h.obtained i call settled _ v hi houtcome rfl
    rcases hresult with ⟨hnot, -⟩ | ⟨-, hage, -⟩
    · exact nomatch hnot
    · exact ⟨fetch, t, hfetch, hvalue, ht, hclock, hage, hlast⟩
  · intro event s' i call call' settled v hs hi hi' hnone houtcome
    obtain ⟨-, ⟨duration, -, rfl⟩ | ⟨method, -, rfl⟩ | ⟨j, moved, phase, hm⟩⟩ := step_cases hs
    -- time that passes and new calls settle nothing
    · obtain rfl := Option.some.inj (hi.symm.trans hi')
      exact nomatch hnone.symm.trans houtcome
    · obtain rfl := Option.some.inj ((concat_of_eq_some hi).symm.trans hi')
      exact nomatch hnone.symm.trans houtcome
    · rcases hm.cases hi' with ⟨rfl, rfl⟩ | ⟨-, hold⟩
      · obtain rfl := Option.some.inj (hi.symm.trans hm.before)
        exact hm.moves.stale_cause hnone houtcome
      · obtain rfl := Option.some.inj (hi.symm.trans hold)
        exact nomatch hnone.symm.trans houtcome
  · intro event s' hs
    -- the last good value changes in two kinds of moves only
    obtain ⟨-, ⟨duration, -, rfl⟩ | ⟨method, -, rfl⟩ | ⟨i, call, phase, hm⟩⟩ := step_cases hs
    · exact .inl rfl
    · exact .inl rfl
    · rcases hm.moves.good_kept with hsame | hclear | hfetched
      · exact .inl hsame
      · exact .inr ⟨i, .inl hclear⟩
      · exact .inr ⟨i, .inr hfetched⟩
  · intro i j call invalidate settled at_ since returned result v fetch hi hj hcleared hlt
      hphase hv hfetch
    have houtcome : call.phase.outcome = some (settled, result) := by
      rw [hphase]
      rfl
    obtain ⟨found, t, hfound, -, -, -, -, -, -, -, hsince⟩ :=
      h.obtained i call settled result v hi houtcome hv
    obtain rfl := Option.some.inj (hfetch.symm.trans hfound)
    -- the invalidate was called before it cleared, and it cleared before the fetch began
    have hstarted := ((h.ordered j invalidate hj).since since (by rw [hcleared]; rfl)).1
    exact hstarted.trans_lt (hsince j invalidate since returned hj hcleared hlt)
  · intro i j call earlier settled at_ result v settled' returned result' w hi hj hearlier hw
      hlt hphase hv
    have houtcome : call.phase.outcome = some (settled, result) := by
      rw [hphase]
      rfl
    have houtcome' : earlier.phase.outcome = some (settled', result') := by
      rw [hearlier]
      rfl
    obtain ⟨-, -, -, -, -, -, -, -, -, hlast, -⟩ :=
      h.obtained i call settled result v hi houtcome hv
    obtain ⟨fetch, t, hfetch, ht, -, hstep, -⟩ :=
      h.obtained j earlier settled' result' w hj houtcome' hw
    have hstarted := ((h.ordered i call hi).settled settled result houtcome).1
    have hreturned := ((h.ordered j earlier hj).returned settled' returned result' hearlier).1
    -- the earlier value was fetched before the later get settled
    refine hlast w.fetch fetch t hfetch ht ?_
    calc t.step ≤ settled'.step := hstep
      _ ≤ returned.step := hreturned
      _ < call.started.step := hlt
      _ ≤ settled.step := hstarted

def sampleLifetimes : Lifetimes := ⟨60, 30, 600⟩

def sampleReads : List (Event ℕ) :=
  [.call (.get false 15), .lock 0, .fetched 0 (.ok 7), .tick 61, .call (.get false 76), .lock 1,
    .fetched 1 (.error (.upstream "HTTP 500")), .counted 1, .counted 1]

/-- A value is fetched at 0 s and served stale at 61 s, after a fetch that failed. -/
theorem cell_fresh_sample :
    ∃ s call, EventSystem.run (step sampleLifetimes) {} sampleReads = some s ∧
      s.calls[1]? = some call ∧ call.phase = .returned ⟨7, 61⟩ ⟨8, 61⟩ (.stale ⟨7, 0⟩) ∧
      ∃ fetch t, s.fetches[0]? = some fetch ∧ fetch.value = some 7 ∧ fetch.succeeded = some t ∧
        t.clock ≤ 61 ∧ 61 ≤ t.clock + 600 := by
  -- the run is evaluated, and the theorem is applied to it
  have hsome : (EventSystem.run (step sampleLifetimes) {} sampleReads).isSome := by
    decide +kernel
  have hcalls : ∀ s ∈ EventSystem.run (step sampleLifetimes) {} sampleReads, s.calls[1]? =
      some ⟨.get false 76, ⟨4, 61⟩, .returned ⟨7, 61⟩ ⟨8, 61⟩ (.stale ⟨7, 0⟩)⟩ := by
    decide +kernel
  obtain ⟨s, hs⟩ := Option.isSome_iff_exists.mp hsome
  obtain ⟨-, -, -, hstale, -⟩ := cell_fresh hs
  obtain ⟨fetch, t, hfetch, hvalue, ht, hle, hage, -⟩ := hstale 1 _ ⟨7, 61⟩ ⟨7, 0⟩ (hcalls s hs) rfl
  exact ⟨s, _, hs, hcalls s hs, rfl, fetch, t, hfetch, hvalue, ht, hle, hage⟩

end Controls

end EzvizBridge
