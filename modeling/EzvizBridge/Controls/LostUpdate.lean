import EzvizBridge.Controls.Register

/-!
# No lost update

Any number of updates of one control. An update that writes has read the register while it had the
lock, and the register does not change under the lock but by its own write. So what it has read is
still there.
-/

namespace EzvizBridge

namespace Controls

namespace Register

open Roster

variable {V : Type} {control : Control V} {s s' : State V} {event : Event V}

/-! ### What a step can do -/

/-- The update has begun to write. -/
def Phase.pastRead : Phase V → Bool
  | .writing | .written | .verifying _ _ | .checking _ _ _ | .undoing | .undone => true
  | _ => false

/-- An error that does not tell the value. -/
def Reply.fails : Reply V → Bool
  | .ok | .conflict _ => false
  | _ => true

/-- The update `i` goes from one phase to another: what becomes of the cell, the lock and the
register. -/
inductive Moves (control : Control V) (s : State V) (i : ℕ) (expected desired : V) :
    Phase V → Phase V → Controls.State V → Option ℕ → List (Change V) → Prop
  | locked {cell : Controls.State V} {deadline : ℕ} (hfree : s.writer = none)
      (hcell : Controls.step control.lifetimes s.cell (.call (.get true deadline)) = some cell) :
      Moves control s i expected desired .waiting (.reading s.cell.calls.length) cell
        (some i) s.changes
  /-- The update returns without a write. -/
  | refused {get : ℕ} {reply : Reply V} (hreply : reply.fails = true) :
      Moves control s i expected desired (.reading get) (.ended reply s.changes.length) s.cell none
        s.changes
  | unchanged {get : ℕ} (hsame : expected = desired) :
      Moves control s i expected desired (.reading get)
        (.ended .ok s.changes.length) s.cell none s.changes
  | conflicted {get : ℕ} {current : V} (hread : s.reads control get = some (some (some current))) :
      Moves control s i expected desired (.reading get)
        (.ended (.conflict current) s.changes.length)
        s.cell none s.changes
  | proceeded {get : ℕ} (hread : s.reads control get = some (some (some expected)))
      (hne : expected ≠ desired) :
      Moves control s i expected desired (.reading get) .writing s.cell s.writer s.changes
  | confirmed {get left : ℕ} {mismatch : Bool} :
      Moves control s i expected desired (.checking get left mismatch)
        (.ended .ok s.changes.length) s.cell none s.changes
  | retried {get left : ℕ} {mismatch mismatch' : Bool} :
      Moves control s i expected desired (.checking get left mismatch)
        (.verifying left mismatch') s.cell
        s.writer s.changes
  | reverted {get left : ℕ} {mismatch : Bool} :
      Moves control s i expected desired
        (.checking get left mismatch) .undoing s.cell s.writer s.changes
  | applied : Moves control s i expected desired .writing .written s.cell s.writer
      (s.changes ++ [⟨i, desired⟩])
  | restored : Moves control s i expected desired .undoing .undone s.cell s.writer
      (s.changes ++ [⟨i, expected⟩])
  | accepted : Moves control s i expected desired .written
    (.verifying 3 false) s.cell s.writer s.changes
  | woken {cell : Controls.State V} {deadline left : ℕ} {mismatch : Bool}
      (hcell : Controls.step control.lifetimes s.cell (.call (.get true deadline)) = some cell) :
      Moves control s i expected desired (.verifying (left + 1) mismatch)
        (.checking s.cell.calls.length left mismatch) cell s.writer s.changes
  | invalidating {cell : Controls.State V} {phase : Phase V} {reply : Reply V}
      (hphase : phase.pastRead = true) (hreply : reply.fails = true)
      (hcell : Controls.step control.lifetimes s.cell (.call .invalidate) = some cell) :
      Moves control s i expected desired phase
        (.invalidating s.cell.calls.length reply) cell s.writer
        s.changes
  | ended {call : ℕ} {reply : Reply V} :
      Moves control s i expected desired (.invalidating call reply)
        (.ended reply s.changes.length) s.cell
        none s.changes

/-- An update does one of its moves, and everything else stays. -/
structure Moved (control : Control V) (s s' : State V) (i : ℕ) (update : Update V)
    (phase : Phase V) :
    Prop where
  before : s.updates[i]? = some update
  moves : Moves control s i update.expected update.desired update.phase phase s'.cell
    s'.writer s'.changes
  updates : s'.updates = s.updates.set i { update with phase }
  samples : s'.samples = s.samples
  initial : s'.initial = s.initial

/-- Asking is a call of the cell. -/
theorem State.ask_eq_some {method : Method} {i : ℕ} {update : Update V} {phase : ℕ → Phase V}
    (h : s.ask control method i update phase = some s') :
    ∃ cell, Controls.step control.lifetimes s.cell (.call method) = some cell ∧
      s' = { s with
        cell
        updates := s.updates.set i { update with phase := phase s.cell.calls.length } } := by
  obtain ⟨cell, hcell, rfl⟩ := Option.map_eq_some_iff.mp h
  exact ⟨cell, hcell, rfl⟩

/-- The cached reads are dropped after a write. -/
theorem Moved.invalidate {i : ℕ} {update : Update V} {reply : Reply V}
    (hi : s.updates[i]? = some update) (hphase : update.phase.pastRead = true)
    (hreply : reply.fails = true)
    (h : s.invalidate control i update reply = some s') :
    ∃ phase, Moved control s s' i update phase := by
  obtain ⟨cell, hcell, rfl⟩ := State.ask_eq_some h
  exact ⟨_, hi, .invalidating hphase hreply hcell, rfl, rfl, rfl⟩

/-- What the read before the write leads to. -/
theorem Moved.decide [DecidableEq V] {i get : ℕ} {expected desired : V} {since : ℕ}
    {read : Option (Option V)} (hi : s.updates[i]? = some ⟨expected, desired, since, .reading get⟩)
    (hread : ∀ current, read = some (some current) → s.reads control get = some read)
    (h : s.decide control i ⟨expected, desired, since, .reading get⟩ read = some s') :
    ∃ phase, Moved control s s' i ⟨expected, desired, since, .reading get⟩ phase := by
  -- the read failed, the control is absent, or there is a value
  match read with
  | none =>
    obtain rfl := Option.some.inj h
    exact ⟨_, hi, .refused rfl, rfl, rfl, rfl⟩
  | some none =>
    obtain rfl := Option.some.inj h
    exact ⟨_, hi, .refused rfl, rfl, rfl, rfl⟩
  | some (some previous) =>
    simp only [State.decide] at h
    have hprevious := hread previous rfl
    -- the value is not the expected one
    split at h
    case isTrue =>
      obtain rfl := Option.some.inj h
      exact ⟨_, hi, .conflicted hprevious, rfl, rfl, rfl⟩
    case isFalse heq =>
    rw [not_not] at heq
    obtain rfl := heq
    -- nothing has to be changed
    split at h
    case isTrue hsame =>
      obtain rfl := Option.some.inj h
      exact ⟨_, hi, .unchanged hsame, rfl, rfl, rfl⟩
    case isFalse hne =>
    -- the write is refused, or it goes on
    split at h
    · obtain rfl := Option.some.inj h
      exact ⟨_, hi, .refused rfl, rfl, rfl, rfl⟩
    · obtain rfl := Option.some.inj h
      exact ⟨_, hi, .proceeded hprevious hne, rfl, rfl, rfl⟩

/-- What a read-back leads to. -/
theorem Moved.confirm [DecidableEq V] {i get left : ℕ} {expected desired : V} {since : ℕ}
    {mismatch : Bool} {read : Option (Option V)}
    (hi : s.updates[i]? = some ⟨expected, desired, since, .checking get left mismatch⟩)
    (h : s.confirm control i
      ⟨expected, desired, since, .checking get left mismatch⟩ left mismatch read =
      some s') :
    ∃ phase,
      Moved control s s' i ⟨expected, desired, since, .checking get left mismatch⟩ phase := by
  simp only [State.confirm] at h
  -- the read-back shows the value that was asked for
  split at h
  case isTrue =>
    obtain rfl := Option.some.inj h
    exact ⟨_, hi, .confirmed, rfl, rfl, rfl⟩
  case isFalse =>
  -- no read-back is left: the value is restored if there was another one, else the update gives up
  split at h
  case isTrue =>
    split at h
    · obtain rfl := Option.some.inj h
      exact ⟨_, hi, .reverted, rfl, rfl, rfl⟩
    · exact Moved.invalidate hi rfl rfl h
  case isFalse =>
    obtain rfl := Option.some.inj h
    exact ⟨_, hi, .retried, rfl, rfl, rfl⟩

/-- What a step can do. -/
theorem step_cases [DecidableEq V] (h : step control s event = some s') :
    (∃ expected desired, s' =
        { s with updates := s.updates ++ [{ expected, desired, since := s.changes.length }] }) ∨
      (∃ i update phase, Moved control s s' i update phase) ∨
      (∃ (get : ℕ) (call : Controls.Call V) (fetch : ℕ), s.cell.calls[get]? = some call ∧
        call.phase = Controls.Phase.fetching fetch ∧
          s' = { s with samples := Function.update s.samples fetch (some s.register) }) ∨
      ∃ event cell, s.admits event = true ∧
        Controls.step control.lifetimes s.cell event = some cell ∧ s' = { s with cell } := by
  -- by the event; what cannot happen in a phase has no step
  cases event with
  | call expected desired => exact .inl ⟨expected, desired, (Option.some.inj h).symm⟩
  | lock i =>
    simp only [step] at h
    split at h
    case h_2 => exact nomatch h
    -- the update gets the writer lock and asks the cell
    case h_1 expected desired since hi hfree =>
    obtain ⟨cell, hcell, rfl⟩ := State.ask_eq_some h
    exact .inr (.inl ⟨i, _, _, hi, .locked hfree hcell, rfl, rfl, rfl⟩)
  | observe i =>
    simp only [step] at h
    split at h
    case h_1 expected desired since get hi =>
      -- the get has returned: before the write, or after it
      obtain ⟨read, hread, hdecide⟩ := Option.bind_eq_some_iff.mp h
      obtain ⟨phase, hm⟩ := Moved.decide hi (fun _ _ => hread) hdecide
      exact .inr (.inl ⟨i, _, phase, hm⟩)
    case h_2 expected desired since get left mismatch hi =>
      obtain ⟨read, -, hconfirm⟩ := Option.bind_eq_some_iff.mp h
      obtain ⟨phase, hm⟩ := Moved.confirm hi hconfirm
      exact .inr (.inl ⟨i, _, phase, hm⟩)
    case h_3 => exact nomatch h
  | abstain i fails =>
    -- a read that brings no value
    simp only [step] at h
    split at h
    case isFalse => exact nomatch h
    case isTrue =>
    split at h
    case h_1 expected desired since get hi =>
      have hnone : ∀ current : V, (if fails then none else some none) ≠ some (some current) := by
        intro current
        cases fails <;> exact fun heq => (nomatch heq)
      obtain ⟨phase, hm⟩ := Moved.decide hi (fun current heq => absurd heq (hnone current)) h
      exact .inr (.inl ⟨i, _, phase, hm⟩)
    case h_2 expected desired since get left mismatch hi =>
      obtain ⟨phase, hm⟩ := Moved.confirm hi h
      exact .inr (.inl ⟨i, _, phase, hm⟩)
    case h_3 => exact nomatch h
  -- the value arrives at the camera, or the one before is restored there
  | apply i =>
    simp only [step] at h
    split at h
    case h_1 expected desired since hi =>
      obtain rfl := Option.some.inj h
      exact .inr (.inl ⟨i, _, _, hi, .applied, rfl, rfl, rfl⟩)
    case h_2 expected desired since hi =>
      obtain rfl := Option.some.inj h
      exact .inr (.inl ⟨i, _, _, hi, .restored, rfl, rfl, rfl⟩)
    case h_3 => exact nomatch h
  | wrote i ok =>
    simp only [step] at h
    -- the answer to the write, in each of the phases that wait for one
    split at h
    case h_1 expected desired since hi =>
      split at h
      · obtain rfl := Option.some.inj h
        exact .inr (.inl ⟨i, _, _, hi, .accepted, rfl, rfl, rfl⟩)
      · obtain ⟨phase, hm⟩ := Moved.invalidate hi rfl rfl h
        exact .inr (.inl ⟨i, _, phase, hm⟩)
    case h_2 expected desired since hi =>
      split at h
      · exact nomatch h
      · obtain ⟨phase, hm⟩ := Moved.invalidate hi rfl rfl h
        exact .inr (.inl ⟨i, _, phase, hm⟩)
    case h_3 expected desired since hi =>
      obtain ⟨phase, hm⟩ := Moved.invalidate hi rfl rfl h
      exact .inr (.inl ⟨i, _, phase, hm⟩)
    case h_4 expected desired since hi =>
      split at h
      · exact nomatch h
      · obtain ⟨phase, hm⟩ := Moved.invalidate hi rfl rfl h
        exact .inr (.inl ⟨i, _, phase, hm⟩)
    case h_5 => exact nomatch h
  -- the next read-back
  | wake i =>
    simp only [step] at h
    split at h
    case h_2 => exact nomatch h
    case h_1 expected desired since left mismatch hi =>
    obtain ⟨cell, hcell, rfl⟩ := State.ask_eq_some h
    exact .inr (.inl ⟨i, _, _, hi, .woken hcell, rfl, rfl, rfl⟩)
  -- the cell has been invalidated
  | invalidated i =>
    simp only [step] at h
    split at h
    case h_2 => exact nomatch h
    case h_1 expected desired since call reply hi =>
    split at h
    case h_2 => exact nomatch h
    case h_1 =>
    obtain rfl := Option.some.inj h
    exact .inr (.inl ⟨i, _, _, hi, .ended, rfl, rfl, rfl⟩)
  -- a fetch looks at the register
  | sample get =>
    simp only [step] at h
    split at h
    case h_2 => exact nomatch h
    case h_1 method started fetch hget =>
    exact .inr (.inr (.inl ⟨get, _, fetch, hget, rfl, (Option.some.inj h).symm⟩))
  -- a step of the cell alone
  | cell event =>
    simp only [step] at h
    split at h
    case isFalse => exact nomatch h
    case isTrue hadmits =>
    obtain ⟨cell, hcell, rfl⟩ := Option.map_eq_some_iff.mp h
    exact .inr (.inr (.inr ⟨event, cell, hadmits, hcell, rfl⟩))

/-! ### The register -/

/-- The last value is what the register holds. -/
theorem State.valueAt_length (s : State V) : s.valueAt s.changes.length = some s.register := by
  rcases List.eq_nil_or_concat s.changes with hnil | ⟨changes, change, hconcat⟩
  · rw [hnil, register, hnil]
    rfl
  · rw [List.concat_eq_append] at hconcat
    rw [hconcat, List.length_append, List.length_singleton, valueAt, register, hconcat,
      List.getElem?_concat_length, List.getLast?_concat]
    rfl

/-- What the register has held stays on record. -/
theorem State.valueAt_mono {n : ℕ} {v : V} (h : s.valueAt n = some v)
    (hinitial : s'.initial = s.initial)
    (hchanges : s'.changes = s.changes ∨ ∃ change, s'.changes = s.changes ++ [change]) :
    s'.valueAt n = some v := by
  -- on the number of changes
  cases n with
  | zero =>
    rw [valueAt, hinitial]
    exact h
  | succ n =>
    obtain ⟨change, hchange, rfl⟩ := Option.map_eq_some_iff.mp h
    have hkept : s'.changes[n]? = some change := by
      rcases hchanges with heq | ⟨added, heq⟩
      · rw [heq]
        exact hchange
      · rw [heq]
        exact concat_of_eq_some hchange
    rw [valueAt, hkept]
    rfl

/-- Without a change the register is the same. -/
theorem State.register_eq (hinitial : s'.initial = s.initial) (hchanges : s'.changes = s.changes) :
    s'.register = s.register := by
  rw [register, register, hinitial, hchanges]

theorem State.register_concat {change : Change V} (hchanges : s'.changes = s.changes ++ [change]) :
    s'.register = change.value := by
  rw [register, hchanges, List.getLast?_concat]
  rfl

/-! ### What the vendor has read -/

/-- A fetch that has succeeded has returned what the vendor has read for it. -/
structure Sampled (s : State V) : Prop where
  sampled : ∀ (k : ℕ) fetch t x, s.cell.fetches[k]? = some fetch → fetch.succeeded = some t →
    fetch.value = some x → s.samples k = some x
  unsampled : ∀ k, s.cell.fetches.length ≤ k → s.samples k = none

/-- A step of the cell ends a fetch with what was sampled. -/
theorem Sampled.cell [DecidableEq V] (h : Sampled s) {event : Controls.Event V}
    {cell : Controls.State V} (hadmits : s.admits event = true)
    (hcell : Controls.step control.lifetimes s.cell event = some cell) :
    Sampled { s with cell } := by
  obtain ⟨-, ⟨duration, -, rfl⟩ | ⟨method, -, rfl⟩ | ⟨i, call, phase, hm⟩⟩ :=
    Controls.step_cases hcell
  · exact ⟨h.sampled, h.unsampled⟩
  · exact ⟨h.sampled, h.unsampled⟩
  · refine ⟨?_, ?_⟩
    · intro k fetch t x hk ht hx
      -- the fetch has succeeded before, or just now with the sample
      rcases hm.succeeded hk ht with hold | ⟨-, hphase, value, rfl, hvalue⟩
      · exact h.sampled k fetch t x hold ht hx
      · obtain rfl := Option.some.inj (hvalue.symm.trans hx)
        obtain ⟨method, started, phase⟩ := call
        obtain rfl : phase = .fetching k := hphase
        rw [State.admits, hm.before] at hadmits
        exact of_decide_eq_true hadmits
    · intro k hk
      refine h.unsampled k (le_trans ?_ hk)
      -- a fetch that has not begun is not sampled
      rcases hm.moves.fetches_cases with (heq | heq) | ⟨v, ⟨-, heq⟩, -⟩
      · rw [heq]
      · rw [heq, List.length_append]
        exact Nat.le_add_right _ _
      · rw [heq, List.length_modify]

/-- A sample is taken of the fetch in progress. -/
theorem Sampled.sample (h : Sampled s) (hfresh : Fresh control.lifetimes s.cell) {get fetch : ℕ}
    {call : Controls.Call V} (hget : s.cell.calls[get]? = some call)
    (hphase : call.phase = .fetching fetch) :
    Sampled { s with samples := Function.update s.samples fetch (some s.register) } := by
  obtain ⟨hlength, found, hfound, -, hnone, -⟩ := hfresh.inProgress get call fetch hget hphase
  refine ⟨?_, ?_⟩
  -- a fetch that has succeeded is another one
  · intro k other t x hk ht hx
    have hne : k ≠ fetch := by
      rintro rfl
      obtain rfl := Option.some.inj (hfound.symm.trans hk)
      exact nomatch hnone.symm.trans ht
    show Function.update s.samples fetch (some s.register) k = some x
    rw [Function.update_of_ne hne]
    exact h.sampled k other t x hk ht hx
  -- the others are not touched
  · intro k hk
    have hle : fetch + 1 ≤ k := hlength ▸ hk
    show Function.update s.samples fetch (some s.register) k = none
    rw [Function.update_of_ne (Nat.ne_of_gt hle)]
    exact h.unsampled k hk

/-- The forced get of an update: what the vendor has read for it is what the register holds. -/
def Reads (s : State V) (get : ℕ) : Prop :=
  ∃ call deadline, s.cell.calls[get]? = some call ∧ call.method = .get true deadline ∧
    (∀ k v, call.phase = .fetching k → s.samples k = some v → v = s.register) ∧
    ∀ settled at_ v, call.phase = .returned settled at_ (.value v) → v.value = s.register

/-- A forced get goes on reading what the register holds. -/
theorem Reads.cell [DecidableEq V] {get : ℕ} (h : Reads s get) (hsampled : Sampled s)
    {event : Controls.Event V} {cell : Controls.State V} (hadmits : s.admits event = true)
    (hcell : Controls.step control.lifetimes s.cell event = some cell) :
    Reads { s with cell } get := by
  obtain ⟨call, deadline, hget, hmethod, hfetching, hreturned⟩ := h
  obtain ⟨-, ⟨duration, -, rfl⟩ | ⟨method, -, rfl⟩ | ⟨i, moved, phase, hm⟩⟩ :=
    Controls.step_cases hcell
  · exact ⟨call, deadline, hget, hmethod, hfetching, hreturned⟩
  · exact ⟨call, deadline, concat_of_eq_some hget, hmethod, hfetching, hreturned⟩
  -- the step is one of this get, or of another one
  · rcases eq_or_ne get i with rfl | hne
    · obtain rfl := Option.some.inj (hget.symm.trans hm.before)
      refine ⟨_, deadline, hm.self, hmethod, ?_, ?_⟩
      · -- a fetch that has just begun is not sampled
        intro k v hphase hv
        have hmoves := hm.moves
        obtain ⟨method, started, before⟩ := call
        obtain rfl : method = .get true deadline := hmethod
        obtain rfl : phase = .fetching k := hphase
        obtain ⟨entry, clock, steps, holder, calls, fetches⟩ := cell
        cases hmoves
        exact nomatch (hsampled.unsampled _ le_rfl).symm.trans hv
      -- it returns what its fetch has sampled
      · intro settled at_ v hphase
        have hmoves := hm.moves
        obtain ⟨method, started, before⟩ := call
        obtain rfl : method = .get true deadline := hmethod
        obtain rfl : phase = .returned settled at_ (.value v) := hphase
        obtain ⟨entry, clock, steps, holder, calls, fetches⟩ := cell
        cases hmoves with
        | @succeeded _ _ fetch value =>
          rw [State.admits, hget] at hadmits
          exact hfetching fetch value rfl (of_decide_eq_true hadmits)
    · refine ⟨call, deadline, ?_, hmethod, hfetching, hreturned⟩
      exact (hm.other hne).trans hget

/-- Another sample of the same register. -/
theorem Reads.sample {get : ℕ} (h : Reads s get) (fetch : ℕ) :
    Reads { s with samples := Function.update s.samples fetch (some s.register) } get := by
  obtain ⟨call, deadline, hget, hmethod, hfetching, hreturned⟩ := h
  refine ⟨call, deadline, hget, hmethod, ?_, hreturned⟩
  intro k v hphase hv
  have hv' : Function.update s.samples fetch (some s.register) k = some v := hv
  rcases eq_or_ne k fetch with rfl | hne
  · rw [Function.update_self] at hv'
    exact (Option.some.inj hv').symm
  · rw [Function.update_of_ne hne] at hv'
    exact hfetching k v hphase hv'

/-- A forced get returns what the register holds. -/
theorem Reads.value {get : ℕ} {current : V} (h : Reads s get)
    (hfresh : Fresh control.lifetimes s.cell)
    (hread : s.reads control get = some (some (some current))) : current = s.register := by
  obtain ⟨call, deadline, hget, hmethod, -, hreturned⟩ := h
  obtain ⟨method, started, phase⟩ := call
  obtain rfl : method = .get true deadline := hmethod
  rw [State.reads, hget] at hread
  -- by what the get has come to
  split at hread
  case h_1 heq =>
    obtain ⟨-, -, rfl⟩ := Controls.Call.mk.inj (Option.some.inj heq)
    rw [← hreturned _ _ _ rfl]
    exact (Option.some.inj (Option.some.inj (Option.some.inj hread))).symm
  case h_2 settled at_ v heq =>
    obtain ⟨-, -, rfl⟩ := Controls.Call.mk.inj (Option.some.inj heq)
    -- a forced get does not return a stale value
    obtain ⟨fetch, t, -, -, -, -, -, hresult, -⟩ :=
      hfresh.obtained get _ settled (.stale v) v hget rfl rfl
    rcases hresult with ⟨hvalue, -⟩ | ⟨-, -, hforced⟩
    · exact nomatch hvalue
    · exact nomatch hforced
  -- a failure is no value
  case h_3 =>
    split at hread
    · exact nomatch Option.some.inj (Option.some.inj hread)
    · exact nomatch Option.some.inj hread
  case h_4 => exact nomatch hread

/-! ### The invariant -/

/-- The update has the lock. -/
def Phase.holds : Phase V → Bool
  | .waiting | .ended _ _ => false
  | _ => true

/-- The update has not changed the register. -/
def Quiet (s : State V) (i : ℕ) : Prop :=
  ∀ (q : ℕ) change, s.changes[q]? = some change → change.author ≠ i

/-- The update has changed the register once, from the expected value to the desired one. -/
def Once (s : State V) (i : ℕ) (update : Update V) : Prop :=
  update.expected ≠ update.desired ∧
    ∃ p, s.changes[p]? = some ⟨i, update.desired⟩ ∧ s.valueAt p = some update.expected ∧
      ∀ (q : ℕ) change, s.changes[q]? = some change → change.author = i → q = p

/-- What an update has done to the register. -/
def Authored (s : State V) (i : ℕ) (update : Update V) : Prop :=
  match update.phase with
  | .waiting | .reading _ | .writing => Quiet s i
  | .written | .verifying _ _ | .checking _ _ _ | .undoing => Once s i update
  | .invalidating _ reply => reply.fails = true
  | .ended .ok _ => update.expected = update.desired ∨ Once s i update
  | _ => True

/-- What the updates, the cell and the register know of each other. -/
structure Serial (control : Control V) (s : State V) : Prop where
  fresh : Fresh control.lifetimes s.cell
  sampled : Sampled s
  held : ∀ (i : ℕ) update, s.updates[i]? = some update → update.phase.holds = true →
    s.writer = some i
  reads : ∀ (i : ℕ) update get, s.updates[i]? = some update → update.phase = .reading get →
    Reads s get
  writing : ∀ (i : ℕ) update, s.updates[i]? = some update → update.phase = .writing →
    s.register = update.expected ∧ update.expected ≠ update.desired
  author : ∀ (q : ℕ) change, s.changes[q]? = some change → change.author < s.updates.length
  authored : ∀ (i : ℕ) update, s.updates[i]? = some update → Authored s i update
  since : ∀ (i : ℕ) update, s.updates[i]? = some update → update.since ≤ s.changes.length
  conflict : ∀ (i : ℕ) update current n, s.updates[i]? = some update →
    update.phase = .ended (.conflict current) n →
    update.since ≤ n ∧ n ≤ s.changes.length ∧ s.valueAt n = some current

/-- What an update has done stays as it is when others change the register. -/
theorem Authored.mono {i : ℕ} {update : Update V} (h : Authored s i update)
    (hinitial : s'.initial = s.initial)
    (hchanges : s'.changes = s.changes ∨
      ∃ change : Change V, change.author ≠ i ∧ s'.changes = s.changes ++ [change]) :
    Authored s' i update := by
  have hgrow : s'.changes = s.changes ∨ ∃ change, s'.changes = s.changes ++ [change] := by
    rcases hchanges with heq | ⟨change, -, heq⟩
    · exact .inl heq
    · exact .inr ⟨change, heq⟩
  -- a change of this update was there before
  have hold : ∀ (q : ℕ) change, s'.changes[q]? = some change → change.author = i →
      s.changes[q]? = some change := by
    intro q change hq hauthor
    rcases hchanges with heq | ⟨added, hne, heq⟩
    · rwa [heq] at hq
    · rw [heq] at hq
      rcases of_concat_eq_some hq with ⟨-, rfl⟩ | ⟨-, hq⟩
      · exact absurd hauthor hne
      · exact hq
  have hkept : ∀ (q : ℕ) change, s.changes[q]? = some change → s'.changes[q]? = some change := by
    intro q change hq
    rcases hgrow with heq | ⟨added, heq⟩
    · rwa [heq]
    · rw [heq]
      exact concat_of_eq_some hq
  have hquiet : Quiet s i → Quiet s' i := fun h q change hq hauthor =>
    h q change (hold q change hq hauthor) hauthor
  have honce : Once s i update → Once s' i update := by
    rintro ⟨hne, p, hp, hvalue, honly⟩
    exact ⟨hne, p, hkept p _ hp, State.valueAt_mono hvalue hinitial hgrow,
      fun q change hq hauthor => honly q change (hold q change hq hauthor) hauthor⟩
  -- by the phase: quiet, changed once, or nothing claimed
  obtain ⟨expected, desired, since, phase⟩ := update
  cases phase with
  | waiting => exact hquiet h
  | reading get => exact hquiet h
  | writing => exact hquiet h
  | written => exact honce h
  | verifying left mismatch => exact honce h
  | checking get left mismatch => exact honce h
  | undoing => exact honce h
  | undone => exact trivial
  | invalidating call reply => exact h
  | ended reply n =>
    cases reply with
    | ok =>
      rcases h with hsame | h
      · exact .inl hsame
      · exact .inr (honce h)
    | _ => exact trivial

/-- A step of the cell changes no update. -/
theorem Serial.cell [DecidableEq V] (h : Serial control s) {event : Controls.Event V}
    {cell : Controls.State V} (hadmits : s.admits event = true)
    (hcell : Controls.step control.lifetimes s.cell event = some cell) :
    Serial control { s with cell } where
  fresh := h.fresh.step hcell
  sampled := h.sampled.cell hadmits hcell
  held := h.held
  reads i update get hi hphase := (h.reads i update get hi hphase).cell h.sampled hadmits hcell
  writing := h.writing
  author := h.author
  authored i update hi := (h.authored i update hi).mono rfl (.inl rfl)
  since := h.since
  conflict := h.conflict

/-- Nor does a sample. -/
theorem Serial.sample (h : Serial control s) {get fetch : ℕ} {call : Controls.Call V}
    (hget : s.cell.calls[get]? = some call) (hphase : call.phase = .fetching fetch) :
    Serial control { s with samples := Function.update s.samples fetch (some s.register) } where
  fresh := h.fresh
  sampled := h.sampled.sample h.fresh hget hphase
  held := h.held
  reads i update get hi hphase := (h.reads i update get hi hphase).sample fetch
  writing := h.writing
  author := h.author
  authored i update hi := (h.authored i update hi).mono rfl (.inl rfl)
  since := h.since
  conflict := h.conflict

/-- A new update has neither the lock nor a change. -/
theorem Serial.call (h : Serial control s) (expected desired : V) :
    Serial control
      { s with updates := s.updates ++ [{ expected, desired, since := s.changes.length }] } where
  fresh := h.fresh
  sampled := ⟨h.sampled.sampled, h.sampled.unsampled⟩
  held i update hi hholds := by
    -- the new update waits
    rcases of_concat_eq_some hi with ⟨-, rfl⟩ | ⟨-, hold⟩
    · exact nomatch hholds
    · exact h.held i update hold hholds
  reads i update get hi hphase := by
    rcases of_concat_eq_some hi with ⟨-, rfl⟩ | ⟨-, hold⟩
    · exact nomatch hphase
    · exact h.reads i update get hold hphase
  writing i update hi hphase := by
    rcases of_concat_eq_some hi with ⟨-, rfl⟩ | ⟨-, hold⟩
    · exact nomatch hphase
    · exact h.writing i update hold hphase
  author q change hq := by
    rw [List.length_append]
    exact Nat.lt_add_right _ (h.author q change hq)
  authored i update hi := by
    -- it is the author of no change
    rcases of_concat_eq_some hi with ⟨rfl, rfl⟩ | ⟨-, hold⟩
    · exact fun q change hq => Nat.ne_of_lt (h.author q change hq)
    · exact (h.authored i update hold).mono rfl (.inl rfl)
  since i update hi := by
    rcases of_concat_eq_some hi with ⟨-, rfl⟩ | ⟨-, hold⟩
    · exact le_rfl
    · exact h.since i update hold
  conflict i update current n hi hphase := by
    rcases of_concat_eq_some hi with ⟨-, rfl⟩ | ⟨-, hold⟩
    · exact nomatch hphase
    · exact h.conflict i update current n hold hphase

/-! ### Moves of the updates -/

section

variable {i : ℕ} {update : Update V} {phase : Phase V}

/-- An update after a move: the one that moved, or another one. -/
theorem Moved.cases (h : Moved control s s' i update phase) {j : ℕ} {found : Update V}
    (hj : s'.updates[j]? = some found) :
    j = i ∧ found = { update with phase } ∨ j ≠ i ∧ s.updates[j]? = some found := by
  rw [h.updates] at hj
  rcases of_set_eq_some hj with ⟨heq, rfl⟩ | hother
  · exact .inl ⟨heq, rfl⟩
  · exact .inr hother

/-- The cell stays, or it gets another call. -/
theorem Moves.cell {expected desired : V} {before : Phase V} {cell : Controls.State V}
    {writer : Option ℕ} {changes : List (Change V)}
    (h : Moves control s i expected desired before phase cell writer changes) :
    cell = s.cell ∨
      ∃ method, Controls.step control.lifetimes s.cell (.call method) = some cell := by
  cases h with
  | locked _ hcell => exact .inr ⟨_, hcell⟩
  | woken hcell => exact .inr ⟨_, hcell⟩
  | invalidating _ _ hcell => exact .inr ⟨_, hcell⟩
  | _ => exact .inl rfl

/-- The register stays, or it takes the desired value or the expected one. -/
theorem Moves.changes {expected desired : V} {before : Phase V} {cell : Controls.State V}
    {writer : Option ℕ} {changes : List (Change V)}
    (h : Moves control s i expected desired before phase cell writer changes) :
    changes = s.changes ∨
      before = .writing ∧ changes = s.changes ++ [⟨i, desired⟩] ∨
      before = .undoing ∧ changes = s.changes ++ [⟨i, expected⟩] := by
  cases h with
  | applied => exact .inr (.inl ⟨rfl, rfl⟩)
  | restored => exact .inr (.inr ⟨rfl, rfl⟩)
  | _ => exact .inl rfl

/-- Who moves had the lock, or it was free. -/
theorem Moves.writer {expected desired : V} {before : Phase V} {cell : Controls.State V}
    {writer : Option ℕ} {changes : List (Change V)}
    (h : Moves control s i expected desired before phase cell writer changes) :
    (before = .waiting ∧ s.writer = none ∧ writer = some i ∧ changes = s.changes ∧
        phase = .reading s.cell.calls.length) ∨
      before.holds = true ∧ (phase.holds = true → writer = s.writer) := by
  -- the lock is taken, kept, or given back
  cases h with
  | locked hfree => exact .inl ⟨rfl, hfree, rfl, rfl, rfl⟩
  | invalidating hphase =>
    refine .inr ⟨?_, fun _ => rfl⟩
    cases before <;> first | rfl | exact nomatch hphase
  | refused => exact .inr ⟨rfl, fun hholds => (nomatch hholds)⟩
  | unchanged => exact .inr ⟨rfl, fun hholds => (nomatch hholds)⟩
  | conflicted => exact .inr ⟨rfl, fun hholds => (nomatch hholds)⟩
  | confirmed => exact .inr ⟨rfl, fun hholds => (nomatch hholds)⟩
  | ended => exact .inr ⟨rfl, fun hholds => (nomatch hholds)⟩
  | _ => exact .inr ⟨rfl, fun _ => rfl⟩

/-- While an update has the lock, no other one moves on but to wait. -/
theorem Serial.alone (h : Serial control s) (hm : Moved control s s' i update phase) {j : ℕ}
    {found : Update V} (hne : j ≠ i) (hj : s.updates[j]? = some found) :
    found.phase.holds = false := by
  rw [Bool.eq_false_iff]
  intro hholds
  have hwriter := h.held j found hj hholds
  rcases hm.moves.writer with ⟨-, hfree, -⟩ | ⟨hbefore, -⟩
  · exact nomatch hfree.symm.trans hwriter
  · exact hne (Option.some.inj (hwriter.symm.trans (h.held i update hm.before hbefore)))

/-- What the update that moves has done to the register. -/
theorem Serial.authored_moved (h : Serial control s) (hm : Moved control s s' i update phase) :
    Authored s' i { update with phase } := by
  have hauthored := h.authored i update hm.before
  have hwriting := h.writing i update hm.before
  have hinitial := hm.initial
  obtain ⟨expected, desired, since, before⟩ := update
  have hmoves := hm.moves
  -- a quiet update that does not change the register stays quiet, and so on
  have hquiet : Quiet s i → s'.changes = s.changes → Quiet s' i := by
    intro hquiet heq q change hq
    rw [heq] at hq
    exact hquiet q change hq
  have honce : ∀ phase' : Phase V, Once s i ⟨expected, desired, since, phase'⟩ →
      s'.changes = s.changes → Once s' i ⟨expected, desired, since, phase⟩ := by
    rintro phase' ⟨hne, p, hp, hvalue, honly⟩ heq
    refine ⟨hne, p, heq ▸ hp, State.valueAt_mono hvalue hinitial (.inl heq), ?_⟩
    rw [heq]
    exact honly
  generalize hcell : s'.cell = cell at hmoves
  generalize hwriter : s'.writer = writer at hmoves
  generalize hchanges : s'.changes = changes at hmoves
  -- by the move; only `applied` and `restored` change the register
  cases hmoves with
  | locked => exact hquiet hauthored hchanges
  | refused hreply =>
    rename_i reply
    cases reply with
    | ok => exact nomatch hreply
    | _ => exact trivial
  | unchanged hsame => exact .inl hsame
  | conflicted => exact trivial
  | proceeded => exact hquiet hauthored hchanges
  | confirmed => exact .inr (honce _ hauthored hchanges)
  | retried => exact honce _ hauthored hchanges
  | reverted => exact honce _ hauthored hchanges
  -- the register held the expected value, and now it holds the desired one
  | applied =>
    obtain ⟨hregister, hne⟩ := hwriting rfl
    refine ⟨hne, s.changes.length, ?_, ?_, ?_⟩
    · rw [hchanges, List.getElem?_concat_length]
    · refine State.valueAt_mono ?_ hinitial (.inr ⟨_, hchanges⟩)
      rw [State.valueAt_length, hregister]
    -- the change is the last one, and the only one of this update
    · intro q change hq hauthor
      rw [hchanges] at hq
      rcases of_concat_eq_some hq with ⟨heq, -⟩ | ⟨-, hold⟩
      · exact heq
      · exact absurd hauthor (hauthored q change hold)
  | restored => exact trivial
  | accepted => exact honce _ hauthored hchanges
  | woken => exact honce _ hauthored hchanges
  | invalidating _ hreply => exact hreply
  -- the reply of an update that has ended does not change
  | ended =>
    rename_i reply
    cases reply with
    | ok => exact nomatch hauthored
    | _ => exact trivial

/-- An update that gets the lock asks the cell. -/
theorem Moved.reads (hm : Moved control s s' i update phase) {get : ℕ}
    (hphase : phase = .reading get) :
    Reads s' get := by
  subst hphase
  obtain ⟨initial, cell, samples, writer, updates, changes⟩ := s'
  obtain ⟨expected, desired, since, before⟩ := update
  have hmoves := hm.moves
  generalize hcell : s.cell.calls.length = length at hmoves
  -- only `locked` leads to this phase
  cases hmoves with
  | @locked _ deadline _ hstep =>
    obtain rfl := Option.some.inj hstep
    -- the get has just been called, so it has neither fetched nor returned
    refine ⟨_, deadline, List.getElem?_concat_length, rfl, ?_, ?_⟩
    · exact fun _ _ hfetching => (nomatch hfetching)
    · exact fun _ _ _ hreturned => (nomatch hreturned)

/-- An update that goes on to write has read what the register holds. -/
theorem Serial.proceeds (h : Serial control s) (hm : Moved control s s' i update phase)
    (hphase : phase = .writing) :
    s'.register = update.expected ∧ update.expected ≠ update.desired := by
  subst hphase
  obtain ⟨initial, cell, samples, writer, updates, changes⟩ := s'
  obtain ⟨expected, desired, since, before⟩ := update
  have hmoves := hm.moves
  have hreads := fun get => h.reads i _ get hm.before
  -- only `proceeded` leads to this phase
  cases hmoves with
  | proceeded hread hne =>
    -- the forced read was of the register
    have hvalue := (hreads _ rfl).value h.fresh hread
    refine ⟨?_, hne⟩
    rw [State.register_eq hm.initial rfl]
    exact hvalue.symm

/-- A conflict is answered with what the register holds. -/
theorem Serial.conflicts (h : Serial control s) (hm : Moved control s s' i update phase)
    {current : V} {n : ℕ} (hphase : phase = .ended (.conflict current) n) :
    n = s.changes.length ∧ current = s.register ∧ s'.changes = s.changes := by
  subst hphase
  obtain ⟨initial, cell, samples, writer, updates, changes⟩ := s'
  obtain ⟨expected, desired, since, before⟩ := update
  have hmoves := hm.moves
  have hreads := fun get => h.reads i _ get hm.before
  have hauthored := h.authored i _ hm.before
  cases hmoves with
  | refused hreply => exact nomatch hreply
  | conflicted hread => exact ⟨rfl, (hreads _ rfl).value h.fresh hread, rfl⟩
  | ended => exact nomatch hauthored

/-- An update that moves keeps the invariant. -/
theorem Serial.moved [DecidableEq V] (h : Serial control s)
    (hm : Moved control s s' i update phase) :
    Serial control s' := by
  -- a change is one of the update that moves
  have hgrow : s'.changes = s.changes ∨ ∃ change, change.author = i ∧
      s'.changes = s.changes ++ [change] := by
    rcases hm.moves.changes with heq | ⟨-, heq⟩ | ⟨-, heq⟩
    · exact .inl heq
    · exact .inr ⟨_, rfl, heq⟩
    · exact .inr ⟨_, rfl, heq⟩
  have hgrow' : s'.changes = s.changes ∨ ∃ change, s'.changes = s.changes ++ [change] := by
    rcases hgrow with heq | ⟨change, -, heq⟩
    · exact .inl heq
    · exact .inr ⟨change, heq⟩
  have hlength : s.changes.length ≤ s'.changes.length := by
    rcases hgrow' with heq | ⟨change, heq⟩
    · rw [heq]
    · rw [heq, List.length_append]
      exact Nat.le_add_right _ _
  -- the cell is asked, or left alone
  have hcell : Fresh control.lifetimes s'.cell ∧ Sampled { s with cell := s'.cell } := by
    rcases hm.moves.cell with heq | ⟨method, hstep⟩
    · rw [heq]
      exact ⟨h.fresh, h.sampled⟩
    · exact ⟨h.fresh.step hstep, h.sampled.cell rfl hstep⟩
  refine ⟨hcell.1, ?_, ?_, ?_, ?_, ?_, ?_, ?_, ?_⟩
  · refine ⟨?_, ?_⟩
    · rw [hm.samples]
      exact hcell.2.sampled
    · rw [hm.samples]
      exact hcell.2.unsampled
  · intro j found hj hholds
    -- who holds the lock after the move
    rcases hm.cases hj with ⟨rfl, rfl⟩ | ⟨hne, hold⟩
    · rcases hm.moves.writer with ⟨-, -, hwriter, -⟩ | ⟨hbefore, hwriter⟩
      · exact hwriter
      · exact (hwriter hholds).trans (h.held j update hm.before hbefore)
    · exact nomatch (h.alone hm hne hold).symm.trans hholds
  · intro j found get hj hphase
    -- who reads, and who is about to write: only the update that moves, as the others are idle
    rcases hm.cases hj with ⟨rfl, rfl⟩ | ⟨hne, hold⟩
    · exact hm.reads (show phase = .reading get from hphase)
    · have hidle := h.alone hm hne hold
      rw [hphase] at hidle
      exact nomatch hidle
  · intro j found hj hphase
    rcases hm.cases hj with ⟨rfl, rfl⟩ | ⟨hne, hold⟩
    · have hproceeds := h.proceeds hm (show phase = .writing from hphase)
      exact hproceeds
    · have hidle := h.alone hm hne hold
      rw [hphase] at hidle
      exact nomatch hidle
  -- the author of a change is one of the updates
  · intro q change hq
    rw [hm.updates, List.length_set]
    rcases hgrow with heq | ⟨added, hauthor, heq⟩
    · exact h.author q change (heq ▸ hq)
    · rw [heq] at hq
      rcases of_concat_eq_some hq with ⟨-, rfl⟩ | ⟨-, hold⟩
      · rw [hauthor]
        exact (List.getElem?_eq_some_iff.mp hm.before).1
      · exact h.author q change hold
  · intro j found hj
    -- what the updates have done
    rcases hm.cases hj with ⟨rfl, rfl⟩ | ⟨hne, hold⟩
    · exact h.authored_moved hm
    · refine (h.authored j found hold).mono hm.initial ?_
      rcases hgrow with heq | ⟨change, hauthor, heq⟩
      · exact .inl heq
      · exact .inr ⟨change, hauthor ▸ hne.symm, heq⟩
  · intro j found hj
    rcases hm.cases hj with ⟨-, rfl⟩ | ⟨-, hold⟩
    · exact (h.since i update hm.before).trans hlength
    · exact (h.since j found hold).trans hlength
  · intro j found current n hj hphase
    rcases hm.cases hj with ⟨-, rfl⟩ | ⟨-, hold⟩
    -- a conflict is answered with the value of that moment
    · obtain ⟨rfl, rfl, heq⟩ :=
        h.conflicts hm (show phase = .ended (.conflict current) n from hphase)
      refine ⟨h.since i update hm.before, heq ▸ le_rfl, ?_⟩
      exact State.valueAt_mono s.valueAt_length hm.initial hgrow'
    · obtain ⟨hsince, hle, hvalue⟩ := h.conflict j found current n hold hphase
      exact ⟨hsince, hle.trans hlength, State.valueAt_mono hvalue hm.initial hgrow'⟩

end

/-- Every step keeps the invariant. -/
theorem Serial.step [DecidableEq V] (h : Serial control s) (hs : step control s event = some s') :
    Serial control s' := by
  rcases step_cases hs with ⟨expected, desired, rfl⟩ | ⟨i, update, phase, hm⟩ |
    ⟨get, call, fetch, hget, hphase, rfl⟩ | ⟨event, cell, hadmits, hcell, rfl⟩
  · exact h.call expected desired
  · exact h.moved hm
  · exact h.sample hget hphase
  · exact h.cell hadmits hcell

/-- A register that nobody has changed yet. -/
theorem serial_new (initial : V) (cell : Controls.State V) (hcell : Fresh control.lifetimes cell)
    (hfetches : cell.fetches = []) : Serial control { initial, cell } := by
  -- there is neither an update nor a change
  have hupdates : ∀ (i : ℕ) update, ([] : List (Update V))[i]? ≠ some update := fun i update h =>
    Option.some_ne_none update (h.symm.trans List.getElem?_nil)
  have hchanges : ∀ (q : ℕ) change, ([] : List (Change V))[q]? ≠ some change := fun q change h =>
    Option.some_ne_none change (h.symm.trans List.getElem?_nil)
  refine ⟨hcell, ⟨?_, fun _ _ => rfl⟩, fun i update hi => absurd hi (hupdates i update),
    fun i update _ hi => absurd hi (hupdates i update), fun i update hi =>
      absurd hi (hupdates i update),
    fun q change hq => absurd hq (hchanges q change), fun i update hi =>
      absurd hi (hupdates i update),
    fun i update hi => absurd hi (hupdates i update),
    fun i update _ _ hi => absurd hi (hupdates i update)⟩
  intro k fetch t x hk
  rw [show ({ initial, cell } : State V).cell.fetches = [] from hfetches, List.getElem?_nil] at hk
  exact nomatch hk

/-- Between the changes of two updates from the same value, another one has brought it back. -/
theorem restored_between {i j : ℕ} {a b : Update V} (ha : Once s i a) (hb : Once s j b)
    (hexpected : a.expected = b.expected) {p q : ℕ} (hp : s.changes[p]? = some ⟨i, a.desired⟩)
    (hq : s.changes[q]? = some ⟨j, b.desired⟩) (hlt : p < q) :
    ∃ (r : ℕ) (change : Change V), p < r ∧ r < q ∧ s.changes[r]? = some change ∧
      change.author ≠ i ∧ change.author ≠ j ∧ change.value = a.expected := by
  -- each of the two updates changed the register once
  obtain ⟨hanew, p', hp', -, haonly⟩ := ha
  obtain ⟨-, q', hq', hbefore, hbonly⟩ := hb
  obtain rfl := haonly p _ hp rfl
  obtain rfl := hbonly q _ hq rfl
  -- the register held the expected value before the second change, so the change before it brought
  -- it
  obtain ⟨r, rfl⟩ : ∃ r, q = r + 1 :=
    Nat.exists_eq_succ_of_ne_zero (Nat.ne_of_gt (Nat.zero_lt_of_lt hlt))
  obtain ⟨change, hr, hvalue⟩ := Option.map_eq_some_iff.mp hbefore
  rw [← hexpected] at hvalue
  have hpr : p ≠ r := by
    rintro rfl
    obtain rfl := Option.some.inj (hp.symm.trans hr)
    exact hanew hvalue.symm
  refine ⟨r, change, Nat.lt_of_le_of_ne (Nat.le_of_lt_succ hlt) hpr, Nat.lt_succ_self r, hr, ?_, ?_,
    hvalue⟩
  -- that change is of neither of the two
  · exact fun hauthor => hpr (haonly r change hr hauthor).symm
  · exact fun hauthor => Nat.ne_of_lt (Nat.lt_succ_self r) (hbonly r change hr hauthor)

/-- Any run of updates of one control that are not cancelled. An update that is about to write finds
its expected value in the register, and the change it makes replaces that value; the register
changes by such writes and by rollbacks only; if two updates with the same expected value and other
desired values have returned `Ok`, then between their writes another update has brought the expected
value back; and a conflict is answered with a value that the register held during the request. -/
theorem no_lost_update [DecidableEq V] {initial : V} {clock : ℕ} {events : List (Event V)}
    (hrun : EventSystem.run (step control) { initial, cell := { clock } } events = some s) :
    (∀ (i : ℕ) update, s.updates[i]? = some update → update.phase = .writing →
      s.register = update.expected) ∧
      (∀ event s', step control s event = some s' → s'.register = s.register ∨
        ∃ (i : ℕ) (update : Update V), s.updates[i]? = some update ∧
          (update.phase = .writing ∧ s.register = update.expected ∧ s'.register = update.desired ∨
            update.phase = .undoing ∧ s'.register = update.expected)) ∧
      (∀ (i j : ℕ) a b m n, s.updates[i]? = some a → s.updates[j]? = some b → i ≠ j →
        a.phase = .ended .ok m → b.phase = .ended .ok n → a.expected = b.expected →
        a.desired ≠ a.expected → b.desired ≠ b.expected →
        ∃ (p q r : ℕ) (change : Change V),
          (s.changes[p]? = some ⟨i, a.desired⟩ ∧ s.changes[q]? = some ⟨j, b.desired⟩ ∨
            s.changes[p]? = some ⟨j, b.desired⟩ ∧ s.changes[q]? = some ⟨i, a.desired⟩) ∧
          p < r ∧ r < q ∧ s.changes[r]? = some change ∧ change.author ≠ i ∧ change.author ≠ j ∧
          change.value = a.expected) ∧
      ∀ (i : ℕ) update current n, s.updates[i]? = some update →
        update.phase = .ended (.conflict current) n →
        ∃ m, update.since ≤ m ∧ m ≤ n ∧ s.valueAt m = some current := by
  -- the invariant, from the register that nobody has changed
  have h : Serial control s := EventSystem.run_keeps (Serial control) (fun _ _ _ h hs => h.step hs)
    (serial_new initial _ (fresh_new clock) rfl) hrun
  refine ⟨?_, ?_, ?_, ?_⟩
  · intro i update hi hphase
    exact (h.writing i update hi hphase).1
  · intro event s' hs
    -- the register changes by the move of an update only
    rcases step_cases hs with ⟨expected, desired, rfl⟩ | ⟨i, update, phase, hm⟩ |
      ⟨get, call, fetch, -, -, rfl⟩ | ⟨event, cell, -, -, rfl⟩
    · exact .inl rfl
    · rcases hm.moves.changes with heq | ⟨hphase, heq⟩ | ⟨hphase, heq⟩
      · exact .inl (State.register_eq hm.initial heq)
      · exact .inr ⟨i, update, hm.before, .inl ⟨hphase, (h.writing i update hm.before hphase).1,
          State.register_concat heq⟩⟩
      · exact .inr ⟨i, update, hm.before, .inr ⟨hphase, State.register_concat heq⟩⟩
    · exact .inl rfl
    · exact .inl rfl
  · intro i j a b m n hi hj hne ha hb hexpected hanew hbnew
    -- an update that has returned `Ok` and was asked for another value has written once
    have honce : ∀ (k : ℕ) update l, s.updates[k]? = some update → update.phase = .ended .ok l →
        update.desired ≠ update.expected → Once s k update := by
      intro k update l hk hphase hnew
      have hauthored := h.authored k update hk
      rw [Authored, hphase] at hauthored
      rcases hauthored with hsame | honce
      · exact absurd hsame.symm hnew
      · exact honce
    have haonce := honce i a m hi ha hanew
    have hbonce := honce j b n hj hb hbnew
    obtain ⟨-, p, hp, -⟩ := id haonce
    obtain ⟨-, q, hq, -⟩ := id hbonce
    -- one of the two changes came first
    rcases lt_trichotomy p q with hlt | rfl | hlt
    · obtain ⟨r, change, hpr, hrq, hr, hauthor, hauthor', hvalue⟩ :=
        restored_between haonce hbonce hexpected hp hq hlt
      exact ⟨p, q, r, change, .inl ⟨hp, hq⟩, hpr, hrq, hr, hauthor, hauthor', hvalue⟩
    · exact absurd (congrArg Change.author (Option.some.inj (hp.symm.trans hq))) hne
    · obtain ⟨r, change, hqr, hrp, hr, hauthor, hauthor', hvalue⟩ :=
        restored_between hbonce haonce hexpected.symm hq hp hlt
      exact ⟨q, p, r, change, .inr ⟨hq, hp⟩, hqr, hrp, hr, hauthor', hauthor,
        hvalue.trans hexpected.symm⟩
  · intro i update current n hi hphase
    obtain ⟨hsince, -, hvalue⟩ := h.conflict i update current n hi hphase
    exact ⟨n, hsince, le_rfl, hvalue⟩

def sampleControl : Control ℕ := ⟨sampleLifetimes, 15, false, fun _ => true⟩

/-- Two updates from the same value: the first one writes, and the second one finds what it has
written. -/
def sampleUpdates : List (Event ℕ) :=
  [.call 0 1, .call 0 2, .lock 0, .cell (.lock 0), .sample 0, .cell (.fetched 0 (.ok 0)),
    .observe 0, .apply 0, .wrote 0 true, .wake 0, .cell (.lock 1), .sample 1,
    .cell (.fetched 1 (.ok 1)), .observe 0, .lock 1, .cell (.lock 2), .sample 2,
    .cell (.fetched 2 (.ok 1)), .observe 1]

/-- Two updates from the same value: one writes, and the other one is told. -/
theorem no_lost_update_sample :
    ∃ s, EventSystem.run (step sampleControl) { initial := 0 } sampleUpdates = some s ∧
      s.updates = [⟨0, 1, 0, .ended .ok 1⟩, ⟨0, 2, 0, .ended (.conflict 1) 1⟩] ∧
      ∃ m, 0 ≤ m ∧ m ≤ 1 ∧ s.valueAt m = some 1 := by
  have hsome : (EventSystem.run (step sampleControl) { initial := 0 } sampleUpdates).isSome := by
    decide +kernel
  have hupdates : ∀ s ∈ EventSystem.run (step sampleControl) { initial := 0 } sampleUpdates,
      s.updates = [⟨0, 1, 0, .ended .ok 1⟩, ⟨0, 2, 0, .ended (.conflict 1) 1⟩] := by
    decide +kernel
  obtain ⟨s, hs⟩ := Option.isSome_iff_exists.mp hsome
  obtain ⟨-, -, -, hconflict⟩ := no_lost_update hs
  refine ⟨s, hs, hupdates s hs, hconflict 1 ⟨0, 2, 0, .ended (.conflict 1) 1⟩ 1 1 ?_ rfl⟩
  rw [hupdates s hs]
  rfl

end Register

end Controls

end EzvizBridge
