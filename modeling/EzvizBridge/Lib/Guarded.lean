import EzvizBridge.Lib.EventSystem
import Mathlib.Data.List.Basic
import Mathlib.Logic.Function.Basic

/-!
# A service with one guarded cell for each key

A call of such a service takes the lock of the cell of its key, looks into the cell, and if that
does not answer the request, asks upstream while it still has the lock. `Service` is what the
service does with a cell; `step` runs any number of calls at once. A call may be dropped wherever it
waits, which releases its lock, and the calls that ask upstream at the same time may be limited
(`permits`).

* `Rules` — what has to be shown of a service: its cells satisfy `Inv`, its replies satisfy `Good`.
  Both may speak of the answers that upstream has given so far (`log`).
* `Rules.of_run` — then it is so in every run, at most one call for each key asks upstream, and all
  of them together do not exceed the limit (`Ruled`).

* `Held` — the usual invariant of a cell: it has the last answer of upstream that was kept, and
  after each of these upstream was left alone for a while (`Held.concat`).

`log` and the past in a returned call are not in a service; they record what has happened.
-/

namespace Guarded

/-- What a service does with the cell of a key, at a given time. -/
structure Service (κ ρ γ υ β : Type*) where
  /-- the cell is looked into: it may be cleaned, and it may answer the request -/
  look : κ → ρ → ℕ → γ → γ × Option β
  /-- upstream has answered -/
  keep : κ → ρ → ℕ → υ → γ → γ × β

/-- An answer of upstream, with the time at which the cell was looked into. -/
structure Answer (κ ρ υ : Type*) where
  key : κ
  request : ρ
  asked : ℕ
  time : ℕ
  answer : υ
  deriving DecidableEq

/-- The answers about one key. -/
def about {κ ρ υ : Type*} [DecidableEq κ] (log : List (Answer κ ρ υ)) (key : κ) :
    List (Answer κ ρ υ) :=
  log.filter fun a => a.key = key

section About

variable {κ ρ υ : Type*} [DecidableEq κ] {log : List (Answer κ ρ υ)} {key : κ} {a : Answer κ ρ υ}

theorem about_concat_other (log : List (Answer κ ρ υ)) (h : a.key ≠ key) :
    about (log ++ [a]) key = about log key := by
  rw [about, List.filter_append, List.filter_singleton, about]
  simp [h]

theorem about_concat_self (h : a.key = key) : about (log ++ [a]) key = about log key ++ [a] := by
  rw [about, List.filter_append, List.filter_singleton, about]
  simp [h]

end About

/-- How far a call is. -/
inductive Phase (κ ρ υ β : Type*)
  /-- waits for the lock -/
  | waiting
  /-- has the lock; waits for a permit -/
  | holding (asked : ℕ)
  /-- asks upstream -/
  | fetching (asked : ℕ)
  | returned (past : List (Answer κ ρ υ)) (time : ℕ) (reply : β)
  | dropped
  deriving DecidableEq

variable {κ ρ γ υ β : Type*}

/-- The call has the lock. -/
def Phase.Holds : Phase κ ρ υ β → Prop
  | .holding _ | .fetching _ => True
  | _ => False

/-- The call has a permit. -/
def Phase.isFetching : Phase κ ρ υ β → Bool
  | .fetching _ => true
  | _ => false

structure Call (κ ρ υ β : Type*) where
  key : κ
  request : ρ
  phase : Phase κ ρ υ β
  deriving DecidableEq

/-- The cells with their locks, and the calls on them. -/
structure State (κ ρ γ υ β : Type*) where
  cells : κ → γ
  owner : κ → Option ℕ := fun _ => none
  calls : List (Call κ ρ υ β) := []
  log : List (Answer κ ρ υ) := []
  now : ℕ := 0

/-- What can happen next. -/
inductive Event (κ ρ υ : Type*)
  | call (key : κ) (request : ρ)
  /-- a call takes the lock and looks into the cell -/
  | lock (i : ℕ)
  /-- it gets a permit and asks upstream -/
  | permit (i : ℕ)
  | answer (i : ℕ) (answer : υ)
  /-- its future is dropped -/
  | drop (i : ℕ)
  | pass (time : ℕ)
  deriving DecidableEq

namespace State

variable (s : State κ ρ γ υ β)

/-- The calls that have a permit. -/
def fetching : ℕ := s.calls.countP fun call => call.phase.isFetching

/-- A call has returned with `reply` at `time`, when upstream had given the answers `past`. -/
def Replied (key : κ) (request : ρ) (past : List (Answer κ ρ υ)) (time : ℕ) (reply : β) : Prop :=
  ∃ i : ℕ, s.calls[i]? = some ⟨key, request, .returned past time reply⟩

/-- At most one call for each key has the lock. -/
def Sole : Prop :=
  ∀ (i j : ℕ) (call other : Call κ ρ υ β), s.calls[i]? = some call → s.calls[j]? = some other →
    call.key = other.key → call.phase.Holds → other.phase.Holds → i = j

/-- Call `i` goes on. -/
def goto (i : ℕ) (call : Call κ ρ υ β) (phase : Phase κ ρ υ β) : State κ ρ γ υ β :=
  { s with calls := s.calls.set i { call with phase } }

variable [DecidableEq κ]

/-- A call that has the lock goes on, to a phase in which it does not have it. -/
def release (key : κ) : State κ ρ γ υ β := { s with owner := Function.update s.owner key none }

/-- There is a permit. -/
def Free (permits : Option ℕ) : Prop := ∀ n ∈ permits, s.fetching < n

instance (permits : Option ℕ) : Decidable (s.Free permits) :=
  match permits with
  | none => isTrue fun _ h => absurd h (by simp)
  | some n => decidable_of_iff (s.fetching < n) (by simp [Free])

/-- One event; `none` when it cannot happen in this state. -/
def step (service : Service κ ρ γ υ β) (permits : Option ℕ) (s : State κ ρ γ υ β) :
    Event κ ρ υ → Option (State κ ρ γ υ β)
  | .call key request => some { s with calls := s.calls ++ [⟨key, request, .waiting⟩] }
  | .lock i =>
    match s.calls[i]? with
    | some ⟨key, request, .waiting⟩ =>
      if s.owner key = none then
        let (cell, reply) := service.look key request s.now (s.cells key)
        let looked := { s with cells := Function.update s.cells key cell }
        match reply with
        | some reply => some (looked.goto i ⟨key, request, .waiting⟩ (.returned s.log s.now reply))
        | none =>
          some
            ({ looked with owner := Function.update s.owner key (some i) }.goto i
              ⟨key, request, .waiting⟩ (.holding s.now))
      else none
    | _ => none
  | .permit i =>
    match s.calls[i]? with
    | some ⟨key, request, .holding asked⟩ =>
      if s.Free permits then some (s.goto i ⟨key, request, .holding asked⟩ (.fetching asked)) else
        none
    | _ => none
  | .answer i answer =>
    match s.calls[i]? with
    | some ⟨key, request, .fetching asked⟩ =>
      let (cell, reply) := service.keep key request s.now answer (s.cells key)
      let log := s.log ++ [⟨key, request, asked, s.now, answer⟩]
      some
        (({ s with cells := Function.update s.cells key cell, log }.release key).goto i
          ⟨key, request, .fetching asked⟩ (.returned log s.now reply))
    | _ => none
  | .drop i =>
    match s.calls[i]? with
    | some ⟨key, request, .waiting⟩ => some (s.goto i ⟨key, request, .waiting⟩ .dropped)
    | some ⟨key, request, .holding asked⟩ =>
      some ((s.release key).goto i ⟨key, request, .holding asked⟩ .dropped)
    | some ⟨key, request, .fetching asked⟩ =>
      some ((s.release key).goto i ⟨key, request, .fetching asked⟩ .dropped)
    | _ => none
  | .pass time => some { s with now := s.now + time }

end State

/-- What has to be shown of a service. -/
structure Rules (service : Service κ ρ γ υ β) (Inv : List (Answer κ ρ υ) → κ → ℕ → γ → Prop)
    (Good : List (Answer κ ρ υ) → κ → ρ → ℕ → β → Prop) : Prop where
  later : ∀ log key now time cell, Inv log key now cell → now ≤ time → Inv log key time cell
  other : ∀ log key now cell answer, Inv log key now cell → answer.key ≠ key →
    Inv (log ++ [answer]) key now cell
  look : ∀ log key request now cell, Inv log key now cell →
    Inv log key now (service.look key request now cell).1
  hit : ∀ log key request now cell reply, Inv log key now cell →
    (service.look key request now cell).2 = some reply → Good log key request now reply
  keep : ∀ log key request asked now cell answer, Inv log key asked cell →
    (service.look key request asked cell).2 = none → asked ≤ now →
      Inv (log ++ [⟨key, request, asked, now, answer⟩]) key now
          (service.keep key request now answer (service.look key request asked cell).1).1 ∧
        Good (log ++ [⟨key, request, asked, now, answer⟩]) key request now
          (service.keep key request now answer (service.look key request asked cell).1).2

/-- The cell of a call that has the lock is as it was when the call looked into it. -/
def Looked (service : Service κ ρ γ υ β) (Inv : List (Answer κ ρ υ) → κ → ℕ → γ → Prop)
    (s : State κ ρ γ υ β) (key : κ) (request : ρ) (asked : ℕ) : Prop :=
  asked ≤ s.now ∧ ∃ cell, Inv s.log key asked cell ∧
    (service.look key request asked cell).2 = none ∧
    s.cells key = (service.look key request asked cell).1

/-- What holds of a phase of call `i`. -/
def Placed (service : Service κ ρ γ υ β) (Inv : List (Answer κ ρ υ) → κ → ℕ → γ → Prop)
    (Good : List (Answer κ ρ υ) → κ → ρ → ℕ → β → Prop) (s : State κ ρ γ υ β) (i : ℕ) (key : κ)
    (request : ρ) : Phase κ ρ υ β → Prop
  | .holding asked | .fetching asked =>
    s.owner key = some i ∧ Looked service Inv s key request asked
  | .returned past time reply => past <+: s.log ∧ Good past key request time reply
  | .waiting | .dropped => True

/-- What holds in every state of a run. -/
structure Ruled (service : Service κ ρ γ υ β) (permits : Option ℕ)
    (Inv : List (Answer κ ρ υ) → κ → ℕ → γ → Prop)
    (Good : List (Answer κ ρ υ) → κ → ρ → ℕ → β → Prop) (s : State κ ρ γ υ β) : Prop where
  few : ∀ n ∈ permits, s.fetching ≤ n
  cells : ∀ key, Inv s.log key s.now (s.cells key)
  placed : ∀ (i : ℕ) (call : Call κ ρ υ β), s.calls[i]? = some call →
    Placed service Inv Good s i call.key call.request call.phase

section Runs

variable {service : Service κ ρ γ υ β} {permits : Option ℕ}
  {Inv : List (Answer κ ρ υ) → κ → ℕ → γ → Prop}
  {Good : List (Answer κ ρ υ) → κ → ρ → ℕ → β → Prop} {s s' t : State κ ρ γ υ β} {i : ℕ}
  {call : Call κ ρ υ β} {phase : Phase κ ρ υ β}

/-- A call that has the lock is the owner. -/
theorem Ruled.owner_eq (h : Ruled service permits Inv Good s) (hcall : s.calls[i]? = some call)
    (hholds : call.phase.Holds) : s.owner call.key = some i := by
  have hplaced := h.placed i call hcall
  cases hphase : call.phase with
  | holding asked | fetching asked =>
    rw [hphase] at hplaced
    exact hplaced.1
  | waiting | dropped | returned =>
    rw [hphase] at hholds
    exact hholds.elim

/-- Who has the lock of a key that call `i` owns is call `i`. -/
theorem Ruled.alone (h : Ruled service permits Inv Good s) {key : κ} {j : ℕ} {other : Call κ ρ υ β}
    (hother : s.calls[j]? = some other) (hkey : other.key = key) (hholds : other.phase.Holds)
    (howner : s.owner key = some i) : j = i := by
  have hj := h.owner_eq hother hholds
  rw [hkey, howner] at hj
  exact (Option.some.inj hj).symm

/-- At most one call for each key asks upstream. -/
theorem Ruled.sole (h : Ruled service permits Inv Good s) : s.Sole := by
  intro i j call other hcall hother hkey hholds hholds'
  have hi := h.owner_eq hcall hholds
  have hj := h.owner_eq hother hholds'
  rw [hkey] at hi
  exact Option.some.inj (hi.symm.trans hj)

/-- A reply is as it should be, and was when it was given. -/
theorem Ruled.replied (h : Ruled service permits Inv Good s) {key : κ} {request : ρ}
    {past : List (Answer κ ρ υ)} {time : ℕ} {reply : β}
    (hreply : s.Replied key request past time reply) :
    past <+: s.log ∧ Good past key request time reply := by
  obtain ⟨i, hcall⟩ := hreply
  exact h.placed i _ hcall

/-- The calls after one of them has moved on. -/
theorem getElem?_goto {j : ℕ} {other : Call κ ρ υ β} (hcall : s.calls[i]? = some call)
    (h : (s.goto i call phase).calls[j]? = some other) :
    (j = i ∧ other = { call with phase }) ∨ (j ≠ i ∧ s.calls[j]? = some other) := by
  have hset : (s.calls.set i { call with phase })[j]? = some other := h
  rw [List.getElem?_set] at hset
  by_cases hij : i = j
  · subst hij
    rw [if_pos rfl, if_pos (List.getElem?_eq_some_iff.mp hcall).1] at hset
    exact .inl ⟨rfl, (Option.some.inj hset).symm⟩
  · rw [if_neg hij] at hset
    exact .inr ⟨Ne.symm hij, hset⟩

/-- The permits in use after a call has moved on. -/
theorem fetching_goto (phase : Phase κ ρ υ β) (hcall : s.calls[i]? = some call) :
    (s.goto i call phase).fetching + (if call.phase.isFetching then 1 else 0) =
      s.fetching + (if phase.isFetching then 1 else 0) := by
  obtain ⟨hlt, rfl⟩ := List.getElem?_eq_some_iff.mp hcall
  have hmem : s.calls[i] ∈ s.calls := List.getElem_mem hlt
  show (s.calls.set i { s.calls[i] with phase }).countP _ + _ = s.calls.countP _ + _
  rw [List.countP_set hlt]
  have hpos : s.calls[i].phase.isFetching = true → 0 < s.calls.countP fun call =>
      call.phase.isFetching :=
    fun h => List.countP_pos_iff.mpr ⟨_, hmem, h⟩
  cases hwas : s.calls[i].phase.isFetching with
  | false => simp
  | true =>
    have := hpos hwas
    simp only [if_true]
    omega

/-- A call that does not ask upstream takes no permit. -/
theorem fetching_le (hcall : s.calls[i]? = some call) (hcalls : t.calls = s.calls)
    (hphase : phase.isFetching = false) {n : ℕ} (hle : s.fetching ≤ n) :
    (t.goto i call phase).fetching ≤ n := by
  have hcount : (t.goto i call phase).fetching = (s.goto i call phase).fetching := by
    show (t.calls.set i _).countP _ = (s.calls.set i _).countP _
    rw [hcalls]
  have := fetching_goto phase hcall
  rw [hphase] at this
  simp only [Bool.false_eq_true, if_false] at this
  omega

/-- Nobody sees of key `key` that something has happened. -/
def Untouched (Inv : List (Answer κ ρ υ) → κ → ℕ → γ → Prop) (s t : State κ ρ γ υ β)
    (key : κ) : Prop :=
  t.owner key = s.owner key ∧ t.cells key = s.cells key ∧
    ∀ time cell, Inv s.log key time cell → Inv t.log key time cell

/-- A call moves on; a cell that changes is one that nobody else has locked. -/
theorem Ruled.goto (h : Ruled service permits Inv Good s) (hcall : s.calls[i]? = some call)
    (hcalls : t.calls = s.calls) (hnow : t.now = s.now) (hpast : s.log <+: t.log)
    (htouched : ∀ key, Untouched Inv s t key ∨ key = call.key ∧
      ∀ (j : ℕ) (other : Call κ ρ υ β), s.calls[j]? = some other → other.key = key →
        other.phase.Holds → j = i)
    (hfew : ∀ n ∈ permits, s.fetching ≤ n → (t.goto i call phase).fetching ≤ n)
    (hcells : ∀ key, Inv t.log key t.now (t.cells key))
    (hphase : Placed service Inv Good t i call.key call.request phase) :
    Ruled service permits Inv Good (t.goto i call phase) := by
  refine ⟨fun n hn => hfew n hn (h.few n hn), hcells, fun j other hother => ?_⟩
  rcases getElem?_goto (hcalls ▸ hcall) hother with ⟨rfl, rfl⟩ | ⟨hne, hold⟩
  · cases phase with
    | _ => exact hphase
  · rw [hcalls] at hold
    have hplaced := h.placed j other hold
    have hkept : other.phase.Holds → Untouched Inv s t other.key := by
      intro hholds
      rcases htouched other.key with hsame | ⟨-, halone⟩
      · exact hsame
      · exact absurd (halone j other hold rfl hholds) hne
    cases hwhere : other.phase with
    | holding asked | fetching asked =>
      rw [hwhere] at hplaced hkept
      obtain ⟨howner, hasked, cell, hinv, hnone, hcell⟩ := hplaced
      obtain ⟨hown, hsame, hlog⟩ := hkept trivial
      exact ⟨hown.trans howner, hnow ▸ hasked, cell, hlog asked cell hinv, hnone, hsame.trans hcell⟩
    | returned past time reply =>
      rw [hwhere] at hplaced
      exact ⟨hplaced.1.trans hpast, hplaced.2⟩
    | waiting | dropped => exact trivial

variable [DecidableEq κ]

/-- A call that has the lock is dropped. -/
theorem Ruled.release (h : Ruled service permits Inv Good s) (hcall : s.calls[i]? = some call)
    (howner : s.owner call.key = some i) :
    Ruled service permits Inv Good ((s.release call.key).goto i call .dropped) := by
  refine h.goto hcall rfl rfl (List.prefix_refl _) (fun key => ?_)
    (fun n _ => fetching_le hcall rfl rfl) h.cells trivial
  rcases eq_or_ne key call.key with rfl | hne
  · exact .inr ⟨rfl, fun j other hother hkey hholds => h.alone hother hkey hholds howner⟩
  · exact .inl ⟨Function.update_of_ne hne _ _, rfl, fun _ _ hi => hi⟩

/-- What holds of every cell, and of a new one, holds of every cell then. -/
theorem forall_update {P : κ → γ → Prop} {cells : κ → γ} {key : κ} {cell : γ}
    (h : ∀ key, P key (cells key)) (hcell : P key cell) (key' : κ) :
    P key' (Function.update cells key cell key') := by
  rcases eq_or_ne key' key with rfl | hne
  · rw [Function.update_self]
    exact hcell
  · rw [Function.update_of_ne hne]
    exact h key'

/-- A step keeps what holds in every state. -/
theorem Rules.step (rules : Rules service Inv Good) {event : Event κ ρ υ}
    (h : Ruled service permits Inv Good s) (hstep : s.step service permits event = some s') :
    Ruled service permits Inv Good s' := by
  cases event with
  | call key request =>
    obtain rfl := Option.some.inj hstep
    refine ⟨fun n hn => ?_, h.cells, fun i call hcall => ?_⟩
    · show (s.calls ++ [_]).countP _ ≤ n
      rw [List.countP_append]
      exact h.few n hn
    · have hcall' : (s.calls ++ [⟨key, request, .waiting⟩])[i]? = some call := hcall
      rw [List.getElem?_append] at hcall'
      split at hcall'
      · exact h.placed i call hcall'
      · rw [List.mem_singleton.mp (List.mem_of_getElem? hcall')]
        exact trivial
  | lock i =>
    simp only [State.step] at hstep
    split at hstep
    · next key request hcall =>
      split at hstep
      · next howner =>
        -- nobody has the lock
        have hfree : ∀ (j : ℕ) (other : Call κ ρ υ β), s.calls[j]? = some other → other.key = key →
            other.phase.Holds → j = i := by
          intro j other hother hkey hholds
          rw [← hkey, h.owner_eq hother hholds] at howner
          cases howner
        have hinv := h.cells key
        have hlook := rules.look s.log key request s.now (s.cells key) hinv
        have hcells : ∀ key', Inv s.log key' s.now
            (Function.update s.cells key (service.look key request s.now (s.cells key)).1 key') :=
          forall_update h.cells hlook
        split at hstep
        · next reply hreply =>
          obtain rfl := Option.some.inj hstep
          refine h.goto hcall rfl rfl (List.prefix_refl _) (fun key' => ?_)
            (fun n _ => fetching_le hcall rfl rfl) hcells ?_
          · rcases eq_or_ne key' key with rfl | hne
            · exact .inr ⟨rfl, hfree⟩
            · exact .inl ⟨rfl, Function.update_of_ne hne _ _, fun _ _ hi => hi⟩
          · exact ⟨List.prefix_refl _,
              rules.hit s.log key request s.now (s.cells key) reply hinv hreply⟩
        · next hnone =>
          obtain rfl := Option.some.inj hstep
          refine h.goto hcall rfl rfl (List.prefix_refl _) (fun key' => ?_)
            (fun n _ => fetching_le hcall rfl rfl) hcells ?_
          · rcases eq_or_ne key' key with rfl | hne
            · exact .inr ⟨rfl, hfree⟩
            · exact .inl ⟨Function.update_of_ne hne _ _, Function.update_of_ne hne _ _,
                fun _ _ hi => hi⟩
          · exact ⟨Function.update_self _ _ _, Nat.le_refl _, s.cells key, hinv, hnone,
              Function.update_self _ _ _⟩
      · cases hstep
    · cases hstep
  | permit i =>
    simp only [State.step] at hstep
    split at hstep
    · next key request asked hcall =>
      split at hstep
      · next hfree =>
        obtain rfl := Option.some.inj hstep
        refine h.goto hcall rfl rfl (List.prefix_refl _)
          (fun _ => .inl ⟨rfl, rfl, fun _ _ hi => hi⟩) ?_ h.cells
          (h.placed i _ hcall)
        intro n hn _
        have hcount := fetching_goto (.fetching asked) hcall
        simp only [Phase.isFetching, if_true, Bool.false_eq_true, if_false] at hcount
        have := hfree n hn
        omega
      · cases hstep
    · cases hstep
  | answer i answer =>
    simp only [State.step] at hstep
    split at hstep
    · next key request asked hcall =>
      obtain rfl := Option.some.inj hstep
      obtain ⟨howner, hasked, cell, hinv, hnone, hcell⟩ := h.placed i _ hcall
      obtain ⟨hkeep, hgood⟩ :=
        rules.keep s.log key request asked s.now cell answer hinv hnone hasked
      rw [← hcell] at hkeep hgood
      -- the answer is one for this key, and its cell is written
      have hcells : ∀ key', Inv (s.log ++ [⟨key, request, asked, s.now, answer⟩]) key' s.now
          (Function.update s.cells key
            (service.keep key request s.now answer (s.cells key)).1 key') := by
        intro key'
        rcases eq_or_ne key' key with rfl | hne
        · rw [Function.update_self]
          exact hkeep
        · rw [Function.update_of_ne hne]
          exact rules.other _ _ _ _ _ (h.cells key') (Ne.symm hne)
      refine h.goto hcall rfl rfl (List.prefix_append _ _) (fun key' => ?_)
        (fun n _ => fetching_le hcall rfl rfl) hcells ⟨List.prefix_refl _, hgood⟩
      rcases eq_or_ne key' key with rfl | hne
      · exact .inr ⟨rfl, fun j other hother hkey hholds => h.alone hother hkey hholds howner⟩
      · exact .inl ⟨Function.update_of_ne hne _ _, Function.update_of_ne hne _ _,
          fun _ _ hi => rules.other _ _ _ _ _ hi (Ne.symm hne)⟩
    · cases hstep
  | drop i =>
    simp only [State.step] at hstep
    split at hstep
    · next key request hcall =>
      obtain rfl := Option.some.inj hstep
      refine h.goto hcall rfl rfl (List.prefix_refl _)
        (fun _ => .inl ⟨rfl, rfl, fun _ _ hi => hi⟩) ?_
        h.cells trivial
      exact fun n _ => fetching_le hcall rfl rfl
    · next key request asked hcall =>
      obtain rfl := Option.some.inj hstep
      exact h.release hcall (h.placed i _ hcall).1
    · next key request asked hcall =>
      obtain rfl := Option.some.inj hstep
      exact h.release hcall (h.placed i _ hcall).1
    · cases hstep
  | pass time =>
    obtain rfl := Option.some.inj hstep
    have hle : s.now ≤ s.now + time := Nat.le_add_right _ _
    refine ⟨h.few, fun key => rules.later _ _ _ _ _ (h.cells key) hle, fun i call hcall => ?_⟩
    have hplaced := h.placed i call hcall
    cases hphase : call.phase with
    | holding asked | fetching asked =>
      rw [hphase] at hplaced
      obtain ⟨howner, hasked, hlooked⟩ := hplaced
      exact ⟨howner, Nat.le_trans hasked hle, hlooked⟩
    | returned past time reply =>
      rw [hphase] at hplaced
      exact hplaced
    | waiting | dropped => exact trivial

/-- The log grows by the answers of upstream. -/
theorem log_step {event : Event κ ρ υ} (hstep : s.step service permits event = some s') :
    s'.log = s.log ∨ ∃ i answer a, event = .answer i answer ∧ s'.log = s.log ++ [a] ∧
      a.answer = answer := by
  cases event with
  | call | pass =>
    obtain rfl := Option.some.inj hstep
    exact .inl rfl
  | lock i =>
    simp only [State.step] at hstep
    split at hstep
    · split at hstep
      · split at hstep
        all_goals
          obtain rfl := Option.some.inj hstep
          exact .inl rfl
      · cases hstep
    · cases hstep
  | permit i =>
    simp only [State.step] at hstep
    split at hstep
    · split at hstep
      · obtain rfl := Option.some.inj hstep
        exact .inl rfl
      · cases hstep
    · cases hstep
  | answer i answer =>
    simp only [State.step] at hstep
    split at hstep
    · obtain rfl := Option.some.inj hstep
      exact .inr ⟨i, answer, _, rfl, rfl, rfl⟩
    · cases hstep
  | drop i =>
    simp only [State.step] at hstep
    split at hstep
    · obtain rfl := Option.some.inj hstep
      exact .inl rfl
    · obtain rfl := Option.some.inj hstep
      exact .inl rfl
    · obtain rfl := Option.some.inj hstep
      exact .inl rfl
    · cases hstep

/-- What holds of a service before anything is asked of it, and of its steps, holds in every run. -/
theorem Rules.of_run (rules : Rules service Inv Good) {cells : κ → γ} {events : List (Event κ ρ υ)}
    (hstart : ∀ key, Inv [] key 0 (cells key))
    (hrun : EventSystem.run (State.step service permits) { cells } events = some s) :
    Ruled service permits Inv Good s := by
  refine EventSystem.run_keeps (Ruled service permits Inv Good)
    (fun _ _ _ h hstep => rules.step h hstep) ?_
    hrun
  exact ⟨fun _ _ => Nat.zero_le _, hstart, fun i call hcall => by simp at hcall⟩

end Runs

/-! ### Cells that keep the last answer -/

section Keeping

variable {ω : Type*} {kept : υ → Option ω} {wait : ω → ℕ} {log : List (Answer κ ρ υ)} {key : κ}
  {request : ρ} {now asked : ℕ} {cell : Option (ω × ℕ)} {w : ω} {time : ℕ}

/-- `w` is what was kept last of some answers, at `time`. -/
def Last (kept : υ → Option ω) (log : List (Answer κ ρ υ)) (w : ω) (time : ℕ) : Prop :=
  ∃ front a back, log = front ++ a :: back ∧ kept a.answer = some w ∧ a.time = time ∧
    ∀ b ∈ back, kept b.answer = none

/-- After an answer that is kept, upstream is not asked again for a while. -/
def Spaced (kept : υ → Option ω) (wait : ω → ℕ) (log : List (Answer κ ρ υ)) : Prop :=
  log.Pairwise fun earlier later => ∀ w, kept earlier.answer = some w →
    earlier.time + wait w ≤ later.asked

/-- The cell of `key` has the last answer that was kept, with its time. -/
structure Held [DecidableEq κ] (kept : υ → Option ω) (wait : ω → ℕ)
    (log : List (Answer κ ρ υ)) (key : κ) (now : ℕ) (cell : Option (ω × ℕ)) : Prop where
  past : ∀ a ∈ about log key, a.asked ≤ a.time ∧ a.time ≤ now
  spaced : Spaced kept wait (about log key)
  empty : cell = none → ∀ a ∈ about log key, kept a.answer = none
  last : ∀ w time, cell = some (w, time) → Last kept (about log key) w time

theorem Last.mem (h : Last kept log w time) :
    ∃ a ∈ log, kept a.answer = some w ∧ a.time = time := by
  obtain ⟨front, a, back, rfl, ha, htime, -⟩ := h
  exact ⟨a, List.mem_append_right _ List.mem_cons_self, ha, htime⟩

/-- There is one last thing. -/
theorem Last.unique {v : ω} {time' : ℕ} (h : Last kept log w time) (h' : Last kept log v time') :
    w = v ∧ time = time' := by
  obtain ⟨front, a, back, rfl, ha, rfl, hback⟩ := h
  obtain ⟨front', b, back', heq, hb, rfl, hback'⟩ := h'
  rcases List.append_eq_append_iff.mp heq with ⟨more, -, hmore⟩ | ⟨more, -, hmore⟩
  · cases more with
    | nil =>
      obtain ⟨rfl, -⟩ := List.cons.inj hmore
      exact ⟨Option.some.inj (ha.symm.trans hb), rfl⟩
    | cons c more =>
      -- `b` would stand behind `a`
      obtain ⟨-, hmore⟩ := List.cons.inj hmore
      rw [hback b (by rw [hmore]; simp)] at hb
      cases hb
  · cases more with
    | nil =>
      obtain ⟨rfl, -⟩ := List.cons.inj hmore
      exact ⟨Option.some.inj (ha.symm.trans hb), rfl⟩
    | cons c more =>
      obtain ⟨-, hmore⟩ := List.cons.inj hmore
      rw [hback' a (by rw [hmore]; simp)] at ha
      cases ha

/-- Where every answer is kept, the last thing is what the last answer was. -/
theorem Last.getLast? {f : υ → ω} (h : Last (fun answer => some (f answer)) log w time) :
    ∃ a, log.getLast? = some a ∧ f a.answer = w ∧ a.time = time := by
  obtain ⟨front, a, back, rfl, ha, htime, hback⟩ := h
  cases back with
  | nil => exact ⟨a, by simp, Option.some.inj ha, htime⟩
  | cons b back => cases hback b List.mem_cons_self

/-- An answer that is not kept. -/
theorem Last.concat {a : Answer κ ρ υ} (h : Last kept log w time) (ha : kept a.answer = none) :
    Last kept (log ++ [a]) w time := by
  obtain ⟨front, b, back, rfl, hb, htime, hback⟩ := h
  refine ⟨front, b, back ++ [a], by simp, hb, htime, fun c hc => ?_⟩
  rcases List.mem_append.mp hc with hold | hnew
  · exact hback c hold
  · rw [List.mem_singleton.mp hnew, ha]

/-- Everything that was kept was kept long ago, if the last thing was. -/
theorem Last.wait_le (h : Last kept log w time) (hspaced : Spaced kept wait log)
    (hpast : ∀ a ∈ log, a.asked ≤ a.time) (hlong : time + wait w ≤ asked) :
    ∀ a ∈ log, ∀ v, kept a.answer = some v → a.time + wait v ≤ asked := by
  obtain ⟨front, b, back, rfl, hb, rfl, hback⟩ := h
  have hfront : ∀ a ∈ front, ∀ v, kept a.answer = some v → a.time + wait v ≤ b.asked := fun a ha =>
    (List.pairwise_append.mp hspaced).2.2 a ha b List.mem_cons_self
  intro a ha v hv
  rcases List.mem_append.mp ha with hmem | hmem
  · calc a.time + wait v ≤ b.asked := hfront a hmem v hv
      _ ≤ b.time := hpast b (List.mem_append_right _ List.mem_cons_self)
      _ ≤ b.time + wait w := Nat.le_add_right _ _
      _ ≤ asked := hlong
  · rcases List.mem_cons.mp hmem with rfl | hmem
    · obtain rfl := Option.some.inj (hb.symm.trans hv)
      exact hlong
    · rw [hback a hmem] at hv
      cases hv

variable [DecidableEq κ]

theorem held_nil (kept : υ → Option ω) (wait : ω → ℕ) (key : κ) (now : ℕ) :
    Held kept wait ([] : List (Answer κ ρ υ)) key now none :=
  ⟨fun _ ha => absurd ha List.not_mem_nil, List.Pairwise.nil,
    fun _ _ ha => absurd ha List.not_mem_nil, fun _ _ h => by cases h⟩

theorem Held.later (h : Held kept wait log key now cell) {later : ℕ} (hle : now ≤ later) :
    Held kept wait log key later cell :=
  ⟨fun a ha => ⟨(h.past a ha).1, Nat.le_trans (h.past a ha).2 hle⟩, h.spaced, h.empty, h.last⟩

theorem Held.other {a : Answer κ ρ υ} (h : Held kept wait log key now cell) (hne : a.key ≠ key) :
    Held kept wait (log ++ [a]) key now cell := by
  have hsame := about_concat_other log hne
  exact ⟨hsame ▸ h.past, hsame ▸ h.spaced, hsame ▸ h.empty, hsame ▸ h.last⟩

/-- One more answer, of a call that has looked into the cell when what was there was old. -/
theorem Held.concat (request : ρ) (h : Held kept wait log key asked cell)
    (hold : ∀ w time, cell = some (w, time) → time + wait w ≤ asked) (hle : asked ≤ now)
    (answer : υ) :
    Held kept wait (log ++ [⟨key, request, asked, now, answer⟩]) key now
      (((kept answer).map fun w => (w, now)).or cell) := by
  have hself : about (log ++ [⟨key, request, asked, now, answer⟩]) key =
      about log key ++ [⟨key, request, asked, now, answer⟩] := about_concat_self rfl
  refine ⟨?_, ?_, ?_, ?_⟩
  · intro a ha
    rw [hself] at ha
    rcases List.mem_append.mp ha with hpast | hnew
    · exact ⟨(h.past a hpast).1, Nat.le_trans (h.past a hpast).2 hle⟩
    · rw [List.mem_singleton.mp hnew]
      exact ⟨hle, Nat.le_refl _⟩
  · rw [hself]
    refine List.pairwise_append.mpr ⟨h.spaced, List.pairwise_singleton _ _, ?_⟩
    intro a ha b hb v hv
    rw [List.mem_singleton.mp hb]
    cases hcell : cell with
    | none =>
      rw [h.empty hcell a ha] at hv
      cases hv
    | some entry =>
      obtain ⟨w, time⟩ := entry
      exact (h.last w time hcell).wait_le h.spaced (fun a ha => (h.past a ha).1)
        (hold w time hcell) a ha v hv
  · intro hnone a ha
    rw [hself] at ha
    obtain ⟨hkept, hcell⟩ := Option.or_eq_none_iff.mp hnone
    rcases List.mem_append.mp ha with hpast | hnew
    · exact h.empty hcell a hpast
    · rw [List.mem_singleton.mp hnew]
      simpa using hkept
  · intro w time hsome
    rw [hself]
    cases hkept : kept answer with
    | none =>
      rw [hkept] at hsome
      exact (h.last w time hsome).concat hkept
    | some v =>
      rw [hkept] at hsome
      obtain ⟨rfl, rfl⟩ := Prod.mk.inj (Option.some.inj hsome)
      exact ⟨about log key, _, [], rfl, hkept, rfl, fun b hb => absurd hb List.not_mem_nil⟩

end Keeping

end Guarded
