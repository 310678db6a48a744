import EzvizBridge.Lib.Asking
import EzvizBridge.Lib.EventSystem
import Mathlib.Data.List.Nodup
import Mathlib.Logic.Function.Basic

/-!
# Programs under one lock

Callers run programs that ask. A caller waits for the lock, runs its program while it has it, and
lets it go when the program returns. It may also leave, wherever it is, and then lets the lock go as
well. Between two events anything else may happen.

Nevertheless all that is asked and answered is made up of the runs of the callers, one behind the
other (`orderly_of_run`).
-/

namespace Exclusive

open Asking (Prog Reaches)

variable {ι ρ υ α : Type}

/-! ### The system -/

inductive Status (ρ υ α : Type)
  | waiting
  /-- Has the lock; the program has asked, and goes on so. -/
  | running (rest : Prog ρ υ α)
  | returned (a : α)
  | left

/-- The status of a caller whose program goes on so. -/
def Status.of : Prog ρ υ α → Status ρ υ α
  | .done a => .returned a
  | .ask question next => .running (.ask question next)

/-- A caller, with what its program is made of. -/
structure Call (ι ρ υ α : Type) where
  input : ι
  status : Status ρ υ α

inductive Entry (ρ υ : Type)
  | asked (caller : ℕ) (question : ρ)
  | answered (caller : ℕ) (answer : υ)

structure State (ι ρ υ α : Type) where
  holder : Option ℕ := none
  calls : ℕ → Option (Call ι ρ υ α) := fun _ => none
  log : List (Entry ρ υ) := []

inductive Event (ι υ : Type)
  | call (id : ℕ) (input : ι)
  | enter (id : ℕ)
  | answer (id : ℕ) (answer : υ)
  | leave (id : ℕ)

namespace State

variable (s : State ι ρ υ α)

def set (id : ℕ) (call : Call ι ρ υ α) : State ι ρ υ α :=
  { s with calls := Function.update s.calls id (some call) }

/-- The caller with the lock goes on: it asks once more, or returns. -/
def goOn (id : ℕ) (input : ι) (rest : Prog ρ υ α) : State ι ρ υ α :=
  { s.set id ⟨input, .of rest⟩ with
    holder := rest.question?.map fun _ => id
    log := s.log ++ rest.question?.toList.map (.asked id) }

end State

/-- One step; `program` is the program of an input. -/
def step (program : ι → Prog ρ υ α) (s : State ι ρ υ α) : Event ι υ → Option (State ι ρ υ α)
  | .call id input =>
    match s.calls id with
    | none => some (s.set id ⟨input, .waiting⟩)
    | some _ => none
  | .enter id =>
    match s.calls id, s.holder with
    | some ⟨input, .waiting⟩, none => some (s.goOn id input (program input))
    | _, _ => none
  | .answer id answer =>
    match s.calls id with
    | some ⟨input, .running (.ask _ next)⟩ =>
      some (State.goOn { s with log := s.log ++ [.answered id answer] } id input (next answer))
    | _ => none
  | .leave id =>
    match s.calls id with
    | some ⟨input, .waiting⟩ => some (s.set id ⟨input, .left⟩)
    | some ⟨input, .running _⟩ => some { s.set id ⟨input, .left⟩ with holder := none }
    | _ => none

/-! ### Blocks -/

/-- A question with its answer. -/
def exchange (caller : ℕ) (told : ρ × υ) :
    List (Entry ρ υ) := [.asked caller told.1, .answered caller told.2]

/-- What one caller has asked and been told, and the question that is still open. -/
structure Block (ρ υ : Type) where
  caller : ℕ
  told : List (ρ × υ)
  opened : Option ρ

def Block.entries (b : Block ρ υ) : List (Entry ρ υ) :=
  b.told.flatMap (exchange b.caller) ++ b.opened.toList.map (.asked b.caller)

/-- The block is that of the program so far. -/
structure Block.Of (b : Block ρ υ) (p rest : Prog ρ υ α) : Prop where
  reaches : Reaches p b.told rest
  opened : b.opened = rest.question?

/-- Where the block of a caller is. -/
def Placed (program : ι → Prog ρ υ α) (blocks : List (Block ρ υ)) (id : ℕ)
    (call : Call ι ρ υ α) : Prop :=
  match call.status with
  | .waiting => ∀ b ∈ blocks, b.caller ≠ id
  | .running rest =>
    ∃ front b, blocks = front ++ [b] ∧ b.caller = id ∧ b.Of (program call.input) rest
  | .returned a => ∃ b ∈ blocks, b.caller = id ∧ b.Of (program call.input) (.done a)
  | .left => ∀ b ∈ blocks, b.caller = id → ∃ rest, b.Of (program call.input) rest

/-- The log is made up of blocks. -/
structure Orderly (program : ι → Prog ρ υ α) (blocks : List (Block ρ υ))
    (s : State ι ρ υ α) : Prop where
  log : s.log = blocks.flatMap Block.entries
  apart : (blocks.map Block.caller).Nodup
  placed : ∀ id call, s.calls id = some call → Placed program blocks id call
  known : ∀ b ∈ blocks, ∃ call, s.calls b.caller = some call
  /-- Who runs has the lock. -/
  holder : ∀ id input rest, s.calls id = some ⟨input, .running rest⟩ → s.holder = some id

variable {program : ι → Prog ρ υ α} {s s' : State ι ρ υ α}
  {blocks front : List (Block ρ υ)} {id : ℕ}

theorem set_self (s : State ι ρ υ α) (id : ℕ) (call : Call ι ρ υ α) :
    (s.set id call).calls id = some call :=
  Function.update_self _ _ _

theorem set_other (s : State ι ρ υ α) {other : ℕ} (hne : other ≠ id) (call : Call ι ρ υ α) :
    (s.set id call).calls other = s.calls other :=
  Function.update_of_ne hne _ _

theorem Orderly.not_running (h : Orderly program blocks s)
    (hfree : s.holder = none ∨ s.holder = some id) {other : ℕ} (hne : other ≠ id) {input : ι}
    {rest : Prog ρ υ α} :
    s.calls other ≠ some ⟨input, .running rest⟩ := by
  intro hother
  have hholder := h.holder other input rest hother
  rcases hfree with hfree | hfree
  · rw [hfree] at hholder
    cases hholder
  · rw [hfree] at hholder
    exact hne (Option.some.inj hholder).symm

/-- A caller goes on: it is the last one, and its block is the last. -/
theorem Orderly.goOn (h : Orderly program blocks s) {input : ι} {rest : Prog ρ υ α}
    {told : List (ρ × υ)} (hfree : s.holder = none ∨ s.holder = some id)
    (hblocks : ∀ b ∈ blocks, b ∈ front ∨ b.caller = id)
    (hfront : ∀ b ∈ front, b ∈ blocks ∧ b.caller ≠ id) (hapart : (front.map Block.caller).Nodup)
    {log : List (Entry ρ υ)}
    (hlog : log = front.flatMap Block.entries ++ told.flatMap (exchange id))
    (hreaches : Reaches (program input) told rest) :
    Orderly program (front ++ [⟨id, told, rest.question?⟩])
      (State.goOn { s with log := log } id input rest) := by
  have hof : Block.Of ⟨id, told, rest.question?⟩ (program input) rest := ⟨hreaches, rfl⟩
  have hself : (State.goOn { s with log := log } id input rest).calls id = some ⟨input, .of rest⟩ :=
    Function.update_self _ _ _
  have hcalls : ∀ other, other ≠ id →
      (State.goOn { s with log := log } id input rest).calls other = s.calls other :=
    fun _ hne => Function.update_of_ne hne _ _
  -- the blocks of the other callers are where they were
  have hothers : ∀ b, b.caller ≠ id → (b ∈ front ++ [⟨id, told, rest.question?⟩] ↔ b ∈ blocks) := by
    intro b hne
    rw [List.mem_append, List.mem_singleton]
    constructor
    · rintro (hold | rfl)
      · exact (hfront b hold).1
      · exact absurd rfl hne
    · exact fun hb => .inl ((hblocks b hb).resolve_right hne)
  refine ⟨?_, ?_, fun other call hcall => ?_, fun b hb => ?_, fun other input' rest' hother => ?_⟩
  · show log ++ _ = _
    rw [hlog, List.flatMap_append, List.flatMap_singleton, Block.entries, List.append_assoc]
  · rw [List.map_append, List.map_singleton]
    refine List.nodup_append.mpr ⟨hapart, List.nodup_singleton _, fun a ha b hb => ?_⟩
    obtain ⟨block, hblock, rfl⟩ := List.mem_map.mp ha
    rw [List.mem_singleton.mp hb]
    exact (hfront block hblock).2
  · by_cases hsame : other = id
    · subst hsame
      obtain rfl : (⟨input, .of rest⟩ : Call ι ρ υ α) = call :=
        Option.some.inj (hself.symm.trans hcall)
      cases rest with
      | done a => exact ⟨_, List.mem_append_right _ (List.mem_singleton_self _), rfl, hof⟩
      | ask question next => exact ⟨front, _, rfl, rfl, hof⟩
    · rw [hcalls other hsame] at hcall
      have hplaced := h.placed other call hcall
      obtain ⟨input', status⟩ := call
      cases status with
      | waiting =>
        intro b hb heq
        exact hplaced b ((hothers b (heq ▸ hsame)).mp hb) heq
      | running rest' => exact absurd hcall (h.not_running hfree hsame)
      | returned a =>
        obtain ⟨b, hb, rfl, hof'⟩ := hplaced
        exact ⟨b, (hothers b hsame).mpr hb, rfl, hof'⟩
      | left =>
        intro b hb heq
        exact hplaced b ((hothers b (heq ▸ hsame)).mp hb) heq
  · by_cases hsame : b.caller = id
    · rw [hsame]
      exact ⟨_, hself⟩
    · rw [hcalls _ hsame]
      exact h.known b ((hothers b hsame).mp hb)
  · by_cases hsame : other = id
    · subst hsame
      cases rest with
      | done a => cases Option.some.inj (hself.symm.trans hother)
      | ask question next => rfl
    · rw [hcalls other hsame] at hother
      exact absurd hother (h.not_running hfree hsame)

/-- A caller that has not entered changes, or one leaves. -/
theorem Orderly.set (h : Orderly program blocks s) {call : Call ι ρ υ α} {holder : Option ℕ}
    (hplaced : Placed program blocks id call) (hstatus : ∀ rest, call.status ≠ .running rest)
    (hholder : ∀ other input rest, other ≠ id → s.calls other = some ⟨input, .running rest⟩ →
      holder = some other) :
    Orderly program blocks { s.set id call with holder := holder } where
  log := h.log
  apart := h.apart
  placed := by
    intro other call' hother
    by_cases hsame : other = id
    · subst hsame
      obtain rfl : call = call' := Option.some.inj ((set_self s other call).symm.trans hother)
      exact hplaced
    · exact h.placed other call' ((set_other s hsame call).symm.trans hother)
  known := by
    intro b hb
    by_cases hsame : b.caller = id
    · rw [hsame]
      exact ⟨call, set_self s id call⟩
    · obtain ⟨call', hcall'⟩ := h.known b hb
      exact ⟨call', (set_other s hsame call).trans hcall'⟩
  holder := by
    intro other input rest hother
    by_cases hsame : other = id
    · subst hsame
      obtain rfl : call = ⟨input, .running rest⟩ :=
        Option.some.inj ((set_self s other call).symm.trans hother)
      exact absurd rfl (hstatus rest)
    · exact hholder other input rest hsame ((set_other s hsame call).symm.trans hother)

theorem Orderly.step (h : Orderly program blocks s) {event : Event ι υ}
    (hstep : step program s event = some s') : ∃ blocks, Orderly program blocks s' := by
  cases event with
  | call id input =>
    rw [Exclusive.step] at hstep
    split at hstep
    · next hnew =>
      obtain rfl := Option.some.inj hstep
      refine ⟨blocks, h.set (fun b hb heq => ?_) (fun _ heq => by cases heq)
        fun other input' rest _ hother => h.holder other input' rest hother⟩
      obtain ⟨call, hcall⟩ := h.known b hb
      rw [heq, hnew] at hcall
      cases hcall
    · cases hstep
  | enter id =>
    rw [Exclusive.step] at hstep
    split at hstep
    · next input hwaiting hfree =>
      obtain rfl := Option.some.inj hstep
      have hnone := h.placed id _ hwaiting
      refine ⟨blocks ++ [⟨id, [], (program input).question?⟩],
        h.goOn (.inl hfree) (fun b hb => .inl hb)
          (fun b hb => ⟨hb, hnone b hb⟩) h.apart ?_ (.here _)⟩
      rw [List.flatMap_nil, List.append_nil, h.log]
    · cases hstep
  | answer id answer =>
    rw [Exclusive.step] at hstep
    split at hstep
    · next input question next hrunning =>
      obtain rfl := Option.some.inj hstep
      obtain ⟨front, b, rfl, hcaller, hof⟩ := h.placed id _ hrunning
      obtain ⟨caller, told, opened⟩ := b
      obtain rfl : caller = id := hcaller
      obtain rfl : opened = some question := hof.opened
      have hnodup := h.apart
      rw [List.map_append, List.map_singleton, List.nodup_append] at hnodup
      refine ⟨front ++ [⟨caller, told ++ [(question, answer)], (next answer).question?⟩],
        h.goOn (.inr (h.holder caller _ _ hrunning)) (fun b hb => ?_) (fun b hb => ?_) hnodup.1 ?_
          (hof.reaches.concat answer)⟩
      · rcases List.mem_append.mp hb with hfront | hlast
        · exact .inl hfront
        · rw [List.mem_singleton.mp hlast]
          exact .inr rfl
      · exact ⟨List.mem_append_left _ hb,
          hnodup.2.2 _ (List.mem_map.mpr ⟨b, hb, rfl⟩) _ (List.mem_singleton_self _)⟩
      · rw [h.log, List.flatMap_append, List.flatMap_singleton, Block.entries, List.flatMap_append]
        simp [exchange]
    · cases hstep
  | leave id =>
    rw [Exclusive.step] at hstep
    split at hstep
    · next input hwaiting =>
      obtain rfl := Option.some.inj hstep
      have hnone := h.placed id _ hwaiting
      exact ⟨blocks, h.set (fun b hb heq => absurd heq (hnone b hb)) (fun _ heq => by cases heq)
        fun other input' rest _ hother => h.holder other input' rest hother⟩
    · next input rest hrunning =>
      obtain rfl := Option.some.inj hstep
      obtain ⟨front, b, hblocks, hcaller, hof⟩ := h.placed id _ hrunning
      refine ⟨blocks, h.set (fun b' hb' heq => ?_) (fun _ heq => by cases heq)
        fun other input' rest' hne hother => ?_⟩
      · -- there is one block of this caller
        have hsame : b' = b := by
          refine List.inj_on_of_nodup_map h.apart hb' ?_ (heq.trans hcaller.symm)
          rw [hblocks]
          exact List.mem_append_right _ (List.mem_singleton_self _)
        rw [hsame]
        exact ⟨rest, hof⟩
      · exact absurd hother (h.not_running (.inr (h.holder id _ _ hrunning)) hne)
    · cases hstep

/-- What has been returned is what the program returns, and its questions and answers are not mixed
with others. -/
theorem Orderly.returned (h : Orderly program blocks s) {input : ι} {a : α}
    (hcall : s.calls id = some ⟨input, .returned a⟩) :
    ∃ told earlier later, Reaches (program input) told (.done a) ∧
      s.log = earlier ++ told.flatMap (exchange id) ++ later := by
  obtain ⟨b, hb, hcaller, hof⟩ := h.placed id _ hcall
  obtain ⟨front, back, hblocks⟩ := List.append_of_mem hb
  refine ⟨b.told, front.flatMap Block.entries, back.flatMap Block.entries, hof.reaches, ?_⟩
  have hopened : b.opened = none := hof.opened
  rw [h.log, hblocks, List.flatMap_append, List.flatMap_cons, Block.entries, hcaller, hopened]
  simp

end Exclusive
