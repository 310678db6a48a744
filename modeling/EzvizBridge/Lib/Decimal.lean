import Mathlib.Data.Int.Notation
import Mathlib.Data.List.Basic
import Mathlib.Tactic.Common

/-!
# Numbers in texts

A text that is put together from decimal numbers and dashes can be taken apart again: a number has
no dash but the one in front of it, so the next dash ends it (`int_split`, `nat_split`). Texts are
lists of characters here; `String.toList` is injective.
-/

namespace Decimal

variable {n n' : ℕ} {i i' : ℤ} {x x' : List Char}

theorem toList_toString (n : ℕ) : (toString n).toList = Nat.toDigits 10 n := Nat.toList_repr

theorem isDigit_of_mem {c : Char} (h : c ∈ (toString n).toList) : c.isDigit = true := by
  rw [toList_toString] at h
  exact Nat.isDigit_of_mem_toDigits (by decide) (by decide) h

theorem dash_notMem (n : ℕ) : '-' ∉ (toString n).toList := by
  intro h
  exact nomatch isDigit_of_mem h

/-- The first separator ends the first piece. -/
theorem split_at {α : Type*} {sep : α} {a a' x x' : List α} (ha : sep ∉ a) (ha' : sep ∉ a')
    (h : a ++ sep :: x = a' ++ sep :: x') : a = a' ∧ x = x' := by
  induction a generalizing a' with
  | nil =>
    cases a' with
    | nil => exact ⟨rfl, (List.cons.inj h).2⟩
    | cons b a' => exact absurd ((List.cons.inj h).1 ▸ List.mem_cons_self) ha'
  | cons b a ih =>
    cases a' with
    | nil => exact absurd ((List.cons.inj h).1 ▸ List.mem_cons_self) ha
    | cons b' a' =>
      obtain ⟨rfl, hrest⟩ := List.cons.inj h
      obtain ⟨rfl, rfl⟩ := ih (fun hmem => ha (List.mem_cons_of_mem b hmem))
        (fun hmem => ha' (List.mem_cons_of_mem b hmem)) hrest
      exact ⟨rfl, rfl⟩

theorem nat_injective (h : (toString n).toList = (toString n').toList) : n = n' := by
  rw [toList_toString, toList_toString] at h
  have hvalue := congrArg (fun digits => Nat.ofDigitChars 10 digits 0) h
  simpa using hvalue

theorem nat_split (h : (toString n).toList ++ '-' :: x = (toString n').toList ++ '-' :: x') :
    n = n' ∧ x = x' := by
  obtain ⟨hnumber, hrest⟩ := split_at (dash_notMem n) (dash_notMem n') h
  exact ⟨nat_injective hnumber, hrest⟩

/-- A negative number has a dash in front. -/
theorem toList_toString_int (i : ℤ) :
    (0 ≤ i ∧ (toString i).toList = (toString i.toNat).toList) ∨
      (i < 0 ∧ (toString i).toList = '-' :: (toString (-i).toNat).toList) := by
  cases i with
  | ofNat m => exact .inl ⟨Int.natCast_nonneg m, rfl⟩
  | negSucc m =>
    refine .inr ⟨Int.negSucc_lt_zero m, ?_⟩
    have hneg : (-Int.negSucc m).toNat = m.succ := by omega
    rw [hneg]
    change ("-" ++ toString m.succ).toList = _
    rw [String.toList_append]
    rfl

/-- No number without a sign starts with a dash. -/
theorem dash_cons_ne (h : (toString n).toList ++ x = '-' :: x') : False := by
  have hne : (toString n).toList ≠ [] := by
    rw [toList_toString]
    exact Nat.toDigits_ne_nil
  obtain ⟨c, rest, hrest⟩ := List.exists_cons_of_ne_nil hne
  rw [hrest] at h
  injection h with hc
  refine dash_notMem n ?_
  rw [hrest, hc]
  exact List.mem_cons_self

/-- An integer that a dash follows. -/
theorem int_split (h : (toString i).toList ++ '-' :: x = (toString i').toList ++ '-' :: x') :
    i = i' ∧ x = x' := by
  rcases toList_toString_int i with ⟨hi, heq⟩ | ⟨hi, heq⟩ <;>
    rcases toList_toString_int i' with ⟨hi', heq'⟩ | ⟨hi', heq'⟩ <;> rw [heq, heq'] at h
  · obtain ⟨hnumber, hrest⟩ := nat_split h
    exact ⟨by omega, hrest⟩
  · exact (dash_cons_ne h).elim
  · exact (dash_cons_ne h.symm).elim
  · injection h with _ h
    obtain ⟨hnumber, hrest⟩ := nat_split h
    exact ⟨by omega, hrest⟩

theorem int_injective (h : (toString i).toList = (toString i').toList) : i = i' := by
  have hdash := congrArg (fun text => text ++ ['-']) h
  exact (int_split hdash).1

end Decimal
