import Mathlib.Data.List.Basic
import Mathlib.Data.List.Range
import Mathlib.Tactic.Common

/-!
# A window over numbered items

A log numbers its items `1, 2, 3, …` and keeps only the last few of them. `Window number last l`
says that `l` are the items with the numbers up to `last`, without a gap. New items are added at the
end (`Window.concat`), old ones dropped at the front (`Window.tail`).

A reader of the log follows it by number: it takes some items behind its cursor (`takenAfter`), and
what it takes leaves nothing out up to the last number it has seen (`mem_takenAfter`).
-/

variable {α : Type*} {number : α → ℕ} {last : ℕ} {l : List α}

/-- The items of `l` have the numbers up to `last`, without a gap. -/
structure Window (number : α → ℕ) (last : ℕ) (l : List α) : Prop where
  bound : l.length ≤ last
  numbers : l.map number = List.range' (last - l.length + 1) l.length

namespace Window

theorem nil (number : α → ℕ) (last : ℕ) : Window number last [] := ⟨Nat.zero_le _, rfl⟩

theorem concat {a : α} (h : Window number last l) (ha : number a = last + 1) :
    Window number (last + 1) (l ++ [a]) := by
  have hbound := h.bound
  refine ⟨by simpa using hbound, ?_⟩
  have hstart : last + 1 - (l ++ [a]).length + 1 = last - l.length + 1 := by
    rw [List.length_append, List.length_singleton]
    omega
  rw [hstart, List.length_append, List.length_singleton, List.range'_concat, List.map_append,
    h.numbers, List.map_singleton, ha]
  congr 2
  omega

theorem tail {a : α} (h : Window number last (a :: l)) : Window number last l := by
  have hbound := h.bound
  have hnumbers := h.numbers
  rw [List.length_cons] at hbound hnumbers
  refine ⟨by omega, ?_⟩
  rw [List.map_cons, List.range'_succ] at hnumbers
  have hstart : last - (l.length + 1) + 1 + 1 = last - l.length + 1 := by omega
  rw [(List.cons.inj hnumbers).2, hstart]

/-- Only the numbers matter. -/
theorem of_map_eq {l' : List α} (h : Window number last l) (heq : l'.map number = l.map number) :
    Window number last l' := by
  have hlength : l'.length = l.length := by simpa using congrArg List.length heq
  refine ⟨hlength ▸ h.bound, ?_⟩
  rw [heq, hlength]
  exact h.numbers

theorem pairwise (h : Window number last l) : l.Pairwise fun a b => number a < number b := by
  rw [← List.pairwise_map, h.numbers]
  exact List.pairwise_lt_range'

theorem mem_numbers {n : ℕ} (h : Window number last l) :
    n ∈ l.map number ↔ last - l.length < n ∧ n ≤ last := by
  have hbound := h.bound
  rw [h.numbers, List.mem_range'_1]
  omega

theorem number_le {a : α} (h : Window number last l) (ha : a ∈ l) : number a ≤ last :=
  (h.mem_numbers.mp (List.mem_map_of_mem ha)).2

end Window

/-! ### Reading behind a cursor -/

/-- At most `limit` items behind the cursor, the first ones first. -/
def takenAfter (number : α → ℕ) (cursor limit : ℕ) (l : List α) : List α :=
  (l.filter fun a => cursor < number a).take limit

/-- The cursor after these items. -/
def cursorAfter (number : α → ℕ) (cursor : ℕ) (taken : List α) : ℕ :=
  taken.getLast?.elim cursor number

section TakenAfter

variable {cursor limit : ℕ} {a : α}

theorem takenAfter_sublist : (takenAfter number cursor limit l).Sublist l :=
  (List.take_sublist _ _).trans List.filter_sublist

theorem lt_of_mem_takenAfter (h : a ∈ takenAfter number cursor limit l) : cursor < number a := by
  have hmem := (List.mem_filter.mp (List.mem_of_mem_take h)).2
  exact of_decide_eq_true hmem

/-- In an ascending list the last item has the largest number. -/
theorem le_cursorAfter (h : l.Pairwise fun a b => number a < number b) (ha : a ∈ l) :
    number a ≤ cursorAfter number cursor l := by
  obtain ⟨init, z, rfl⟩ := (List.eq_nil_or_concat' l).resolve_left (List.ne_nil_of_mem ha)
  rw [cursorAfter, List.getLast?_concat, Option.elim_some]
  rcases List.mem_append.mp ha with ha | ha
  · rw [List.pairwise_append] at h
    exact Nat.le_of_lt (h.2.2 a ha z (List.mem_singleton.mpr rfl))
  · rw [List.mem_singleton.mp ha]

/-- The cursor does not move back. -/
theorem cursor_le_cursorAfter :
    cursor ≤ cursorAfter number cursor (takenAfter number cursor limit l) := by
  rw [cursorAfter]
  cases hlast : (takenAfter number cursor limit l).getLast? with
  | none => exact Nat.le_refl _
  | some z =>
    have hlt : cursor < number z := lt_of_mem_takenAfter (List.mem_of_getLast? hlast)
    rw [Option.elim_some]
    exact Nat.le_of_lt hlt

/-- Nothing that is there is left out up to the new cursor. -/
theorem mem_takenAfter (h : l.Pairwise fun a b => number a < number b) (ha : a ∈ l)
    (hlt : cursor < number a)
    (hle : number a ≤ cursorAfter number cursor (takenAfter number cursor limit l)) :
    a ∈ takenAfter number cursor limit l := by
  have hmem : a ∈ l.filter fun a => cursor < number a :=
    List.mem_filter.mpr ⟨ha, decide_eq_true hlt⟩
  have hsorted : (l.filter fun a => cursor < number a).Pairwise fun a b => number a < number b :=
    h.sublist List.filter_sublist
  unfold takenAfter at hle ⊢
  generalize (l.filter fun a => cursor < number a) = kept at *
  rw [← List.take_append_drop limit kept, List.mem_append] at hmem
  rcases hmem with hmem | hmem
  · exact hmem
  · -- an item behind the taken ones has a larger number than the last of them
    exfalso
    rw [← List.take_append_drop limit kept, List.pairwise_append] at hsorted
    rw [cursorAfter] at hle
    cases hlast : (kept.take limit).getLast? with
    | none =>
      rw [hlast, Option.elim_none] at hle
      omega
    | some z =>
      rw [hlast, Option.elim_some] at hle
      have := hsorted.2.2 z (List.mem_of_getLast? hlast) a hmem
      omega

/-- Something is taken if something is there. -/
theorem takenAfter_ne_nil (hlimit : 0 < limit) (ha : a ∈ l) (hlt : cursor < number a) :
    takenAfter number cursor limit l ≠ [] := by
  have hmem : a ∈ l.filter fun a => cursor < number a :=
    List.mem_filter.mpr ⟨ha, decide_eq_true hlt⟩
  rw [takenAfter, Ne, List.take_eq_nil_iff, not_or]
  exact ⟨by omega, List.ne_nil_of_mem hmem⟩

end TakenAfter
