import Mathlib.Data.List.Basic
import Mathlib.Data.List.Infix
import Mathlib.Tactic.Common

/-!
# Where a marker occurs

The first and the last place at which a list has a marker.
-/

namespace Markers

variable {α : Type*} [BEq α] [LawfulBEq α] {marker l : List α} {place : ℕ}

/-- The list has the marker at this place. -/
def At (marker l : List α) (place : ℕ) : Prop := marker <+: l.drop place

instance : Decidable (At marker l place) :=
  decidable_of_iff (marker.isPrefixOf (l.drop place) = true) List.isPrefixOf_iff_prefix

/-- The first place of the marker. -/
def first (marker l : List α) :
    Option ℕ := (List.range l.length).find? fun place => At marker l place

/-- The last place of the marker. -/
def last (marker l : List α) : Option ℕ :=
  (List.range l.length).reverse.find? fun place => At marker l place

omit [BEq α] [LawfulBEq α] in
theorem At.length_le (h : At marker l place) : place + marker.length ≤ l.length ∨ marker = [] := by
  have hle := List.IsPrefix.length_le h
  rw [List.length_drop] at hle
  cases marker with
  | nil => exact Or.inr rfl
  | cons a marker =>
    rw [List.length_cons] at hle ⊢
    exact Or.inl (by omega)

omit [BEq α] [LawfulBEq α] in
theorem At.lt_length (h : At marker l place) (hne : marker ≠ []) : place < l.length := by
  have hle := h.length_le.resolve_right hne
  have hpos := List.length_pos_iff.mpr hne
  omega

omit [BEq α] [LawfulBEq α] in
theorem at_append (front : List α) (place : ℕ) :
    At marker (front ++ l) (front.length + place) ↔ At marker l place := by
  rw [At, At, List.drop_length_add_append]

omit [BEq α] [LawfulBEq α] in
theorem at_drop (skipped place : ℕ) :
    At marker (l.drop skipped) place ↔ At marker l (skipped + place) := by
  rw [At, At, List.drop_drop]

theorem first_eq_some : first marker l = some place → At marker l place ∧ place < l.length ∧
    ∀ place' < place, ¬At marker l place' := by
  intro h
  rw [first, List.find?_range_eq_some] at h
  obtain ⟨hat, hmem, hbefore⟩ := h
  refine ⟨of_decide_eq_true hat, List.mem_range.mp hmem, fun place' hlt => ?_⟩
  have hnot := hbefore place' hlt
  simpa using hnot

theorem first_eq_of_at (hne : marker ≠ []) (h : At marker l place)
    (hbefore : ∀ place' < place, ¬At marker l place') : first marker l = some place := by
  rw [first, List.find?_range_eq_some]
  refine ⟨decide_eq_true h, List.mem_range.mpr (h.lt_length hne), fun place' hlt => ?_⟩
  simpa using hbefore place' hlt

theorem first_eq_none (h : ∀ place, ¬At marker l place) : first marker l = none := by
  rw [first, List.find?_eq_none]
  intro place _
  simpa using h place

theorem last_eq_some (h : last marker l = some place) : At marker l place := by
  have hat := List.find?_some h
  exact of_decide_eq_true hat

end Markers
