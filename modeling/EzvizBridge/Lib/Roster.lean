import Mathlib.Tactic.Common

/-!
# Rosters

A list of tasks that only grows: a task keeps its place, and its entry is replaced when it moves on.
-/

namespace Roster

variable {α : Type*} {l : List α} {i j : ℕ} {a b : α}

/-- An entry of a list after one entry was set. -/
theorem of_set_eq_some (h : (l.set i a)[j]? = some b) :
    j = i ∧ a = b ∨ j ≠ i ∧ l[j]? = some b := by
  rcases eq_or_ne j i with rfl | hne
  · have hlt : j < l.length := by
      have := (List.getElem?_eq_some_iff.mp h).1
      rwa [List.length_set] at this
    rw [List.getElem?_set_self hlt] at h
    exact .inl ⟨rfl, Option.some.inj h⟩
  · rw [List.getElem?_set_ne hne.symm] at h
    exact .inr ⟨hne, h⟩

/-- An entry of a list after one entry was added. -/
theorem of_concat_eq_some (h : (l ++ [a])[j]? = some b) :
    j = l.length ∧ a = b ∨ j ≠ l.length ∧ l[j]? = some b := by
  rcases eq_or_ne j l.length with rfl | hne
  · rw [List.getElem?_concat_length] at h
    exact .inl ⟨rfl, Option.some.inj h⟩
  · have hlt : j < l.length := by
      have := (List.getElem?_eq_some_iff.mp h).1
      rw [List.length_append, List.length_singleton] at this
      omega
    rw [List.getElem?_append_left hlt] at h
    exact .inr ⟨hne, h⟩

theorem set_self (h : l[i]? = some b) : (l.set i a)[i]? = some a :=
  List.getElem?_set_self (List.getElem?_eq_some_iff.mp h).1

/-- An entry stays when another one is set. -/
theorem set_other (hne : j ≠ i) : (l.set i a)[j]? = l[j]? := List.getElem?_set_ne hne.symm

theorem concat_of_eq_some (h : l[j]? = some b) : (l ++ [a])[j]? = some b := by
  rw [List.getElem?_append_left (List.getElem?_eq_some_iff.mp h).1]
  exact h

end Roster
