import Mathlib.Data.List.Basic
import Mathlib.Order.Lattice
import Mathlib.Tactic.Common

/-!
# Paging through a list

A service hands out a list from the largest key to the smallest, page by page: the reader asks for
the items below the last key that it has got. How long a page is is up to the service. `restAfter`
is what is left after some pages.
-/

namespace Paging

variable {α κ : Type*} [LinearOrder κ] {key : α → κ} {l : List α}

def Descending (key : α → κ) (l : List α) : Prop := l.Pairwise fun a b => key b < key a

/-- The items below the last one of a page are those that the page leaves. -/
theorem filter_lt_getLast {n : ℕ} {z : α} (h : Descending key l)
    (hz : (l.take n).getLast? = some z) :
    l.filter (fun a => key a < key z) = l.drop n := by
  obtain ⟨init, hinit⟩ := List.getLast?_eq_some_iff.mp hz
  have hsplit : l = init ++ [z] ++ l.drop n := by
    rw [← hinit, List.take_append_drop]
  have hpairs : Descending key (init ++ [z] ++ l.drop n) := hsplit ▸ h
  rw [Descending, List.pairwise_append, List.pairwise_append] at hpairs
  obtain ⟨⟨-, -, hbefore⟩, -, hbehind⟩ := hpairs
  have hfront : (init ++ [z]).filter (fun a => key a < key z) = [] := by
    rw [List.filter_eq_nil_iff]
    intro a ha
    rw [decide_eq_true_iff, not_lt]
    rcases List.mem_append.mp ha with ha | ha
    · exact le_of_lt (hbefore a ha z (List.mem_singleton.mpr rfl))
    · rw [List.mem_singleton.mp ha]
  have hback : (l.drop n).filter (fun a => key a < key z) = l.drop n := by
    rw [List.filter_eq_self]
    intro a ha
    exact decide_eq_true (hbehind z (List.mem_append_right _ (List.mem_singleton.mpr rfl)) a ha)
  calc l.filter (fun a => key a < key z)
      = (init ++ [z] ++ l.drop n).filter (fun a => key a < key z) := by rw [← hsplit]
    _ = l.drop n := by rw [List.filter_append, hfront, hback, List.nil_append]

/-- An item with a larger key than one of the page is on the page. -/
theorem mem_take_of_lt {n : ℕ} {a b : α} (h : Descending key l) (ha : a ∈ l) (hb : b ∈ l.take n)
    (hlt : key b < key a) : a ∈ l.take n := by
  rw [← List.take_append_drop n l, List.mem_append] at ha
  rcases ha with ha | ha
  · exact ha
  · rw [← List.take_append_drop n l, Descending, List.pairwise_append] at h
    exact absurd (h.2.2 b hb a ha) (not_lt_of_gt hlt)

/-- What is left after some pages; `size` is the length of a page by the cursor that was sent. -/
def restAfter (key : α → κ) (size : Option κ → ℕ) : ℕ → Option κ → List α → List α
  | 0, _, l => l
  | pages + 1, cursor, l =>
    restAfter key size pages ((l.take (size cursor)).getLast?.map key) (l.drop (size cursor))

end Paging
