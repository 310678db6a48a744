import Mathlib.Data.List.Basic
import Mathlib.Order.Lattice
import Mathlib.Tactic.Common

/-!
# Continuing behind the last item

A service hands out the items of a list, in ascending order of a key, page by page. The reader asks
for the items whose key is not below the key of the last one that it has got, so that a page begins
with the last item of the page before it (`skipped_nextCursor`), or with the first one of that key.
-/

namespace Continuation

variable {α κ : Type*} [LinearOrder κ] {key : α → κ} {l : List α} {size : ℕ} {cursor cursor' : κ}

def Ascending (key : α → κ) (l : List α) : Prop := l.Pairwise fun a b => key a ≤ key b

/-- The number of items in front of a page. -/
def skipped (key : α → κ) (l : List α) (cursor : κ) : ℕ := l.countP fun a => key a < cursor

/-- The page at a cursor. -/
def page (key : α → κ) (l : List α) (size : ℕ) (cursor : κ) : List α :=
  (l.filter fun a => cursor ≤ key a).take size

/-- The key of the last item of the page. -/
def nextCursor (key : α → κ) (l : List α) (size : ℕ) (cursor : κ) : κ :=
  (page key l size cursor).getLast?.elim cursor key

/-- The cursor of the page that comes after so many pages. -/
def cursorAfter (key : α → κ) (l : List α) (size : ℕ) : ℕ → κ → κ
  | 0, cursor => cursor
  | pages + 1, cursor => cursorAfter key l size pages (nextCursor key l size cursor)

theorem skipped_mono (key : α → κ) (l : List α) (h : cursor ≤ cursor') :
    skipped key l cursor ≤ skipped key l cursor' := by
  apply List.countP_mono_left
  intro a _ ha
  exact decide_eq_true ((of_decide_eq_true ha).trans_le h)

theorem filter_eq_drop (h : Ascending key l) (cursor : κ) :
    l.filter (fun a => cursor ≤ key a) = l.drop (skipped key l cursor) := by
  induction l with
  | nil => rfl
  | cons a l ih =>
    obtain ⟨hfirst, hrest⟩ := List.pairwise_cons.mp h
    by_cases ha : key a < cursor
    · have hnot : ¬decide (cursor ≤ key a) = true := by simpa using ha
      rw [List.filter_cons_of_neg (p := fun a => decide (cursor ≤ key a)) hnot, skipped,
        List.countP_cons_of_pos (p := fun a => decide (key a < cursor)) (decide_eq_true ha),
        List.drop_succ_cons]
      exact ih hrest
    · -- nothing is skipped behind an item that stays
      have hnone : ∀ b ∈ a :: l, cursor ≤ key b := by
        rw [List.forall_mem_cons]
        exact ⟨not_lt.mp ha, fun b hb => (not_lt.mp ha).trans (hfirst b hb)⟩
      have hzero : skipped key (a :: l) cursor = 0 := by
        rw [skipped, List.countP_eq_zero]
        intro b hb
        simpa using hnone b hb
      rw [hzero, List.drop_zero, List.filter_eq_self]
      exact fun b hb => decide_eq_true (hnone b hb)

theorem page_eq (h : Ascending key l) (size : ℕ) (cursor : κ) :
    page key l size cursor = (l.drop (skipped key l cursor)).take size := by
  rw [page, filter_eq_drop h]

theorem length_filter_le_iff (h : Ascending key l) (size : ℕ) (cursor : κ) :
    (l.filter fun a => cursor ≤ key a).length ≤ size ↔ l.length ≤ skipped key l cursor + size := by
  rw [filter_eq_drop h, List.length_drop]
  omega

/-- A page that begins within the items that have been read extends them. -/
theorem mem_take_or_page (h : Ascending key l) {read : ℕ} (hle : skipped key l cursor ≤ read)
    (hread : read ≤ skipped key l cursor + size) (a : α) :
    a ∈ l.take read ∨ a ∈ page key l size cursor ↔ a ∈ l.take (skipped key l cursor + size) := by
  rw [page_eq h]
  constructor
  · rintro (ha | ha)
    · exact List.take_subset_take_left l hread ha
    · rw [List.take_drop] at ha
      exact List.mem_of_mem_drop ha
  · intro ha
    rw [List.take_add, List.mem_append] at ha
    obtain ha | ha := ha
    · exact Or.inl (List.take_subset_take_left l hle ha)
    · exact Or.inr ha

theorem le_nextCursor (key : α → κ) (l : List α) (size : ℕ) (cursor : κ) :
    cursor ≤ nextCursor key l size cursor := by
  rw [nextCursor]
  cases hlast : (page key l size cursor).getLast? with
  | none => exact le_refl _
  | some a =>
    have ha : a ∈ page key l size cursor := List.mem_of_getLast? hlast
    exact of_decide_eq_true (List.mem_filter.mp (List.mem_of_mem_take ha)).2

theorem le_cursorAfter (key : α → κ) (l : List α) (size pages : ℕ) (cursor : κ) :
    cursor ≤ cursorAfter key l size pages cursor := by
  induction pages generalizing cursor with
  | zero => exact le_refl _
  | succ pages ih => exact (le_nextCursor key l size cursor).trans (ih _)

theorem cursorAfter_of_eq (h : nextCursor key l size cursor = cursor) (pages : ℕ) :
    cursorAfter key l size pages cursor = cursor := by
  induction pages with
  | zero => rfl
  | succ pages ih => rwa [cursorAfter, h]

/-- The last item of a page that is full. -/
theorem nextCursor_eq (h : Ascending key l) {a : α} (hsize : 0 < size)
    (ha : l[skipped key l cursor + size - 1]? = some a) : nextCursor key l size cursor = key a := by
  obtain ⟨hlength, -⟩ := List.getElem?_eq_some_iff.mp ha
  have hlast : (page key l size cursor).getLast? = some a := by
    have hpage : (page key l size cursor).length = size := by
      rw [page_eq h, List.length_take, List.length_drop]
      omega
    rw [List.getLast?_eq_getElem?, hpage, page_eq h, List.getElem?_take_of_lt (by omega),
      List.getElem?_drop, ← ha]
    congr 1
    omega
  rw [nextCursor, hlast, Option.elim_some]

/-- The next page begins within this one, or at its end. -/
theorem skipped_nextCursor_le (h : Ascending key l) (size : ℕ) (cursor : κ) :
    skipped key l (nextCursor key l size cursor) ≤ skipped key l cursor + size := by
  have hbehind : ∀ b ∈ l.drop (skipped key l cursor + size), nextCursor key l size cursor ≤
      key b := by
    intro b hb
    rw [nextCursor]
    cases hlast : (page key l size cursor).getLast? with
    | none =>
      have hstays := List.mem_of_mem_drop ((List.drop_drop).symm ▸ hb)
      rw [← filter_eq_drop h] at hstays
      exact of_decide_eq_true (List.mem_filter.mp hstays).2
    | some a =>
      have ha := List.mem_of_getLast? hlast
      rw [page_eq h] at ha
      rw [← List.drop_drop] at hb
      have hpairs : Ascending key (l.drop (skipped key l cursor)) :=
        h.sublist (List.drop_sublist _ _)
      rw [Ascending, ← List.take_append_drop size (l.drop _), List.pairwise_append] at hpairs
      exact hpairs.2.2 a ha b hb
  have hnone : (l.drop (skipped key l cursor + size)).countP
      (fun b => key b < nextCursor key l size cursor) = 0 := by
    rw [List.countP_eq_zero]
    intro b hb
    simpa using hbehind b hb
  calc skipped key l (nextCursor key l size cursor)
      = (l.take (skipped key l cursor + size)).countP
        (fun b => key b < nextCursor key l size cursor) := by
        rw [skipped, ← Nat.add_zero (List.countP _ (l.take _)), ← hnone, ← List.countP_append,
          List.take_append_drop]
    _ ≤ (l.take (skipped key l cursor + size)).length := List.countP_le_length
    _ ≤ skipped key l cursor + size := List.length_take_le _ _

/-- When no two keys are equal, a full page and the next one have one item in common. -/
theorem skipped_nextCursor (h : l.Pairwise fun a b => key a < key b) (hsize : 0 < size)
    (hfull : skipped key l cursor + size ≤ l.length) :
    skipped key l (nextCursor key l size cursor) = skipped key l cursor + size - 1 := by
  have hle : Ascending key l := h.imp le_of_lt
  generalize hn : skipped key l cursor + size - 1 = n
  have hlt : n < l.length := by omega
  have hsplit : l = l.take n ++ l[n] :: l.drop (n + 1) := by
    rw [← List.drop_eq_getElem_cons hlt, List.take_append_drop]
  have hnext : nextCursor key l size cursor = key l[n] :=
    nextCursor_eq hle hsize (hn ▸ List.getElem?_eq_getElem hlt)
  rw [hnext, skipped]
  generalize l[n] = a at hsplit
  have hlength : (l.take n).length = n := by
    rw [List.length_take]
    omega
  rw [hsplit, List.pairwise_append, List.pairwise_cons] at h
  obtain ⟨-, ⟨hbehind, -⟩, hbefore⟩ := h
  -- exactly the items in front of it have a smaller key
  have hfront : (l.take n).countP (fun b => key b < key a) = n := by
    refine (List.countP_eq_length.mpr fun b hb => ?_).trans hlength
    exact decide_eq_true (hbefore b hb a List.mem_cons_self)
  have hback : (a :: l.drop (n + 1)).countP (fun b => key b < key a) = 0 := by
    rw [List.countP_eq_zero]
    intro b hb
    obtain rfl | hb := List.mem_cons.mp hb
    · simp
    · simpa using (hbehind b hb).le
  rw [hsplit, List.countP_append, hfront, hback, Nat.add_zero]

/-- Pages of different keys: each of them is `size - 1` items further, unless the list has ended. -/
theorem skipped_cursorAfter (h : l.Pairwise fun a b => key a < key b) (hsize : 0 < size) (pages : ℕ)
    (cursor : κ) :
    skipped key l (cursorAfter key l size pages cursor) =
      skipped key l cursor + (size - 1) * pages ∨
      (l.length ≤ skipped key l (cursorAfter key l size pages cursor) + size ∧
        l.length ≤ skipped key l cursor + (size - 1) * pages + size) := by
  induction pages generalizing cursor with
  | zero => exact Or.inl rfl
  | succ pages ih =>
    rw [cursorAfter, Nat.mul_succ]
    by_cases hfull : skipped key l cursor + size ≤ l.length
    · have hnext := skipped_nextCursor h hsize hfull
      obtain heq | ⟨hle, hle'⟩ := ih (nextCursor key l size cursor)
      · left
        omega
      · right
        exact ⟨hle, by omega⟩
    · right
      have hmono : skipped key l cursor ≤
          skipped key l (cursorAfter key l size pages (nextCursor key l size cursor)) :=
        skipped_mono key l ((le_nextCursor _ _ _ _).trans (le_cursorAfter _ _ _ _ _))
      omega

end Continuation
