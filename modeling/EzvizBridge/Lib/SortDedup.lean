import Mathlib.Data.List.Destutter
import Mathlib.Data.List.Sort
import Mathlib.Order.RelClasses

/-!
# Sorting and removing duplicates

A list sorted by a key, with one element of each run of equal keys, is strictly sorted and has the
keys that the list has (`pairwise_sortDedup`, `exists_mem_sortDedup`). When the key tells the
elements apart, it is the only strictly sorted list of them (`sortDedup_eq`).
-/

namespace List

variable {α κ : Type*} [LinearOrder κ] (key : α → κ)

/-- Sorted by `key`, and the first of each run of equal keys. -/
def sortDedup (l : List α) : List α :=
  (l.insertionSort fun a b => key a ≤ key b).destutter fun a b => key a ≠ key b

variable {key} {l : List α} {a : α}

theorem mem_of_mem_sortDedup (h : a ∈ l.sortDedup key) : a ∈ l :=
  (mem_insertionSort _).mp ((destutter_sublist _ _).subset h)

theorem exists_mem_destutter' {l : List α} {first : α} {k : κ} (h : k ∈ (first :: l).map key) :
    ∃ b ∈ l.destutter' (fun a b => key a ≠ key b) first, key b = k := by
  induction l generalizing first with
  | nil =>
    rw [map_singleton, mem_singleton] at h
    exact ⟨first, mem_singleton_self first, h.symm⟩
  | cons next l ih =>
    rw [map_cons, mem_cons] at h
    by_cases hnext : key first = key next
    · -- `next` is removed, and `first` has its key
      rw [destutter'_cons_neg _ (not_not.mpr hnext)]
      apply ih
      rw [map_cons, mem_cons]
      obtain rfl | h := h
      · exact Or.inl rfl
      · rwa [map_cons, mem_cons, ← hnext] at h
    · rw [destutter'_cons_pos _ hnext]
      obtain rfl | h := h
      · exact ⟨first, mem_cons_self, rfl⟩
      · obtain ⟨b, hb, hkey⟩ := ih h
        exact ⟨b, mem_cons_of_mem _ hb, hkey⟩

/-- What is removed has the key of something that stays. -/
theorem exists_mem_sortDedup (h : a ∈ l) : ∃ b ∈ l.sortDedup key, key b = key a := by
  have hsorted : a ∈ l.insertionSort fun a b => key a ≤ key b := (mem_insertionSort _).mpr h
  rw [sortDedup]
  cases hl : l.insertionSort fun a b => key a ≤ key b with
  | nil =>
    rw [hl] at hsorted
    exact absurd hsorted not_mem_nil
  | cons first rest =>
    rw [hl] at hsorted
    rw [destutter_cons']
    exact exists_mem_destutter' (mem_map_of_mem hsorted)

/-- **Strictly sorted.** -/
theorem pairwise_sortDedup (key : α → κ) (l : List α) :
    (l.sortDedup key).Pairwise fun a b => key a < key b := by
  have hle : (l.sortDedup key).Pairwise fun a b => key a ≤ key b :=
    (pairwise_insertionSort _ l).sublist (destutter_sublist _ _)
  have hne : (l.sortDedup key).IsChain fun a b => key a ≠ key b := isChain_destutter _ _
  have hchain : (l.sortDedup key).IsChain fun a b => key a < key b := by
    rw [isChain_iff_forall_rel_of_append_cons_cons] at hne ⊢
    intro a b front back hsplit
    rw [hsplit] at hle
    have hpair := (pairwise_cons.mp (pairwise_append.mp hle).2.1).1 b mem_cons_self
    exact lt_of_le_of_ne hpair (hne hsplit)
  have : Trans (fun a b => key a < key b) (fun a b => key a < key b) fun a b => key a < key b :=
    ⟨fun h h' => lt_trans h h'⟩
  exact hchain.pairwise

/-- **The only strictly sorted list** with these elements. -/
theorem sortDedup_eq {sorted : List α} (hsorted : sorted.Pairwise fun a b => key a < key b)
    (hmem : ∀ a, a ∈ l ↔ a ∈ sorted) : l.sortDedup key = sorted := by
  have : Std.Antisymm fun a b => key a < key b := ⟨fun a b h h' => absurd h' (lt_asymm h)⟩
  have : Std.Irrefl fun a b => key a < key b := ⟨fun a => lt_irrefl _⟩
  refine (pairwise_sortDedup key l).eq_of_mem_iff hsorted fun a => ?_
  constructor
  · intro ha
    exact (hmem a).mp (mem_of_mem_sortDedup ha)
  · intro ha
    obtain ⟨b, hb, hkey⟩ : ∃ b ∈ l.sortDedup key, key b = key a :=
      exists_mem_sortDedup ((hmem a).mpr ha)
    have hb' := (hmem b).mp (mem_of_mem_sortDedup hb)
    -- the keys of a strictly sorted list differ
    have hne : sorted.Pairwise fun a b => key a ≠ key b := hsorted.imp fun h => h.ne
    have : Std.Symm fun a b => key a ≠ key b := ⟨fun _ _ h => h.symm⟩
    by_cases hab : b = a
    · exact hab ▸ hb
    · exact absurd hkey (hne.forall hb' ha hab)

end List
