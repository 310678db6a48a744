import Mathlib.Logic.Equiv.Defs
import Mathlib.Tactic.Common

/-!
# Block-wise maps on the front of a list

`mapBlocks f k l` applies `f` to the first `k` blocks of `n` elements of `l` and leaves the rest
alone; it is electronic codebook mode, restricted to a prefix. Only whole blocks are touched.

* `mapBlocks_leftInverse` — a left inverse of `f` undoes it, block by block;
* `length_mapBlocks` — the length never changes;
* `take_mapBlocks` — where at least one block is mapped, the front of the result is the image of
  the front block.
-/

variable {α : Type*} {n : ℕ}

/-- A block of `n` elements. -/
abbrev BlockOf (α : Type*) (n : ℕ) := {l : List α // l.length = n}

/-- Apply `f` to the first `k` blocks of `l`, as far as they are whole. -/
def mapBlocks (f : BlockOf α n → BlockOf α n) : ℕ → List α → List α
  | 0, l => l
  | k + 1, l =>
    if h : n ≤ l.length then
      (f ⟨l.take n, List.length_take_of_le h⟩).1 ++ mapBlocks f k (l.drop n)
    else l

theorem length_mapBlocks (f : BlockOf α n → BlockOf α n) (k : ℕ) (l : List α) :
    (mapBlocks f k l).length = l.length := by
  induction k generalizing l with
  | zero => rfl
  | succ k ih =>
    unfold mapBlocks
    split
    · next h => rw [List.length_append, (f _).2, ih, List.length_drop]; omega
    · rfl

/-- Where a block is mapped, the front of the result is its image. -/
theorem take_mapBlocks (f : BlockOf α n → BlockOf α n) {k : ℕ} (hk : 0 < k) {l : List α}
    (h : n ≤ l.length) :
    (mapBlocks f k l).take n = (f ⟨l.take n, List.length_take_of_le h⟩).1 := by
  obtain ⟨k, rfl⟩ : ∃ k', k = k' + 1 := ⟨k - 1, by omega⟩
  unfold mapBlocks
  rw [dif_pos h, List.take_left' (f _).2]

/-- A left inverse of the block map undoes the whole. -/
theorem mapBlocks_leftInverse {f g : BlockOf α n → BlockOf α n}
    (hgf : Function.LeftInverse g f) (k : ℕ) (l : List α) :
    mapBlocks g k (mapBlocks f k l) = l := by
  induction k generalizing l with
  | zero => rfl
  | succ k ih =>
    by_cases h : n ≤ l.length
    · have hlen : n ≤ (mapBlocks f (k + 1) l).length := by rwa [length_mapBlocks]
      have hfront := take_mapBlocks f (Nat.succ_pos k) h
      have hrest : (mapBlocks f (k + 1) l).drop n = mapBlocks f k (l.drop n) := by
        rw [mapBlocks, dif_pos h, List.drop_left' (f _).2]
      have hblock : (⟨(mapBlocks f (k + 1) l).take n, List.length_take_of_le hlen⟩ : BlockOf α n) =
          f ⟨l.take n, List.length_take_of_le h⟩ := Subtype.ext hfront
      conv_lhs => rw [mapBlocks]
      rw [dif_pos hlen, hblock, hgf, hrest, ih]
      exact List.take_append_drop n l
    · rw [mapBlocks, dif_neg (by rwa [length_mapBlocks]), mapBlocks, dif_neg h]
