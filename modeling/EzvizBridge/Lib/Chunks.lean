import Mathlib.Data.List.Basic
import Mathlib.Tactic.Common

/-!
# Cutting a list into pieces of fixed size

`chunks n l` is the list of consecutive pieces of `l`, each of `n` elements except possibly the
last. It is the shape in which a byte string is read back by a receiver that knows only the
packet size, and the shape in which a sender cuts a long buffer into bounded slices.

The result is `chunks_flatten`: a concatenation of pieces that are all exactly `n` long is cut back
into those very pieces.

The recursion runs on a fuel argument that starts at the length of the list, so that `chunks`
evaluates by plain structural recursion; `chunksGo_eq_of_le` says that the fuel never matters.
-/

variable {α : Type*}

/-- Cut off pieces of `n` elements, at most `fuel` of them. -/
def chunksGo (n : ℕ) : ℕ → List α → List (List α)
  | 0, _ => []
  | _ + 1, [] => []
  | fuel + 1, x :: l => (x :: l).take n :: chunksGo n fuel ((x :: l).drop n)

/-- The consecutive pieces of `l`, of `n` elements each except possibly the last. -/
def chunks (n : ℕ) (l : List α) : List (List α) :=
  chunksGo n l.length l

/-- Any fuel that covers the list gives the same pieces. -/
theorem chunksGo_eq_of_le {n : ℕ} (hn : 0 < n) :
    ∀ (fuel : ℕ) (l : List α), l.length ≤ fuel → chunksGo n fuel l = chunksGo n l.length l := by
  intro fuel
  induction fuel using Nat.strongRecOn with
  | ind fuel ih =>
    intro l hl
    match fuel, l, hl with
    | 0, [], _ => rfl
    | fuel + 1, [], _ => rfl
    | fuel + 1, x :: l, hl =>
      have hlt : ((x :: l).drop n).length ≤ l.length := by
        rw [List.length_drop, List.length_cons]
        omega
      have hfuel : l.length ≤ fuel := by simpa using hl
      rw [List.length_cons, chunksGo, chunksGo, ih fuel (by omega) _ (Nat.le_trans hlt hfuel),
        ih l.length (by omega) _ hlt]

/-- The defining recursion of `chunks`, with the fuel gone. -/
theorem chunks_of_ne_nil {n : ℕ} (hn : 0 < n) {l : List α} (h : l ≠ []) :
    chunks n l = l.take n :: chunks n (l.drop n) := by
  match l, h with
  | x :: l, _ =>
    change (x :: l).take n :: chunksGo n l.length ((x :: l).drop n) = _
    rw [chunksGo_eq_of_le hn l.length]
    · rfl
    · rw [List.length_drop, List.length_cons]
      omega

/-- Cutting at the front: a leading piece of exactly `n` elements is the first piece. -/
theorem chunks_append {n : ℕ} (hn : 0 < n) {p : List α} (hp : p.length = n) (l : List α) :
    chunks n (p ++ l) = p :: chunks n l := by
  have hne : p ++ l ≠ [] := by
    intro h
    have := congrArg List.length h
    rw [List.length_append, List.length_nil] at this
    omega
  rw [chunks_of_ne_nil hn hne, List.take_left' hp, List.drop_left' hp]

/-- A concatenation of pieces of exactly `n` elements is cut back into those pieces. -/
theorem chunks_flatten {n : ℕ} (hn : 0 < n) {L : List (List α)} (h : ∀ p ∈ L, p.length = n) :
    chunks n L.flatten = L := by
  induction L with
  | nil => rfl
  | cons p L ih =>
    rw [List.flatten_cons, chunks_append hn (h p (List.mem_cons_self ..)),
      ih (fun q hq => h q (List.mem_cons_of_mem _ hq))]

/-- The pieces of a list make it up. -/
theorem flatten_chunks {n : ℕ} (hn : 0 < n) (l : List α) : (chunks n l).flatten = l := by
  have hgo : ∀ (fuel : ℕ) (l : List α), l.length ≤ fuel → (chunksGo n fuel l).flatten = l := by
    intro fuel
    induction fuel with
    | zero =>
      intro l hl
      rw [List.eq_nil_of_length_eq_zero (Nat.le_zero.mp hl)]
      rfl
    | succ fuel ih =>
      intro l hl
      match l, hl with
      | [], _ => rfl
      | x :: l, hl =>
        have hrest : ((x :: l).drop n).length ≤ fuel := by
          rw [List.length_drop]
          omega
        rw [chunksGo, List.flatten_cons, ih _ hrest, List.take_append_drop]
  exact hgo l.length l (Nat.le_refl _)

/-- No piece is longer than `n`. -/
theorem length_le_of_mem_chunks {n : ℕ} {l p : List α} (h : p ∈ chunks n l) : p.length ≤ n := by
  have hgo : ∀ (fuel : ℕ) (l : List α), p ∈ chunksGo n fuel l → p.length ≤ n := by
    intro fuel
    induction fuel with
    | zero =>
      intro l hp
      exact absurd hp List.not_mem_nil
    | succ fuel ih =>
      intro l hp
      match l, hp with
      | [], hp => exact absurd hp List.not_mem_nil
      | x :: l, hp =>
        rw [chunksGo] at hp
        rcases List.mem_cons.mp hp with rfl | hp
        · exact List.length_take_le n (x :: l)
        · exact ih _ hp
  exact hgo l.length l h
