import Mathlib.Algebra.CharP.Two
import Mathlib.Algebra.Field.ZMod
import Mathlib.Algebra.Polynomial.Div
import Mathlib.RingTheory.Ideal.Quotient.Operations
import Mathlib.Tactic.LinearCombination

/-!
# Cyclic redundancy checks

A word of `w` bits is a polynomial over the field of two elements (`toPoly`), and so is a message,
which comes in chunks of `k` bits. A check keeps a word, and for each bit it shifts the word and
subtracts the generator if a bit was shifted out (`shiftStep`).

A shift multiplies by `X` modulo the generator (`residue_shiftStep`). Hence a run is the remainder
of a division of polynomials (`toPoly_run`), and the check of a message with its own check behind it
is zero (`run_append_check`).
-/

namespace PolyCrc

open Polynomial

variable {w k : ℕ}

/-! ### Words as polynomials -/

/-- Bit `i` is the coefficient of `X ^ i`. -/
noncomputable def toPoly (v : BitVec w) : (ZMod 2)[X] :=
  ∑ i ∈ Finset.range w, if v.getLsbD i then X ^ i else 0

/-- The coefficients are the bits. -/
theorem coeff_toPoly (v : BitVec w) (i : ℕ) :
    (toPoly v).coeff i = if v.getLsbD i then 1 else 0 := by
  have hterm : ∀ j ∈ Finset.range w, (if v.getLsbD j then (X ^ j : (ZMod 2)[X]) else 0).coeff i =
      if i = j then (if v.getLsbD j then 1 else 0) else 0 := by
    intro j _
    cases v.getLsbD j <;> simp [coeff_X_pow]
  rw [toPoly, finsetSum_coeff, Finset.sum_congr rfl hterm, Finset.sum_ite_eq]
  split_ifs with hrange hbit hbit
  · rfl
  · rfl
  · -- there are no bits behind the last one
    rw [Finset.mem_range, not_lt] at hrange
    exact absurd hbit (by rw [BitVec.getLsbD_of_ge v i hrange]; exact Bool.false_ne_true)
  · rfl

/-- A vector is known from its polynomial. -/
theorem toPoly_injective {v v' : BitVec w} (h : toPoly v = toPoly v') : v = v' := by
  apply BitVec.eq_of_getLsbD_eq
  intro i _
  have hcoeff := congrArg (fun p => p.coeff i) h
  simp only [coeff_toPoly] at hcoeff
  cases hv : v.getLsbD i <;> cases hv' : v'.getLsbD i <;> simp [hv, hv'] at hcoeff ⊢

theorem degree_toPoly_lt (v : BitVec w) : (toPoly v).degree < w := by
  rw [degree_lt_iff_coeff_zero]
  intro i hi
  rw [coeff_toPoly, BitVec.getLsbD_of_ge v i hi, if_neg Bool.false_ne_true]

theorem toPoly_zero : toPoly (0 : BitVec w) = 0 := by
  ext i
  rw [coeff_toPoly]
  simp

theorem toPoly_xor (v v' : BitVec w) : toPoly (v ^^^ v') = toPoly v + toPoly v' := by
  ext i
  rw [coeff_add, coeff_toPoly, coeff_toPoly, coeff_toPoly, BitVec.getLsbD_xor]
  cases v.getLsbD i <;> cases v'.getLsbD i <;> decide

/-- What a shift to the left moves out is the highest power. -/
theorem toPoly_mul_X (v : BitVec w) :
    toPoly v * X = toPoly (v <<< 1) + if v.msb then X ^ w else 0 := by
  have hout (i : ℕ) : (if v.msb then (X ^ w : (ZMod 2)[X]) else 0).coeff i =
      if i = w ∧ v.msb = true then 1 else 0 := by
    cases v.msb <;> simp [coeff_X_pow]
  ext i
  rw [coeff_add, hout, coeff_toPoly, BitVec.getLsbD_shiftLeft]
  -- the lowest bit is empty, and the others have moved up
  cases i with
  | zero =>
    rw [coeff_mul_X_zero]
    cases w with
    | zero => simp [BitVec.of_length_zero]
    | succ w => simp
  | succ i =>
    rw [coeff_mul_X, coeff_toPoly]
    obtain hlt | heq | hgt := lt_trichotomy (i + 1) w
    · simp [hlt, hlt.ne]
    · -- the highest bit is the one that is moved out
      have hlast : w - 1 = i := by omega
      have hmsb : v.msb = v.getLsbD i := by rw [BitVec.msb_eq_getLsbD_last, hlast]
      simp [heq, hmsb]
    · have hnone : v.getLsbD i = false := BitVec.getLsbD_of_ge v i (Nat.le_of_lt_succ hgt)
      simp [hgt.not_gt, hgt.ne', hnone]

/-- A chunk at the upper end of a word. -/
theorem toPoly_shiftLeft (h : k ≤ w) (chunk : BitVec k) :
    toPoly (chunk.setWidth w <<< (w - k)) = toPoly chunk * X ^ (w - k) := by
  ext i
  rw [coeff_toPoly, coeff_mul_X_pow', coeff_toPoly, BitVec.getLsbD_shiftLeft,
    BitVec.getLsbD_setWidth]
  by_cases hlow : i < w - k
  · simp [hlow, Nat.not_le.mpr hlow]
  · by_cases hhigh : i < w
    · have hinside : i - (w - k) < w := by omega
      simp [hlow, hhigh, hinside, Nat.not_lt.mp hlow]
    · have hnone : chunk.getLsbD (i - (w - k)) = false := BitVec.getLsbD_of_ge chunk _ (by omega)
      simp [hhigh, hnone]

/-- The lower bits of a word, and the others. -/
theorem toPoly_split (m : ℕ) (v : BitVec w) :
    toPoly v = toPoly (v >>> m) * X ^ m + toPoly (v.setWidth m) := by
  ext i
  rw [coeff_add, coeff_mul_X_pow', coeff_toPoly, coeff_toPoly, coeff_toPoly,
    BitVec.getLsbD_ushiftRight, BitVec.getLsbD_setWidth]
  by_cases hlow : i < m
  · simp [hlow, Nat.not_le.mpr hlow]
  · have hle : m ≤ i := Nat.not_lt.mp hlow
    simp [hlow, hle, Nat.add_sub_cancel' hle]

/-! ### The generator -/

/-- `X ^ w`, and the polynomial of the other coefficients. -/
noncomputable def generator (poly : BitVec w) : (ZMod 2)[X] := X ^ w + toPoly poly

theorem monic_generator (poly : BitVec w) : (generator poly).Monic :=
  monic_X_pow_add (degree_toPoly_lt poly)

theorem degree_generator (poly : BitVec w) : (generator poly).degree = w := by
  have hlt : (toPoly poly).degree < (X ^ w : (ZMod 2)[X]).degree := by
    rw [degree_X_pow]
    exact degree_toPoly_lt poly
  rw [generator, degree_add_eq_left_of_degree_lt hlt, degree_X_pow]

/-- The residue modulo the generator. -/
noncomputable def residue (poly : BitVec w) :
    (ZMod 2)[X] →+* (ZMod 2)[X] ⧸ Ideal.span {generator poly} :=
  Ideal.Quotient.mk _

/-- Equal remainders differ by a multiple of the generator. -/
theorem residue_eq_iff {poly : BitVec w} {p q : (ZMod 2)[X]} :
    residue poly p = residue poly q ↔ generator poly ∣ p - q := by
  rw [residue, Ideal.Quotient.eq, Ideal.mem_span_singleton]

/-- A word is the remainder of what it is congruent to. -/
theorem toPoly_eq_modByMonic {poly v : BitVec w} {p : (ZMod 2)[X]}
    (h : residue poly (toPoly v) = residue poly p) : toPoly v = p %ₘ generator poly := by
  obtain ⟨q, hq⟩ := residue_eq_iff.mp h.symm
  have hdivision : toPoly v + generator poly * q = p := by rw [← hq, add_sub_cancel]
  have hdegree : (toPoly v).degree < (generator poly).degree := by
    rw [degree_generator]
    exact degree_toPoly_lt v
  exact (div_modByMonic_unique q (toPoly v) (monic_generator poly) ⟨hdivision, hdegree⟩).2.symm

/-- The highest power, modulo the generator. -/
theorem residue_X_pow (poly : BitVec w) : residue poly (X ^ w) = residue poly (toPoly poly) := by
  rw [residue_eq_iff, generator, CharTwo.sub_eq_add]

/-! ### The steps -/

/-- One bit of a check. -/
def shiftStep (poly crc : BitVec w) : BitVec w :=
  if crc.msb then (crc <<< 1) ^^^ poly else crc <<< 1

/-- **A shift multiplies by `X`.** -/
theorem residue_shiftStep (poly crc : BitVec w) :
    residue poly (toPoly (shiftStep poly crc)) = residue poly (toPoly crc * X) := by
  rw [shiftStep, toPoly_mul_X, map_add]
  split_ifs
  · rw [toPoly_xor, map_add, residue_X_pow]
  · rw [map_zero, add_zero]

/-- Steps multiply by powers of the variable. -/
theorem residue_iterate (poly crc : BitVec w) (n : ℕ) :
    residue poly (toPoly ((shiftStep poly)^[n] crc)) = residue poly (toPoly crc * X ^ n) := by
  induction n generalizing crc with
  | zero => rw [Function.iterate_zero_apply, pow_zero, mul_one]
  | succ n ih =>
    rw [Function.iterate_succ_apply, ih, map_mul, residue_shiftStep, ← map_mul, mul_assoc,
      ← pow_succ']

/-- A chunk of the message. -/
def feed (poly crc : BitVec w) (chunk : BitVec k) : BitVec w :=
  (shiftStep poly)^[k] (crc ^^^ (chunk.setWidth w <<< (w - k)))

/-- A chunk is shifted in. -/
theorem residue_feed (h : k ≤ w) (poly crc : BitVec w) (chunk : BitVec k) :
    residue poly (toPoly (feed poly crc chunk)) =
      residue poly (toPoly crc * X ^ k + toPoly chunk * X ^ w) := by
  have hpower : (X : (ZMod 2)[X]) ^ w = X ^ (w - k) * X ^ k := by
    rw [← pow_add, Nat.sub_add_cancel h]
  rw [feed, residue_iterate, toPoly_xor, toPoly_shiftLeft h, hpower, add_mul, mul_assoc]

/-! ### Messages -/

/-- The polynomial of a message: its first chunk has the highest powers. -/
noncomputable def message (chunks : List (BitVec k)) : (ZMod 2)[X] :=
  chunks.foldl (fun p chunk => p * X ^ k + toPoly chunk) 0

theorem message_concat (chunks : List (BitVec k)) (chunk : BitVec k) :
    message (chunks ++ [chunk]) = message chunks * X ^ k + toPoly chunk := by
  rw [message, List.foldl_append]
  rfl

/-- A check that starts with `crc`. -/
def run (poly crc : BitVec w) (chunks : List (BitVec k)) : BitVec w := chunks.foldl (feed poly) crc

/-- A register that is fed a message has its remainder. -/
theorem residue_run (h : k ≤ w) (poly crc : BitVec w) (chunks : List (BitVec k)) :
    residue poly (toPoly (run poly crc chunks)) =
      residue poly (message chunks * X ^ w + toPoly crc * X ^ (k * chunks.length)) := by
  -- on the chunks, from the last one
  induction chunks using List.reverseRecOn with
  | nil =>
    rw [List.length_nil, Nat.mul_zero, pow_zero, mul_one]
    show residue poly (toPoly crc) = residue poly (0 * X ^ w + toPoly crc)
    rw [zero_mul, zero_add]
  | append_singleton chunks chunk ih =>
    have hrun : run poly crc (chunks ++ [chunk]) = feed poly (run poly crc chunks) chunk := by
      rw [run, List.foldl_append]
      rfl
    rw [hrun, residue_feed h, map_add, map_mul, ih, ← map_mul, ← map_add, message_concat,
      List.length_append, List.length_singleton, Nat.mul_add, Nat.mul_one, pow_add]
    apply congrArg (residue poly)
    ring

/-- **A check is the remainder** of the message, behind which `w` zeros are put, after the word that
it starts with has been added to the first bits. -/
theorem toPoly_run (h : k ≤ w) (poly crc : BitVec w) (chunks : List (BitVec k)) :
    toPoly (run poly crc chunks) =
      (message chunks * X ^ w + toPoly crc * X ^ (k * chunks.length)) %ₘ generator poly :=
  toPoly_eq_modByMonic (residue_run h poly crc chunks)

/-- **A message with its own check behind it has the check zero.** -/
theorem run_append_check (h : k ≤ w) (poly crc : BitVec w) {chunks check : List (BitVec k)}
    (hlength : k * check.length = w) (hcheck : message check = toPoly (run poly crc chunks)) :
    run poly crc (chunks ++ check) = 0 := by
  have happend : run poly crc (chunks ++ check) = run poly (run poly crc chunks) check := by
    rw [run, List.foldl_append]
    rfl
  have hzero : residue poly (toPoly (run poly crc (chunks ++ check))) = residue poly 0 := by
    rw [happend, residue_run h, hcheck, hlength, CharTwo.add_self_eq_zero]
  apply toPoly_injective
  rw [toPoly_eq_modByMonic hzero, zero_modByMonic, toPoly_zero]

end PolyCrc
