import Mathlib.Data.Rat.Cast.Order
import Mathlib.Algebra.Order.Field.Basic
import Mathlib.Tactic.FieldSimp
import Mathlib.Tactic.Linarith
import Mathlib.Tactic.Ring

/-!
# 64-bit arithmetic with wrap-around, and rounding towards zero

An `i64` operation with overflow checks off yields the exact result modulo `2 ^ 64`, read as a
signed number (`wrapI64`). It is the exact result if and only if that is an `i64`
(`wrapI64_eq_self_iff`).

The last section is about a quotient rounded towards zero: its error is less than one, whole
multiples of the divisor pass through it, and the quotient of a number that has wrapped once is
never mistaken for the exact one (`wrapI64_add_tdiv_iff`).
-/

/-- The result of an `i64` operation whose exact result is `x`. -/
def wrapI64 (x : ℤ) : ℤ := (Int64.ofInt x).toInt

/-- `x` is an `i64`. -/
def FitsI64 (x : ℤ) : Prop := -2 ^ 63 ≤ x ∧ x < 2 ^ 63

instance (x : ℤ) : Decidable (FitsI64 x) := inferInstanceAs (Decidable (_ ∧ _))

theorem wrapI64_eq (x : ℤ) : wrapI64 x = (x + 2 ^ 63) % 2 ^ 64 - 2 ^ 63 := by
  have hsize : ((Int64.size : ℕ) : ℤ) = 2 ^ 64 := rfl
  rw [wrapI64, Int64.toInt_ofInt, Int.bmod_def, hsize]
  split <;> omega

theorem fitsI64_wrapI64 (x : ℤ) : FitsI64 (wrapI64 x) := by
  rw [wrapI64_eq]
  unfold FitsI64
  omega

theorem wrapI64_eq_self_iff {x : ℤ} : wrapI64 x = x ↔ FitsI64 x := by
  constructor
  · intro h
    rw [← h]
    exact fitsI64_wrapI64 x
  · rintro ⟨hlow, hhigh⟩
    rw [wrapI64_eq]
    omega

/-- What has wrapped differs from the exact result by a multiple of `2 ^ 64`. -/
theorem wrapI64_eq_add (x : ℤ) : ∃ c, wrapI64 x = x + 2 ^ 64 * c := by
  refine ⟨-((x + 2 ^ 63) / 2 ^ 64), ?_⟩
  rw [wrapI64_eq]
  omega

/-! ### Rounding towards zero -/

/-- Rounding moves a quotient by less than one. -/
theorem abs_tdiv_sub_lt (x : ℤ) {n : ℤ} (hn : 0 < n) : |(x.tdiv n : ℚ) - x / n| < 1 := by
  have hpos : (0 : ℚ) < n := Int.cast_pos.mpr hn
  have hdiff : (x.tdiv n : ℚ) - x / n = -((x.tmod n : ℤ) : ℚ) / n := by
    have hsplit : (x : ℚ) = n * (x.tdiv n : ℤ) + (x.tmod n : ℤ) := by
      exact_mod_cast (Int.mul_tdiv_add_tmod x n).symm
    field_simp
    linarith
  have hlow : (-n : ℚ) < (x.tmod n : ℤ) := by exact_mod_cast Int.lt_tmod_of_pos x hn
  have hhigh : ((x.tmod n : ℤ) : ℚ) < n := by exact_mod_cast Int.tmod_lt_of_pos x hn
  rw [hdiff, abs_div, abs_neg, abs_of_pos hpos, div_lt_one hpos, abs_lt]
  exact ⟨hlow, hhigh⟩

/-- On the non-negative side, whole multiples of the divisor pass through the quotient. -/
theorem add_mul_tdiv {x k n : ℤ} (hx : 0 ≤ x) (hk : 0 ≤ k) (hn : 0 < n) :
    (x + k * n).tdiv n = x.tdiv n + k := by
  have hsum : 0 ≤ x + k * n := add_nonneg hx (mul_nonneg hk hn.le)
  rw [Int.tdiv_eq_ediv_of_nonneg hx, Int.tdiv_eq_ediv_of_nonneg hsum,
    Int.add_mul_ediv_right _ _ hn.ne']

/-- A quotient of a number that has wrapped at most once, added to an offset, is the exact one only
if nothing has wrapped. -/
theorem wrapI64_add_tdiv_iff {a p n : ℤ} (hn : 2 ≤ n) (hn' : n < 2 ^ 32) (hp : |p| < 2 ^ 64) :
    wrapI64 (a + (wrapI64 p).tdiv n) = a + p.tdiv n ↔ FitsI64 p ∧ FitsI64 (a + p.tdiv n) := by
  constructor
  · intro h
    refine ⟨?_, h ▸ fitsI64_wrapI64 _⟩
    obtain ⟨c, hc⟩ := wrapI64_eq_add (a + (wrapI64 p).tdiv n)
    obtain ⟨e, he⟩ := wrapI64_eq_add p
    have hfits := fitsI64_wrapI64 p
    -- the two quotients differ by `2 ^ 64 * c`, their numerators by `2 ^ 64 * e`
    have hquotient : p.tdiv n = (wrapI64 p).tdiv n + 2 ^ 64 * c := by linarith
    have hexact := Int.mul_tdiv_add_tmod p n
    have hwrapped := Int.mul_tdiv_add_tmod (wrapI64 p) n
    have hlow := Int.lt_tmod_of_pos p (show 0 < n by linarith)
    have hhigh := Int.tmod_lt_of_pos p (show 0 < n by linarith)
    have hlow' := Int.lt_tmod_of_pos (wrapI64 p) (show 0 < n by linarith)
    have hhigh' := Int.tmod_lt_of_pos (wrapI64 p) (show 0 < n by linarith)
    have hmultiple : n * c = -e := by
      rw [hquotient, mul_add] at hexact
      have hlinear : n * (2 ^ 64 * c) = 2 ^ 64 * (n * c) := by ring
      rw [hlinear] at hexact
      generalize n * c = k at hexact ⊢
      generalize n * (wrapI64 p).tdiv n = m at hexact hwrapped
      omega
    have hsmall : -1 ≤ e ∧ e ≤ 1 := by
      unfold FitsI64 at hfits
      rw [abs_lt] at hp
      omega
    have hzero : e = 0 := by
      by_contra hne
      have hunit : n ∣ 1 := by
        obtain rfl | rfl : e = 1 ∨ e = -1 := by omega
        · exact ⟨-c, by linarith⟩
        · exact ⟨c, by linarith⟩
      have := Int.le_of_dvd one_pos hunit
      linarith
    rw [hzero, mul_zero, add_zero] at he
    exact wrapI64_eq_self_iff.mp he
  · rintro ⟨hp, hsum⟩
    rw [wrapI64_eq_self_iff.mpr hp, wrapI64_eq_self_iff.mpr hsum]
