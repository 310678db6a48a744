import EzvizBridge.Lib.PolyCrc
import EzvizBridge.Transport.TsMux

/-!
# The check of a PSI section

`crc32_mpeg2` is the cyclic redundancy check of `PolyCrc` for the polynomial `0x04C11DB7`
(`toBitVec_crc32Mpeg2`), and the four bytes behind a section are the polynomial of its check
(`message_u32ToBe`). So a receiver that computes the check of a whole section gets zero, and finds
the section's length in it (`section_passes`).
-/

namespace EzvizBridge
namespace TsMux

open Polynomial PolyCrc

/-! ### The check as a remainder -/

/-- The coefficients of the generator below `X ^ 32`. -/
def crcPoly : BitVec 32 := 0x04c11db7

theorem toBitVec_crcBit (crc : UInt32) :
    (crcBit crc).toBitVec = shiftStep crcPoly crc.toBitVec := by
  have hmsb : crc &&& 0x80000000 = 0 ↔ crc.toBitVec.msb = false := by
    have hpower : (0x80000000 : UInt32).toBitVec = BitVec.twoPow 32 31 := by decide
    rw [← UInt32.toBitVec_inj, UInt32.toBitVec_and, hpower, BitVec.and_twoPow,
      BitVec.msb_eq_getLsbD_last]
    cases crc.toBitVec.getLsbD 31 <;> decide
  rw [crcBit, shiftStep]
  by_cases h : crc.toBitVec.msb = true
  · rw [if_pos h, if_neg (by rw [hmsb, h]; exact Bool.noConfusion)]
    rfl
  · rw [if_neg h, if_pos (hmsb.mpr (Bool.eq_false_of_not_eq_true h))]
    rfl

theorem toBitVec_crcByte (crc : UInt32) (byte : UInt8) :
    (crcByte crc byte).toBitVec = feed crcPoly crc.toBitVec byte.toBitVec := by
  have hrepeat (n : ℕ) (crc : UInt32) :
      (Nat.repeat crcBit n crc).toBitVec = (shiftStep crcPoly)^[n] crc.toBitVec := by
    induction n with
    | zero => rfl
    | succ n ih => rw [Nat.repeat, toBitVec_crcBit, ih, Function.iterate_succ_apply']
  rw [crcByte, hrepeat]
  rfl

/-- **`crc32_mpeg2` is a cyclic redundancy check.** -/
theorem toBitVec_crc32Mpeg2 (data : Bytes) :
    (crc32Mpeg2 data).toBitVec = run crcPoly 0xffffffff (data.map UInt8.toBitVec) := by
  have hfold (crc : UInt32) :
      (data.foldl crcByte crc).toBitVec = run crcPoly crc.toBitVec (data.map UInt8.toBitVec) := by
    induction data generalizing crc with
    | nil => rfl
    | cons byte data ih =>
      rw [List.foldl_cons, ih, toBitVec_crcByte]
      rfl
  exact hfold 0xffffffff

/-- The bytes of a check are its polynomial. -/
theorem message_u32ToBe (crc : UInt32) :
    message ((u32ToBe crc).map UInt8.toBitVec) = toPoly crc.toBitVec := by
  have hbytes : (u32ToBe crc).map UInt8.toBitVec = [(crc.toBitVec >>> 24).setWidth 8,
      (crc.toBitVec >>> 16).setWidth 8, (crc.toBitVec >>> 8).setWidth 8,
      crc.toBitVec.setWidth 8] := by
    have hfirst : ((crc >>> 16).toUInt16 >>> 8).toUInt8.toBitVec =
        (crc.toBitVec >>> 24).setWidth 8 := by
      apply BitVec.eq_of_toNat_eq
      simp [Nat.shiftRight_eq_div_pow]
      omega
    have hsecond : (crc >>> 16).toUInt16.toUInt8.toBitVec = (crc.toBitVec >>> 16).setWidth 8 := by
      apply BitVec.eq_of_toNat_eq
      simp [Nat.shiftRight_eq_div_pow]
    have hthird : (crc.toUInt16 >>> 8).toUInt8.toBitVec = (crc.toBitVec >>> 8).setWidth 8 := by
      apply BitVec.eq_of_toNat_eq
      simp [Nat.shiftRight_eq_div_pow]
      omega
    have hlast : crc.toUInt16.toUInt8.toBitVec = crc.toBitVec.setWidth 8 := by
      apply BitVec.eq_of_toNat_eq
      simp
    rw [← hfirst, ← hsecond, ← hthird, ← hlast]
    rfl
  have hnone : crc.toBitVec >>> 32 = 0 := BitVec.ushiftRight_eq_zero (le_refl 32)
  rw [hbytes, toPoly_split 8 crc.toBitVec, toPoly_split 8 (crc.toBitVec >>> 8),
    ← BitVec.shiftRight_add, toPoly_split 8 (crc.toBitVec >>> 16), ← BitVec.shiftRight_add,
    toPoly_split 8 (crc.toBitVec >>> 24), ← BitVec.shiftRight_add, hnone, toPoly_zero]
  rfl

theorem crc32Mpeg2_append_self (data : Bytes) :
    crc32Mpeg2 (data ++ u32ToBe (crc32Mpeg2 data)) = 0 := by
  apply UInt32.toBitVec_inj.mp
  rw [toBitVec_crc32Mpeg2, List.map_append]
  apply run_append_check (by decide) crcPoly
  · rw [List.length_map, length_u32ToBe]
  · rw [message_u32ToBe, toBitVec_crc32Mpeg2]

/-! ### Sections -/

/-- The field `section_length`: the lower twelve bits of the second and the third byte. -/
def sectionLength : Bytes → ℕ
  | _ :: second :: third :: _ => second.toNat % 16 * 256 + third.toNat
  | _ => 0

theorem high_ofNat {n : ℕ} (h : n ≤ 1021) : high (UInt16.ofNat n) = UInt8.ofNat (n / 256) := by
  apply UInt8.toNat_inj.mp
  have hmask : n / 256 % 256 &&& 31 = n / 256 % 256 % 32 := Nat.and_two_pow_sub_one_eq_mod _ 5
  simp only [high, UInt8.toNat_and, UInt16.toNat_toUInt8, UInt16.toNat_shiftRight,
    UInt16.toNat_ofNat', UInt8.toNat_ofNat', Nat.shiftRight_eq_div_pow]
  rw [Nat.mod_eq_of_lt (show n < 2 ^ 16 by omega)]
  show n / 256 % 256 &&& 31 = n / 256 % 256
  rw [hmask]
  omega

theorem low_ofNat (n : ℕ) : (low (UInt16.ofNat n)).toNat = n % 256 := by
  simp only [low, UInt16.toNat_toUInt8, UInt16.toNat_ofNat']
  omega

theorem sectionLength_field {n : ℕ} (h : n ≤ 1021) :
    (0xb0 ||| high (UInt16.ofNat n)).toNat % 16 * 256 + (low (UInt16.ofNat n)).toNat = n := by
  -- there are four values of the upper bits, and none of them meets `0xb0`
  have hupper : ∀ upper < 4, ((0xb0 : UInt8) ||| UInt8.ofNat upper).toNat % 16 = upper := by decide
  rw [high_ofNat h, low_ofNat, hupper _ (by omega)]
  omega

variable (tableId : UInt8) (id : UInt16) (version : UInt8)

theorem crc32Mpeg2_psiSection (body : Bytes) :
    crc32Mpeg2 (psiSection tableId id version body) = 0 :=
  crc32Mpeg2_append_self _

theorem sectionLength_psiSection {body : Bytes} (h : body.length ≤ 1012) :
    sectionLength (psiSection tableId id version body) =
      ((psiSection tableId id version body).drop 3).length := by
  have hlength : u16TryFrom (5 + body.length + 4) = some (UInt16.ofNat (5 + body.length + 4)) :=
    if_pos (by omega)
  rw [psiSection, hlength, Option.getD_some]
  show (0xb0 ||| high (UInt16.ofNat (5 + body.length + 4))).toNat % 16 * 256 +
    (low (UInt16.ofNat (5 + body.length + 4))).toNat = _
  rw [sectionLength_field (by omega)]
  simp
  omega

/-- **Every section that is written passes the check of a receiver**: `crc32_mpeg2` is the remainder
of a division of polynomials, zero on what has its own check behind it, and `section_length` counts
the bytes behind it. -/
theorem section_passes (data : Bytes) :
    crc32Mpeg2 (data ++ u32ToBe (crc32Mpeg2 data)) = 0 ∧
    toPoly (crc32Mpeg2 data).toBitVec =
      (message (data.map UInt8.toBitVec) * X ^ 32 + toPoly (0xffffffff : BitVec 32) * X ^
        (8 * data.length)) %ₘ
        (X ^ 32 + toPoly (0x04c11db7 : BitVec 32)) ∧
    ∀ (tableId : UInt8) (id : UInt16) (version : UInt8) (body : Bytes), body.length ≤ 1012 →
      crc32Mpeg2 (psiSection tableId id version body) = 0 ∧
      sectionLength (psiSection tableId id version body) =
        ((psiSection tableId id version body).drop 3).length := by
  refine ⟨crc32Mpeg2_append_self data, ?_, fun tableId id version body hbody => ?_⟩
  · have hrun := toPoly_run (by decide) crcPoly 0xffffffff (data.map UInt8.toBitVec)
    rwa [List.length_map, ← toBitVec_crc32Mpeg2] at hrun
  · exact ⟨crc32Mpeg2_psiSection tableId id version body,
      sectionLength_psiSection tableId id version hbody⟩

theorem section_passes_sample :
    crc32Mpeg2 (psiSection 0 1 0 [0x00, 0x01, 0xf0, 0x00]) = 0 ∧
      sectionLength (psiSection 0 1 0 [0x00, 0x01, 0xf0, 0x00]) = 13 :=
  (section_passes []).2.2 0 1 0 [0x00, 0x01, 0xf0, 0x00] (by decide)

end TsMux
end EzvizBridge
