import EzvizBridge.Lib.Bytes
import Mathlib.Tactic.Ring

/-!
# Variable-length integers

An unsigned integer in groups of seven bits, the low group first, one byte each. The high bit of a
byte says that another one follows. `Word` are the encodings that a 64-bit reader takes: at most ten
bytes, whose bits beyond the 64th are dropped, and with high groups that may be zero. No word is the
head of another one (`Word.unique`).

`encode` writes a word (`word_encode`), and none that stands for the same integer is shorter
(`Word.length_encode_le`).
-/

namespace Varint

/-- `Word shift w value`: behind groups of `shift` bits, `w` is the rest of an integer, and stands
for `value` there. -/
inductive Word : ℕ → Bytes → UInt64 → Prop
  | last {shift : ℕ} {byte : UInt8} (hshift : shift < 64) (hbyte : byte &&& 0x80 = 0) :
    Word shift [byte] ((byte &&& 0x7f).toUInt64 <<< UInt64.ofNat shift)
  | more {shift : ℕ} {byte : UInt8} {w : Bytes} {value : UInt64} (hshift : shift < 64)
    (hbyte : byte &&& 0x80 ≠ 0) (hrest : Word (shift + 7) w value) :
    Word shift (byte :: w) ((byte &&& 0x7f).toUInt64 <<< UInt64.ofNat shift ||| value)

variable {shift : ℕ} {w w' : Bytes} {value value' : UInt64}

theorem Word.ne_nil (h : Word shift w value) : w ≠ [] := by
  cases h <;> exact List.cons_ne_nil _ _

/-- **Words end themselves.** -/
theorem Word.unique (h : Word shift w value) (h' : Word shift w' value') {rest rest' : Bytes}
    (htext : w ++ rest = w' ++ rest') : w = w' ∧ value = value' := by
  induction h generalizing w' value' with
  | last _ hbyte =>
    cases h' with
    | last =>
      obtain ⟨rfl, -⟩ := List.cons.inj htext
      exact ⟨rfl, rfl⟩
    | more _ hbyte' =>
      obtain ⟨rfl, -⟩ := List.cons.inj htext
      exact absurd hbyte hbyte'
  | more _ hbyte _ ih =>
    cases h' with
    | last _ hbyte' =>
      obtain ⟨rfl, -⟩ := List.cons.inj htext
      exact absurd hbyte' hbyte
    | more _ _ hrest' =>
      obtain ⟨rfl, hbehind⟩ := List.cons.inj htext
      obtain ⟨rfl, rfl⟩ := ih hrest' hbehind
      exact ⟨rfl, rfl⟩

/-! ### The shortest word -/

/-- The groups, up to the last one that is not zero. -/
def encode (value : UInt64) : Bytes :=
  let byte := (value &&& 0x7f).toUInt8
  if value >>> 7 = 0 then [byte] else (byte ||| 0x80) :: encode (value >>> 7)
termination_by value.toNat
decreasing_by
  have hshift : (value >>> 7).toNat = value.toNat / 128 := by
    rw [UInt64.toNat_shiftRight, Nat.shiftRight_eq_div_pow]
    rfl
  have hpos : (value >>> 7).toNat ≠ 0 := fun h => ‹¬ value >>> 7 = 0› (UInt64.toNat_inj.mp h)
  omega

theorem toNat_shiftRight_seven (value : UInt64) : (value >>> 7).toNat = value.toNat / 128 := by
  rw [UInt64.toNat_shiftRight, Nat.shiftRight_eq_div_pow]
  rfl

theorem toNat_group (value : UInt64) : (value &&& 0x7f).toUInt8.toNat = value.toNat % 128 := by
  have hmask : UInt64.toNat 0x7f = 2 ^ 7 - 1 := rfl
  rw [UInt64.toNat_toUInt8, UInt64.toNat_and, hmask, Nat.and_two_pow_sub_one_eq_mod]
  omega

/-- A group in a byte, with and without the bit for another one. -/
theorem group_bits {byte : UInt8} (h : byte < 128) :
    byte &&& 0x80 = 0 ∧ byte &&& 0x7f = byte ∧ (byte ||| 0x80) &&& 0x80 ≠ 0 ∧
      (byte ||| 0x80) &&& 0x7f = byte := by
  revert byte
  decide +kernel

theorem group_lt (value : UInt64) : (value &&& 0x7f).toUInt8 < 128 := by
  rw [UInt8.lt_iff_toNat_lt, toNat_group]
  exact Nat.mod_lt _ (by decide)

theorem toNat_shiftLeft_of_lt {value : UInt64} (hshift : shift < 64)
    (hfits : value.toNat < 2 ^ (64 - shift)) :
    (value <<< UInt64.ofNat shift).toNat = value.toNat * 2 ^ shift := by
  have hlt : value.toNat * 2 ^ shift < 2 ^ 64 := by
    calc value.toNat * 2 ^ shift < 2 ^ (64 - shift) * 2 ^ shift :=
          Nat.mul_lt_mul_of_pos_right hfits (Nat.two_pow_pos shift)
      _ = 2 ^ 64 := by rw [← Nat.pow_add, Nat.sub_add_cancel hshift.le]
  rw [UInt64.toNat_shiftLeft, UInt64.toNat_ofNat', Nat.mod_eq_of_lt (show shift < 2 ^ 64 by omega),
    Nat.mod_eq_of_lt hshift, Nat.shiftLeft_eq, Nat.mod_eq_of_lt hlt]

/-- The low group and the rest of the integer, each in its place, are the integer. -/
theorem group_or_rest {value : UInt64} (hshift : shift + 7 < 64)
    (hfits : value.toNat < 2 ^ (64 - shift)) :
    (value &&& 0x7f).toUInt8.toUInt64 <<< UInt64.ofNat shift |||
      (value >>> 7) <<< UInt64.ofNat (shift + 7) = value <<< UInt64.ofNat shift := by
  have hpow : 2 ^ (64 - shift) = 2 ^ (64 - (shift + 7)) * 128 := by
    rw [show 64 - shift = 64 - (shift + 7) + 7 by omega, Nat.pow_add]
  have hrest : (value >>> 7).toNat < 2 ^ (64 - (shift + 7)) := by
    rw [toNat_shiftRight_seven]
    omega
  have hgroup : (value &&& 0x7f).toUInt8.toUInt64.toNat = value.toNat % 128 := by
    rw [UInt8.toNat_toUInt64, toNat_group]
  have hgroup' : (value &&& 0x7f).toUInt8.toUInt64.toNat < 2 ^ (64 - shift) := by
    rw [hgroup]
    exact (Nat.mod_le _ _).trans_lt hfits
  have hlow : value.toNat % 128 * 2 ^ shift < 2 ^ (shift + 7) := by
    rw [Nat.pow_add, Nat.mul_comm]
    exact Nat.mul_lt_mul_of_pos_left (Nat.mod_lt _ (by decide)) (Nat.two_pow_pos shift)
  apply UInt64.toNat_inj.mp
  rw [UInt64.toNat_or, toNat_shiftLeft_of_lt (by omega) hgroup', toNat_shiftLeft_of_lt hshift hrest,
    toNat_shiftLeft_of_lt (by omega) hfits, hgroup, toNat_shiftRight_seven, Nat.or_comm,
    Nat.mul_comm (value.toNat / 128), ← Nat.two_pow_add_eq_or_of_lt hlow, Nat.pow_add]
  calc 2 ^ shift * 2 ^ 7 * (value.toNat / 128) + value.toNat % 128 * 2 ^ shift
      = (128 * (value.toNat / 128) + value.toNat % 128) * 2 ^ shift := by ring
    _ = value.toNat * 2 ^ shift := by rw [Nat.div_add_mod]

theorem word_encode_of_lt (value : UInt64) (hshift : shift < 64)
    (hfits : value.toNat < 2 ^ (64 - shift)) :
    Word shift (encode value) (value <<< UInt64.ofNat shift) := by
  induction value using encode.induct generalizing shift with
  | case1 value hlast =>
    obtain ⟨hbyte, hgroup, -⟩ := group_bits (group_lt value)
    have hself : value = (value &&& 0x7f).toUInt8.toUInt64 := by
      have hzero := congrArg UInt64.toNat hlast
      rw [toNat_shiftRight_seven] at hzero
      apply UInt64.toNat_inj.mp
      rw [UInt8.toNat_toUInt64, toNat_group]
      exact (Nat.mod_eq_of_lt (by simpa using hzero)).symm
    have hword := Word.last hshift hbyte
    rw [hgroup, ← hself] at hword
    rw [encode, if_pos hlast]
    exact hword
  | case2 value hmore ih =>
    obtain ⟨-, -, hbyte, hgroup⟩ := group_bits (group_lt value)
    have hpos : 128 ≤ value.toNat := by
      by_contra hlt
      apply hmore
      apply UInt64.toNat_inj.mp
      rw [toNat_shiftRight_seven]
      exact Nat.div_eq_of_lt (by omega)
    -- another group is left, so that there is room for it
    have hroom : shift + 7 < 64 := by
      by_contra hfull
      have hle : 2 ^ (64 - shift) ≤ 2 ^ 7 := Nat.pow_le_pow_right (by decide) (by omega)
      omega
    have hrest : (value >>> 7).toNat < 2 ^ (64 - (shift + 7)) := by
      have hpow : 2 ^ (64 - shift) = 2 ^ (64 - (shift + 7)) * 128 := by
        rw [show 64 - shift = 64 - (shift + 7) + 7 by omega, Nat.pow_add]
      rw [toNat_shiftRight_seven]
      omega
    have hword := Word.more hshift hbyte (ih hroom hrest)
    rw [hgroup, group_or_rest hroom hfits] at hword
    rw [encode, if_neg hmore]
    exact hword

/-- **The encoding of an integer** is a word, and stands for it. -/
theorem word_encode (value : UInt64) : Word 0 (encode value) value := by
  have hword := word_encode_of_lt value (by decide : 0 < 64) value.toNat_lt
  rwa [show UInt64.ofNat 0 = 0 from rfl, UInt64.shiftLeft_zero] at hword

/-! ### No word is shorter -/

theorem toNat_shiftLeft_lt (byte : UInt8) (hshift : shift < 64) :
    ((byte &&& 0x7f).toUInt64 <<< UInt64.ofNat shift).toNat < 2 ^ (shift + 7) := by
  have hgroup : (byte &&& 0x7f).toUInt64.toNat < 2 ^ 7 := by
    rw [UInt8.toNat_toUInt64, UInt8.toNat_and, show UInt8.toNat 0x7f = 2 ^ 7 - 1 from rfl,
      Nat.and_two_pow_sub_one_eq_mod]
    exact Nat.mod_lt _ (by decide)
  rw [UInt64.toNat_shiftLeft, UInt64.toNat_ofNat', Nat.mod_eq_of_lt (show shift < 2 ^ 64 by omega),
    Nat.mod_eq_of_lt hshift, Nat.shiftLeft_eq]
  refine (Nat.mod_le _ _).trans_lt ?_
  rw [Nat.pow_add, Nat.mul_comm]
  exact Nat.mul_lt_mul_of_pos_left hgroup (Nat.two_pow_pos shift)

/-- The groups of a word bound its integer. -/
theorem Word.toNat_lt (h : Word shift w value) : value.toNat < 2 ^ (shift + 7 * w.length) := by
  induction h with
  | last hshift _ => exact toNat_shiftLeft_lt _ hshift
  | @more shift byte w value hshift _ _ ih =>
    have hexp : shift + 7 * (byte :: w).length = shift + 7 + 7 * w.length := by
      rw [List.length_cons]
      omega
    rw [hexp, UInt64.toNat_or]
    refine Nat.or_lt_two_pow ((toNat_shiftLeft_lt byte hshift).trans_le ?_) ih
    exact Nat.pow_le_pow_right (by decide) (by omega)

theorem length_encode_le_of_lt {n : ℕ} (value : UInt64) (h : value.toNat < 2 ^ (7 * (n + 1))) :
    (encode value).length ≤ n + 1 := by
  induction value using encode.induct generalizing n with
  | case1 value hlast =>
    rw [encode, if_pos hlast]
    exact Nat.le_add_left 1 n
  | case2 value hmore ih =>
    rw [encode, if_neg hmore, List.length_cons]
    cases n with
    | zero =>
      refine absurd (UInt64.toNat_inj.mp ?_) hmore
      rw [toNat_shiftRight_seven]
      exact Nat.div_eq_of_lt h
    | succ n =>
      refine Nat.succ_le_succ (ih ?_)
      rw [toNat_shiftRight_seven, Nat.div_lt_iff_lt_mul (by decide)]
      rwa [show 7 * (n + 1 + 1) = 7 * (n + 1) + 7 by ring, Nat.pow_add] at h

/-- **The encoding is the shortest word.** -/
theorem Word.length_encode_le (h : Word 0 w value) : (encode value).length ≤ w.length := by
  have hlt := h.toNat_lt
  obtain ⟨n, hn⟩ := Nat.exists_eq_succ_of_ne_zero (List.length_pos_iff.mpr h.ne_nil).ne'
  rw [hn] at hlt ⊢
  rw [Nat.zero_add] at hlt
  exact length_encode_le_of_lt value hlt

end Varint
