import Mathlib.Tactic.Common
import Mathlib.Data.FinEnum

/-!
# Byte strings and big-endian fields

A byte string is a list of `UInt8`. The big-endian readers and writers of the fixed-width fields
that occur in network formats, and the numeric value of each, so that a round trip is an
arithmetic fact about quotients and remainders.
-/

/-- A byte string. -/
abbrev Bytes := List UInt8

/-- The 16-bit field with the given bytes, most significant first. -/
def u16FromBe (hi lo : UInt8) : UInt16 :=
  hi.toUInt16 <<< 8 ||| lo.toUInt16

/-- The two bytes of a 16-bit field, most significant first. -/
def u16ToBe (v : UInt16) : Bytes :=
  [(v >>> 8).toUInt8, v.toUInt8]

/-- The 32-bit field with the given bytes, most significant first. -/
def u32FromBe (a b c d : UInt8) : UInt32 :=
  (u16FromBe a b).toUInt32 <<< 16 ||| (u16FromBe c d).toUInt32

/-- The four bytes of a 32-bit field, most significant first. -/
def u32ToBe (v : UInt32) : Bytes :=
  u16ToBe (v >>> 16).toUInt16 ++ u16ToBe v.toUInt16

@[simp] theorem length_u16ToBe (v : UInt16) : (u16ToBe v).length = 2 := rfl

@[simp] theorem length_u32ToBe (v : UInt32) : (u32ToBe v).length = 4 := rfl

theorem toNat_u16FromBe (hi lo : UInt8) : (u16FromBe hi lo).toNat = hi.toNat * 256 + lo.toNat := by
  have hhi := hi.toNat_lt
  have hlo := lo.toNat_lt
  have hshift : UInt16.toNat 8 % 16 = 8 := rfl
  have hfit : (hi.toNat <<< 8) % 2 ^ 16 = hi.toNat <<< 8 := by
    rw [Nat.shiftLeft_eq]
    omega
  simp only [u16FromBe, UInt16.toNat_or, UInt16.toNat_shiftLeft, UInt8.toNat_toUInt16]
  rw [hshift, hfit, ← Nat.shiftLeft_add_eq_or_of_lt hlo, Nat.shiftLeft_eq]

/-- Reading back the two bytes of a 16-bit field gives the field. -/
theorem u16FromBe_toBe (v : UInt16) : u16FromBe (v >>> 8).toUInt8 v.toUInt8 = v := by
  have hv := v.toNat_lt
  apply UInt16.toNat_inj.1
  rw [toNat_u16FromBe]
  simp [Nat.shiftRight_eq_div_pow]
  omega

/-- Writing the field of two bytes gives the bytes. -/
theorem u16ToBe_fromBe (hi lo : UInt8) : u16ToBe (u16FromBe hi lo) = [hi, lo] := by
  have hhi := hi.toNat_lt
  have hlo := lo.toNat_lt
  have hvalue := toNat_u16FromBe hi lo
  have hhigh : (u16FromBe hi lo >>> 8).toUInt8 = hi := by
    apply UInt8.toNat_inj.1
    simp [Nat.shiftRight_eq_div_pow, hvalue]
    omega
  have hlow : (u16FromBe hi lo).toUInt8 = lo := by
    apply UInt8.toNat_inj.1
    simp [hvalue]
  rw [u16ToBe, hhigh, hlow]

theorem toNat_u32FromBe (a b c d : UInt8) :
    (u32FromBe a b c d).toNat = (u16FromBe a b).toNat * 65536 + (u16FromBe c d).toNat := by
  have hhi := (u16FromBe a b).toNat_lt
  have hlo := (u16FromBe c d).toNat_lt
  have hshift : UInt32.toNat 16 % 32 = 16 := rfl
  have hfit : ((u16FromBe a b).toNat <<< 16) % 2 ^ 32 = (u16FromBe a b).toNat <<< 16 := by
    rw [Nat.shiftLeft_eq]
    omega
  simp only [u32FromBe, UInt32.toNat_or, UInt32.toNat_shiftLeft, UInt16.toNat_toUInt32]
  rw [hshift, hfit, ← Nat.shiftLeft_add_eq_or_of_lt hlo, Nat.shiftLeft_eq]

/-- Reading back the four bytes of a 32-bit field gives the field. -/
theorem u32FromBe_toBe (v : UInt32) :
    u32FromBe ((v >>> 16).toUInt16 >>> 8).toUInt8 (v >>> 16).toUInt16.toUInt8
      (v.toUInt16 >>> 8).toUInt8 v.toUInt16.toUInt8 = v := by
  have hv := v.toNat_lt
  apply UInt32.toNat_inj.1
  rw [toNat_u32FromBe, u16FromBe_toBe, u16FromBe_toBe]
  simp [Nat.shiftRight_eq_div_pow]
  omega

/-- The bytes from `start` up to `stop`, absent where they reach outside. -/
def sliceOf (payload : Bytes) (start stop : ℕ) : Option Bytes :=
  if start ≤ stop ∧ stop ≤ payload.length then some ((payload.take stop).drop start) else none
