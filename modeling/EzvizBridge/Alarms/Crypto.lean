import EzvizBridge.Controls.Model
import EzvizBridge.Lib.Reading
import EzvizBridge.Transport.Image

/-!
# Encrypted alarm pictures

`alarms/crypto.rs`, the pictures with a checksum key. A block is 48 bytes and a ciphertext. It comes
alone, in a `hikpic` container, or with others in a `hiklittlepic` container, whose lengths say
where the next block is. Everything that a container says is read as far as it is there (`Reading`).
-/

namespace EzvizBridge

namespace Alarms

open Controls (trim)
open Image (ascii iv jpegSlice)

inductive PictureError
  | unsupported
  | invalid
  deriving DecidableEq, Repr

def blockHeader : ℕ := 48

def maxContainerBlocks : ℕ := 16

/-- The first bytes of a JPEG. -/
def startOfImage : Bytes := [0xff, 0xd8, 0xff]

/-- The last bytes of a JPEG. -/
def endOfImage : Bytes := [0xff, 0xd9]

/-- `validated_jpeg`. -/
def validatedJpeg (data : Bytes) : Except PictureError Bytes :=
  if ¬startOfImage <+: data then .error .unsupported
  else
    match jpegSlice data with
    | .error _ => .error .invalid
    | .ok jpeg => .ok jpeg

/-! ### Keys -/

/-- The value of a hex digit. -/
def hexValue (digit : Char) : Option UInt8 :=
  if '0' ≤ digit ∧ digit ≤ '9' then some (digit.toNat - '0'.toNat).toUInt8
  else if 'a' ≤ digit ∧ digit ≤ 'f' then some (digit.toNat - 'a'.toNat + 10).toUInt8
  else if 'A' ≤ digit ∧ digit ≤ 'F' then some (digit.toNat - 'A'.toNat + 10).toUInt8
  else none

/-- `hex::decode`. -/
def hexDecode : List Char → Option Bytes
  | [] => some []
  | [_] => none
  | high :: low :: digits => do
    let high ← hexValue high
    let low ← hexValue low
    let rest ← hexDecode digits
    return (16 * high + low) :: rest

/-- `checksum_key`. -/
def checksumKey (checksum : String) : Option Block :=
  let text := trim checksum
  let size := (String.ofList text).utf8ByteSize
  if size < 2 ∨ 128 < size ∨ size % 2 ≠ 0 then none else (hexDecode text).map Image.keyOf

/-! ### Blocks and containers -/

variable (aes : Aes128)

/-- `decrypt_block`. -/
def decryptBlock (key : Block) (block : Bytes) : Except PictureError Bytes :=
  if block.length < blockHeader then .error .unsupported
  else
    let ciphertext := block.drop blockHeader
    if ciphertext = [] ∨ ciphertext.length % 16 ≠ 0 then .error .unsupported
    else
      match Cbc.decryptPadded (aes key).symm iv ciphertext with
      | none => .error .invalid
      | some clear => validatedJpeg clear

def readU16 (data : Bytes) (offset : ℕ) : Reading PictureError UInt16 := do
  let bytes ← Reading.slice data offset 2 .invalid
  return u16FromBe (bytes.getD 0 0) (bytes.getD 1 0)

def readU32 (data : Bytes) (offset : ℕ) : Reading PictureError ℕ := do
  let bytes ← Reading.slice data offset 4 .invalid
  return (u32FromBe (bytes.getD 0 0) (bytes.getD 1 0) (bytes.getD 2 0) (bytes.getD 3 0)).toNat

/-- The detection data of a block of version 3, and where the next block begins. -/
def skipDetection (raw : Bytes) (version : UInt16) (cursor : ℕ) : Reading PictureError ℕ :=
  if version = 3 then do
    let detection ← readU32 raw (cursor + 2)
    let skipped ← Reading.slice raw (cursor + 6) detection .invalid
    return cursor + (6 + skipped.length)
  else return cursor

/-- The turns of the loop of `little_container` that are left; `first` is the first picture
found. -/
def littleBlocks (key : Block) (raw : Bytes) (version : UInt16) :
    ℕ → ℕ → Option Bytes → Reading PictureError Bytes
  | 0, _, first => Reading.of (first.elim (.error .invalid) .ok)
  | blocks + 1, cursor, first =>
    if raw.length ≤ cursor then Reading.of (first.elim (.error .invalid) .ok)
    else do
      let index ← readU16 raw (cursor + 4)
      let length ← readU32 raw (cursor + 6)
      let block ← Reading.slice raw (cursor + 10) length .invalid
      let next ← skipDetection raw version (cursor + (10 + block.length))
      match decryptBlock aes key block with
      | .ok picture =>
        if index = 1 then return picture
        else littleBlocks key raw version blocks next (some (first.getD picture))
      | .error _ => littleBlocks key raw version blocks next first

def littleContainer (raw : Bytes) (key : Block) : Reading PictureError Bytes := do
  let version ← readU16 raw 12
  littleBlocks aes key raw version maxContainerBlocks 14 none

/-- `decrypt_checksum_picture`. -/
def decryptChecksumPicture (raw : Bytes) (checksum : String) : Reading PictureError Bytes :=
  match checksumKey checksum with
  | none => Reading.of (.error .invalid)
  | some key =>
    if startOfImage <+: raw then Reading.of (validatedJpeg raw)
    else if ascii "hiklittlepic" <+: raw then littleContainer aes raw key
    else if ascii "hikpic" <+: raw then do
      let length ← readU32 raw 9
      let block ← Reading.slice raw 13 length .invalid
      Reading.of (decryptBlock aes key block)
    else Reading.of (decryptBlock aes key raw)

end Alarms

end EzvizBridge
