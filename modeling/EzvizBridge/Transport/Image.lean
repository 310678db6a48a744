import EzvizBridge.Lib.Cbc
import EzvizBridge.Lib.Markers
import EzvizBridge.Transport.VideoCipher

/-!
# Encrypted pictures of a camera

`transport/image.rs`. A picture is a sequence of blocks, each behind the marker `hikencodepicture`
and the MD5 of the MD5 of the password, both in hex. What is in front of the first marker is
skipped.

`md5` is the digest of another crate, and a password is its bytes. The loop over the blocks is told
with the places that it visits (`decryptBlocks`).
-/

namespace EzvizBridge

namespace Image

/-- A byte string literal. -/
def ascii (text : String) : Bytes := text.toList.map fun character => character.toNat.toUInt8

def header : Bytes := ascii "hikencodepicture"

def hashBytes : ℕ := 32

theorem length_keyOf (text : Bytes) : (resize text 16 0).length = 16 := length_resize text 16 0

/-- The first bytes of a text as a key. -/
def keyOf (text : Bytes) : Block := ⟨resize text 16 0, length_keyOf text⟩

/-- The initialization vector of all pictures. -/
def iv : Block := ⟨[0x30, 0x31, 0x32, 0x33, 0x34, 0x35, 0x36, 0x37, 0, 0, 0, 0, 0, 0, 0, 0], rfl⟩

/-- `hex::encode` of an MD5 digest. -/
def hexEncode (digest : BitVec 128) : Bytes :=
  (List.range hashBytes).map fun place =>
    (Nat.digitChar (digest.toNat / 16 ^ (31 - place) % 16)).toNat.toUInt8

section

variable (md5 : Bytes → BitVec 128) (aes : Aes128)

/-- The MD5 of the MD5 of a password, both in hex. -/
def expected (password : Bytes) : Bytes := hexEncode (md5 (hexEncode (md5 password)))

/-- `decrypt_block`. -/
def decryptBlock (block password : Bytes) : Except BridgeError Bytes :=
  let hashEnd := header.length + hashBytes
  if block.length ≤ hashEnd then .error (.upstream "encrypted image is truncated")
  else if (block.take hashEnd).drop header.length ≠ expected md5 password then
    .error (.upstream "camera image key was rejected")
  else
    let aligned := (block.length - hashEnd) / 16 * 16
    let ciphertext := (block.drop hashEnd).take aligned
    match Cbc.decryptPadded (aes (keyOf password)).symm iv ciphertext with
    | some clear => .ok clear
    | none => .error (.upstream "encrypted image padding is invalid")

/-- Where the block at `cursor` ends: at the next marker, or with the data. -/
def blockEnd (data : Bytes) (cursor : ℕ) : ℕ :=
  let search := cursor + header.length
  match Markers.first header (data.drop search) with
  | some position => search + position
  | none => data.length

theorem lt_blockEnd {data : Bytes} {cursor : ℕ} (h : cursor < data.length) :
    cursor < blockEnd data cursor := by
  have hheader : header.length = 16 := rfl
  unfold blockEnd
  dsimp only
  split <;> omega

/-- The `while` loop of `decrypt_image`: what it adds to `output`, and the places of the blocks that
it decrypts. -/
def decryptBlocks (data password : Bytes) (cursor : ℕ) (output : Bytes) :
    Except BridgeError Bytes × List ℕ :=
  if cursor < data.length then
    if ¬Markers.At header data cursor then (.ok output, [])
    else
      let stop := blockEnd data cursor
      match decryptBlock md5 aes ((data.take stop).drop cursor) password with
      | .error error => (.error error, [cursor])
      | .ok clear =>
        let (result, visited) := decryptBlocks data password stop (output ++ clear)
        (result, cursor :: visited)
  else (.ok output, [])
termination_by data.length - cursor
decreasing_by
  have := lt_blockEnd ‹cursor < data.length›
  omega

/-- `decrypt_image`. -/
def decryptImage (input password : Bytes) : Except BridgeError Bytes :=
  match Markers.first header input with
  | none => .ok input
  | some start =>
    match (decryptBlocks md5 aes (input.drop start) password 0 []).1 with
    | .error error => .error error
    | .ok output =>
      if output = [] then .error (.upstream "invalid encrypted image payload") else .ok output

end

/-- `jpeg_slice`. -/
def jpegSlice (data : Bytes) : Except BridgeError Bytes :=
  let invalid := .error (.upstream "snapshot payload is not a JPEG")
  match Markers.first [0xff, 0xd8, 0xff] data with
  | none => invalid
  | some start =>
    match Markers.last [0xff, 0xd9] data with
    | none => invalid
    | some stop => if stop < start then invalid else .ok ((data.take (stop + 2)).drop start)

end Image

end EzvizBridge
