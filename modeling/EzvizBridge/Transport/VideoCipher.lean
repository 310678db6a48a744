import EzvizBridge.Basic
import EzvizBridge.Lib.Ecb
import Mathlib.Data.List.Dedup

/-!
# The NAL decryptor (`transport/video_cipher.rs`, `transport/video_cipher_pending.rs`)

`NalDecryptor::feed` takes the NAL units of one session in order and returns Annex-B chunks, each
tagged with the RTP timestamp of its NAL. Without a key the stream is clear by definition. With a
key, `classify` fixes the encryption mode once, from the first NAL that reads as a parameter set
in one of the known layouts. In the layout with a clear NAL header, whether inter slices are
encrypted is decided later, from eight samples; until then every NAL waits in `pending`.

AES-128 is not part of the repository. It is a parameter `aes`, a permutation of 16-byte blocks
for each key, and nothing more is known of it: `decrypt_block` is the inverse permutation.
-/

namespace EzvizBridge

/-- A 16-byte block, and a key. -/
abbrev Block := BlockOf UInt8 16

/-- AES-128 as far as the bridge relies on it: for each key a permutation of blocks. -/
abbrev Aes128 := Block → Equiv.Perm Block

/-- Annex-B output, each part tagged with the RTP timestamp of its NAL. -/
abbrev Chunks := List (UInt32 × Bytes)

def startCode : Bytes := [0x00, 0x00, 0x00, 0x01]

def annexB (nal : Bytes) : Bytes := startCode ++ nal

def encryptedPrefixBytes : ℕ := 4096

/-- `EncryptionMode`. -/
inductive EncryptionMode
  | unknown
  | clear
  | encrypted (clear drop : ℕ)
  deriving DecidableEq, Repr

/-- `PendingNal`: a held NAL keeps the RTP timestamp it arrived with. -/
inductive PendingNal
  | ready (stamp : UInt32) (data : Bytes)
  | inter (stamp : UInt32) (nal : Bytes) (header : ℕ)
  deriving DecidableEq, Repr

/-- `NalDecryptor`. -/
structure NalDecryptor where
  codec : VideoCodec
  key : Block
  mode : EncryptionMode
  interEncrypted : Option Bool
  interClear : Bytes
  interDecrypted : Bytes
  pending : Option (List PendingNal)
  pendingBytes : ℕ
  /-- RTP timestamp of the NAL being fed. -/
  stamp : UInt32
  deriving DecidableEq

/-- Length of the NAL header. -/
def VideoCodec.header : VideoCodec → ℕ
  | .h264 => 1
  | .hevc => 2

/-- The first body byte of a clear parameter set: `profile_idc` of an SPS, the fixed first byte
of a VPS. -/
def VideoCodec.bodyMarker : VideoCodec → UInt8 → Bool
  | .h264, b => b ∈ [44, 66, 77, 83, 86, 88, 100, 110, 118, 122, 128, 244]
  | .hevc, b => b == 0x0c

/-- The NAL unit type in the first header byte. -/
def VideoCodec.nalType : VideoCodec → UInt8 → UInt8
  | .h264, first => first &&& 0x1f
  | .hevc, first => first >>> 1 &&& 0x3f

def VideoCodec.isParamSet (codec : VideoCodec) (first : UInt8) : Bool :=
  match codec with
  | .h264 => codec.nalType first == 7
  | .hevc => codec.nalType first == 32

def VideoCodec.encryptedNalType (codec : VideoCodec) (first : UInt8) : Bool :=
  match codec with
  | .h264 => codec.nalType first ∈ [5, 7, 8]
  | .hevc => codec.nalType first ∈ [16, 17, 18, 19, 20, 21, 32, 33, 34]

def uniqueCount (values : Bytes) : ℕ := values.dedup.length

/-- The first sixteen bytes as a block; every caller has checked that they are there. -/
def toBlock (value : Bytes) : Block := ⟨resize value 16 0, length_resize value 16 0⟩

namespace NalDecryptor

def maxPendingBytes : ℕ := 4 * 1024 * 1024

def interSamples : ℕ := 8

variable (aes : Aes128)

/-- Without a key the stream is clear by definition: no classification, no buffering, every NAL
is passed through in Annex-B form. -/
def new (codec : VideoCodec) (key : Option Block) : NalDecryptor where
  codec := codec
  key := key.getD ⟨List.replicate 16 0, List.length_replicate⟩
  mode := if key.isNone then .clear else .unknown
  interEncrypted := none
  interClear := []
  interDecrypted := []
  pending := if key.isNone then none else some []
  pendingBytes := 0
  stamp := 0

def decryptFirst (self : NalDecryptor) (value : Bytes) : Bytes :=
  ((aes self.key).symm (toBlock value)).1

def decryptPrefix (self : NalDecryptor) (value : Bytes) : Bytes :=
  mapBlocks (aes self.key).symm (min value.length encryptedPrefixBytes / 16) value

def interBytes (self : NalDecryptor) (nal : Bytes) (header : ℕ) : Bytes :=
  if self.interEncrypted = some true then
    annexB (nal.take header ++ self.decryptPrefix aes (nal.drop header))
  else annexB nal

/-- What a held NAL is released as. -/
def release (self : NalDecryptor) : PendingNal → UInt32 × Bytes
  | .ready stamp data => (stamp, data)
  | .inter stamp nal header => (stamp, self.interBytes aes nal header)

def flushPending (self : NalDecryptor) : Chunks × NalDecryptor :=
  let pending := self.pending.getD []
  let self := { self with pending := none, pendingBytes := 0 }
  (pending.map (self.release aes), self)

def guardPending (self : NalDecryptor) : Chunks × NalDecryptor :=
  if self.pendingBytes ≤ maxPendingBytes then ([], self)
  else flushPending aes { self with interEncrypted := some false }

def put (self : NalDecryptor) (data : Bytes) : Chunks × NalDecryptor :=
  match self.pending with
  | none => ([(self.stamp, data)], self)
  | some pending =>
    guardPending aes { self with
      pendingBytes := self.pendingBytes + data.length
      pending := some (pending ++ [.ready self.stamp data]) }

/-- The two samples of an inter NAL that is long enough, and the decision once there are eight. -/
def sampleInter (self : NalDecryptor) (nal : Bytes) (header : ℕ) : NalDecryptor :=
  if nal.length ≥ header + 16 then
    let self := { self with
      interClear := self.interClear ++ [nal.getD header 0]
      interDecrypted := self.interDecrypted ++
        [(self.decryptFirst aes (nal.drop header)).getD 0 0] }
    if self.interClear.length ≥ interSamples then
      { self with
        interEncrypted := some (decide (uniqueCount self.interDecrypted * 4 + interSamples <
          uniqueCount self.interClear * 4)) }
    else self
  else self

def putInter (self : NalDecryptor) (nal : Bytes) (header : ℕ) : Chunks × NalDecryptor :=
  match self.pending with
  | none => ([(self.stamp, self.interBytes aes nal header)], self)
  | some pending =>
    let self := { self with
      pendingBytes := self.pendingBytes + nal.length
      pending := some (pending ++ [PendingNal.inter self.stamp nal header]) }
    let self := self.sampleInter aes nal header
    if self.interEncrypted.isSome then self.flushPending aes else self.guardPending aes

def emitHint (self : NalDecryptor) (nal : Bytes) (drop : ℕ) : Chunks × NalDecryptor :=
  if nal.length ≥ drop + 16 ∧ (self.decryptFirst aes (nal.drop drop)).take drop = nal.take drop then
    self.put aes (annexB (self.decryptPrefix aes (nal.drop drop)))
  else if nal.length ≥ drop * 2 ∧ (nal.drop drop).take drop = nal.take drop then
    self.put aes (annexB (nal.drop drop))
  else
    self.put aes (annexB nal)

/-- `Ok` around the chunks, the decryptor behind. -/
def okOf (r : Chunks × NalDecryptor) : Outcome NalDecryptor Chunks := (.ok r.1, r.2)

def emitNal (self : NalDecryptor) (nal : Bytes) : Outcome NalDecryptor Chunks :=
  match self.mode with
  | .unknown => (.ok [], self)
  | .clear => okOf (self.put aes (annexB nal))
  | .encrypted clear drop =>
    if drop > 0 then okOf (self.emitHint aes nal drop)
    else if clear = 0 then okOf (self.put aes (annexB (self.decryptPrefix aes nal)))
    else if drop = 0 then
      if nal.length ≤ clear then okOf (self.put aes (annexB nal))
      else if self.codec.encryptedNalType (nal.getD 0 0) then
        okOf (self.put aes (annexB (nal.take clear ++ self.decryptPrefix aes (nal.drop clear))))
      else okOf (self.putInter aes nal clear)
    else (.error (.upstream "invalid encrypted-video mode"), self)

/-- The layout a decrypted block is checked for: a parameter set with its body marker. -/
def readsAsParamSet (codec : VideoCodec) (decoded : Bytes) : Bool :=
  codec.isParamSet (decoded.getD 0 0) && (decoded[codec.header]?).any codec.bodyMarker

def classify (self : NalDecryptor) (nal : Bytes) (header : ℕ) : Outcome NalDecryptor Unit :=
  if self.mode ≠ .unknown then (.ok (), self)
  else
    let paramSet := self.codec.isParamSet (nal.getD 0 0)
    if paramSet && (nal[header]?).any self.codec.bodyMarker then
      -- a marker in the raw bytes
      (.ok (), { self with mode := .clear })
    else if paramSet && nal.length ≥ header + 16 &&
        self.codec.bodyMarker ((self.decryptFirst aes (nal.drop header)).getD 0 0) then
      -- a marker behind one decryption: the NAL header is in the clear
      (.ok (), { self with mode := .encrypted header 0 })
    else if nal.length ≥ header + 16 &&
        readsAsParamSet self.codec (self.decryptFirst aes (nal.drop header)) then
      -- a whole parameter set behind the header: the header is duplicated
      (.ok (), { self with mode := .encrypted 0 header })
    else if nal.length ≥ 16 && readsAsParamSet self.codec (self.decryptFirst aes nal) then
      -- or from the first byte on
      (.ok (), { self with mode := .encrypted 0 0 })
    else if paramSet && nal.length ≥ header + 16 then (.error .keyRejected, self)
    else (.ok (), self)

/-- The mode in which NALs wait for the inter decision. -/
def headerClear : EncryptionMode → Bool
  | .encrypted clear 0 => clear > 0
  | _ => false

def feed (self : NalDecryptor) (stamp : UInt32) (nal : Bytes) : Outcome NalDecryptor Chunks :=
  let self := { self with stamp := stamp }
  let header := self.codec.header
  if nal.length < header then (.ok [], self)
  else
    match self.classify aes nal header with
    | (.error e, self) => (.error e, self)
    | (.ok (), self) =>
      if self.mode = .unknown then (.ok [], self)
      else
        let self := if self.pending.isSome && !headerClear self.mode then
          { self with pending := none } else self
        self.emitNal aes nal

end NalDecryptor

end EzvizBridge
