import EzvizBridge.Lib.Bytes

/-!
# Shared vocabulary of the bridge

The error type of `error.rs`, the codec of `transport/video.rs`, and the few operations of the
Rust standard library that the transport code uses and that have no direct counterpart on lists:
`Vec::resize`, and the checked narrowing conversions `u16::try_from` and `u8::try_from`.
-/

namespace EzvizBridge

/-- `BridgeError`. The variants that wrap an error of another crate keep only its text. -/
inductive BridgeError
  | configuration (detail : String)
  /-- The camera rejected every verification code (never a session error). -/
  | keyRejected
  | reauthRequired
  | sessionExpired
  | timeout
  | invalidCredentials
  | invalidOtp
  | enrollmentBusy
  | enrollmentExpired
  | cameraNotFound
  | cameraOffline
  | sdNoRecording
  | unsupportedMedia
  | capacity (detail : String)
  | recording (detail : String)
  | recordingActive
  | upstream (detail : String)
  | upstreamUnavailable
  | io (detail : String)
  | http (detail : String)
  | json (detail : String)
  | task (detail : String)
  deriving DecidableEq, Repr

/-- What a method on `&mut self` leaves behind: its result, and the object, which keeps what was
written to it before an early return. -/
abbrev Outcome (σ α : Type) := Except BridgeError α × σ

/-- `VideoCodec`. -/
inductive VideoCodec
  | h264
  | hevc
  deriving DecidableEq, Repr

/-- `Vec::resize`: cut or pad with `value` to exactly `len` elements. -/
def resize {α : Type} (l : List α) (len : ℕ) (value : α) : List α :=
  l.take len ++ List.replicate (len - l.length) value

/-- `u16::try_from` on a length. -/
def u16TryFrom (n : ℕ) : Option UInt16 :=
  if n < 65536 then some (UInt16.ofNat n) else none

/-- `u8::try_from` on a length. -/
def u8TryFrom (n : ℕ) : Option UInt8 :=
  if n < 256 then some (UInt8.ofNat n) else none

@[simp] theorem length_resize {α : Type} (l : List α) (len : ℕ) (value : α) :
    (resize l len value).length = len := by
  simp only [resize, List.length_append, List.length_take, List.length_replicate]
  omega

theorem resize_of_le {α : Type} {l : List α} {len : ℕ} (h : l.length ≤ len) (value : α) :
    resize l len value = l ++ List.replicate (len - l.length) value := by
  rw [resize, List.take_of_length_le h]

theorem u8TryFrom_of_lt {n : ℕ} (h : n < 256) : u8TryFrom n = some (UInt8.ofNat n) :=
  if_pos h

end EzvizBridge
