import EzvizBridge.Lib.Bytes
import EzvizBridge.Lib.Chunks

/-!
# The MPEG transport stream packet format

The format side of a transport stream, with no multiplexer in sight: what a receiver reads from
a 188-byte packet, what it takes a well-formed packet to be, and how it puts the payloads of one
PID back together.

* The *readers* (`syncByte`, `pid`, `unitStart`, `continuity`, `payload`) are the reference
  demultiplexer's view of a raw packet.
* `Packet` is a packet by its contents. Its fields carry the format's rules (a 13-bit PID, a
  four-bit counter, a non-empty payload, 188 bytes in all), so that an ill-formed packet cannot
  be built, and `Packet.bytes` writes it out. One reading lemma per reader says that the bytes of
  a `Packet` read back as its contents.
* `reassemble` joins the payloads of one PID, a new unit at every `payload_unit_start`, and
  `units` applies it to the packets of one PID in a raw stream.
* `CounterRun` says that a list of continuity counters counts up modulo 16.
* `readPes` takes a reassembled unit apart as a PES packet with a presentation time stamp.

`Carries` is the notion a multiplexer proof works with: which units a list of packets carries on
a PID, whatever was read before. It composes (`Carries.append`), and `Carries.units_eq` turns it
into a statement about the raw bytes.
-/

namespace MpegTs

/-- Every transport packet has this many bytes. -/
def packetSize : ℕ := 188

/-! ### Reading a raw packet -/

/-- First byte of the packet. -/
def syncByte (p : Bytes) : UInt8 := p.getD 0 0

/-- The 13-bit packet identifier. -/
def pid (p : Bytes) : UInt16 := u16FromBe (p.getD 1 0 &&& 0x1f) (p.getD 2 0)

/-- The `payload_unit_start_indicator`. -/
def unitStart (p : Bytes) : Bool := p.getD 1 0 &&& 0x40 != 0

/-- The adaptation field control bit that announces an adaptation field. -/
def hasAdaptation (p : Bytes) : Bool := p.getD 3 0 &&& 0x20 != 0

/-- The adaptation field control bit that announces a payload. -/
def hasPayload (p : Bytes) : Bool := p.getD 3 0 &&& 0x10 != 0

/-- The four-bit continuity counter. -/
def continuity (p : Bytes) : UInt8 := p.getD 3 0 &&& 0x0f

/-- Offset of the first payload byte: after the header and the adaptation field, if any. -/
def payloadOffset (p : Bytes) : ℕ :=
  if hasAdaptation p then 5 + (p.getD 4 0).toNat else 4

/-- The payload, the adaptation field dropped. -/
def payload (p : Bytes) : Bytes := p.drop (payloadOffset p)

/-! ### Packets by their contents -/

/-- The adaptation field as it stands in the packet, behind its length byte. -/
def adaptationBytes : Option Bytes → Bytes
  | none => []
  | some field => UInt8.ofNat field.length :: field

/-- A transport packet by its contents. -/
structure Packet where
  /-- A unit begins with the first payload byte. -/
  unitStart : Bool
  pid : UInt16
  continuity : UInt8
  /-- The adaptation field without its length byte. -/
  adaptation : Option Bytes
  payload : Bytes
  pid_lt : pid < 0x2000
  continuity_lt : continuity < 16
  payload_ne : payload ≠ []
  size_eq : 4 + (adaptationBytes adaptation).length + payload.length = packetSize

/-- The `payload_unit_start_indicator` in its place. -/
def startBit (unitStart : Bool) : UInt8 := if unitStart then 0x40 else 0x00

/-- The adaptation field control: payload only, or adaptation field and payload. -/
def controlBits (adaptation : Bool) : UInt8 := if adaptation then 0x30 else 0x10

/-- The four header bytes. -/
def headerBytes (unitStart : Bool) (pid : UInt16) (continuity : UInt8) (adaptation : Bool) :
    Bytes :=
  [0x47, startBit unitStart ||| ((pid >>> 8).toUInt8 &&& 0x1f), pid.toUInt8,
    controlBits adaptation ||| continuity]

/-- The 188 bytes of a packet. -/
def Packet.bytes (p : Packet) : Bytes :=
  headerBytes p.unitStart p.pid p.continuity p.adaptation.isSome ++
    adaptationBytes p.adaptation ++ p.payload

namespace Packet

variable (p : Packet)

theorem length_bytes : p.bytes.length = packetSize := by
  have h := p.size_eq
  simp only [bytes, headerBytes, List.length_append, List.length_cons, List.length_nil]
  omega

@[simp] theorem syncByte_bytes : syncByte p.bytes = 0x47 := rfl

/-- The PID is read back. -/
@[simp] theorem pid_bytes : MpegTs.pid p.bytes = p.pid := by
  -- the start bit is outside the mask
  have hmask : ∀ s : Bool, ∀ x : UInt8,
      (startBit s ||| (x &&& 0x1f)) &&& 0x1f = x &&& 0x1f := by
    decide +kernel
  have hlt : p.pid.toNat < 0x2000 := p.pid_lt
  have hmod := Nat.and_two_pow_sub_one_eq_mod ((p.pid >>> 8).toUInt8.toNat) 5
  change u16FromBe ((startBit p.unitStart ||| ((p.pid >>> 8).toUInt8 &&& 0x1f)) &&& 0x1f)
    p.pid.toUInt8 = p.pid
  rw [hmask]
  apply UInt16.toNat_inj.1
  rw [toNat_u16FromBe]
  simp at hmod
  simp [hmod]
  omega

@[simp] theorem unitStart_bytes : MpegTs.unitStart p.bytes = p.unitStart := by
  have h : ∀ s : Bool, ∀ x : UInt8,
      ((startBit s ||| (x &&& 0x1f)) &&& 0x40 != 0) = s := by
    decide +kernel
  exact h p.unitStart _

private theorem control_bits : ∀ a : Bool, ∀ c : UInt8, c < 16 →
    ((controlBits a ||| c) &&& 0x0f = c) ∧
    (((controlBits a ||| c) &&& 0x10 != 0) = true) ∧
    (((controlBits a ||| c) &&& 0x20 != 0) = a) := by
  decide +kernel

@[simp] theorem continuity_bytes : MpegTs.continuity p.bytes = p.continuity :=
  (control_bits p.adaptation.isSome p.continuity p.continuity_lt).1

@[simp] theorem hasPayload_bytes : hasPayload p.bytes = true :=
  (control_bits p.adaptation.isSome p.continuity p.continuity_lt).2.1

/-- A packet has an adaptation field if it was given one. -/
@[simp] theorem hasAdaptation_bytes : hasAdaptation p.bytes = p.adaptation.isSome :=
  (control_bits p.adaptation.isSome p.continuity p.continuity_lt).2.2

/-- The payload starts behind the header and the adaptation field. -/
theorem payloadOffset_bytes :
    payloadOffset p.bytes = 4 + (adaptationBytes p.adaptation).length := by
  have hsize := p.size_eq
  have hpos : 0 < p.payload.length := List.length_pos_iff.mpr p.payload_ne
  unfold payloadOffset
  rw [hasAdaptation_bytes]
  -- with a field or without
  cases hfield : p.adaptation with
  | none => rfl
  | some field =>
    rw [hfield] at hsize
    simp only [adaptationBytes, List.length_cons, packetSize] at hsize
    have hlt : field.length < 256 := by omega
    have hbyte : p.bytes.getD 4 0 = UInt8.ofNat field.length := by
      simp [bytes, headerBytes, hfield, adaptationBytes]
    rw [hbyte]
    simp only [Option.isSome_some, ↓reduceIte, adaptationBytes, List.length_cons,
      UInt8.toNat_ofNat', Nat.mod_eq_of_lt hlt]
    omega

/-- The adaptation field ends inside the packet and leaves at least one payload byte. -/
theorem payloadOffset_lt : payloadOffset p.bytes < packetSize := by
  have hsize := p.size_eq
  have hpos : 0 < p.payload.length := List.length_pos_iff.mpr p.payload_ne
  rw [payloadOffset_bytes]
  omega

/-- The payload is read back. -/
@[simp] theorem payload_bytes : MpegTs.payload p.bytes = p.payload := by
  have hlen : (headerBytes p.unitStart p.pid p.continuity p.adaptation.isSome ++
      adaptationBytes p.adaptation).length = 4 + (adaptationBytes p.adaptation).length := by
    rw [List.length_append]
    rfl
  rw [MpegTs.payload, payloadOffset_bytes]
  exact List.drop_left' hlen

end Packet

/-! ### Reassembly -/

/-- Append payload bytes to the unit that is open, the last one; there is none before the first
`payload_unit_start`. -/
def extendLast : List Bytes → Bytes → Option (List Bytes)
  | [], _ => none
  | [u], d => some [u ++ d]
  | u :: v :: us, d => (extendLast (v :: us) d).map (u :: ·)

/-- One packet of a PID: open a unit on `payload_unit_start`, then append the payload. -/
def reassembleStep (units : List Bytes) (p : Bool × Bytes) : Option (List Bytes) :=
  extendLast (if p.1 then units ++ [[]] else units) p.2

/-- The units carried by the packets of one PID, given as start flag and payload. -/
def reassemble (ps : List (Bool × Bytes)) : Option (List Bytes) :=
  ps.foldlM reassembleStep []

/-- The last unit is extended. -/
theorem extendLast_append (us : List Bytes) (u d : Bytes) :
    extendLast (us ++ [u]) d = some (us ++ [u ++ d]) := by
  induction us with
  | nil => rfl
  | cons v us ih =>
    cases us with
    | nil => rfl
    | cons w us =>
      change (extendLast (w :: us ++ [u]) d).map (v :: ·) = _
      rw [ih]
      rfl

/-- Packets without a start flag extend the open unit. -/
theorem foldlM_continue (us : List Bytes) (u : Bytes) (ds : List Bytes) :
    (ds.map (Prod.mk false)).foldlM reassembleStep (us ++ [u]) =
      some (us ++ [u ++ ds.flatten]) := by
  induction ds generalizing u with
  | nil => simp
  | cons d ds ih =>
    change (extendLast (us ++ [u]) d).bind
      (fun s => (ds.map (Prod.mk false)).foldlM reassembleStep s) = _
    rw [extendLast_append, Option.bind_some, ih, List.flatten_cons, List.append_assoc]

/-- **One unit.** A start packet and its continuation packets add exactly one unit, the
concatenation of their payloads. -/
theorem foldlM_unit (us : List Bytes) (d : Bytes) (ds : List Bytes) :
    ((true, d) :: ds.map (Prod.mk false)).foldlM reassembleStep us =
      some (us ++ [(d :: ds).flatten]) := by
  change (extendLast (us ++ [[]]) d).bind
    (fun s => (ds.map (Prod.mk false)).foldlM reassembleStep s) = _
  rw [extendLast_append, Option.bind_some, foldlM_continue, List.nil_append, List.flatten_cons]

/-- Start flag and payload of the packets of one PID. -/
def contents (ps : List Packet) (wanted : UInt16) : List (Bool × Bytes) :=
  (ps.filter (fun p => p.pid = wanted)).map (fun p => (p.unitStart, p.payload))

/-- The packets `ps` carry exactly the units `us` on the PID `wanted`, whatever was read before
them. -/
def Carries (ps : List Packet) (wanted : UInt16) (us : List Bytes) : Prop :=
  ∀ before, (contents ps wanted).foldlM reassembleStep before = some (before ++ us)

theorem contents_append (ps qs : List Packet) (wanted : UInt16) :
    contents (ps ++ qs) wanted = contents ps wanted ++ contents qs wanted := by
  simp only [contents, List.filter_append, List.map_append]

/-- Units behind units. -/
theorem Carries.append {ps qs : List Packet} {wanted : UInt16} {us vs : List Bytes}
    (hp : Carries ps wanted us) (hq : Carries qs wanted vs) :
    Carries (ps ++ qs) wanted (us ++ vs) := by
  intro before
  rw [contents_append, List.foldlM_append, hp before]
  change (contents qs wanted).foldlM reassembleStep (before ++ us) = _
  rw [hq, List.append_assoc]

/-- Packets of other PIDs carry nothing. -/
theorem Carries.of_ne {ps : List Packet} {wanted : UInt16} (h : ∀ p ∈ ps, p.pid ≠ wanted) :
    Carries ps wanted [] := by
  intro before
  have hempty : contents ps wanted = [] := by
    unfold contents
    rw [List.filter_eq_nil_iff.mpr (fun p hp => by simpa using h p hp), List.map_nil]
  rw [hempty, List.append_nil]
  rfl

/-- A start packet followed by continuation packets of the same PID carries one unit. -/
theorem Carries.unit {p : Packet} {ps : List Packet} {wanted : UInt16}
    (hpid : ∀ q ∈ p :: ps, q.pid = wanted) (hstart : p.unitStart = true)
    (hcont : ∀ q ∈ ps, q.unitStart = false) :
    Carries (p :: ps) wanted [((p :: ps).map Packet.payload).flatten] := by
  intro before
  -- all of the packets are of the PID
  have hall : (p :: ps).filter (fun q => q.pid = wanted) = p :: ps :=
    List.filter_eq_self.mpr (fun q hq => by simpa using hpid q hq)
  have hrest : ps.map (fun q => (q.unitStart, q.payload)) =
      (ps.map Packet.payload).map (Prod.mk false) := by
    rw [List.map_map]
    exact List.map_congr_left fun q hq => by simp [hcont q hq]
  unfold contents
  rw [hall, List.map_cons, hstart, hrest, foldlM_unit, List.map_cons]

/-- The raw packets of a stream. -/
def packets (stream : Bytes) : List Bytes := chunks packetSize stream

/-- The reference demultiplexer: the units of one PID in a raw stream. -/
def units (stream : Bytes) (wanted : UInt16) : Option (List Bytes) :=
  reassemble (((packets stream).filter (fun p => pid p = wanted)).map
    (fun p => (unitStart p, payload p)))

/-- The packets of the concatenated bytes are the bytes of the packets. -/
theorem packets_flatten (ps : List Packet) :
    packets (ps.map Packet.bytes).flatten = ps.map Packet.bytes := by
  refine chunks_flatten (by decide) ?_
  intro b hb
  obtain ⟨p, -, rfl⟩ := List.mem_map.mp hb
  exact p.length_bytes

/-- **Demultiplexing the bytes of packets.** The units read from the raw bytes are the reassembly
of the packets' own payloads. -/
theorem units_flatten (ps : List Packet) (wanted : UInt16) :
    units (ps.map Packet.bytes).flatten wanted = reassemble (contents ps wanted) := by
  unfold units contents
  rw [packets_flatten, List.filter_map, List.map_map]
  simp [Function.comp_def]

/-- The units of the bytes of packets that carry `us` are `us`. -/
theorem Carries.units_eq {ps : List Packet} {wanted : UInt16} {us : List Bytes}
    (h : Carries ps wanted us) : units (ps.map Packet.bytes).flatten wanted = some us := by
  rw [units_flatten]
  exact h []

/-! ### Continuity counters -/

/-- The counter that follows `c` on the same PID. -/
def nextCounter (c : UInt8) : UInt8 := (c + 1) &&& 0x0f

/-- The counters `cs` run from `c` up to, not including, `c'`. -/
def CounterRun : UInt8 → List UInt8 → UInt8 → Prop
  | c, [], c' => c = c'
  | c, x :: cs, c' => x = c ∧ CounterRun (nextCounter c) cs c'

/-- A run of the counter behind a run. -/
theorem CounterRun.append {c c' c'' : UInt8} {cs ds : List UInt8}
    (h : CounterRun c cs c') (h' : CounterRun c' ds c'') : CounterRun c (cs ++ ds) c'' := by
  induction cs generalizing c with
  | nil =>
    obtain rfl : c = c' := h
    exact h'
  | cons x cs ih => exact ⟨h.1, ih h.2⟩

theorem nextCounter_lt (c : UInt8) : nextCounter c < 16 := by
  have h : ∀ c : UInt8, (c + 1) &&& 0x0f < 16 := by decide +kernel
  exact h c

theorem toNat_nextCounter {c : UInt8} (h : c < 16) :
    (nextCounter c).toNat = (c.toNat + 1) % 16 := by
  have h' : ∀ c : UInt8, c < 16 → ((c + 1) &&& 0x0f).toNat = (c.toNat + 1) % 16 := by
    decide +kernel
  exact h' c h

/-- Along a run every counter is its predecessor plus one modulo 16. -/
theorem CounterRun.isChain {c c' : UInt8} {cs : List UInt8} (h : CounterRun c cs c')
    (hc : c < 16) : cs.IsChain (fun a b => b.toNat = (a.toNat + 1) % 16) := by
  induction cs generalizing c with
  | nil => exact List.isChain_nil
  | cons x cs ih =>
    obtain ⟨rfl, h⟩ := h
    cases cs with
    | nil => exact List.isChain_singleton _
    | cons y cs =>
      refine List.isChain_cons_cons.mpr ⟨?_, ih h (nextCounter_lt x)⟩
      rw [h.1, toNat_nextCounter hc]

/-! ### PES packets -/

/-- A PES packet that carries a presentation time stamp and nothing else in its header. -/
structure Pes where
  streamId : UInt8
  /-- The `PES_packet_length` field; `0` leaves the length open. -/
  packetLength : UInt16
  /-- The 33-bit presentation time stamp. -/
  pts : ℕ
  payload : Bytes
  deriving DecidableEq, Repr

/-- The 33-bit time stamp in the five bytes that hold it between marker bits. -/
def decodePts (a b c d e : UInt8) : ℕ :=
  (a >>> 1 &&& 0x07).toNat * 2 ^ 30 + b.toNat * 2 ^ 22 + (c >>> 1).toNat * 2 ^ 15 +
    d.toNat * 2 ^ 7 + (e >>> 1).toNat

/-- Take a unit apart as a PES packet: start code, stream id, length, a header of exactly five
bytes with a time stamp, payload. -/
def readPes : Bytes → Option Pes
  | 0x00 :: 0x00 :: 0x01 :: id :: l₁ :: l₂ :: 0x80 :: 0x80 :: 0x05 ::
      a :: b :: c :: d :: e :: payload =>
    some ⟨id, u16FromBe l₁ l₂, decodePts a b c d e, payload⟩
  | _ => none

/-- The stream entries of a PMT: type, PID, and a descriptor loop that is skipped. -/
def pmtEntries : ℕ → Bytes → List (UInt8 × UInt16)
  | fuel + 1, kind :: hi :: lo :: i₁ :: i₂ :: rest =>
    (kind, u16FromBe (hi &&& 0x1f) lo) ::
      pmtEntries fuel (rest.drop (u16FromBe (i₁ &&& 0x0f) i₂).toNat)
  | _, _ => []

/-- The streams listed by the PMT section that opens in a packet payload: past the pointer field,
twelve bytes of header and the program descriptors, and up to the CRC. -/
def pmtStreams (payload : Bytes) : List (UInt8 × UInt16) :=
  let sec := payload.drop 1
  let length := (u16FromBe (sec.getD 1 0 &&& 0x0f) (sec.getD 2 0)).toNat
  let info := (u16FromBe (sec.getD 10 0 &&& 0x0f) (sec.getD 11 0)).toNat
  let entries := (sec.take (3 + length - 4)).drop (12 + info)
  pmtEntries entries.length entries

/-- The PES packets of one PID in a raw stream. -/
def pesPackets (stream : Bytes) (wanted : UInt16) : Option (List Pes) :=
  (units stream wanted).bind (·.mapM readPes)

end MpegTs
