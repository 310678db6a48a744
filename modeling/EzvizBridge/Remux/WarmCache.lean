import EzvizBridge.Lib.Bytes
import Mathlib.Data.List.Basic
import Mathlib.Tactic.Common

/-!
# The warm cache of the MPEG-TS hub (`remux_warm.rs`)

The cache keeps the transport stream packets from a little before the last random access point on,
so that a late subscriber can start to decode at once. It is fed with whatever the pipe of FFmpeg
delivers, cut anywhere: `pending` holds the bytes of a packet that is not complete yet.

`Holds c ps tail` describes the cache after the packets `ps` and the bytes `tail` of the next one.
For a stream of aligned packets the search for the sync byte never skips anything, so that `ingest`
extends `ps` by the packets that its bytes complete (`Holds.ingest`), however the stream is cut.
-/

namespace EzvizBridge

namespace Remux

def tsPacketBytes : ℕ := 188

def recentPacketLimit : ℕ := 512

def maxWarmBytes : ℕ := 8 * 1024 * 1024

def maxIngestBytes : ℕ := 64 * 1024

/-- `is_random_access`. -/
def isRandomAccess (packet : Bytes) : Bool :=
  let adaptationControl := (packet.getD 3 0 >>> 4) &&& 0x03
  let adaptationLength := (packet.getD 4 0).toNat
  (adaptationControl == 2 || adaptationControl == 3) &&
    decide (0 < adaptationLength ∧ adaptationLength ≤ tsPacketBytes - 5) &&
    packet.getD 5 0 &&& 0x40 != 0

end Remux

open Remux

/-- `TsWarmCache`. The deque of recent packets is a list, oldest first. -/
structure TsWarmCache where
  pending : Bytes := []
  recent : List Bytes := []
  segment : Bytes := []
  recentLimit : ℕ := recentPacketLimit
  maximumBytes : ℕ := maxWarmBytes
  ready : Bool := false
  deriving DecidableEq, Repr

namespace TsWarmCache

def clear (self : TsWarmCache) : TsWarmCache :=
  { self with pending := [], recent := [], segment := [], ready := false }

def snapshot (self : TsWarmCache) : Option Bytes :=
  if self.ready ∧ self.segment ≠ [] then some self.segment else none

/-- The two branches of `consume_packet` that maintain the segment. -/
def extendSegment (self : TsWarmCache) (packet : Bytes) : TsWarmCache :=
  if isRandomAccess packet then
    let segment := self.recent.flatten ++ packet
    { self with segment, ready := decide (segment.length ≤ self.maximumBytes) }
  else if self.ready then
    if self.segment.length + tsPacketBytes ≤ self.maximumBytes then
      { self with segment := self.segment ++ packet }
    else { self with segment := [], ready := false }
  else self

/-- `TsWarmCache::consume_packet`. -/
def consumePacket (self : TsWarmCache) (packet : Bytes) : TsWarmCache :=
  let self := self.extendSegment packet
  let recent := self.recent ++ [packet]
  { self with recent := recent.drop (recent.length - self.recentLimit) }

/-- The loop of `consume_packets` over `pending[offset..]`; every pass moves the offset, so that
the number of pending bytes bounds the passes. -/
def consumeLoop : ℕ → TsWarmCache → Bytes → TsWarmCache × Bytes
  | 0, self, rest => (self, rest)
  | fuel + 1, self, rest =>
    if tsPacketBytes ≤ rest.length then
      if rest.getD 0 0 ≠ 0x47 then consumeLoop fuel self (rest.drop 1)
      else if tsPacketBytes * 2 ≤ rest.length ∧ rest.getD tsPacketBytes 0 ≠ 0x47 then
        consumeLoop fuel self (rest.drop 1)
      else
        consumeLoop fuel (self.consumePacket (rest.take tsPacketBytes)) (rest.drop tsPacketBytes)
    else (self, rest)

def consumePackets (self : TsWarmCache) : TsWarmCache :=
  let (self, rest) := consumeLoop self.pending.length self self.pending
  { self with pending := rest.drop (rest.length - (tsPacketBytes - 1)) }

/-- `TsWarmCache::ingest`. -/
def ingest (self : TsWarmCache) (bytes : Bytes) : TsWarmCache :=
  if maxIngestBytes < bytes.length ∨
      maxIngestBytes + tsPacketBytes < self.pending.length + bytes.length then
    self.clear
  else { self with pending := self.pending ++ bytes }.consumePackets

/-! ### Aligned streams -/

/-- A packet of an aligned stream: 188 bytes, the sync byte first. -/
def Synced (packet : Bytes) : Prop := packet.length = tsPacketBytes ∧ packet.head? = some 0x47

/-- The first bytes of a packet, but not all of them. -/
def OpenPacket (tail : Bytes) : Prop :=
  tail.length < tsPacketBytes ∧ (tail = [] ∨ tail.head? = some 0x47)

/-- The cache after the packets `ps` and the first bytes `tail` of the next one: the recent packets
and, when it is ready, the segment end where `ps` ends. -/
structure Holds (c : TsWarmCache) (ps : List Bytes) (tail : Bytes) : Prop where
  pending : c.pending = tail
  recent : c.recent <:+ ps
  segment : c.ready = true → ∃ kept, kept <:+ ps ∧ c.segment = kept.flatten

theorem holds_new : Holds {} [] [] where
  pending := rfl
  recent := List.suffix_refl _
  segment := fun h => nomatch h

theorem Holds.consumePacket {c : TsWarmCache} {ps : List Bytes} {tail : Bytes}
    (h : c.Holds ps tail) (packet : Bytes) :
    (c.consumePacket packet).Holds (ps ++ [packet]) tail := by
  have hgrow : ∀ {l : List Bytes}, l <:+ ps → l ++ [packet] <:+ ps ++ [packet] := by
    rintro l ⟨older, rfl⟩
    exact ⟨older, (List.append_assoc _ _ _).symm⟩
  have hrecent : (c.extendSegment packet).recent = c.recent := by
    rw [extendSegment]
    split_ifs <;> rfl
  refine ⟨?_, ?_, fun hready => ?_⟩
  · change (c.extendSegment packet).pending = tail
    rw [← h.pending, extendSegment]
    split_ifs <;> rfl
  · change List.drop _ ((c.extendSegment packet).recent ++ [packet]) <:+ _
    rw [hrecent]
    exact (List.drop_suffix _ _).trans (hgrow h.recent)
  · change (c.extendSegment packet).ready = true at hready
    change ∃ kept, _ ∧ (c.extendSegment packet).segment = _
    rw [extendSegment] at hready ⊢
    split_ifs at hready ⊢ with hra hr hroom
    · -- a random access point: the segment starts over with the recent packets
      exact ⟨c.recent ++ [packet], hgrow h.recent, List.flatten_concat.symm⟩
    · obtain ⟨kept, hkept, hseg⟩ := h.segment hr
      refine ⟨kept ++ [packet], hgrow hkept, ?_⟩
      simp only [hseg, List.flatten_concat]
    · exact absurd hready hr

theorem Holds.foldl {c : TsWarmCache} {ps : List Bytes} {tail : Bytes} (h : c.Holds ps tail)
    (qs : List Bytes) : (qs.foldl TsWarmCache.consumePacket c).Holds (ps ++ qs) tail := by
  induction qs generalizing c ps with
  | nil => simpa using h
  | cons q qs ih => simpa using ih (h.consumePacket q)

theorem getD_zero_of_head? {l : Bytes} {b : UInt8} (h : l.head? = some b) : l.getD 0 0 = b := by
  cases l with
  | nil => exact nomatch h
  | cons a l => exact Option.some.inj h

/-- On aligned packets the loop takes one packet after the other, and leaves the open one. -/
theorem consumeLoop_aligned (qs : List Bytes) {tail : Bytes} (hqs : ∀ q ∈ qs, Synced q)
    (htail : OpenPacket tail) {fuel : ℕ} (hfuel : qs.length ≤ fuel) (c : TsWarmCache) :
    consumeLoop fuel c (qs.flatten ++ tail) = (qs.foldl TsWarmCache.consumePacket c, tail) := by
  induction qs generalizing fuel c with
  | nil =>
    cases fuel with
    | zero => rfl
    | succ fuel =>
      rw [consumeLoop]
      exact if_neg (Nat.not_le.mpr htail.1)
  | cons q qs ih =>
    obtain ⟨fuel, rfl⟩ := Nat.exists_eq_succ_of_ne_zero (Nat.ne_of_gt (Nat.lt_of_lt_of_le
      (Nat.zero_lt_succ _) hfuel))
    obtain ⟨⟨hlen, hhead⟩, hrest⟩ := List.forall_mem_cons.mp hqs
    rw [List.flatten_cons, List.append_assoc]
    have hlong : tsPacketBytes ≤ (q ++ (qs.flatten ++ tail)).length := by
      rw [List.length_append, hlen]
      exact Nat.le_add_right _ _
    have hsync : (q ++ (qs.flatten ++ tail)).getD 0 0 = 0x47 := by
      refine getD_zero_of_head? ?_
      rw [List.head?_append, hhead]
      rfl
    -- two packets' worth of bytes: what follows the first packet is a whole packet again
    have hnext : ¬ (tsPacketBytes * 2 ≤ (q ++ (qs.flatten ++ tail)).length ∧
        (q ++ (qs.flatten ++ tail)).getD tsPacketBytes 0 ≠ 0x47) := by
      rintro ⟨htwo, hne⟩
      refine hne ?_
      rw [List.getD_eq_getElem?_getD, List.getElem?_append_right hlen.le, hlen, Nat.sub_self,
        ← List.getD_eq_getElem?_getD]
      cases qs with
      | nil =>
        rw [List.length_append, hlen, List.flatten_nil, List.nil_append] at htwo
        exact absurd htail.1 (by omega)
      | cons q' qs =>
        refine getD_zero_of_head? ?_
        rw [List.flatten_cons, List.append_assoc, List.head?_append, (hrest q' (by simp)).2]
        rfl
    rw [consumeLoop, if_pos hlong, if_neg (not_not.mpr hsync), if_neg hnext,
      List.take_left' hlen, List.drop_left' hlen, ih hrest (Nat.le_of_succ_le_succ hfuel)]
    rfl

theorem length_flatten_of_forall {qs : List Bytes} (hqs : ∀ q ∈ qs, q.length = tsPacketBytes) :
    qs.flatten.length = tsPacketBytes * qs.length := by
  induction qs with
  | nil => rfl
  | cons q qs ih =>
    obtain ⟨hq, hrest⟩ := List.forall_mem_cons.mp hqs
    rw [List.flatten_cons, List.length_append, hq, ih hrest, List.length_cons, Nat.mul_succ,
      Nat.add_comm]

theorem length_flatten_synced {qs : List Bytes} (hqs : ∀ q ∈ qs, Synced q) :
    qs.flatten.length = tsPacketBytes * qs.length :=
  length_flatten_of_forall fun q hq => (hqs q hq).1

/-- A read of at most 64 KiB that completes the packets `qs` and opens the next one. -/
theorem ingest_aligned {c : TsWarmCache} {qs : List Bytes} {tail' bytes : Bytes}
    (hlen : bytes.length ≤ maxIngestBytes) (htail : OpenPacket c.pending) (hqs : ∀ q ∈ qs, Synced q)
    (htail' : OpenPacket tail') (heq : c.pending ++ bytes = qs.flatten ++ tail') :
    c.ingest bytes = { qs.foldl TsWarmCache.consumePacket
      { c with pending := qs.flatten ++ tail' } with pending := tail' } := by
  have hsmall : ¬ (maxIngestBytes < bytes.length ∨
      maxIngestBytes + tsPacketBytes < c.pending.length + bytes.length) := by
    have := htail.1
    omega
  have hfuel : qs.length ≤ (qs.flatten ++ tail').length := by
    rw [List.length_append, length_flatten_synced hqs, tsPacketBytes]
    omega
  -- the loop leaves less than a packet, so that nothing more is cut off
  have hkeep : tail'.length - (tsPacketBytes - 1) = 0 := by
    have := htail'.1
    rw [tsPacketBytes] at this ⊢
    omega
  rw [TsWarmCache.ingest, if_neg hsmall, consumePackets]
  simp only [heq, consumeLoop_aligned qs hqs htail' hfuel, hkeep, List.drop_zero]

theorem Holds.ingest {c : TsWarmCache} {ps qs : List Bytes} {tail tail' bytes : Bytes}
    (h : c.Holds ps tail) (hlen : bytes.length ≤ maxIngestBytes) (htail : OpenPacket tail)
    (hqs : ∀ q ∈ qs, Synced q) (htail' : OpenPacket tail')
    (heq : tail ++ bytes = qs.flatten ++ tail') : (c.ingest bytes).Holds (ps ++ qs) tail' := by
  rw [← h.pending] at htail heq
  rw [ingest_aligned hlen htail hqs htail' heq]
  have hheld : ({ c with pending := qs.flatten ++ tail' } : TsWarmCache).Holds ps
      (qs.flatten ++ tail') := ⟨rfl, h.recent, h.segment⟩
  have hfold := hheld.foldl qs
  exact ⟨rfl, hfold.recent, hfold.segment⟩

/-! ### Positions in the stream -/

/-- The packets that are complete in the first `n` bytes, and what follows of the next one. -/
theorem take_flatten_synced {packets : List Bytes} (h : ∀ p ∈ packets, Synced p) (n : ℕ) :
    packets.flatten.take n = (packets.take (n / tsPacketBytes)).flatten ++
      (packets.drop (n / tsPacketBytes)).flatten.take (n % tsPacketBytes) := by
  have hpre : ∀ p ∈ packets.take (n / tsPacketBytes), Synced p :=
    fun p hp => h p (List.mem_of_mem_take hp)
  nth_rewrite 1 [← List.take_append_drop (n / tsPacketBytes) packets]
  rw [List.flatten_append, List.take_append, length_flatten_synced hpre, List.length_take]
  rcases Nat.le_total (n / tsPacketBytes) packets.length with hle | hle
  · rw [Nat.min_eq_left hle, List.take_of_length_le]
    · congr 2
      rw [Nat.sub_eq_iff_eq_add (Nat.mul_div_le _ _), Nat.mod_add_div]
    · rw [length_flatten_synced hpre, List.length_take, Nat.min_eq_left hle]
      exact Nat.mul_div_le _ _
  · -- the stream is over before `n`
    rw [List.drop_of_length_le hle, List.take_of_length_le]
    · simp
    · rw [length_flatten_synced hpre, List.length_take, Nat.min_eq_right hle]
      exact (Nat.mul_le_mul_left _ hle).trans (Nat.mul_div_le _ _)

theorem openPacket_tail {packets : List Bytes} (h : ∀ p ∈ packets, Synced p) (n : ℕ) :
    OpenPacket ((packets.drop (n / tsPacketBytes)).flatten.take (n % tsPacketBytes)) := by
  refine ⟨Nat.lt_of_le_of_lt (List.length_take_le _ _) (Nat.mod_lt _ (by decide)), ?_⟩
  cases hrest : packets.drop (n / tsPacketBytes) with
  | nil => exact .inl (by simp)
  | cons p ps =>
    rcases Nat.eq_zero_or_pos (n % tsPacketBytes) with hzero | hpos
    · exact .inl (by rw [hzero, List.take_zero])
    · have hp : p ∈ packets := List.mem_of_mem_drop (by rw [hrest]; exact List.mem_cons_self)
      refine .inr ?_
      rw [List.head?_take, if_neg (Nat.ne_of_gt hpos), List.flatten_cons, List.head?_append,
        (h p hp).2]
      rfl

/-- The cache after the first `n` bytes of an aligned stream. -/
def At (c : TsWarmCache) (packets : List Bytes) (n : ℕ) : Prop :=
  c.Holds (packets.take (n / tsPacketBytes))
    ((packets.drop (n / tsPacketBytes)).flatten.take (n % tsPacketBytes))

/-- What is behind the position `n`, `k` bytes further on. -/
theorem take_packets_add (packets : List Bytes) (n k : ℕ) :
    packets.take ((n + k) / tsPacketBytes) = packets.take (n / tsPacketBytes) ++
      (packets.drop (n / tsPacketBytes)).take ((n + k) / tsPacketBytes - n / tsPacketBytes) := by
  have hle : n / tsPacketBytes ≤ (n + k) / tsPacketBytes :=
    Nat.div_le_div_right (Nat.le_add_right _ _)
  rw [← List.take_add, Nat.add_sub_cancel' hle]

/-- A read of `k` bytes completes the packets up to the position `n + k`. -/
theorem tail_append_chunk {packets : List Bytes} (hp : ∀ p ∈ packets, Synced p) (n k : ℕ) :
    (packets.drop (n / tsPacketBytes)).flatten.take (n % tsPacketBytes) ++
        (packets.flatten.drop n).take k =
      ((packets.drop (n / tsPacketBytes)).take
          ((n + k) / tsPacketBytes - n / tsPacketBytes)).flatten ++
        (packets.drop ((n + k) / tsPacketBytes)).flatten.take ((n + k) % tsPacketBytes) := by
  refine List.append_cancel_left (?_ : (packets.take (n / tsPacketBytes)).flatten ++ _ = _)
  calc (packets.take (n / tsPacketBytes)).flatten ++ (_ ++ (packets.flatten.drop n).take k)
      = packets.flatten.take n ++ (packets.flatten.drop n).take k := by
        rw [take_flatten_synced hp, List.append_assoc]
    _ = packets.flatten.take (n + k) := List.take_add.symm
    _ = (packets.take (n / tsPacketBytes)).flatten ++ (_ ++ _) := by
        rw [take_flatten_synced hp, take_packets_add, List.flatten_append, List.append_assoc]

/-- A read of `k` bytes moves the position by `k`, wherever the pipe cuts the stream. -/
theorem At.ingest {c : TsWarmCache} {packets : List Bytes} {n k : ℕ} (h : c.At packets n)
    (hp : ∀ p ∈ packets, Synced p) (hk : k ≤ maxIngestBytes) :
    (c.ingest ((packets.flatten.drop n).take k)).At packets (n + k) := by
  rw [At, take_packets_add]
  exact Holds.ingest h ((List.length_take_le _ _).trans hk) (openPacket_tail hp n)
    (fun q hq => hp q (List.mem_of_mem_drop (List.mem_of_mem_take hq))) (openPacket_tail hp _)
    (tail_append_chunk hp n k)

def samplePacket (randomAccess : Bool) : Bytes :=
  [0x47, 0x01, 0x00, 0x30, 0x01, if randomAccess then 0x40 else 0x00] ++ List.replicate 182 0xff

end TsWarmCache

end EzvizBridge
