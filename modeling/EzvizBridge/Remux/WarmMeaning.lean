import EzvizBridge.Remux.WarmCache

/-!
# What the warm cache means

For a stream of whole packets the cache has a meaning that knows nothing of reads: `Shows` is the
window from a little before the last random access point to the end, as long as it has stayed within
its bound. `Exact` ties the cache to the packets received so far; a packet that is consumed moves
both (`Exact.consumePacket`), and so a read does, wherever it cuts the stream.

For any other input the cache resynchronises, and its parts stay within their bounds (`Bounded`).
`warm_cache_meaning` has both.
-/

namespace EzvizBridge

open Remux

namespace TsWarmCache

def withLimits (recentLimit maximumBytes : ℕ) : TsWarmCache where
  recentLimit := recentLimit
  maximumBytes := maximumBytes

/-! ### The meaning -/

/-- From at most `limit` packets before `access` on. -/
def window (limit : ℕ) (front : List Bytes) (access : Bytes) (behind : List Bytes) : List Bytes :=
  front.drop (front.length - limit) ++ access :: behind

/-- Behind the packets `ps`, a late subscriber is shown `bytes`: the window of the last random
access packet, whose bytes have not exceeded `maximum` at any time since that packet. -/
def Shows (limit maximum : ℕ) (ps : List Bytes) (bytes : Bytes) : Prop :=
  ∃ front access behind, ps = front ++ access :: behind ∧ isRandomAccess access = true ∧
    (∀ packet ∈ behind, isRandomAccess packet = false) ∧
    (∀ seen, seen <+: behind → (window limit front access seen).flatten.length ≤ maximum) ∧
    bytes = (window limit front access behind).flatten

variable {limit maximum : ℕ} {ps : List Bytes} {packet bytes : Bytes}

theorem not_shows_nil : ¬ Shows limit maximum [] bytes := by
  rintro ⟨front, access, behind, h, -⟩
  simp at h

theorem window_concat (limit : ℕ) (front : List Bytes) (access : Bytes) (behind : List Bytes)
    (packet : Bytes) : (window limit front access (behind ++ [packet])).flatten =
      (window limit front access behind).flatten ++ packet := by
  rw [window, window, ← List.cons_append, ← List.append_assoc, List.flatten_concat]

/-- At a random access packet the window starts anew. -/
theorem shows_concat_access (h : isRandomAccess packet = true) :
    Shows limit maximum (ps ++ [packet]) bytes ↔
      bytes = (ps.drop (ps.length - limit)).flatten ++ packet ∧ bytes.length ≤ maximum := by
  constructor
  · rintro ⟨front, access, behind, hsplit, -, hbehind, hbound, rfl⟩
    -- the window has the random access packet alone
    obtain rfl | ⟨behind, last, rfl⟩ := List.eq_nil_or_concat behind
    · obtain ⟨rfl, hlast⟩ := List.append_inj' hsplit rfl
      obtain rfl := List.singleton_inj.mp hlast
      refine ⟨?_, hbound [] List.prefix_rfl⟩
      rw [window, List.flatten_concat]
    · -- the last packet is no packet behind the last random access
      rw [List.concat_eq_append, ← List.cons_append, ← List.append_assoc] at hsplit
      obtain ⟨-, hlast⟩ := List.append_inj' hsplit rfl
      obtain rfl := List.singleton_inj.mp hlast
      have hother := hbehind packet (by simp)
      rw [h] at hother
      exact Bool.noConfusion hother
  · rintro ⟨rfl, hbound⟩
    refine ⟨ps, packet, [], rfl, h, fun _ hnil => absurd hnil List.not_mem_nil, ?_, ?_⟩
    · intro seen hseen
      rw [List.prefix_nil.mp hseen, window, List.flatten_concat]
      exact hbound
    · rw [window, List.flatten_concat]

/-- Any other packet is added to it. -/
theorem shows_concat_other (h : isRandomAccess packet = false) :
    Shows limit maximum (ps ++ [packet]) bytes ↔ ∃ older, Shows limit maximum ps older ∧
      bytes = older ++ packet ∧ bytes.length ≤ maximum := by
  constructor
  · rintro ⟨front, access, behind, hsplit, haccess, hbehind, hbound, rfl⟩
    -- the last packet is not a random access, so it is behind one
    obtain rfl | ⟨behind, last, rfl⟩ := List.eq_nil_or_concat behind
    · obtain ⟨-, hlast⟩ := List.append_inj' hsplit rfl
      obtain rfl := List.singleton_inj.mp hlast
      rw [haccess] at h
      exact Bool.noConfusion h
    · rw [List.concat_eq_append] at hsplit hbehind hbound ⊢
      rw [← List.cons_append, ← List.append_assoc] at hsplit
      obtain ⟨rfl, hlast⟩ := List.append_inj' hsplit rfl
      obtain rfl := List.singleton_inj.mp hlast
      refine ⟨(window limit front access behind).flatten, ?_, window_concat _ _ _ _ _,
        hbound _ List.prefix_rfl⟩
      refine ⟨front, access, behind, rfl, haccess, fun q hq => hbehind q ?_,
        fun seen hseen => ?_, rfl⟩
      · exact List.mem_append_left _ hq
      · exact hbound seen (hseen.trans (List.prefix_append _ _))
  · rintro ⟨older, ⟨front, access, behind, rfl, haccess, hbehind, hbound, rfl⟩, rfl, hsize⟩
    refine ⟨front, access, behind ++ [packet], ?_, haccess, ?_, fun seen hseen => ?_, ?_⟩
    · rw [List.append_assoc, List.cons_append]
    · intro q hq
      obtain hq | hq := List.mem_append.mp hq
      · exact hbehind q hq
      · rw [List.mem_singleton.mp hq]
        exact h
    -- what was seen is the whole, or a part that was seen before
    · obtain rfl | hseen := List.prefix_concat_iff.mp hseen
      · rwa [window_concat]
      · exact hbound seen hseen
    · exact (window_concat _ _ _ _ _).symm

/-! ### The cache and the packets -/

/-- The cache behind the packets `ps` and the bytes `tail` of the next one. -/
structure Exact (limit maximum : ℕ) (c : TsWarmCache) (ps : List Bytes) (tail : Bytes) : Prop where
  recentLimit : c.recentLimit = limit
  maximumBytes : c.maximumBytes = maximum
  pending : c.pending = tail
  recent : c.recent = ps.drop (ps.length - limit)
  shows_iff : ∀ bytes, (c.ready = true ∧ c.segment = bytes) ↔ Shows limit maximum ps bytes

/-- A new cache has received nothing. -/
theorem exact_new (limit maximum : ℕ) : Exact limit maximum (withLimits limit maximum) [] [] where
  recentLimit := rfl
  maximumBytes := rfl
  pending := rfl
  recent := List.drop_nil.symm
  shows_iff _ := ⟨fun h => Bool.noConfusion h.1, fun h => absurd h not_shows_nil⟩

/-- The segment is all that changes. -/
theorem extendSegment_frame (c : TsWarmCache) (packet : Bytes) :
    (c.extendSegment packet).recentLimit = c.recentLimit ∧
    (c.extendSegment packet).maximumBytes = c.maximumBytes ∧
    (c.extendSegment packet).pending = c.pending ∧ (c.extendSegment packet).recent = c.recent := by
  rw [extendSegment]
  split_ifs <;> exact ⟨rfl, rfl, rfl, rfl⟩

variable {c : TsWarmCache} {tail : Bytes}

/-- The segment follows the window. -/
theorem Exact.extendSegment (h : Exact limit maximum c ps tail)
    (hpacket : packet.length = tsPacketBytes) (bytes : Bytes) :
    ((c.extendSegment packet).ready = true ∧ (c.extendSegment packet).segment = bytes) ↔
      Shows limit maximum (ps ++ [packet]) bytes := by
  have hmaximum := h.maximumBytes
  subst hmaximum
  rw [TsWarmCache.extendSegment]
  -- a random access, a segment with room, one without, and none at all
  split_ifs with haccess hready hroom
  · rw [shows_concat_access haccess, ← h.recent]
    constructor
    · rintro ⟨hfits, rfl⟩
      exact ⟨rfl, of_decide_eq_true hfits⟩
    · rintro ⟨rfl, hfits⟩
      exact ⟨decide_eq_true hfits, rfl⟩
  · -- there is room for it
    rw [shows_concat_other (Bool.eq_false_iff.mpr haccess)]
    constructor
    · rintro ⟨-, rfl⟩
      refine ⟨c.segment, (h.shows_iff _).mp ⟨hready, rfl⟩, rfl, ?_⟩
      rwa [List.length_append, hpacket]
    · rintro ⟨older, holder, rfl, -⟩
      exact ⟨hready, congrArg (· ++ packet) ((h.shows_iff older).mpr holder).2⟩
  · -- there is none, and nothing is shown until the next random access packet
    rw [shows_concat_other (Bool.eq_false_iff.mpr haccess)]
    constructor
    · rintro ⟨hnot, -⟩
      exact hnot.elim
    · rintro ⟨older, holder, rfl, hsize⟩
      rw [List.length_append, hpacket, ← ((h.shows_iff older).mpr holder).2] at hsize
      exact absurd hsize hroom
  -- nothing was shown before
  · rw [shows_concat_other (Bool.eq_false_iff.mpr haccess)]
    constructor
    · rintro ⟨hready', -⟩
      exact absurd hready' hready
    · rintro ⟨older, holder, -⟩
      exact absurd ((h.shows_iff older).mpr holder).1 hready

/-- The last `limit` packets, with one more. -/
theorem drop_concat_recent (ps : List Bytes) (packet : Bytes) (limit : ℕ) :
    (ps.drop (ps.length - limit) ++ [packet]).drop
        ((ps.drop (ps.length - limit) ++ [packet]).length - limit) =
      (ps ++ [packet]).drop ((ps ++ [packet]).length - limit) := by
  have hconcat : ps.drop (ps.length - limit) ++ [packet] =
      (ps ++ [packet]).drop (ps.length - limit) :=
    (List.drop_append_of_le_length (Nat.sub_le _ _)).symm
  rw [hconcat, List.drop_drop, List.length_drop, List.length_append, List.length_singleton]
  congr 1
  omega

/-- **A packet** is consumed. -/
theorem Exact.consumePacket (h : Exact limit maximum c ps tail)
    (hpacket : packet.length = tsPacketBytes) :
    Exact limit maximum (c.consumePacket packet) (ps ++ [packet]) tail := by
  obtain ⟨hlimit, hmaximum, hpending, hrecent⟩ := c.extendSegment_frame packet
  refine ⟨hlimit.trans h.recentLimit, hmaximum.trans h.maximumBytes, hpending.trans h.pending, ?_,
    h.extendSegment hpacket⟩
  show ((c.extendSegment packet).recent ++ [packet]).drop
    (((c.extendSegment packet).recent ++ [packet]).length - (c.extendSegment packet).recentLimit) =
      _
  rw [hrecent, hlimit, h.recent, h.recentLimit]
  exact drop_concat_recent ps packet limit

/-- The packets, one after the other. -/
theorem Exact.foldl (h : Exact limit maximum c ps tail) {qs : List Bytes}
    (hqs : ∀ q ∈ qs, Synced q) :
    Exact limit maximum (qs.foldl TsWarmCache.consumePacket c) (ps ++ qs) tail := by
  induction qs generalizing c ps with
  | nil =>
    rw [List.append_nil]
    exact h
  | cons q qs ih =>
    obtain ⟨hq, hrest⟩ := List.forall_mem_cons.mp hqs
    rw [List.append_cons]
    exact ih (h.consumePacket hq.1) hrest

/-- The cache at the position `n` of a stream. -/
def ExactAt (limit maximum : ℕ) (c : TsWarmCache) (packets : List Bytes) (n : ℕ) : Prop :=
  Exact limit maximum c (packets.take (n / tsPacketBytes))
    ((packets.drop (n / tsPacketBytes)).flatten.take (n % tsPacketBytes))

/-- **A read** of `k` bytes moves the position by `k`. -/
theorem ExactAt.ingest {packets : List Bytes} {n k : ℕ} (h : ExactAt limit maximum c packets n)
    (hp : ∀ p ∈ packets, Synced p) (hk : k ≤ maxIngestBytes) :
    ExactAt limit maximum (c.ingest ((packets.flatten.drop n).take k)) packets (n + k) := by
  have hqs : ∀ q ∈ (packets.drop (n / tsPacketBytes)).take
      ((n + k) / tsPacketBytes - n / tsPacketBytes), Synced q :=
    fun q hq => hp q (List.mem_of_mem_drop (List.mem_of_mem_take hq))
  -- what was pending, and the read, are packets and the beginning of the next
  have heq := tail_append_chunk hp n k
  rw [← h.pending] at heq
  have hopen : OpenPacket c.pending := h.pending ▸ openPacket_tail hp n
  rw [ingest_aligned ((List.length_take_le _ _).trans hk) hopen hqs (openPacket_tail hp _) heq,
    ExactAt, take_packets_add]
  generalize (packets.drop ((n + k) / tsPacketBytes)).flatten.take ((n + k) % tsPacketBytes) = tail'
  generalize (packets.drop (n / tsPacketBytes)).take ((n + k) / tsPacketBytes - n / tsPacketBytes) =
    qs at hqs ⊢
  -- the bytes that are held do not matter to the packets
  have hheld : Exact limit maximum { c with pending := qs.flatten ++ tail' }
      (packets.take (n / tsPacketBytes)) (qs.flatten ++ tail') :=
    ⟨h.recentLimit, h.maximumBytes, rfl, h.recent, h.shows_iff⟩
  have hfold := hheld.foldl hqs
  exact ⟨hfold.recentLimit, hfold.maximumBytes, rfl, hfold.recent, hfold.shows_iff⟩

/-- **Any reads** of a stream. -/
theorem exactAt_foldl {packets chunks : List Bytes} (hp : ∀ p ∈ packets, Synced p)
    (hsize : ∀ chunk ∈ chunks, chunk.length ≤ maxIngestBytes)
    (hcut : chunks.flatten <+: packets.flatten) :
    ExactAt limit maximum (chunks.foldl TsWarmCache.ingest (withLimits limit maximum)) packets
      chunks.flatten.length := by
  -- on the reads, from the last one
  induction chunks using List.reverseRecOn with
  | nil => exact exact_new limit maximum
  | append_singleton chunks chunk ih =>
    rw [List.flatten_concat] at hcut ⊢
    obtain ⟨hsize, hlast⟩ := List.forall_mem_append.mp hsize
    have hat := ih hsize ((List.prefix_append _ _).trans hcut)
    -- the read is the next piece of the stream
    have hchunk : (packets.flatten.drop chunks.flatten.length).take chunk.length = chunk := by
      obtain ⟨rest, hrest⟩ := hcut
      rw [← hrest, List.append_assoc, List.drop_left, List.take_left]
    have hnext := hat.ingest hp (hlast chunk (List.mem_singleton_self _))
    rw [hchunk] at hnext
    rw [List.foldl_append, List.length_append]
    exact hnext

/-! ### Any input -/

/-- The parts of the cache within their bounds. -/
structure Bounded (limit maximum : ℕ) (c : TsWarmCache) : Prop where
  recentLimit : c.recentLimit = limit
  maximumBytes : c.maximumBytes = maximum
  recent : c.recent.length ≤ limit
  packets : ∀ packet ∈ c.recent, packet.length = tsPacketBytes
  segment : c.segment.length ≤ max maximum (tsPacketBytes * (limit + 1))

/-- A new cache is empty. -/
theorem bounded_new (limit maximum : ℕ) : Bounded limit maximum (withLimits limit maximum) where
  recentLimit := rfl
  maximumBytes := rfl
  recent := Nat.zero_le _
  packets := fun _ h => absurd h List.not_mem_nil
  segment := Nat.zero_le _

/-- A cleared cache is empty. -/
theorem Bounded.clear (h : Bounded limit maximum c) : Bounded limit maximum c.clear where
  recentLimit := h.recentLimit
  maximumBytes := h.maximumBytes
  recent := Nat.zero_le _
  packets := fun _ h => absurd h List.not_mem_nil
  segment := Nat.zero_le _

/-- A packet keeps the bounds, whatever it is. -/
theorem Bounded.consumePacket (h : Bounded limit maximum c)
    (hpacket : packet.length = tsPacketBytes) :
    Bounded limit maximum (c.consumePacket packet) := by
  obtain ⟨hlimit, hmaximum, -, hrecent⟩ := c.extendSegment_frame packet
  refine ⟨hlimit.trans h.recentLimit, hmaximum.trans h.maximumBytes, ?_, fun q hq => ?_, ?_⟩
  -- no more than the limit of recent packets is kept
  · show (((c.extendSegment packet).recent ++ [packet]).drop
      (((c.extendSegment packet).recent ++ [packet]).length -
        (c.extendSegment packet).recentLimit)).length ≤ limit
    rw [hlimit, h.recentLimit, List.length_drop]
    omega
  -- each of them is a whole packet
  · have hmem : q ∈ (c.extendSegment packet).recent ++ [packet] := List.mem_of_mem_drop hq
    rw [hrecent] at hmem
    obtain hold | hnew := List.mem_append.mp hmem
    · exact h.packets q hold
    · rw [List.mem_singleton.mp hnew, hpacket]
  · show (c.extendSegment packet).segment.length ≤ _
    rw [extendSegment]
    -- the segment starts anew, grows within its bound, or is dropped
    split_ifs with haccess hready hroom
    · -- the recent packets and this one
      rw [List.length_append, length_flatten_of_forall h.packets, hpacket, ← Nat.mul_succ]
      exact (Nat.mul_le_mul_left _ (Nat.succ_le_succ h.recent)).trans (le_max_right _ _)
    · rw [List.length_append, hpacket]
      exact (h.maximumBytes ▸ hroom).trans (le_max_left _ _)
    · exact Nat.zero_le _
    · exact h.segment

/-- The loop consumes packets, and skips bytes. -/
theorem Bounded.consumeLoop (h : Bounded limit maximum c) (fuel : ℕ) (rest : Bytes) :
    Bounded limit maximum (TsWarmCache.consumeLoop fuel c rest).1 := by
  induction fuel generalizing c rest with
  | zero => exact h
  | succ fuel ih =>
    rw [TsWarmCache.consumeLoop]
    split_ifs with hlong hsync hnext
    · exact ih h _
    · exact ih h _
    · exact ih (h.consumePacket (List.length_take_of_le hlong)) _
    · exact h

/-- The bytes bound the passes of the loop: it ends with less than a packet. -/
theorem length_consumeLoop_lt {fuel : ℕ} {rest : Bytes} (hfuel : rest.length ≤ fuel)
    (c : TsWarmCache) : (TsWarmCache.consumeLoop fuel c rest).2.length < tsPacketBytes := by
  -- on the fuel, of which each pass needs less than it takes off
  induction fuel generalizing c rest with
  | zero =>
    rw [List.eq_nil_of_length_eq_zero (Nat.le_zero.mp hfuel)]
    exact Nat.zero_lt_succ _
  | succ fuel ih =>
    rw [TsWarmCache.consumeLoop]
    split_ifs with hlong hsync hnext
    · exact ih (by rw [List.length_drop]; omega) c
    · exact ih (by rw [List.length_drop]; omega) c
    · exact ih (by rw [List.length_drop, tsPacketBytes]; omega) _
    · exact Nat.lt_of_not_le hlong

/-- A read keeps the bounds, whatever its bytes are. -/
theorem Bounded.ingest (h : Bounded limit maximum c) (bytes : Bytes) :
    Bounded limit maximum (c.ingest bytes) ∧ (c.ingest bytes).pending.length < tsPacketBytes := by
  rw [TsWarmCache.ingest]
  split_ifs
  · exact ⟨h.clear, Nat.zero_lt_succ _⟩
  -- a read that is not too large is appended to what is pending
  · have hheld : Bounded limit maximum { c with pending := c.pending ++ bytes } :=
      ⟨h.recentLimit, h.maximumBytes, h.recent, h.packets, h.segment⟩
    have hloop := hheld.consumeLoop (c.pending ++ bytes).length (c.pending ++ bytes)
    have hless := @length_consumeLoop_lt _ (c.pending ++ bytes) le_rfl
      { c with pending := c.pending ++ bytes }
    rw [consumePackets]
    dsimp only
    generalize TsWarmCache.consumeLoop (c.pending ++ bytes).length
      { c with pending := c.pending ++ bytes } (c.pending ++ bytes) = looped at hloop hless ⊢
    refine ⟨⟨hloop.recentLimit, hloop.maximumBytes, hloop.recent, hloop.packets, hloop.segment⟩, ?_⟩
    rw [List.length_drop]
    exact (Nat.sub_le _ _).trans_lt hless

/-- A call from outside. -/
inductive Call
  | ingest (bytes : Bytes)
  | clear

/-- A call of the cache. -/
def call (self : TsWarmCache) : Call → TsWarmCache
  | .ingest bytes => self.ingest bytes
  | .clear => self.clear

/-- The calls, one after the other. -/
theorem bounded_calls (limit maximum : ℕ) (calls : List Call) :
    Bounded limit maximum (calls.foldl call (withLimits limit maximum)) ∧
    (calls.foldl call (withLimits limit maximum)).pending.length < tsPacketBytes := by
  induction calls using List.reverseRecOn with
  | nil => exact ⟨bounded_new limit maximum, Nat.zero_lt_succ _⟩
  | append_singleton calls last ih =>
    rw [List.foldl_append, List.foldl_cons, List.foldl_nil]
    cases last with
    | ingest bytes => exact ih.1.ingest bytes
    | clear => exact ⟨ih.1.clear, Nat.zero_lt_succ _⟩

/-! ### The results -/

/-- The snapshot of a cache that knows what it has received. -/
theorem Exact.snapshot_iff (h : Exact limit maximum c ps tail) (hps : ∀ p ∈ ps, Synced p) :
    c.snapshot = some bytes ↔ Shows limit maximum ps bytes := by
  rw [← h.shows_iff, snapshot]
  constructor
  · intro hsome
    split_ifs at hsome with hready
    exact ⟨hready.1, Option.some.inj hsome⟩
  · rintro ⟨hready, rfl⟩
    -- a window has at least one packet
    obtain ⟨front, access, behind, hsplit, -, -, -, hsegment⟩ := (h.shows_iff _).mp ⟨hready, rfl⟩
    have haccess : access.length = tsPacketBytes := (hps access (by simp [hsplit])).1
    have hsome : c.segment ≠ [] := by
      intro hnil
      rw [hnil] at hsegment
      have hlength := congrArg List.length hsegment
      rw [window, List.flatten_append, List.flatten_cons, List.length_append, List.length_append,
        haccess] at hlength
      exact absurd hlength (by rw [tsPacketBytes, List.length_nil]; omega)
    rw [if_pos ⟨hready, hsome⟩]

/-- What a snapshot is: whole packets up to the last one received, the last random access packet
among them, and no more bytes than allowed. -/
structure Snapshot (maximum : ℕ) (received : List Bytes) (bytes : Bytes) : Prop where
  suffix : ∃ front access behind, front ++ access :: behind <:+ received ∧
    isRandomAccess access = true ∧ (∀ packet ∈ behind, isRandomAccess packet = false) ∧
    bytes = (front ++ access :: behind).flatten
  whole : tsPacketBytes ∣ bytes.length
  bounded : bytes.length ≤ maximum

/-- A window is a snapshot of the packets. -/
theorem Shows.snapshot (h : Shows limit maximum ps bytes) (hps : ∀ p ∈ ps, Synced p) :
    Snapshot maximum ps bytes := by
  obtain ⟨front, access, behind, rfl, haccess, hbehind, hbound, rfl⟩ := h
  have hsuffix : window limit front access behind <:+ front ++ access :: behind := by
    rw [window]
    refine ⟨front.take (front.length - limit), ?_⟩
    rw [← List.append_assoc, List.take_append_drop]
  refine ⟨⟨_, access, behind, hsuffix, haccess, hbehind, rfl⟩, ?_, hbound behind List.prefix_rfl⟩
  rw [length_flatten_of_forall fun packet hpacket => (hps packet (hsuffix.subset hpacket)).1]
  exact Nat.dvd_mul_right _ _

/-- **The meaning of the warm cache.** Of a stream of whole packets, cut into reads in any way, it
shows exactly the window of the last random access packet received; another cut shows the same.
Whatever it is fed with, its loop ends, and its parts stay within their bounds. -/
theorem warm_cache_meaning (limit maximum : ℕ) :
    (∀ packets chunks : List Bytes, (∀ p ∈ packets, Synced p) →
      (∀ chunk ∈ chunks, chunk.length ≤ maxIngestBytes) → chunks.flatten <+: packets.flatten →
      let c := chunks.foldl TsWarmCache.ingest (withLimits limit maximum)
      let received := packets.take (chunks.flatten.length / tsPacketBytes)
      (∀ bytes, c.snapshot = some bytes ↔ Shows limit maximum received bytes) ∧
      (∀ bytes, c.snapshot = some bytes → Snapshot maximum received bytes) ∧
      (∀ chunks' : List Bytes, (∀ chunk ∈ chunks', chunk.length ≤ maxIngestBytes) →
        chunks'.flatten = chunks.flatten →
        (chunks'.foldl TsWarmCache.ingest (withLimits limit maximum)).snapshot = c.snapshot)) ∧
    (∀ calls : List Call, Bounded limit maximum (calls.foldl call (withLimits limit maximum)) ∧
      (calls.foldl call (withLimits limit maximum)).pending.length < tsPacketBytes) ∧
    ∀ (c : TsWarmCache) (pending : Bytes),
      (TsWarmCache.consumeLoop pending.length c pending).2.length < tsPacketBytes := by
  -- the stream of packets, the calls, and the loop
  refine ⟨fun packets chunks hp hsize hcut => ?_, bounded_calls limit maximum, fun c pending =>
    length_consumeLoop_lt le_rfl c⟩
  intro c received
  have hreceived : ∀ p ∈ received, Synced p := fun p hmem => hp p (List.mem_of_mem_take hmem)
  have hexact : Exact limit maximum c received _ := exactAt_foldl hp hsize hcut
  refine ⟨fun bytes => hexact.snapshot_iff hreceived, fun bytes hsome => ?_,
    fun chunks' hsize' hsame => ?_⟩
  · exact ((hexact.snapshot_iff hreceived).mp hsome).snapshot hreceived
  · -- both show what the packets received show
    have hat := @exactAt_foldl limit maximum packets chunks' hp hsize' (hsame ▸ hcut)
    rw [hsame] at hat
    have hexact' : Exact limit maximum (chunks'.foldl TsWarmCache.ingest (withLimits limit maximum))
      received _ := hat
    refine Option.ext fun bytes => ?_
    rw [hexact'.snapshot_iff hreceived, hexact.snapshot_iff hreceived]

def sampleWindow : List Bytes :=
  [samplePacket true, samplePacket false, samplePacket true, samplePacket false]

/-- A window in two reads, the cut being within a packet, and in one read. -/
theorem warm_cache_meaning_sample :
    let chunks := [sampleWindow.flatten.take 300, sampleWindow.flatten.drop 300]
    let whole := [sampleWindow.flatten]
    let c := chunks.foldl TsWarmCache.ingest (withLimits 1 1000)
    let shown := (sampleWindow.drop 1).flatten
    c.snapshot = some shown ∧ Snapshot 1000 sampleWindow shown ∧
      (whole.foldl TsWarmCache.ingest (withLimits 1 1000)).snapshot = some shown := by
  intro chunks whole c shown
  have hsynced : ∀ p ∈ sampleWindow, Synced p := by
    unfold Synced
    decide +kernel
  have hflat : chunks.flatten = sampleWindow.flatten := by
    rw [List.flatten_cons, List.flatten_cons, List.flatten_nil, List.append_nil,
      List.take_append_drop]
  have hwhole : whole.flatten = chunks.flatten := by
    rw [hflat]
    exact List.append_nil _
  obtain ⟨hmeaning, -⟩ := warm_cache_meaning 1 1000
  have hprefix : chunks.flatten <+: sampleWindow.flatten := by rw [hflat]
  obtain ⟨hshows, hsnapshot, hcut⟩ :=
    hmeaning sampleWindow chunks hsynced (by decide +kernel) hprefix
  -- all packets have been received
  have hreceived : sampleWindow.take (chunks.flatten.length / tsPacketBytes) = sampleWindow := by
    rw [hflat]
    decide +kernel
  have hshown : c.snapshot = some shown := by
    refine (hshows shown).mpr ?_
    rw [hreceived]
    refine ⟨sampleWindow.take 2, samplePacket true, [samplePacket false], rfl, by decide +kernel,
      by decide +kernel, ?_, by decide +kernel⟩
    intro seen hseen
    -- what has been seen is the whole of it or nothing
    obtain rfl | ⟨rest, rfl, hrest⟩ := List.prefix_cons_iff.mp hseen
    · decide +kernel
    · rw [List.prefix_nil.mp hrest]
      decide +kernel
  refine ⟨hshown, ?_, ?_⟩
  · exact hreceived ▸ hsnapshot shown hshown
  · exact (hcut whole (by decide +kernel) hwhole).trans hshown

end TsWarmCache

end EzvizBridge
