import EzvizBridge.Remux.Model

/-!
# Late joiners of the MPEG-TS hub

A subscriber that finds the warm cache ready gets its snapshot first and then every chunk that is
published after its insertion. The snapshot consists of whole packets: it ends at the last packet
boundary before the insertion, at byte `mark / 188 * 188` of what FFmpeg has written. The first live
chunk starts at byte `mark`. The two join exactly when `mark` is a packet boundary; otherwise the
bytes that the cache holds in `pending` reach nobody who joins now (`late_joiner_broken`).

The runs considered are those of one FFmpeg process: any interleaving of subscriptions, reads and
departures with the reads of the process, up to the point where its task clears the map
(`OneStream`).
-/

namespace EzvizBridge

open Remux TsWarmCache

namespace MpegTsHub

variable {cfg : HubConfig} {s s' : MpegTsHub} {packets : List Bytes}

/-- The steps of a hub while one FFmpeg process writes: no task clears the map or the cache, and
the hub is not closed. -/
def OneStream (s : MpegTsHub) : Remux.Event → Prop
  | .advance g => s.phase g ≠ some .reporting ∧ s.phase g ≠ some .clearing
  | .close | .closeTake | .closeClear _ | .closeWarm => False
  | _ => True

/-- **An unbroken stream.** What subscriber `i` was given, its snapshot and the chunks after it, is
the stream from some packet boundary on; and if it was given anything after the snapshot, the
snapshot ends where the chunks begin. -/
def Unbroken (s : MpegTsHub) (i : ℕ) (snapshot : Bytes) : Prop :=
  ∃ start, tsPacketBytes ∣ start ∧
    (s.channels i).delivered.flatten =
      (s.history.published.drop start).take (s.channels i).delivered.flatten.length ∧
    ((s.channels i).delivered.flatten = snapshot ∨ start + snapshot.length = s.history.mark i)

/-! ### What a step does to a stream -/

/-- The cache, the history and the contents of the channels stay, and nobody is inserted. -/
structure Quiet (s s' : MpegTsHub) : Prop where
  warm : s'.warm = s.warm
  history : s'.history = s.history
  delivered : ∀ i, (s'.channels i).delivered = (s.channels i).delivered
  subscribers : ∀ i ∈ s'.subscribers, i ∈ s.subscribers

theorem quiet_ensureRunning (s : MpegTsHub) : s.Quiet s.ensureRunning := by
  rw [ensureRunning]
  split
  · split_ifs <;> exact ⟨rfl, rfl, fun _ => rfl, fun _ hi => hi⟩
  · exact ⟨rfl, rfl, fun _ => rfl, fun _ hi => hi⟩

/-- A channel that is replaced by one with the same contents. -/
theorem delivered_setChannel {id : ℕ} {channel : Channel}
    (h : channel.delivered = (s.channels id).delivered) (i : ℕ) :
    ((s.setChannel id channel).channels i).delivered = (s.channels i).delivered := by
  change (Function.update s.channels id channel i).delivered = _
  by_cases hid : i = id
  · rw [hid, Function.update_self, h]
  · rw [Function.update_of_ne hid]

/-- While one process writes, a step publishes a read, inserts a subscriber, or is quiet. -/
theorem oneStream_cases {e : Remux.Event} (hok : s.OneStream e) (hstep : s.step cfg e = some s') :
    (∃ chunk, chunk.length ≤ maxIngestBytes ∧ s' = s.publish cfg chunk) ∨
      (∃ id, s' = s.join cfg id) ∨ s.Quiet s' := by
  cases e with
  | publish g chunk =>
    obtain ⟨⟨-, -, hlen⟩, rfl⟩ := EventSystem.guarded hstep
    exact .inl ⟨chunk, hlen, rfl⟩
  | join id =>
    obtain ⟨-, rfl⟩ := EventSystem.guarded hstep
    exact .inr (.inl ⟨id, rfl⟩)
  | close | closeTake | closeClear taken | closeWarm => exact hok.elim
  | tick d =>
    obtain rfl := Option.some.inj hstep
    exact .inr (.inr ⟨rfl, rfl, fun _ => rfl, fun _ hi => hi⟩)
  | unsubscribe id =>
    obtain rfl := Option.some.inj hstep
    exact .inr (.inr ⟨rfl, rfl, fun _ => rfl, fun _ hi => List.mem_of_mem_filter hi⟩)
  | enter =>
    simp only [MpegTsHub.step] at hstep
    split_ifs at hstep <;> obtain rfl := Option.some.inj hstep <;>
      exact .inr (.inr ⟨rfl, rfl, fun _ => rfl, fun _ hi => hi⟩)
  | ensure id =>
    obtain ⟨-, rfl⟩ := EventSystem.guarded hstep
    have hq := quiet_ensureRunning s
    exact .inr (.inr ⟨hq.warm, hq.history, hq.delivered, hq.subscribers⟩)
  | recv id =>
    obtain ⟨-, rfl⟩ := EventSystem.guarded hstep
    exact .inr (.inr ⟨rfl, rfl, delivered_setChannel (Channel.delivered_read _), fun _ hi => hi⟩)
  | abandon id =>
    -- the receiver is gone, what it was given stays
    obtain ⟨-, rfl⟩ := EventSystem.guarded hstep
    exact .inr (.inr ⟨rfl, rfl, delivered_setChannel rfl, fun _ hi => hi⟩)
  | drop id =>
    obtain ⟨-, rfl⟩ := EventSystem.guarded hstep
    exact .inr (.inr ⟨rfl, rfl, delivered_setChannel rfl, fun _ hi => List.mem_of_mem_filter hi⟩)
  | capture | idleSleep token | idleTest wakeAt token | stop g =>
    obtain ⟨-, rfl⟩ := EventSystem.guarded hstep
    exact .inr (.inr ⟨rfl, rfl, fun _ => rfl, fun _ hi => hi⟩)
  | idleCancel token =>
    obtain ⟨-, rfl⟩ := EventSystem.guarded hstep
    cases token <;> exact .inr (.inr ⟨rfl, rfl, fun _ => rfl, fun _ hi => hi⟩)
  | advance g =>
    simp only [MpegTsHub.step, MpegTsHub.advance] at hstep
    split at hstep
    case h_4 hphase => exact absurd hphase hok.1
    case h_5 hphase => exact absurd hphase hok.2
    case h_7 => exact nomatch hstep
    all_goals
      obtain rfl := Option.some.inj hstep
      exact .inr (.inr ⟨rfl, rfl, fun _ => rfl, fun _ hi => hi⟩)
  | fail g =>
    simp only [MpegTsHub.step, MpegTsHub.fail] at hstep
    split at hstep
    case h_4 => exact nomatch hstep
    all_goals
      obtain rfl := Option.some.inj hstep
      exact .inr (.inr ⟨rfl, rfl, fun _ => rfl, fun _ hi => hi⟩)

/-! ### The invariant -/

/-- Subscriber `i`, which joined with a snapshot of the packets that were complete then, and was
given what was published since, up to the point where it was removed. -/
structure Joined (packets : List Bytes) (s : MpegTsHub) (i : ℕ) (snapshot : Bytes) : Prop where
  mark_le : s.history.mark i ≤ s.history.published.length
  kept : ∃ kept, kept <:+ packets.take (s.history.mark i / tsPacketBytes) ∧ snapshot = kept.flatten
  live : ∃ live, (s.channels i).delivered = snapshot :: live ∧
    live.flatten <+: s.history.published.drop (s.history.mark i) ∧
    (i ∈ s.subscribers → live.flatten = s.history.published.drop (s.history.mark i))

/-- The cache stands where the stream stands, and every late joiner is in order. -/
structure Warmed (packets : List Bytes) (s : MpegTsHub) : Prop where
  cache : s.warm.At packets s.history.published.length
  joined : ∀ i snapshot, s.history.snapshot i = some snapshot → s.Joined packets i snapshot

theorem warmed_new (packets : List Bytes) : Warmed packets {} where
  cache := by
    change TsWarmCache.Holds {} (packets.take (0 / _)) ((packets.drop (0 / _)).flatten.take (0 % _))
    simp only [Nat.zero_div, Nat.zero_mod, List.take_zero]
    exact holds_new
  joined := fun _ _ h => nomatch h

theorem Warmed.quiet (h : s.Warmed packets) (hq : s.Quiet s') : s'.Warmed packets := by
  refine ⟨by rw [hq.warm, hq.history]; exact h.cache, fun i snapshot hsnap => ?_⟩
  rw [hq.history] at hsnap
  obtain ⟨hle, hkept, live, hdel, hpre, hall⟩ := h.joined i snapshot hsnap
  refine ⟨by rwa [hq.history], by rwa [hq.history], live, ?_⟩
  rw [hq.history, hq.delivered]
  exact ⟨hdel, hpre, fun hi => hall (hq.subscribers i hi)⟩

/-- An insertion with a snapshot of the cache, or without one. -/
theorem Warmed.insert {id : ℕ} {channel : Channel} (h : s.Warmed packets)
    (hchannel : ∀ snapshot, s.warm.snapshot = some snapshot → channel.delivered = [snapshot]) :
    (s.insert id channel).Warmed packets := by
  refine ⟨h.cache, fun i snapshot hsnap => ?_⟩
  by_cases hid : i = id
  · subst hid
    simp only [MpegTsHub.insert, Function.update_self] at hsnap
    have hmark : (s.insert i channel).history.mark i = s.history.published.length :=
      Function.update_self ..
    have hready : s.warm.ready = true ∧ s.warm.segment = snapshot := by
      obtain ⟨⟨hr, -⟩, hseg⟩ := EventSystem.guarded hsnap
      exact ⟨hr, hseg⟩
    -- a new subscriber: the snapshot is all it has, and nothing was published since
    refine ⟨hmark.le, ?_, [], ?_, ?_, ?_⟩
    · rw [hmark, ← hready.2]
      exact h.cache.segment hready.1
    · change (Function.update s.channels i channel i).delivered = [snapshot]
      rw [Function.update_self]
      exact hchannel snapshot hsnap
    · exact List.nil_prefix
    · intro _
      change [] = s.history.published.drop _
      rw [hmark, List.drop_length]
  · simp only [MpegTsHub.insert, Function.update_of_ne hid] at hsnap
    obtain ⟨hle, hkept, live, hdel, hpre, hall⟩ := h.joined i snapshot hsnap
    have hmark : (s.insert id channel).history.mark i = s.history.mark i :=
      Function.update_of_ne hid ..
    have hch : (s.insert id channel).channels i = s.channels i := Function.update_of_ne hid ..
    refine ⟨by rwa [hmark], by rwa [hmark], live, ?_⟩
    rw [hmark, hch]
    refine ⟨hdel, hpre, fun hi => hall ?_⟩
    exact (List.mem_append.mp hi).resolve_right fun hnew => hid (List.mem_singleton.mp hnew)

theorem Warmed.join {id : ℕ} (h : s.Warmed packets) : (s.join cfg id).Warmed packets := by
  have hkeep : Warmed packets { s with entering := s.entering.erase id } :=
    h.quiet ⟨rfl, rfl, fun _ => rfl, fun _ hi => hi⟩
  rw [MpegTsHub.join]
  dsimp only
  split_ifs
  · exact hkeep
  · split
    case h_1 hnone =>
      refine hkeep.insert fun snapshot hsnap => ?_
      exact nomatch hnone.symm.trans hsnap
    case h_2 snapshot hsome =>
      split
      · exact hkeep
      case h_2 channel hsend =>
        refine hkeep.insert fun snapshot' hsnap => ?_
        obtain rfl := Option.some.inj (hsome.symm.trans hsnap)
        exact Channel.delivered_trySend hsend

theorem Warmed.publish {chunk : Bytes} (h : s.Warmed packets) (hp : ∀ p ∈ packets, Synced p)
    (hlen : chunk.length ≤ maxIngestBytes)
    (hpre : s.history.published ++ chunk <+: packets.flatten) :
    (s.publish cfg chunk).Warmed packets := by
  refine ⟨?_, fun i snapshot hsnap => ?_⟩
  · -- the chunk is the next piece of the stream
    obtain ⟨rest, hrest⟩ := hpre
    have hchunk : chunk = (packets.flatten.drop s.history.published.length).take chunk.length := by
      rw [← hrest, List.append_assoc, List.drop_left, List.take_left]
    have hat := h.cache.ingest hp hlen
    rw [← hchunk] at hat
    change (s.warm.ingest chunk).At packets (s.history.published ++ chunk).length
    rwa [List.length_append]
  · obtain ⟨hle, hkept, live, hdel, hlive, hall⟩ := h.joined i snapshot hsnap
    have hdrop : (s.publish cfg chunk).history.published.drop (s.history.mark i) =
        s.history.published.drop (s.history.mark i) ++ chunk :=
      List.drop_append_of_le_length hle
    refine ⟨hle.trans ?_, hkept, ?_⟩
    · change _ ≤ (s.history.published ++ chunk).length
      exact List.length_append ▸ Nat.le_add_right _ _
    · change ∃ live, ((if i ∈ s.subscribers then _ else _ : Channel)).delivered = _ ∧
        _ <+: (s.publish cfg chunk).history.published.drop (s.history.mark i) ∧
        (_ → _ = (s.publish cfg chunk).history.published.drop (s.history.mark i))
      rw [hdrop]
      by_cases hi : i ∈ s.subscribers
      · rw [if_pos hi]
        cases hsend : (s.channels i).trySend cfg.queueChunks chunk with
        | none =>
          -- refused: it keeps what it has, and is removed from the map
          refine ⟨live, hdel, hlive.trans (List.prefix_append _ _), fun hi' => ?_⟩
          have := (List.mem_filter.mp hi').2
          rw [hsend] at this
          exact nomatch this
        | some channel =>
          refine ⟨live ++ [chunk], ?_, ?_, fun _ => ?_⟩
          · rw [Option.getD_some, Channel.delivered_trySend hsend, hdel, List.cons_append]
          · rw [List.flatten_concat, hall hi]
          · rw [List.flatten_concat, hall hi]
      · rw [if_neg hi]
        exact ⟨live, hdel, hlive.trans (List.prefix_append _ _),
          fun hi' => absurd (List.mem_of_mem_filter hi') hi⟩

theorem published_join (s : MpegTsHub) (id : ℕ) :
    (s.join cfg id).history.published = s.history.published := by
  rw [MpegTsHub.join]
  dsimp only
  split_ifs
  · rfl
  · split
    · rfl
    · split <;> rfl

/-- What was published before a step stays in front. -/
theorem published_grows {e : Remux.Event} (hok : s.OneStream e) (hstep : s.step cfg e = some s') :
    s.history.published <+: s'.history.published := by
  obtain ⟨chunk, -, rfl⟩ | ⟨id, rfl⟩ | hq := oneStream_cases hok hstep
  · exact List.prefix_append _ _
  · rw [published_join]
  · rw [hq.history]

theorem Warmed.step {e : Remux.Event} (h : s.Warmed packets) (hp : ∀ p ∈ packets, Synced p)
    (hok : s.OneStream e) (hstep : s.step cfg e = some s')
    (hpre : s'.history.published <+: packets.flatten) : s'.Warmed packets := by
  obtain ⟨chunk, hlen, rfl⟩ | ⟨id, rfl⟩ | hq := oneStream_cases hok hstep
  · exact h.publish hp hlen hpre
  · exact h.join
  · exact h.quiet hq

/-- In every run of one process whose reads are the beginning of an aligned stream. -/
theorem run_warmed {es : List Remux.Event} (hp : ∀ p ∈ packets, Synced p)
    (hrun : EventSystem.run (step cfg) {} es = some s)
    (hone : EventSystem.Steps (step cfg) OneStream {} es)
    (hpre : s.history.published <+: packets.flatten) : s.Warmed packets := by
  refine EventSystem.run_invariant
    (fun s => s.history.published <+: packets.flatten → s.Warmed packets)
    ?_ (fun _ => warmed_new packets) hone hrun hpre
  intro t e t' ih hok hstep hpre'
  exact (ih ((published_grows hok hstep).trans hpre')).step hp hok hstep hpre'

/-! ### Where the snapshot ends -/

theorem Joined.unbroken_iff {i : ℕ} {snapshot : Bytes} (h : s.Joined packets i snapshot)
    (hp : ∀ p ∈ packets, Synced p) (hpre : s.history.published <+: packets.flatten) :
    s.Unbroken i snapshot ↔
      tsPacketBytes ∣ s.history.mark i ∨ (s.channels i).delivered.flatten = snapshot := by
  obtain ⟨hle, ⟨kept, ⟨older, holder⟩, rfl⟩, live, hdel, hlive, -⟩ := h
  have hsynced : ∀ p ∈ older ++ kept, Synced p :=
    fun p hmem => hp p (List.mem_of_mem_take (holder ▸ hmem))
  have hlen : kept.flatten.length = tsPacketBytes * kept.length :=
    length_flatten_synced fun p hmem => hsynced p (List.mem_append_right _ hmem)
  constructor
  · rintro ⟨start, hstart, -, hgiven | hjoin⟩
    · exact .inr hgiven
    · rw [← hjoin, hlen]
      exact .inl (Nat.dvd_add hstart (Nat.dvd_mul_right _ _))
  · intro hcond
    set n := s.history.mark i with hn
    -- what is complete at the insertion is the stream up to the last packet boundary
    have hcomplete : s.history.published.take (tsPacketBytes * (n / tsPacketBytes)) =
        older.flatten ++ kept.flatten := by
      have hbound : tsPacketBytes * (n / tsPacketBytes) ≤ s.history.published.length :=
        (Nat.mul_div_le _ _).trans hle
      obtain ⟨rest, hrest⟩ := hpre
      calc s.history.published.take (tsPacketBytes * (n / tsPacketBytes))
          = packets.flatten.take (tsPacketBytes * (n / tsPacketBytes)) := by
            rw [← hrest, List.take_append_of_le_length hbound]
        _ = (packets.take (n / tsPacketBytes)).flatten := by
            rw [take_flatten_synced hp, Nat.mul_div_cancel_left _ (by decide), Nat.mul_mod_right,
              List.take_zero, List.append_nil]
        _ = older.flatten ++ kept.flatten := by rw [← holder, List.flatten_append]
    have hdrop : s.history.published.drop older.flatten.length = kept.flatten ++
        s.history.published.drop (tsPacketBytes * (n / tsPacketBytes)) := by
      nth_rewrite 1 [← List.take_append_drop (tsPacketBytes * (n / tsPacketBytes))
        s.history.published]
      rw [hcomplete, List.append_assoc, List.drop_left]
    refine ⟨older.flatten.length, ?_, ?_, ?_⟩
    · rw [length_flatten_synced fun p hmem => hsynced p (List.mem_append_left _ hmem)]
      exact Nat.dvd_mul_right _ _
    · rw [hdrop, hdel, List.flatten_cons, List.length_append, List.take_length_add_append]
      congr 1
      rcases hcond with hdvd | hgiven
      · rw [Nat.mul_div_cancel' hdvd]
        exact List.prefix_iff_eq_take.mp hlive
      · -- nothing came after the snapshot
        have hnil : live.flatten = [] := by
          rw [hdel, List.flatten_cons] at hgiven
          exact List.append_right_eq_self.mp hgiven
        rw [hnil, List.length_nil, List.take_zero]
    · refine hcond.symm.imp_right fun hdvd => ?_
      have := congrArg List.length hcomplete
      rw [Nat.mul_div_cancel' hdvd, List.length_take, Nat.min_eq_left hle,
        List.length_append] at this
      exact this.symm

/-- **When a late joiner gets an unbroken stream.** For every aligned stream, every way in which
the pipe cuts it and every interleaving with subscriptions: a subscriber with a snapshot gets an
unbroken stream exactly when it joined at a packet boundary of what had been read, or was given
nothing after its snapshot. -/
theorem late_joiner_unbroken_iff (cfg : HubConfig) {es : List Remux.Event} {s : MpegTsHub}
    {packets : List Bytes} (hp : ∀ p ∈ packets, Synced p)
    (hrun : EventSystem.run (step cfg) {} es = some s)
    (hone : EventSystem.Steps (step cfg) OneStream {} es)
    (hpre : s.history.published <+: packets.flatten) {i : ℕ} {snapshot : Bytes}
    (hsnap : s.history.snapshot i = some snapshot) :
    s.Unbroken i snapshot ↔
      tsPacketBytes ∣ s.history.mark i ∨ (s.channels i).delivered.flatten = snapshot :=
  ((run_warmed hp hrun hone hpre).joined i snapshot hsnap).unbroken_iff hp hpre

def sampleStream : List Bytes := [samplePacket true, samplePacket false]

def sampleReads (cut : ℕ) : List Remux.Event :=
  [.enter, .join 1, .ensure 1, .advance 0, .advance 0, .publish 0 (sampleStream.flatten.take cut),
    .enter, .join 2, .ensure 2, .publish 0 (sampleStream.flatten.drop cut)]

theorem sampleReads_oneStream (cut : ℕ) :
    EventSystem.Steps (step sampleConfig) OneStream {} (sampleReads cut) := by
  refine .cons trivial rfl (.cons trivial rfl (.cons trivial rfl (.cons ?_ rfl (.cons ?_ rfl ?_))))
  · exact ⟨by decide, by decide⟩
  · exact ⟨by decide, by decide⟩
  · exact ⟨trivial, fun _ _ => ⟨trivial, fun _ _ => ⟨trivial, fun _ _ => ⟨trivial, fun _ _ =>
      ⟨trivial, fun _ _ => trivial⟩⟩⟩⟩⟩

theorem sampleStream_synced : ∀ p ∈ sampleStream, Synced p := by
  unfold Synced
  decide +kernel

/-- What is left of the sample run: the second subscriber has the snapshot and the second read. -/
def sampleOutcome (cut : ℕ) (s : MpegTsHub) : Prop :=
  s.history.published = sampleStream.flatten ∧ s.history.mark 2 = cut ∧
    s.history.snapshot 2 = some (samplePacket true) ∧
      (s.channels 2).delivered = [samplePacket true, sampleStream.flatten.drop cut]

instance (cut : ℕ) (s : MpegTsHub) : Decidable (sampleOutcome cut s) :=
  inferInstanceAs (Decidable (_ ∧ _ ∧ _ ∧ _))

/-- The second subscriber joins after the first packet, and what it gets is the whole stream. -/
theorem late_joiner_unbroken_at_boundary :
    ∃ s, EventSystem.run (step sampleConfig) {} (sampleReads 188) = some s ∧ sampleOutcome 188 s ∧
      s.Unbroken 2 (samplePacket true) := by
  obtain ⟨s, hrun, hpub, hmark, hsnap, hdel⟩ : ∃ s ∈ EventSystem.run (step sampleConfig) {}
      (sampleReads 188), sampleOutcome 188 s := by decide +kernel
  refine ⟨s, hrun, ⟨hpub, hmark, hsnap, hdel⟩, ?_⟩
  refine (late_joiner_unbroken_iff sampleConfig sampleStream_synced hrun
    (sampleReads_oneStream 188) (hpub ▸ List.prefix_refl _) hsnap).mpr (.inl ?_)
  rw [hmark]
  decide

/-- The first read ends inside of the second packet: the bytes up to there are missing between the
snapshot and the next read. -/
theorem late_joiner_broken :
    ¬ ∀ (cfg : HubConfig) (es : List Remux.Event) (s : MpegTsHub) (packets : List Bytes),
      (∀ p ∈ packets, Synced p) → EventSystem.run (step cfg) {} es = some s →
        EventSystem.Steps (step cfg) OneStream {} es →
          s.history.published <+: packets.flatten →
            ∀ i snapshot, s.history.snapshot i = some snapshot → s.Unbroken i snapshot := by
  intro h
  obtain ⟨s, hrun, hpub, hmark, hsnap, hdel⟩ : ∃ s ∈ EventSystem.run (step sampleConfig) {}
      (sampleReads 288), sampleOutcome 288 s := by decide +kernel
  obtain ⟨start, ⟨k, rfl⟩, hbytes, -⟩ := h sampleConfig (sampleReads 288) s sampleStream
    sampleStream_synced hrun (sampleReads_oneStream 288) (hpub ▸ List.prefix_refl _) 2 _ hsnap
  rw [hdel, hpub] at hbytes
  have hstream : sampleStream.flatten.length = 376 := by decide +kernel
  have hgiven : ([samplePacket true, sampleStream.flatten.drop 288].flatten).length = 276 := by
    decide +kernel
  -- 276 bytes fit into the stream at its first packet boundary only
  have hlen := congrArg List.length hbytes
  rw [List.length_take, List.length_drop, hstream, hgiven, tsPacketBytes] at hlen
  have hk : k = 0 := by omega
  rw [hk, hgiven] at hbytes
  exact absurd hbytes (by decide +kernel)

end MpegTsHub

end EzvizBridge
