import EzvizBridge.Lib.MpegTs
import EzvizBridge.Transport.TsMux

/-!
# What a receiver reads from the muxer's output

For every codec and every sequence of calls of the muxer, in any order, the output is a whole
number of well-formed transport packets with unbroken continuity counters, and demultiplexing it
gives back the calls: the video calls on the video PID and the audio calls on the audio PID, each
with its stream id, its time stamp modulo `2 ^ 33` and its payload, none lost, duplicated, merged
or reordered (`mux_demux`).

The proof follows the layers of the muxer. `Emits s out s' ps` says that the bytes `out` written
between the muxer states `s` and `s'` are those of the packets `ps`, on the muxer's own PIDs, and
that the counters of each PID run on from `s` to `s'`. It holds of a single packet
(`Emits.single`) and composes (`Emits.append`), so what has to be shown of `packetize` is one
pass of its loop: `packetizeLoop_pass` finds the packet the pass writes. The three shapes of
stuffing enter there and nowhere else, as one equation on lengths (`stuff_length`): whatever the
shape, the adaptation field and the payload taken fill the packet exactly.
-/

namespace EzvizBridge

open TsMux

namespace TsMuxer

/-! ### Emissions -/

/-- The PIDs the muxer writes on. -/
def pids : List UInt16 := [0x0000, pmtPid, videoPid, audioPid]

/-- Every continuity counter has four bits. -/
def CountersOk (s : TsMuxer) : Prop := ∀ i, s.continuity i < 16

/-- The state `s'` differs from `s` in its counters only. -/
def SameStreams (s s' : TsMuxer) : Prop := s' = { s with continuity := s'.continuity }

/-- The counters of the packets of one PID, in order. -/
def counters (ps : List MpegTs.Packet) (pid : UInt16) : List UInt8 :=
  (ps.filter (fun p => p.pid = pid)).map MpegTs.Packet.continuity

/-- The bytes `out`, written between the muxer states `s` and `s'`, are those of the packets
`ps`, whose counters run on from `s` to `s'`. -/
structure Emits (s : TsMuxer) (out : Bytes) (s' : TsMuxer) (ps : List MpegTs.Packet) : Prop where
  bytes : out = (ps.map MpegTs.Packet.bytes).flatten
  pid_mem : ∀ p ∈ ps, p.pid ∈ pids
  run : ∀ pid ∈ pids,
    MpegTs.CounterRun (s.continuity (slot pid)) (counters ps pid) (s'.continuity (slot pid))
  ok : CountersOk s'

theorem SameStreams.refl (s : TsMuxer) : SameStreams s s := rfl

theorem SameStreams.trans {s s' s'' : TsMuxer} (h : SameStreams s s') (h' : SameStreams s' s'') :
    SameStreams s s'' := by
  unfold SameStreams at *
  rw [h', h]

theorem Emits.nil {s : TsMuxer} (h : CountersOk s) : Emits s [] s [] where
  bytes := rfl
  pid_mem := fun _ hp => absurd hp (List.not_mem_nil)
  run := fun _ _ => rfl
  ok := h

/-- Emissions compose. -/
theorem Emits.append {s s' s'' : TsMuxer} {out out' : Bytes} {ps qs : List MpegTs.Packet}
    (h : Emits s out s' ps) (h' : Emits s' out' s'' qs) :
    Emits s (out ++ out') s'' (ps ++ qs) where
  bytes := by rw [h.bytes, h'.bytes, List.map_append, List.flatten_append]
  pid_mem := fun p hp => (List.mem_append.mp hp).elim (h.pid_mem p) (h'.pid_mem p)
  run := fun pid hpid => by
    unfold counters
    rw [List.filter_append, List.map_append]
    exact (h.run pid hpid).append (h'.run pid hpid)
  ok := h'.ok

/-- What is written is a whole number of packets. -/
theorem Emits.length_mod {s s' : TsMuxer} {out : Bytes} {ps : List MpegTs.Packet}
    (h : Emits s out s' ps) : out.length % packet = 0 := by
  rw [h.bytes]
  clear h
  induction ps with
  | nil => rfl
  | cons p ps ih =>
    have hp : p.bytes.length = 188 := p.length_bytes
    rw [List.map_cons, List.flatten_cons, List.length_append, hp]
    unfold packet at *
    omega

theorem Emits.aligned {s s' : TsMuxer} {out output : Bytes} {ps : List MpegTs.Packet}
    (h : Emits s out s' ps) (hout : output.length % packet = 0) :
    (output ++ out).length % packet = 0 := by
  rw [List.length_append, Nat.add_mod, hout, h.length_mod]
  rfl

/-- Two of the muxer's PIDs share a counter only if they are the same PID. -/
theorem slot_injective {p q : UInt16} (hp : p ∈ pids) (hq : q ∈ pids) (h : slot p = slot q) :
    p = q := by
  simp only [pids, List.mem_cons, List.not_mem_nil, or_false] at hp hq
  rcases hp with rfl | rfl | rfl | rfl <;> rcases hq with rfl | rfl | rfl | rfl <;>
    first | rfl | exact absurd h (by decide)

theorem pid_lt_of_mem {p : UInt16} (hp : p ∈ pids) : p < 0x2000 := by
  simp only [pids, List.mem_cons, List.not_mem_nil, or_false] at hp
  rcases hp with rfl | rfl | rfl | rfl <;> decide

/-- The next counter is one of four bits. -/
theorem countersOk_nextCc {s : TsMuxer} (h : CountersOk s) (pid : UInt16) :
    CountersOk (s.nextCc pid).2 := by
  intro i
  change Function.update s.continuity (slot pid) _ i < 16
  by_cases hi : i = slot pid
  · subst hi
    rw [Function.update_self]
    exact MpegTs.nextCounter_lt _
  · rw [Function.update_of_ne hi]
    exact h i

/-- **One packet.** Writing a packet that carries the current counter of its PID, and advancing
that counter. -/
theorem Emits.single {s : TsMuxer} (h : CountersOk s) {p : MpegTs.Packet} (hpid : p.pid ∈ pids)
    (hcc : p.continuity = (s.nextCc p.pid).1) : Emits s p.bytes (s.nextCc p.pid).2 [p] where
  bytes := by simp
  pid_mem := fun q hq => by
    obtain rfl := List.mem_singleton.mp hq
    exact hpid
  run := fun pid hmem => by
    change MpegTs.CounterRun _ _ (Function.update s.continuity (slot p.pid) _ (slot pid))
    by_cases heq : p.pid = pid
    · -- the packet's own counter advances by the packet
      subst heq
      rw [Function.update_self]
      simpa [counters, MpegTs.CounterRun] using ⟨hcc, rfl⟩
    · -- every other counter stands
      have hslot : slot pid ≠ slot p.pid := fun hs =>
        heq (slot_injective hpid hmem hs.symm)
      rw [Function.update_of_ne hslot]
      simp [counters, heq, MpegTs.CounterRun]
  ok := countersOk_nextCc h p.pid

/-! ### One pass of the packetizer -/

/-- The field of the source is the adaptation field of the format, where its length fits a byte. -/
theorem fieldBytes_eq {field : Option Bytes} (h : ∀ f, field = some f → f.length < 256) :
    fieldBytes field = MpegTs.adaptationBytes field := by
  cases field with
  | none => rfl
  | some f => rw [fieldBytes, u8TryFrom_of_lt (h f rfl)]; rfl

theorem used_eq (field : Option Bytes) : used field = (MpegTs.adaptationBytes field).length := by
  cases field <;> rfl

/-- The opening field holds at most the flags and a PCR. -/
theorem used_openingField_le (first : Bool) (pcr : Option UInt64) (randomAccess : Bool) :
    used (openingField first pcr randomAccess) ≤ 8 := by
  unfold openingField
  split
  · cases pcr <;> simp [used, pcrBytes]
  · simp [used]

/-- **The stuffing equation.** Whatever shape the stuffing takes, the stuffed field is the
opening field where the payload reaches the end of the packet without it, and otherwise fills
exactly what `remaining` payload bytes leave. -/
theorem stuff_length {field : Option Bytes} {remaining : ℕ} (hused : used field ≤ 8)
    (hpos : 0 < remaining) :
    used (stuff field remaining) = max (used field) (payload - remaining) := by
  have hpay : payload = 184 := rfl
  unfold stuff
  rw [hpay]
  split
  -- there is a field to be filled up, or one has to be made for the stuffing
  · next hlt =>
    cases field with
    | some f =>
      simp only [used, Option.map_some, Option.getD_some, length_resize] at *
      omega
    | none =>
      change remaining < 184 - 0 at hlt
      change used (if 184 - 0 - remaining = 1 then some []
        else some (resize [0x00] (184 - 0 - remaining - 1) 0xff)) = max 0 (184 - remaining)
      split
      · simp only [used, Option.map_some, Option.getD_some, List.length_nil]
        omega
      · simp only [used, Option.map_some, Option.getD_some, length_resize]
        omega
  -- the payload fills the packet, so nothing is stuffed
  · omega

/-- **One pass.** With the output aligned, a pass of the loop appends the bytes of one packet:
on the right PID, with the current counter, the start flag exactly at offset `0`, and as payload
the next bytes of the PES packet, at least one. -/
theorem packetizeLoop_pass {pid : UInt16} (pes : Bytes) (pcr : Option UInt64)
    (randomAccess : Bool) (fuel : ℕ) {offset : ℕ} {s : TsMuxer} {output : Bytes}
    (hpid : pid ∈ pids) (hs : CountersOk s) (hout : output.length % packet = 0)
    (hlt : offset < pes.length) :
    ∃ p : MpegTs.Packet, p.pid = pid ∧ p.continuity = (s.nextCc pid).1 ∧
      p.unitStart = (offset == 0) ∧ 0 < p.payload.length ∧
      p.payload ++ pes.drop (offset + p.payload.length) = pes.drop offset ∧
      packetizeLoop pid pes pcr randomAccess (fuel + 1) offset s output =
        packetizeLoop pid pes pcr randomAccess fuel (offset + p.payload.length) (s.nextCc pid).2
          (output ++ p.bytes) := by
  set remaining := pes.length - offset with hremaining
  set field := stuff (openingField (offset == 0) pcr randomAccess) remaining with hfield
  have hpay : payload = 184 := rfl
  have hpacket : packet = 188 := rfl
  have hlen : used field = max (used (openingField (offset == 0) pcr randomAccess))
      (payload - remaining) := stuff_length (used_openingField_le _ _ _) (by omega)
  have hle8 := used_openingField_le (offset == 0) pcr randomAccess
  have hused : used field ≤ 183 := by omega
  have hbytes : fieldBytes field = MpegTs.adaptationBytes field :=
    fieldBytes_eq fun f hf => by
      rw [hf] at hused
      simp only [used, Option.map_some, Option.getD_some] at hused
      omega
  -- the room left by the header and the field is what the payload fills
  set take := payload - used field with htake
  have htake_le : take ≤ remaining := by omega
  have hpayload : ((pes.drop offset).take take).length = take := by
    rw [List.length_take, List.length_drop]
    omega
  refine ⟨{ unitStart := offset == 0
            pid := pid
            continuity := (s.nextCc pid).1
            adaptation := field
            payload := (pes.drop offset).take take
            pid_lt := pid_lt_of_mem hpid
            continuity_lt := hs (slot pid)
            payload_ne := List.ne_nil_of_length_pos (by omega)
            size_eq := by
              rw [hpayload, ← used_eq]
              change 4 + used field + take = 188
              omega },
    -- the payload of the packet is the next piece of the PES packet
    rfl, rfl, rfl, by change 0 < ((pes.drop offset).take take).length; omega, ?_, ?_⟩
  · change (pes.drop offset).take take ++
      pes.drop (offset + ((pes.drop offset).take take).length) = _
    rw [hpayload, ← List.drop_drop, List.take_append_drop]
  -- the bytes of the pass are those of the packet
  · change packetizeLoop pid pes pcr randomAccess (fuel + 1) offset s output =
      packetizeLoop pid pes pcr randomAccess fuel (offset + ((pes.drop offset).take take).length)
        (s.nextCc pid).2 (output ++ (MpegTs.headerBytes (offset == 0) pid (s.nextCc pid).1
          field.isSome ++ MpegTs.adaptationBytes field ++ (pes.drop offset).take take))
    rw [packetizeLoop, if_pos hlt, hpayload, ← hbytes]
    simp only []
    rw [← hremaining, ← hfield]
    -- the source computes the room from the length of the output
    have hroom : min (packet - (output ++ [0x47, (if (offset == 0) = true then 0x40 else 0x00) |||
        high pid, low pid] ++ [(if field.isSome = true then 0x30 else 0x10) ||| (s.nextCc pid).1] ++
        fieldBytes field).length % packet) remaining = take := by
      have hfl : (fieldBytes field).length = used field := by rw [hbytes, used_eq]
      simp only [List.length_append, List.length_cons, List.length_nil, hfl]
      rw [hpacket] at hout ⊢
      omega
    rw [hroom]
    simp only [MpegTs.headerBytes, List.append_assoc, List.cons_append, List.nil_append]
    rfl

/-! ### Whole PES packets -/

/-- **Continuation.** Past offset `0` the loop writes the rest of the PES packet in packets
without a start flag. -/
theorem packetizeLoop_continue {pid : UInt16} (pes : Bytes) (pcr : Option UInt64)
    (randomAccess : Bool) (hpid : pid ∈ pids) :
    ∀ (fuel offset : ℕ) (s : TsMuxer) (output : Bytes), pes.length ≤ offset + fuel →
      0 < offset → CountersOk s → output.length % packet = 0 →
      ∃ ps s' out, packetizeLoop pid pes pcr randomAccess fuel offset s output =
        (s', output ++ out) ∧
        Emits s out s' ps ∧ SameStreams s s' ∧ (∀ p ∈ ps, p.pid = pid) ∧
        (∀ p ∈ ps, p.unitStart = false) ∧
        (ps.map MpegTs.Packet.payload).flatten = pes.drop offset := by
  intro fuel
  -- on the fuel; the offset grows by the payload of each packet
  induction fuel with
  | zero =>
    intro offset s output hfuel _ hs _
    refine ⟨[], s, [], ?_, Emits.nil hs, SameStreams.refl s, by simp, by simp, ?_⟩
    · rw [packetizeLoop, List.append_nil]
    · rw [List.drop_eq_nil_of_le (by omega)]
      rfl
  | succ fuel ih =>
    intro offset s output hfuel hoff hs hout
    by_cases hlt : offset < pes.length
    -- one pass, and the rest by induction
    · obtain ⟨p, rfl, hcc, hstart, hpos, hpay, hloop⟩ :=
        packetizeLoop_pass pes pcr randomAccess fuel hpid hs hout hlt
      have hone : Emits s p.bytes (s.nextCc p.pid).2 [p] := Emits.single hs hpid hcc
      obtain ⟨ps, s', out, heq, hemit, hsame, hpids, hstarts, hdata⟩ :=
        ih (offset + p.payload.length) (s.nextCc p.pid).2 (output ++ p.bytes) (by omega) (by omega)
          hone.ok (hone.aligned hout)
      refine ⟨p :: ps, s', p.bytes ++ out, ?_, hone.append hemit, hsame, ?_, ?_, ?_⟩
      · rw [hloop, heq, List.append_assoc]
      · intro q hq
        rcases List.mem_cons.mp hq with rfl | hq
        · rfl
        · exact hpids q hq
      · intro q hq
        rcases List.mem_cons.mp hq with rfl | hq
        · rw [hstart]
          simpa using Nat.ne_of_gt hoff
        · exact hstarts q hq
      · rw [List.map_cons, List.flatten_cons, hdata, hpay]
    -- the end of the PES packet
    · refine ⟨[], s, [], ?_, Emits.nil hs, SameStreams.refl s, by simp, by simp, ?_⟩
      · rw [packetizeLoop, if_neg hlt, List.append_nil]
      · rw [List.drop_eq_nil_of_le (by omega)]
        rfl

/-- **Packetizing a PES packet.** A non-empty PES packet is written behind an aligned output as
packets of its PID that carry it as one unit. -/
theorem packetize_spec {s : TsMuxer} {pid : UInt16} {pes : Bytes} (pcr : Option UInt64)
    (randomAccess : Bool) {output : Bytes} (hpid : pid ∈ pids) (hpes : pes ≠ [])
    (hs : CountersOk s) (hout : output.length % packet = 0) :
    ∃ ps s' out, s.packetize pid pes pcr randomAccess output = (s', output ++ out) ∧
      Emits s out s' ps ∧ SameStreams s s' ∧ (∀ p ∈ ps, p.pid = pid) ∧
      MpegTs.Carries ps pid [pes] := by
  have hlen : 0 < pes.length := List.length_pos_iff.mpr hpes
  obtain ⟨fuel, hfuel⟩ : ∃ fuel, pes.length = fuel + 1 := ⟨pes.length - 1, by omega⟩
  -- the first packet has the start flag, the others are its continuation
  obtain ⟨p, rfl, hcc, hstart, hpos, hpay, hloop⟩ :=
    packetizeLoop_pass pes pcr randomAccess fuel hpid hs hout hlen
  have hone : Emits s p.bytes (s.nextCc p.pid).2 [p] := Emits.single hs hpid hcc
  obtain ⟨ps, s', out, heq, hemit, hsame, hpids, hstarts, hdata⟩ :=
    packetizeLoop_continue pes pcr randomAccess hpid fuel (0 + p.payload.length)
      (s.nextCc p.pid).2 (output ++ p.bytes) (by omega) (by omega) hone.ok (hone.aligned hout)
  have hall : ∀ q ∈ p :: ps, q.pid = p.pid := by
    intro q hq
    rcases List.mem_cons.mp hq with rfl | hq
    · rfl
    · exact hpids q hq
  refine ⟨p :: ps, s', p.bytes ++ out, ?_, hone.append hemit, hsame, hall, ?_⟩
  · rw [packetize, hfuel, hloop, heq, List.append_assoc]
  · have hunit := MpegTs.Carries.unit hall hstart hstarts
    rwa [List.map_cons, List.flatten_cons, hdata, hpay, List.drop_zero] at hunit

/-! ### Tables -/

/-- The payload of a PSI packet: pointer field, section, stuffing. -/
def psiPayload (sec : Bytes) : Bytes := resize (0x00 :: sec) payload 0xff

theorem length_psiSection (tableId : UInt8) (id : UInt16) (version : UInt8) (body : Bytes) :
    (psiSection tableId id version body).length = 12 + body.length := by
  simp only [psiSection, List.length_append, List.length_cons, List.length_nil, length_u16ToBe,
    length_u32ToBe]
  omega

theorem length_programMap_le (codec : VideoCodec) (audio : Bool) (version : UInt8) :
    (programMap codec audio version).length ≤ 26 := by
  rw [programMap, length_psiSection]
  cases codec <;> cases audio <;> simp [streams]

/-- A section that fits is written as one packet of its PID. -/
theorem psi_spec (s : TsMuxer) (pid : UInt16) (sec : Bytes) (hpid : pid ∈ pids)
    (hs : CountersOk s) (hlen : sec.length ≤ 183) :
    ∃ p : MpegTs.Packet, p.pid = pid ∧ p.unitStart = true ∧ p.payload = psiPayload sec ∧
      s.psi pid sec = ((s.nextCc pid).2, p.bytes) ∧ Emits s p.bytes (s.nextCc pid).2 [p] := by
  have hpay : payload = 184 := rfl
  let p : MpegTs.Packet :=
    { unitStart := true
      pid := pid
      continuity := (s.nextCc pid).1
      adaptation := none
      payload := psiPayload sec
      pid_lt := pid_lt_of_mem hpid
      continuity_lt := hs (slot pid)
      payload_ne := List.ne_nil_of_length_pos (by rw [psiPayload, length_resize]; decide)
      size_eq := by rw [psiPayload, length_resize]; rfl }
  refine ⟨p, rfl, rfl, rfl, ?_, Emits.single hs hpid rfl⟩
  -- the section fits, so resizing the packet only appends stuffing behind it
  change ((s.nextCc pid).2, resize _ packet 0xff) = ((s.nextCc pid).2, _ ++ psiPayload sec)
  rw [psiPayload, resize_of_le, resize_of_le]
  · simp only [List.length_append, List.length_cons, List.length_nil, List.append_assoc]
    rw [hpay, show packet = 188 from rfl,
      show 188 - (0 + 1 + 1 + 1 + 1 + (0 + 1 + sec.length)) = 184 - (sec.length + 1) by omega]
    rfl
  · rw [List.length_cons]
    omega
  · simp only [List.length_append, List.length_cons, List.length_nil]
    rw [show packet = 188 from rfl]
    omega

/-- What the tables of the state `s` look like in the packets `ps`: every PAT and PMT packet
holds the section of that state. -/
structure TablesOf (s : TsMuxer) (ps : List MpegTs.Packet) : Prop where
  pat : ∀ p ∈ ps, p.pid = 0x0000 → p.payload = psiPayload programAssociation
  pmt : ∀ p ∈ ps, p.pid = pmtPid →
    p.payload = psiPayload (programMap s.codec s.hasAudio s.pmtVersion)

/-- The packets begin with a PAT packet and a PMT packet. -/
def OpensWithTables (ps : List MpegTs.Packet) : Prop :=
  ∃ pat pmt rest, ps = pat :: pmt :: rest ∧ pat.pid = 0x0000 ∧ pmt.pid = pmtPid

/-- `tables` writes nothing, or the PAT and the PMT, and settles the tables. -/
theorem tables_spec {s : TsMuxer} (hs : CountersOk s) (keyframe : Bool) :
    ∃ ps s' out, s.tables keyframe = (s', out) ∧ Emits s out s' ps ∧
      SameStreams { s with tablesDue := false } s' ∧ TablesOf s ps ∧
      (∀ p ∈ ps, p.pid = 0x0000 ∨ p.pid = pmtPid) ∧
      (s.tablesDue = true ∨ keyframe = true → OpensWithTables ps) := by
  unfold tables
  -- the tables are not due
  by_cases hdue : (!s.tablesDue && !keyframe) = true
  · simp only [Bool.and_eq_true, Bool.not_eq_true'] at hdue
    refine ⟨[], s, [], ?_, Emits.nil hs, ?_, ⟨by simp, by simp⟩, by simp, by simp [hdue.1, hdue.2]⟩
    · rw [hdue.1, hdue.2]
      rfl
    · -- nothing was due, so settling the tables changes nothing
      unfold SameStreams
      rw [← hdue.1]
  · rw [if_neg hdue]
    set t : TsMuxer := { s with tablesDue := false } with ht
    -- the tables are due: the PAT, and then the PMT
    obtain ⟨pat, hpid₀, -, hpay₀, hpsi₀, hemit₀⟩ :=
      psi_spec t 0x0000 programAssociation (by decide) hs (by decide)
    obtain ⟨pmt, hpid₁, -, hpay₁, hpsi₁, hemit₁⟩ :=
      psi_spec (t.nextCc 0x0000).2 pmtPid (programMap s.codec s.hasAudio s.pmtVersion) (by decide)
        hemit₀.ok ((length_programMap_le _ _ _).trans (by decide))
    have hboth := hemit₀.append hemit₁
    have hne : (0x0000 : UInt16) ≠ pmtPid := by decide
    refine ⟨[pat, pmt], ((t.nextCc 0x0000).2.nextCc pmtPid).2, pat.bytes ++ pmt.bytes, ?_,
      ⟨hboth.bytes, hboth.pid_mem, hboth.run, hboth.ok⟩, rfl, ⟨?_, ?_⟩, ?_,
      fun _ => ⟨pat, pmt, [], rfl, hpid₀, hpid₁⟩⟩
    · simp only [hpsi₀]
      change (((t.nextCc 0x0000).2.psi pmtPid (programMap s.codec s.hasAudio s.pmtVersion)).1,
        pat.bytes ++ ((t.nextCc 0x0000).2.psi pmtPid
          (programMap s.codec s.hasAudio s.pmtVersion)).2) = _
      rw [hpsi₁]
    -- the two packets have different PIDs
    · intro p hp hpid
      rcases List.mem_cons.mp hp with rfl | hp
      · exact hpay₀
      · obtain rfl := List.mem_singleton.mp hp
        exact absurd (hpid.symm.trans hpid₁) hne
    · intro p hp hpid
      rcases List.mem_cons.mp hp with rfl | hp
      · exact absurd (hpid₀.symm.trans hpid) hne
      · obtain rfl := List.mem_singleton.mp hp
        exact hpay₁
    · intro p hp
      rcases List.mem_cons.mp hp with rfl | hp
      · exact Or.inl hpid₀
      · obtain rfl := List.mem_singleton.mp hp
        exact Or.inr hpid₁

/-! ### Calls -/

/-- What one PES packet written on `pid` leaves: the packets `ps`, the tables they open with if
those were due, and a muxer that differs in its counters and in having its tables settled. -/
structure Writes (s : TsMuxer) (keyframe : Bool) (pid : UInt16) (pes : Bytes) (s' : TsMuxer)
    (out : Bytes) (ps : List MpegTs.Packet) : Prop where
  emits : Emits s out s' ps
  same : SameStreams { s with tablesDue := false } s'
  tables : TablesOf s ps
  opens : s.tablesDue = true ∨ keyframe = true → OpensWithTables ps
  pid_eq : ∀ p ∈ ps, p.pid = 0x0000 ∨ p.pid = pmtPid ∨ p.pid = pid
  carries : MpegTs.Carries ps pid [pes]

/-- **Writing a PES packet**, the shape `video` and `audio` share: the tables if they are due,
then the packets of the PES packet. -/
theorem writes_of_tables_packetize {s : TsMuxer} (hs : CountersOk s) (keyframe : Bool)
    {pid : UInt16} (hpid : pid = videoPid ∨ pid = audioPid) {pes : Bytes} (hpes : pes ≠ [])
    (pcr : Option UInt64) (randomAccess : Bool) :
    ∃ ps s' out, (s.tables keyframe).1.packetize pid pes pcr randomAccess (s.tables keyframe).2 =
      (s', out) ∧ Writes s keyframe pid pes s' out ps := by
  have hmem : pid ∈ pids := by rcases hpid with rfl | rfl <;> decide
  have hpid₀ : pid ≠ 0x0000 := by rcases hpid with rfl | rfl <;> decide
  have hpid₁ : pid ≠ pmtPid := by rcases hpid with rfl | rfl <;> decide
  -- the tables, and then the packets of the PES packet
  obtain ⟨ts, t, tout, htab, htemit, htsame, htables, htpid, htopens⟩ := tables_spec hs keyframe
  obtain ⟨ps, s', out, hpack, hemit, hsame, hpids, hcarry⟩ :=
    packetize_spec pcr randomAccess hmem hpes htemit.ok htemit.length_mod
  refine ⟨ts ++ ps, s', tout ++ out, ?_, htemit.append hemit, htsame.trans hsame, ⟨?_, ?_⟩, ?_,
    ?_, ?_⟩
  · rw [htab, hpack]
  · intro p hp hp₀
    rcases List.mem_append.mp hp with hp | hp
    · exact htables.pat p hp hp₀
    · exact absurd ((hpids p hp).symm.trans hp₀) hpid₀
  · intro p hp hp₁
    rcases List.mem_append.mp hp with hp | hp
    · exact htables.pmt p hp hp₁
    · exact absurd ((hpids p hp).symm.trans hp₁) hpid₁
  · intro hdue
    obtain ⟨pat, pmt, rest, rfl, hpat, hpmt⟩ := htopens hdue
    exact ⟨pat, pmt, rest ++ ps, rfl, hpat, hpmt⟩
  · intro p hp
    rcases List.mem_append.mp hp with hp | hp
    · exact (htpid p hp).imp_right Or.inl
    · exact Or.inr (Or.inr (hpids p hp))
  -- the tables have PIDs of their own, so they carry nothing of the stream
  · have hnone : MpegTs.Carries ts pid [] := by
      refine MpegTs.Carries.of_ne fun p hp heq => ?_
      rcases htpid p hp with h | h
      · exact hpid₀ (heq.symm.trans h)
      · exact hpid₁ (heq.symm.trans h)
    exact hnone.append hcarry

theorem pes_ne_nil (streamId : UInt8) (pts : UInt64) (payload : Bytes) (bounded : Bool) :
    pes streamId pts payload bounded ≠ [] := by
  simp [pes]

/-- The PES packet a video call writes. -/
def videoPes (codec : VideoCodec) (pts : UInt64) (accessUnit : Bytes) : Bytes :=
  pes 0xe0 pts (videoBody codec accessUnit) false

/-- The PES packet an audio call writes. -/
def audioPes (pts : UInt64) (adts : Bytes) : Bytes := pes 0xc0 pts adts true

/-- The video of a call is written as one PES packet. -/
theorem video_writes {s : TsMuxer} (hs : CountersOk s) (pts : UInt64) (keyframe : Bool)
    (accessUnit : Bytes) :
    ∃ ps s' out, s.video pts keyframe accessUnit = (s', out) ∧
      Writes s keyframe videoPid (videoPes s.codec pts accessUnit) s' out ps := by
  -- the tables do not change the codec
  have hcodec : (s.tables keyframe).1.codec = s.codec := by
    obtain ⟨_, t, _, htab, -, htsame, -⟩ := tables_spec hs keyframe
    rw [htab]
    unfold SameStreams at htsame
    rw [htsame]
  obtain ⟨ps, s', out, heq, hw⟩ := writes_of_tables_packetize hs keyframe (Or.inl rfl)
    (pes_ne_nil 0xe0 pts (videoBody s.codec accessUnit) false)
    (some ((pts - pcrLead) &&& ptsMask)) keyframe
  refine ⟨ps, s', out, ?_, hw⟩
  rw [← heq, ← hcodec]
  rfl

/-- The audio of a call is written as one PES packet. -/
theorem audio_writes {s : TsMuxer} (hs : CountersOk s) (pts : UInt64) (adts : Bytes) :
    ∃ ps s' out, s.audio pts adts = (s', out) ∧
      Writes s false audioPid (audioPes pts adts) s' out ps := by
  obtain ⟨ps, s', out, heq, hw⟩ := writes_of_tables_packetize hs false (Or.inr rfl)
    (pes_ne_nil 0xc0 pts adts true) none false
  exact ⟨ps, s', out, heq, hw⟩

/-- The video units of a call. -/
def Call.videoUnits (codec : VideoCodec) : Call → List Bytes
  | .video pts _ accessUnit => [videoPes codec pts accessUnit]
  | _ => []

/-- The audio units of a call. -/
def Call.audioUnits : Call → List Bytes
  | .audio pts adts => [audioPes pts adts]
  | _ => []

/-- **One call.** -/
theorem call_spec {s : TsMuxer} (hs : CountersOk s) (c : Call) :
    ∃ ps, Emits s (s.call c).2 (s.call c).1 ps ∧ (s.call c).1.codec = s.codec ∧
      MpegTs.Carries ps videoPid (c.videoUnits s.codec) ∧
      MpegTs.Carries ps audioPid c.audioUnits := by
  have hva : videoPid ≠ audioPid := by decide
  cases c with
  | enableAudio =>
    -- no packet is written, and the counters stand
    have hcont : s.enableAudio.continuity = s.continuity := by
      unfold enableAudio
      split <;> rfl
    have hcodec : s.enableAudio.codec = s.codec := by
      unfold enableAudio
      split <;> rfl
    refine ⟨[], ⟨rfl, by simp, ?_, ?_⟩, hcodec, MpegTs.Carries.of_ne (by simp),
      MpegTs.Carries.of_ne (by simp)⟩
    · intro pid _
      exact (congrFun hcont (slot pid)).symm
    · intro i
      change s.enableAudio.continuity i < 16
      rw [hcont]
      exact hs i
  -- the packets of the tables and of the video are not on the PID of the audio
  | video pts keyframe accessUnit =>
    obtain ⟨ps, s', out, heq, hw⟩ := video_writes hs pts keyframe accessUnit
    refine ⟨ps, ?_, ?_, ?_, MpegTs.Carries.of_ne ?_⟩
    · simpa only [call, heq] using hw.emits
    · simp only [call, heq]
      rw [hw.same]
    · exact hw.carries
    · intro p hp
      rcases hw.pid_eq p hp with h | h | h <;> rw [h] <;> decide
  -- nor are those of the audio on the PID of the video
  | audio pts adts =>
    obtain ⟨ps, s', out, heq, hw⟩ := audio_writes hs pts adts
    refine ⟨ps, ?_, ?_, MpegTs.Carries.of_ne ?_, ?_⟩
    · simpa only [call, heq] using hw.emits
    · simp only [call, heq]
      rw [hw.same]
    · intro p hp
      rcases hw.pid_eq p hp with h | h | h <;> rw [h] <;> decide
    · exact hw.carries

/-- **A run of calls.** -/
theorem run_spec {s : TsMuxer} (hs : CountersOk s) (calls : List Call) :
    ∃ ps, Emits s (s.run calls).2 (s.run calls).1 ps ∧
      MpegTs.Carries ps videoPid (calls.flatMap (Call.videoUnits s.codec)) ∧
      MpegTs.Carries ps audioPid (calls.flatMap Call.audioUnits) := by
  induction calls generalizing s with
  | nil =>
    exact ⟨[], Emits.nil hs, MpegTs.Carries.of_ne (by simp), MpegTs.Carries.of_ne (by simp)⟩
  | cons c calls ih =>
    obtain ⟨ps, hemit, hcodec, hvideo, haudio⟩ := call_spec hs c
    obtain ⟨qs, hemit', hvideo', haudio'⟩ := ih hemit.ok
    rw [hcodec] at hvideo'
    exact ⟨ps ++ qs, hemit.append hemit', hvideo.append hvideo', haudio.append haudio'⟩

theorem countersOk_new (codec : VideoCodec) : CountersOk (new codec) := fun _ => by
  change (0 : UInt8) < 16
  decide

/-! ### Reading the PES packets back -/

/-- The five time stamp bytes read back as the time stamp modulo `2 ^ 33`. -/
theorem decodePts_ptsBytes (pts : UInt64) :
    ∃ a b c d e, ptsBytes pts = [a, b, c, d, e] ∧
      MpegTs.decodePts a b c d e = pts.toNat % 2 ^ 33 := by
  refine ⟨_, _, _, _, _, rfl, ?_⟩
  -- the marker bits of the first byte and of the others, for every byte
  have hfirst : ∀ x : UInt8,
      (((0x21 : UInt8) ||| x <<< 1 &&& 0x0e) >>> 1 &&& 0x07).toNat = x.toNat % 8 := by
    decide +kernel
  have hmarked : ∀ x : UInt8, ((x &&& 0xfe ||| 1) >>> 1).toNat = x.toNat / 2 := by
    decide +kernel
  have hmask : (pts &&& ptsMask).toNat = pts.toNat % 2 ^ 33 := by
    rw [UInt64.toNat_and]
    exact Nat.and_two_pow_sub_one_eq_mod pts.toNat 33
  have hlt : (pts &&& ptsMask).toNat < 2 ^ 33 := by
    rw [hmask]
    exact Nat.mod_lt _ (by decide)
  -- the bits of the time stamp are put together again
  unfold MpegTs.decodePts
  rw [hfirst, hmarked, hmarked, ← hmask]
  generalize pts &&& ptsMask = q at hlt ⊢
  simp only [byte, UInt64.toNat_toUInt8, UInt64.toNat_shiftRight, UInt64.toNat_shiftLeft,
    Nat.shiftRight_eq_div_pow, Nat.shiftLeft_eq, UInt64.toNat_ofNat, Nat.reducePow,
    Nat.reduceMod]
  omega

/-- The `PES_packet_length` field of a PES packet. -/
def pesLength (payload : Bytes) (bounded : Bool) : UInt16 :=
  if bounded then (u16TryFrom (payload.length + 8)).getD 0 else 0

/-- A PES packet reads back as what it was made of. -/
theorem readPes_pes (streamId : UInt8) (pts : UInt64) (payload : Bytes) (bounded : Bool) :
    MpegTs.readPes (pes streamId pts payload bounded) =
      some ⟨streamId, pesLength payload bounded, pts.toNat % 2 ^ 33, payload⟩ := by
  obtain ⟨a, b, c, d, e, hbytes, hpts⟩ := decodePts_ptsBytes pts
  have hlen := u16FromBe_toBe (pesLength payload bounded)
  unfold pes
  simp only [hbytes]
  change some (MpegTs.Pes.mk streamId (u16FromBe (pesLength payload bounded >>> 8).toUInt8
    (pesLength payload bounded).toUInt8) (MpegTs.decodePts a b c d e) payload) = _
  rw [hlen, hpts]

/-- The NAL header byte of the codec's access unit delimiter. -/
def delimiterNal : VideoCodec → UInt8
  | .h264 => 0x09
  | .hevc => 0x46

/-- What a receiver is to find on the video PID for a call. -/
def Call.videoReading (codec : VideoCodec) : Call → Option MpegTs.Pes
  | .video pts _ accessUnit => some
      { streamId := 0xe0
        packetLength := 0
        pts := pts.toNat % 2 ^ 33
        payload := if accessUnit[4]? = some (delimiterNal codec) then accessUnit
          else delimiter codec ++ accessUnit }
  | _ => none

/-- What a receiver is to find on the audio PID for a call. The length field is exact as long as
it fits, and open (`0`) beyond. -/
def Call.audioReading : Call → Option MpegTs.Pes
  | .audio pts adts => some
      { streamId := 0xc0
        packetLength := if adts.length ≤ 65527 then UInt16.ofNat (adts.length + 8) else 0
        pts := pts.toNat % 2 ^ 33
        payload := adts }
  | _ => none

/-- The delimiter is put in front where it is missing. -/
theorem videoBody_eq (codec : VideoCodec) (accessUnit : Bytes) :
    videoBody codec accessUnit =
      if accessUnit[4]? = some (delimiterNal codec) then accessUnit
      else delimiter codec ++ accessUnit := by
  have hdel : (delimiter codec)[4]? = some (delimiterNal codec) := by cases codec <;> rfl
  unfold videoBody
  rw [hdel]
  split <;> rfl

/-- The PES packets of the video read back as the calls of the video. -/
theorem mapM_videoUnits (codec : VideoCodec) (calls : List Call) :
    (calls.flatMap (Call.videoUnits codec)).mapM MpegTs.readPes =
      some (calls.filterMap (Call.videoReading codec)) := by
  induction calls with
  | nil => rfl
  | cons c calls ih =>
    rw [List.flatMap_cons, List.mapM_append, ih]
    cases c with
    | video pts keyframe accessUnit =>
      simp [Call.videoUnits, Call.videoReading, videoPes, readPes_pes, videoBody_eq, pesLength]
    | _ => simp [Call.videoUnits, Call.videoReading, List.filterMap_cons]

/-- The PES packets of the audio read back as the calls of the audio. -/
theorem mapM_audioUnits (calls : List Call) :
    (calls.flatMap Call.audioUnits).mapM MpegTs.readPes =
      some (calls.filterMap Call.audioReading) := by
  induction calls with
  | nil => rfl
  | cons c calls ih =>
    rw [List.flatMap_cons, List.mapM_append, ih]
    cases c with
    | audio pts adts =>
      -- the length is announced where it fits two bytes
      have hlen : pesLength adts true =
          if adts.length ≤ 65527 then UInt16.ofNat (adts.length + 8) else 0 := by
        unfold pesLength u16TryFrom
        split
        · split
          · rw [if_pos (by omega)]
            rfl
          · rw [if_neg (by omega)]
            rfl
        · next h => exact absurd rfl h
      simp [Call.audioUnits, Call.audioReading, audioPes, readPes_pes, hlen]
    | _ => simp [Call.audioUnits, Call.audioReading, List.filterMap_cons]

/-- A receiver finds the video calls of a run, in order. -/
theorem pesPackets_run_video {s : TsMuxer} (hs : CountersOk s) (calls : List Call) :
    MpegTs.pesPackets (s.run calls).2 videoPid =
      some (calls.filterMap (Call.videoReading s.codec)) := by
  obtain ⟨ps, hemit, hvideo, -⟩ := run_spec hs calls
  rw [MpegTs.pesPackets, hemit.bytes, hvideo.units_eq]
  exact mapM_videoUnits s.codec calls

/-- A receiver finds the audio calls of a run, in order. -/
theorem pesPackets_run_audio {s : TsMuxer} (hs : CountersOk s) (calls : List Call) :
    MpegTs.pesPackets (s.run calls).2 audioPid = some (calls.filterMap Call.audioReading) := by
  obtain ⟨ps, hemit, -, haudio⟩ := run_spec hs calls
  rw [MpegTs.pesPackets, hemit.bytes, haudio.units_eq]
  exact mapM_audioUnits calls

/-- **The round trip.** Whatever the calls, the output is a whole number of transport packets,
each well formed, on one of the four PIDs, with a payload behind its adaptation field; the
continuity counters of every PID count up modulo 16; and the reference demultiplexer reads back
exactly the video calls and exactly the audio calls, in order. -/
theorem mux_demux (codec : VideoCodec) (calls : List Call) :
    let stream := ((new codec).run calls).2
    stream.length % 188 = 0 ∧
    (∀ p ∈ MpegTs.packets stream, p.length = 188 ∧ MpegTs.syncByte p = 0x47 ∧
      MpegTs.pid p ∈ [0x0000, 0x1000, 0x0100, 0x0101] ∧ MpegTs.hasPayload p = true ∧
      MpegTs.payloadOffset p < 188) ∧
    (∀ pid, (((MpegTs.packets stream).filter (fun p => MpegTs.pid p = pid)).map
      MpegTs.continuity).IsChain (fun a b => b.toNat = (a.toNat + 1) % 16)) ∧
    MpegTs.pesPackets stream videoPid = some (calls.filterMap (Call.videoReading codec)) ∧
    MpegTs.pesPackets stream audioPid = some (calls.filterMap Call.audioReading) := by
  intro stream
  obtain ⟨ps, hemit, -⟩ := run_spec (countersOk_new codec) calls
  have hstream : stream = (ps.map MpegTs.Packet.bytes).flatten := hemit.bytes
  have hpackets : MpegTs.packets stream = ps.map MpegTs.Packet.bytes := by
    rw [hstream, MpegTs.packets_flatten]
  refine ⟨hemit.length_mod, ?_, ?_, pesPackets_run_video (countersOk_new codec) calls,
    pesPackets_run_audio (countersOk_new codec) calls⟩
  -- each packet of the output is one that was written
  · intro b hb
    rw [hpackets] at hb
    obtain ⟨p, hp, rfl⟩ := List.mem_map.mp hb
    refine ⟨p.length_bytes, p.syncByte_bytes, ?_, p.hasPayload_bytes, p.payloadOffset_lt⟩
    rw [p.pid_bytes]
    exact hemit.pid_mem p hp
  -- the counters of a PID are those of its packets
  · intro pid
    have hcounters : (((MpegTs.packets stream).filter (fun p => MpegTs.pid p = pid)).map
        MpegTs.continuity) = counters ps pid := by
      rw [hpackets, List.filter_map, List.map_map]
      simp [counters, Function.comp_def]
    rw [hcounters]
    by_cases hpid : pid ∈ pids
    · exact (hemit.run pid hpid).isChain (countersOk_new codec (slot pid))
    · -- nothing is written on any other PID
      have hnone : ps.filter (fun p => p.pid = pid) = [] := by
        refine List.filter_eq_nil_iff.mpr fun p hp heq => hpid ?_
        have hmem := hemit.pid_mem p hp
        rwa [of_decide_eq_true heq] at hmem
      rw [counters, hnone]
      exact List.isChain_nil

end TsMuxer

end EzvizBridge
