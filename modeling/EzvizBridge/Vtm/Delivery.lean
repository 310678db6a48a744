import EzvizBridge.Vtm.Session

/-!
# What a session delivers

The relay sends packets, in any segmentation, and closes. With no cancellation and no timeout around
it (`Calm`), a session answers some of the packets, hands out the bodies of others and ends at the
first one that it refuses, or at the close. Which ones is a `Rule`, and `Follows` says that a
session follows it.

The session follows the rule of its loop (`follows_loopRule`), where a packet with the code of a
keepalive request is answered on any channel. It follows the rule of the channels exactly when no
packet that it reaches has that code on another channel than the message channel
(`media_delivery_iff`).
-/

namespace EzvizBridge

namespace Vtm

/-! ### The relay -/

/-- What `encode_packet` makes of the packets, one after the other. -/
def encodeAll : List VtmPacket → Except SessionError Bytes
  | [] => .ok []
  | packet :: packets =>
    match encodePacket packet.body packet.channel packet.sequence packet.messageCode,
      encodeAll packets with
    | .ok data, .ok rest => .ok (data ++ rest)
    | .error error, _ | .ok _, .error error => .error error

/-- How the session ends behind the packets, when this is all that is left: the relay has closed
inside a packet or between two of them, or there is a header that is no header. -/
def endOf (tail : Bytes) : Option SessionError :=
  if tail.length < headerSize then some (.io .unexpectedEof)
  else
    match decodeHeader (tail.take headerSize) with
    | .error error => some error
    | .ok (_, length, _, _) =>
      if tail.length < headerSize + length then some (.io .unexpectedEof) else none

/-- A turn without cancellation and timeout, whose writes reach the relay. -/
structure Calm (turn : Turn) : Prop where
  cancelled : turn.cancelled = false
  asked : turn.asked = .done
  wait : turn.wait = .ready
  answered : turn.answered = .done

/-- The stream session is known, from the body of a packet, as `start` reads it (`start_parsed`). -/
structure Known (session : VtmSession) : Prop where
  parsed : ∃ body : Bytes, body.length ≤ 65535 ∧ parseStreamInfo body = .ok session.info
  named : session.info.streamSession ≠ none

/-! ### Rules -/

/-- What is done with a packet: the session ends with it, hands out its body, or answers it. -/
structure Rule where
  refuses : VtmPacket → Bool
  pays : VtmPacket → Bool
  answers : VtmPacket → Bool

/-- The code of a packet on the wire. -/
def codeOf (packet : Bytes) : Option UInt16 :=
  match decodeHeader (packet.take headerSize) with
  | .ok (_, _, _, code) => some code
  | .error _ => none

/-- The number of answers among the packets written. -/
def answersIn (written : List Bytes) : ℕ :=
  written.countP fun packet => codeOf packet = some keepaliveResponse

/-- The packets before the first one that is refused. -/
def Rule.accepted (rule : Rule) (packets : List VtmPacket) : List VtmPacket :=
  packets.takeWhile fun packet => !rule.refuses packet

/-- A payload that is not empty. -/
def Rule.fresh (rule : Rule) (packet : VtmPacket) : Bool := rule.pays packet && packet.body ≠ []

/-- The clock at the last payload that is not empty. -/
def Rule.lastMedia (rule : Rule) : List VtmPacket → List Turn → ℕ → ℕ
  | packet :: packets, turn :: turns, last =>
    rule.lastMedia packets turns (if rule.fresh packet then turn.done else last)
  | _, _, last => last

/-- A session that meets `packets` and then ends with `error` follows the rule. -/
structure Follows (rule : Rule) (allowEncryptedStream : Bool) (session : VtmSession)
    (packets : List VtmPacket) (error : SessionError) (turns : List Turn) : Prop where
  payloads : (deliver allowEncryptedStream session turns).payloads =
    ((rule.accepted packets).filter rule.pays).map VtmPacket.body
  answered : answersIn (deliver allowEncryptedStream session turns).session.written =
    answersIn session.written + (rule.accepted packets).countP rule.answers
  mediaSeen : (deliver allowEncryptedStream session turns).session.mediaSeen =
    (session.mediaSeen || (rule.accepted packets).any rule.fresh)
  lastMedia : (deliver allowEncryptedStream session turns).session.lastMedia =
    rule.lastMedia (rule.accepted packets) turns session.lastMedia
  ending : (deliver allowEncryptedStream session turns).ending = some
    (if (rule.accepted packets).length < packets.length then
      .error (upstream "encrypted VTM control packet is unsupported")
    else if ({ session with mediaSeen := session.mediaSeen ||
      (rule.accepted packets).any rule.fresh } :
        VtmSession).finishedPlayback error then .ok ()
    else .error error)

/-- `KEEPALIVE_REQUEST`, on any channel. -/
def VtmPacket.isRequest (self : VtmPacket) : Bool := self.messageCode = keepaliveRequest

/-- The rule of the channels: media is handed out whatever its code is, and the message channel
alone has requests. -/
def channelRule (allowEncryptedStream : Bool) : Rule where
  refuses packet := packet.encrypted && !packet.media allowEncryptedStream
  pays packet := packet.media allowEncryptedStream
  answers packet := packet.isRequest && packet.channel = channelMessage

/-- The rule of the loop: the code is looked at first. -/
def loopRule (allowEncryptedStream : Bool) : Rule where
  refuses packet := !packet.isRequest && (packet.encrypted && !packet.media allowEncryptedStream)
  pays packet := !packet.isRequest && packet.media allowEncryptedStream
  answers packet := packet.isRequest

/-- No packet that the session reaches has the code of a keepalive request on another channel than
the message channel. -/
def Clear (allowEncryptedStream : Bool) (packets : List VtmPacket) : Prop :=
  ∀ packet ∈ packets.take (((channelRule allowEncryptedStream).accepted packets).length + 1),
    packet.isRequest = true → packet.channel = channelMessage

/-! ### Reading -/

/-- With enough bytes `read_exact` returns the first of them, wherever the segments are cut. -/
theorem readExact_of_le {n : ℕ} {segments : List Bytes} (h : n ≤ segments.flatten.length) :
    ∃ rest, readExact n segments = (some (segments.flatten.take n), rest) ∧
      rest.flatten = segments.flatten.drop n := by
  -- on the segments; `n` is what is still to be read
  induction segments generalizing n with
  | nil =>
    obtain rfl := Nat.le_zero.mp h
    exact ⟨[], rfl, rfl⟩
  | cons segment segments ih =>
    cases n with
    | zero => exact ⟨segment :: segments, rfl, rfl⟩
    | succ n =>
      rw [List.flatten_cons, List.length_append] at h
      rw [readExact, List.flatten_cons]
      -- this segment is enough, or it is used up
      by_cases hin : n + 1 ≤ segment.length
      · refine ⟨segment.drop (n + 1) :: segments, ?_, ?_⟩
        · rw [if_pos hin, List.take_append_of_le_length hin]
        · rw [List.flatten_cons, List.drop_append_of_le_length hin]
      · obtain ⟨rest, hread, hrest⟩ := ih (n := n + 1 - segment.length) (by omega)
        have htake : segment.take (n + 1) = segment := List.take_of_length_le (by omega)
        have hdrop : segment.drop (n + 1) = [] := List.drop_eq_nil_of_le (by omega)
        refine ⟨rest, ?_, ?_⟩
        · rw [if_neg hin, hread, List.take_append, htake]
        · rw [hrest, List.drop_append, hdrop, List.nil_append]

/-- With too few bytes it fails, and nothing is left. -/
theorem readExact_of_lt {n : ℕ} {segments : List Bytes} (h : segments.flatten.length < n) :
    readExact n segments = (none, []) := by
  induction segments generalizing n with
  | nil =>
    obtain ⟨n, rfl⟩ := Nat.exists_eq_succ_of_ne_zero (Nat.ne_of_gt h)
    rfl
  | cons segment segments ih =>
    rw [List.flatten_cons, List.length_append] at h
    obtain ⟨n, rfl⟩ := Nat.exists_eq_succ_of_ne_zero (show n ≠ 0 by omega)
    rw [readExact, if_neg (by omega), ih (by omega)]

/-- A header, on the wire. -/
def headerOf (packet : VtmPacket) : Bytes :=
  [magic, packet.channel] ++ u16ToBe (.ofNat packet.body.length) ++ u16ToBe packet.sequence ++
    u16ToBe packet.messageCode

theorem length_headerOf (packet : VtmPacket) : (headerOf packet).length = headerSize := rfl

/-- What `encode_packet` accepts, and what it writes. -/
theorem encodePacket_eq_ok {packet : VtmPacket} {data : Bytes}
    (h : encodePacket packet.body packet.channel packet.sequence packet.messageCode = .ok data) :
    packet.body.length < 65536 ∧ data = headerOf packet ++ packet.body := by
  unfold encodePacket u16TryFrom at h
  by_cases hlength : packet.body.length < 65536
  · rw [if_pos hlength] at h
    exact ⟨hlength, (Except.ok.inj h).symm⟩
  · rw [if_neg hlength] at h
    cases h

/-- A short body is written as header and body. -/
theorem encodePacket_of_lt {body : Bytes} (h : body.length < 65536) (channel : UInt8)
    (sequence code : UInt16) :
    encodePacket body channel sequence code =
      .ok (headerOf ⟨channel, sequence, code, body⟩ ++ body) := by
  unfold encodePacket u16TryFrom
  rw [if_pos h]
  rfl

/-- **A header** is read back. -/
theorem decodeHeader_headerOf {packet : VtmPacket} (hlength : packet.body.length < 65536)
    (hchannel : packet.channel ∈ channels) :
    decodeHeader (headerOf packet) =
      .ok (packet.channel, packet.body.length, packet.sequence, packet.messageCode) := by
  -- the length fits the two bytes of the header
  have hfits : (UInt16.ofNat packet.body.length).toNat = packet.body.length := by
    rw [UInt16.toNat_ofNat']
    omega
  have hmagic : ¬ magic ≠ magic := fun h => h rfl
  have hknown : ¬ packet.channel ∉ channels := fun h => h hchannel
  -- the four fields are at fixed places, so the decoder computes
  show (if magic ≠ magic then Except.error (upstream "invalid VTM packet header")
    else if packet.channel ∉ channels then Except.error (upstream "unknown VTM packet channel")
    else Except.ok (packet.channel, (u16FromBe _ _).toNat, u16FromBe _ _, u16FromBe _ _)) = _
  rw [if_neg hmagic, if_neg hknown, u16FromBe_toBe, u16FromBe_toBe, u16FromBe_toBe, hfits]

/-- **A packet** is read, and what is behind it is left. -/
theorem readPacket_wire {session : VtmSession} {packet : VtmPacket} {rest : Bytes}
    (hlength : packet.body.length < 65536) (hchannel : packet.channel ∈ channels)
    (hunread : session.unread.flatten = headerOf packet ++ packet.body ++ rest) :
    ∃ unread, session.readPacket = (.ok packet, { session with unread := unread }) ∧
      unread.flatten = rest := by
  -- first the header, then as many bytes as it tells
  have hsize : headerSize ≤ session.unread.flatten.length := by
    rw [hunread, List.length_append, List.length_append, length_headerOf]
    omega
  obtain ⟨behind, hheader, hbehind⟩ := readExact_of_le hsize
  rw [hunread, List.append_assoc] at hheader hbehind
  rw [List.take_left' (length_headerOf packet)] at hheader
  rw [List.drop_left' (length_headerOf packet)] at hbehind
  have hsize' : packet.body.length ≤ behind.flatten.length := by
    rw [hbehind, List.length_append]
    omega
  -- the body ends where the next packet begins
  obtain ⟨unread, hbody, hrest⟩ := readExact_of_le hsize'
  rw [hbehind, List.take_left] at hbody
  rw [hbehind, List.drop_left] at hrest
  refine ⟨unread, ?_, hrest⟩
  simp only [VtmSession.readPacket, hheader, decodeHeader_headerOf hlength hchannel, hbody]

/-- **The end** is found where it is. -/
theorem readPacket_end {session : VtmSession} {error : SessionError}
    (h : endOf session.unread.flatten = some error) :
    ∃ unread, session.readPacket = (.error error, { session with unread := unread }) := by
  unfold endOf at h
  -- less than a header is left
  by_cases hshort : session.unread.flatten.length < headerSize
  · rw [if_pos hshort] at h
    obtain rfl := Option.some.inj h
    refine ⟨[], ?_⟩
    rw [VtmSession.readPacket, readExact_of_lt hshort]
  · rw [if_neg hshort] at h
    obtain ⟨behind, hheader, hbehind⟩ := readExact_of_le (not_lt.mp hshort)
    -- the header is not one, or the body is cut
    rcases hdecode : decodeHeader (session.unread.flatten.take headerSize) with
      e | ⟨channel, length, rest⟩
    · rw [hdecode] at h
      obtain rfl := Option.some.inj h
      exact ⟨behind, by simp only [VtmSession.readPacket, hheader, hdecode]⟩
    · rw [hdecode] at h
      dsimp only at h
      -- a header whose body is there is no end
      by_cases hcut : session.unread.flatten.length < headerSize + length
      · rw [if_pos hcut] at h
        obtain rfl := Option.some.inj h
        have hbody : behind.flatten.length < length := by
          rw [hbehind, List.length_drop]
          omega
        refine ⟨[], ?_⟩
        simp only [VtmSession.readPacket, hheader, hdecode, readExact_of_lt hbody]
      · rw [if_neg hcut] at h
        cases h

/-! ### The start -/

/-- What was read has the length that was asked for. -/
theorem length_of_readExact {n : ℕ} {segments rest : List Bytes} {bytes : Bytes}
    (h : readExact n segments = (some bytes, rest)) : bytes.length = n := by
  obtain hle | hlt := le_or_gt n segments.flatten.length
  · obtain ⟨rest', hread, -⟩ := readExact_of_le hle
    obtain rfl := Option.some.inj (congrArg Prod.fst (hread.symm.trans h))
    exact List.length_take_of_le hle
  · rw [readExact_of_lt hlt] at h
    cases h

/-- A body is no longer than what a header can tell. -/
theorem length_of_readPacket {session session' : VtmSession} {packet : VtmPacket}
    (h : session.readPacket = (.ok packet, session')) : packet.body.length ≤ 65535 := by
  unfold VtmSession.readPacket at h
  -- the length was read from two bytes
  rcases hheader : readExact headerSize session.unread with ⟨_ | header, unread⟩
  · simp [hheader] at h
  · rcases hdecode : decodeHeader header with e | ⟨channel, length, sequence, code⟩
    · simp [hheader, hdecode] at h
    · rcases hbody : readExact length unread with ⟨_ | body, unread'⟩
      · simp [hheader, hdecode, hbody] at h
      · simp only [hheader, hdecode, hbody, Prod.mk.injEq, Except.ok.injEq] at h
        have hlength : length < 65536 := by
          unfold decodeHeader at hdecode
          split at hdecode
          · split at hdecode
            · cases hdecode
            · split at hdecode
              · cases hdecode
              · obtain ⟨-, hvalue⟩ := Prod.mk.inj (Except.ok.inj hdecode)
                rw [← (Prod.mk.inj hvalue).1]
                exact UInt16.toNat_lt _
          · cases hdecode
        rw [← h.1]
        show body.length ≤ 65535
        rw [length_of_readExact hbody]
        omega

/-- **A session that has started** knows what a packet has told about the stream. -/
theorem awaitInfo_parsed {n : ℕ} {session session' : VtmSession}
    (h : awaitInfo n session = (.ok (), session')) :
    ∃ body : Bytes, body.length ≤ 65535 ∧ parseStreamInfo body = .ok session'.info := by
  -- on the packets that may still come
  induction n generalizing session with
  | zero => cases h
  | succ n ih =>
    rw [awaitInfo] at h
    rcases hread : session.readPacket with ⟨e | packet, next⟩
    · rw [hread] at h
      cases h
    · rw [hread] at h
      dsimp only at h
      -- only an answer on the message channel is parsed
      split at h
      · rcases hparse : parseStreamInfo packet.body with (e | _) | info
        · rw [hparse] at h
          cases h
        · rw [hparse] at h
          cases h
        · rw [hparse] at h
          cases h
          exact ⟨packet.body, length_of_readPacket hread, hparse⟩
      -- any other packet is skipped
      · exact ih h

/-- The information of a session that has started comes from one body. -/
theorem start_parsed {session session' : VtmSession} {streamUrl : String}
    {redirectKey : Option String} (h : start session streamUrl redirectKey = (.ok (), session')) :
    ∃ body : Bytes, body.length ≤ 65535 ∧ parseStreamInfo body = .ok session'.info := by
  unfold start at h
  dsimp only at h
  split at h
  · cases h
  · exact awaitInfo_parsed h

/-! ### One turn -/

/-- What a turn has done to a session: answered `n` packets, and received a payload at `media`. -/
structure Moves (session session' : VtmSession) (n : ℕ) (media : Option ℕ) : Prop where
  info : session'.info = session.info
  playback : session'.playback = session.playback
  answers : answersIn session'.written = answersIn session.written + n
  lastMedia : session'.lastMedia = media.getD session.lastMedia
  mediaSeen : session'.mediaSeen = (session.mediaSeen || media.isSome)

theorem Moves.refl (session : VtmSession) : Moves session session 0 none :=
  ⟨rfl, rfl, rfl, rfl, (Bool.or_false _).symm⟩

/-- A session that knows its stream knows it after a move. -/
theorem Moves.known {session session' : VtmSession} {n : ℕ} {media : Option ℕ}
    (h : Moves session session' n media) (hknown : Known session) : Known session' := by
  constructor
  · rw [h.info]
    exact hknown.parsed
  · rw [h.info]
    exact hknown.named

theorem codeOf_wire {body : Bytes} (h : body.length < 65536) (sequence code : UInt16) :
    codeOf (headerOf ⟨channelMessage, sequence, code, body⟩ ++ body) = some code := by
  have hchannel : channelMessage ∈ channels := by decide
  rw [codeOf, List.take_left' (length_headerOf _), decodeHeader_headerOf h hchannel]

/-- The stream session fits a keepalive: it has come in the body of a packet. -/
theorem Known.fits {session : VtmSession} (h : Known session) :
    ∃ name, session.info.streamSession = some name ∧ (buildKeepalive name).length ≤ 65535 := by
  obtain ⟨body, hbody, hparse⟩ := h.parsed
  obtain ⟨name, hname⟩ := Option.ne_none_iff_exists'.mp h.named
  exact ⟨name, hname, (length_buildKeepalive_le (by omega) hparse hname).trans hbody⟩

/-- A keepalive that is written. -/
theorem keepalive_done {session : VtmSession} (h : Known session) (code : UInt16) :
    ∃ session', session.keepalive .done code = (.ok (), session') ∧
      Moves session session' (if code = keepaliveResponse then 1 else 0) none ∧
      session'.unread = session.unread := by
  -- the name of the stream is short enough for a packet
  obtain ⟨name, hname, hfits⟩ := h.fits
  have hlength : (buildKeepalive name).length < 65536 := by omega
  refine ⟨{ session with
    sequence := session.sequence + 1
    written := session.written ++
      [headerOf ⟨channelMessage, session.sequence, code, buildKeepalive name⟩ ++
        buildKeepalive name] }, ?_, ?_, rfl⟩
  · simp only [VtmSession.keepalive, hname, VtmSession.send, encodePacket_of_lt hlength]
  · refine ⟨rfl, rfl, ?_, rfl, (Bool.or_false _).symm⟩
    -- the packet that was written is an answer exactly when its code is the one of an answer
    rw [answersIn, List.countP_append, List.countP_singleton, codeOf_wire hlength]
    simp [answersIn]

/-- The head of the loop, and a keepalive if one is due. -/
theorem ask_calm {session : VtmSession} (h : Known session) {turn : Turn} (hcalm : Calm turn) :
    ∃ session', session.ask turn = (.ok (), session') ∧ Moves session session' 0 none ∧
      session'.unread = session.unread := by
  unfold VtmSession.ask
  split
  · obtain ⟨session', hkeepalive, hmoves, hunread⟩ := keepalive_done h keepaliveRequest
    rw [hcalm.asked, hkeepalive]
    refine ⟨_, rfl, ⟨hmoves.info, hmoves.playback, hmoves.answers, hmoves.lastMedia,
      hmoves.mediaSeen⟩, hunread⟩
  · exact ⟨session, rfl, .refl session, rfl⟩

/-- A move behind one that has neither answered nor received anything. -/
theorem Moves.after {first second third : VtmSession} {n : ℕ} {media : Option ℕ}
    (h : Moves first second 0 none) (h' : Moves second third n media) :
    Moves first third n media where
  info := h'.info.trans h.info
  playback := h'.playback.trans h.playback
  answers := by rw [h'.answers, h.answers, Nat.add_zero]
  lastMedia := by rw [h'.lastMedia, h.lastMedia, Option.getD_none]
  mediaSeen := by rw [h'.mediaSeen, h.mediaSeen, Option.isSome_none, Bool.or_false]

/-- What the loop does with a packet. -/
def flowOf (allowEncryptedStream : Bool) (packet : VtmPacket) : Flow :=
  if (loopRule allowEncryptedStream).refuses packet then
    .returned (.error (upstream "encrypted VTM control packet is unsupported"))
  else if (loopRule allowEncryptedStream).pays packet then .returned (.ok (some packet.body))
  else .again

/-- A packet is handled by the rule of the loop, and nothing else is read. -/
theorem handle_calm {session : VtmSession} (h : Known session) {turn : Turn} (hcalm : Calm turn)
    (allowEncryptedStream : Bool) (packet : VtmPacket) :
    ∃ session', session.handle allowEncryptedStream turn packet =
        (flowOf allowEncryptedStream packet, session') ∧
      Moves session session' (if packet.isRequest then 1 else 0)
        (if (loopRule allowEncryptedStream).fresh packet then some turn.done else none) ∧
      session'.unread = session.unread := by
  unfold VtmSession.handle flowOf
  by_cases hrequest : packet.messageCode = keepaliveRequest
  · -- a request is answered, whatever its channel is
    have hcode : packet.isRequest = true := decide_eq_true hrequest
    obtain ⟨session', hkeepalive, hmoves, hunread⟩ := keepalive_done h keepaliveResponse
    rw [if_pos hrequest, hcalm.answered, hkeepalive]
    refine ⟨{ session' with lastKeepalive := turn.done }, ?_, ?_, hunread⟩
    · simp [loopRule, hcode]
    · have hfresh : (loopRule allowEncryptedStream).fresh packet = false := by
        simp [Rule.fresh, loopRule, hcode]
      rw [hcode, hfresh]
      exact ⟨hmoves.info, hmoves.playback, hmoves.answers, hmoves.lastMedia, hmoves.mediaSeen⟩
  -- no request: media, refused, or ignored
  · have hcode : packet.isRequest = false := decide_eq_false hrequest
    rw [if_neg hrequest, hcode]
    by_cases hmedia : packet.media allowEncryptedStream = true
    · rw [if_pos hmedia]
      -- media move the clocks when there is a body
      refine ⟨if packet.body ≠ [] then { session with lastMedia := turn.done, mediaSeen := true }
        else session, ?_, ?_, by split <;> rfl⟩
      · simp [loopRule, hcode, hmedia]
      by_cases hbody : packet.body = []
      · simpa [Rule.fresh, hbody] using Moves.refl session
      · have hfresh : (loopRule allowEncryptedStream).fresh packet = true := by
          simp [Rule.fresh, loopRule, hcode, hmedia, hbody]
        rw [if_pos hbody, if_pos hfresh]
        exact ⟨rfl, rfl, rfl, rfl, (Bool.or_true _).symm⟩
    -- on the other channels nothing is noted
    · have hfresh : (loopRule allowEncryptedStream).fresh packet = false := by
        simp [Rule.fresh, loopRule, hmedia]
      rw [if_neg hmedia, hfresh]
      by_cases hencrypted : packet.encrypted = true
      · rw [if_pos hencrypted]
        exact ⟨session, by simp [loopRule, hcode, hmedia, hencrypted], .refl session, rfl⟩
      · rw [if_neg hencrypted]
        exact ⟨session, by simp [loopRule, hmedia, hencrypted], .refl session, rfl⟩

/-- **A packet**, in a calm turn. -/
theorem turn_packet {session : VtmSession} (h : Known session) {turn : Turn} (hcalm : Calm turn)
    (allowEncryptedStream : Bool) {packet : VtmPacket} {rest : Bytes}
    (hlength : packet.body.length < 65536) (hchannel : packet.channel ∈ channels)
    (hunread : session.unread.flatten = headerOf packet ++ packet.body ++ rest) :
    ∃ session', session.turn allowEncryptedStream turn =
        (flowOf allowEncryptedStream packet, session') ∧
      Moves session session' (if packet.isRequest then 1 else 0)
        (if (loopRule allowEncryptedStream).fresh packet then some turn.done else none) ∧
      session'.unread.flatten = rest := by
  -- the keepalive that may be due comes first
  obtain ⟨asked, hask, hmoves, hsame⟩ := ask_calm h hcalm
  rw [← hsame] at hunread
  -- then the packet is read
  obtain ⟨unread, hread, hrest⟩ := readPacket_wire hlength hchannel hunread
  have hknown : Known { asked with unread := unread } :=
    ⟨(hmoves.known h).parsed, (hmoves.known h).named⟩
  -- and handled
  obtain ⟨session', hhandle, hmoves', hsame'⟩ :=
    handle_calm hknown hcalm allowEncryptedStream packet
  have hgo : ¬ turn.cancelled = true := by
    rw [hcalm.cancelled]
    decide
  refine ⟨session', ?_, ?_, hsame' ▸ hrest⟩
  · simp only [VtmSession.turn, if_neg hgo, hask, hcalm.wait, hread, hhandle]
  · exact hmoves.after ⟨hmoves'.info, hmoves'.playback, hmoves'.answers, hmoves'.lastMedia,
      hmoves'.mediaSeen⟩

/-- **The end**, in a calm turn. -/
theorem turn_end {session : VtmSession} (h : Known session) {turn : Turn} (hcalm : Calm turn)
    (allowEncryptedStream : Bool) {error : SessionError}
    (hend : endOf session.unread.flatten = some error) :
    ∃ session', session.turn allowEncryptedStream turn =
      (.returned (session.closing error), session') ∧
      Moves session session' 0 none := by
  obtain ⟨asked, hask, hmoves, hsame⟩ := ask_calm h hcalm
  -- the same bytes are left after a keepalive
  rw [← hsame] at hend
  obtain ⟨unread, hread⟩ := readPacket_end hend
  have hgo : ¬ turn.cancelled = true := by
    rw [hcalm.cancelled]
    decide
  -- a keepalive changes nothing that decides about the ending
  have hclosing : ({ asked with unread := unread } : VtmSession).closing error =
      session.closing error := by
    cases error with
    | bridge _ => rfl
    | io kind =>
      have hseen := hmoves.mediaSeen
      rw [Option.isSome_none, Bool.or_false] at hseen
      simp [VtmSession.closing, VtmSession.finishedPlayback, hmoves.playback, hseen]
  refine ⟨{ asked with unread := unread }, ?_, ?_⟩
  · simp only [VtmSession.turn, if_neg hgo, hask, hcalm.wait, hread, hclosing]
  · exact ⟨hmoves.info, hmoves.playback, hmoves.answers, hmoves.lastMedia, hmoves.mediaSeen⟩

/-! ### A whole session -/

section Runs

variable {allowEncryptedStream : Bool} {session session' : VtmSession} {packet : VtmPacket}
  {packets : List VtmPacket} {error : SessionError} {turn : Turn} {turns : List Turn}

/-- What is sent begins with the first packet. -/
theorem encodeAll_cons {data : Bytes} (h : encodeAll (packet :: packets) = .ok data) :
    ∃ rest, packet.body.length < 65536 ∧ encodeAll packets = .ok rest ∧
      data = headerOf packet ++ packet.body ++ rest := by
  rw [encodeAll] at h
  rcases hwire : encodePacket packet.body packet.channel packet.sequence packet.messageCode with
    e | wire
  · rw [hwire] at h
    cases h
  · rcases hrest : encodeAll packets with e | rest
    · rw [hwire, hrest] at h
      cases h
    · rw [hwire, hrest] at h
      obtain ⟨hlength, rfl⟩ := encodePacket_eq_ok hwire
      exact ⟨rest, hlength, rfl, (Except.ok.inj h).symm⟩

/-- At the end of what the relay sends. -/
theorem follows_nil (rule : Rule)
    (hturn : session.turn allowEncryptedStream turn = (.returned (session.closing error), session'))
    (hmoves : Moves session session' 0 none) :
    Follows rule allowEncryptedStream session [] error (turn :: turns) := by
  -- the loop ends in this turn, with nothing delivered
  have hdeliver : deliver allowEncryptedStream session (turn :: turns) =
      ⟨[], some (if session.finishedPlayback error then .ok () else .error error), session'⟩ := by
    rw [deliver, hturn, VtmSession.closing]
    cases session.finishedPlayback error <;> rfl
  -- no media were seen meanwhile
  have hseen := hmoves.mediaSeen
  rw [Option.isSome_none, Bool.or_false] at hseen
  have haccepted : rule.accepted [] = [] := rfl
  -- the clauses are about an empty list of packets
  constructor <;> rw [hdeliver, haccepted]
  · rfl
  · exact hmoves.answers
  · rw [List.any_nil, Bool.or_false]
    exact hseen
  · exact hmoves.lastMedia
  · rw [List.any_nil, Bool.or_false]
    rfl

/-- The packet that is refused. -/
theorem follows_refused (hrefuses : (loopRule allowEncryptedStream).refuses packet = true)
    (hturn : session.turn allowEncryptedStream turn =
      (flowOf allowEncryptedStream packet, session'))
    (hmoves : Moves session session' 0 none) :
    Follows (loopRule allowEncryptedStream) allowEncryptedStream session (packet :: packets) error
      (turn :: turns) := by
  -- the flow of a refused packet is the error of the source
  rw [flowOf, if_pos hrefuses] at hturn
  have hdeliver : deliver allowEncryptedStream session (turn :: turns) =
      ⟨[], some (.error (upstream "encrypted VTM control packet is unsupported")), session'⟩ := by
    rw [deliver, hturn]
  -- behind a refused packet nothing is accepted
  have haccepted : (loopRule allowEncryptedStream).accepted (packet :: packets) = [] := by
    simp [Rule.accepted, hrefuses]
  constructor <;> rw [hdeliver, haccepted]
  · rfl
  · exact hmoves.answers
  · exact hmoves.mediaSeen
  · exact hmoves.lastMedia
  · exact congrArg some (if_pos (Nat.zero_lt_succ _)).symm

/-- A packet that is not refused, and then the rest. -/
theorem follows_cons (hrefuses : (loopRule allowEncryptedStream).refuses packet = false)
    (hturn : session.turn allowEncryptedStream turn =
      (flowOf allowEncryptedStream packet, session'))
    (hmoves : Moves session session' (if packet.isRequest then 1 else 0)
      (if (loopRule allowEncryptedStream).fresh packet then some turn.done else none))
    (hrest : Follows (loopRule allowEncryptedStream) allowEncryptedStream session' packets
      error turns) :
    Follows (loopRule allowEncryptedStream) allowEncryptedStream session (packet :: packets) error
      (turn :: turns) := by
  generalize hrule : loopRule allowEncryptedStream = rule at *
  have haccepted : rule.accepted (packet :: packets) = packet :: rule.accepted packets := by
    simp [Rule.accepted, hrefuses]
  have hrequest : rule.answers packet = packet.isRequest := by
    rw [← hrule]
    rfl
  -- the body is handed over when the rule pays, and the loop goes on
  have hdeliver : deliver allowEncryptedStream session (turn :: turns) =
      if rule.pays packet then (deliver allowEncryptedStream session' turns).after packet.body
      else deliver allowEncryptedStream session' turns := by
    rw [deliver, hturn, flowOf, hrule, hrefuses]
    cases rule.pays packet <;> rfl
  have hsame : (deliver allowEncryptedStream session (turn :: turns)).session =
      (deliver allowEncryptedStream session' turns).session ∧
      (deliver allowEncryptedStream session (turn :: turns)).ending =
      (deliver allowEncryptedStream session' turns).ending := by
    rw [hdeliver]
    split <;> exact ⟨rfl, rfl⟩
  -- the first packet counts for what was seen
  have hseen : session'.mediaSeen = (session.mediaSeen || rule.fresh packet) := by
    rw [hmoves.mediaSeen]
    cases rule.fresh packet <;> rfl
  constructor
  -- the bodies of the packets that pay
  · rw [hdeliver, haccepted, List.filter_cons]
    cases rule.pays packet
    · exact hrest.payloads
    · exact congrArg (packet.body :: ·) hrest.payloads
  -- the answers: that of this packet, and those of the rest
  · rw [hsame.1, haccepted, hrest.answered, hmoves.answers, List.countP_cons, hrequest,
      Nat.add_assoc, Nat.add_comm (List.countP _ _)]
  · rw [hsame.1, haccepted, hrest.mediaSeen, List.any_cons, hseen, Bool.or_assoc]
  -- the time of the last media packet
  · have hlast : session'.lastMedia = if rule.fresh packet then
        turn.done else session.lastMedia := by
      rw [hmoves.lastMedia]
      cases rule.fresh packet <;> rfl
    rw [hsame.1, haccepted, hrest.lastMedia, hlast]
    rfl
  -- whether the playback was finished
  · have hfinished : ({ session' with mediaSeen :=
        session'.mediaSeen || (rule.accepted packets).any rule.fresh } :
          VtmSession).finishedPlayback
          error =
        ({ session with mediaSeen :=
          session.mediaSeen || (rule.accepted (packet :: packets)).any rule.fresh } :
            VtmSession).finishedPlayback error := by
      cases error with
      | bridge _ => rfl
      | io kind =>
        rw [haccepted, List.any_cons, hseen, Bool.or_assoc]
        simp only [VtmSession.finishedPlayback, hmoves.playback]
    rw [hsame.2, hrest.ending, hfinished, haccepted, List.length_cons, List.length_cons]
    simp only [Nat.add_lt_add_iff_right]

/-- **The session follows the rule of its loop.** -/
theorem follows_loopRule (hknown : Known session) {data tail : Bytes}
    (hchannels : ∀ packet ∈ packets, packet.channel ∈ channels)
    (hsent : encodeAll packets = .ok data) (hunread : session.unread.flatten = data ++ tail)
    (htail : endOf tail = some error) (hcalm : ∀ turn ∈ turns, Calm turn)
    (hlong : packets.length < turns.length) :
    Follows (loopRule allowEncryptedStream) allowEncryptedStream session packets error turns := by
  -- on the packets, from any session that knows its stream; each of them takes one turn
  induction packets generalizing session turns data with
  | nil =>
    obtain ⟨turn, turns, rfl⟩ := List.exists_cons_of_length_pos hlong
    obtain rfl := Except.ok.inj hsent
    rw [List.nil_append] at hunread
    -- the end is found in the next turn
    obtain ⟨session', hturn, hmoves⟩ := turn_end hknown (hcalm turn List.mem_cons_self)
      allowEncryptedStream (hunread ▸ htail)
    exact follows_nil _ hturn hmoves
  | cons packet packets ih =>
    obtain ⟨turn, turns, rfl⟩ := List.exists_cons_of_length_pos (Nat.zero_lt_of_lt hlong)
    obtain ⟨rest, hlength, hrest, rfl⟩ := encodeAll_cons hsent
    obtain ⟨hchannel, hchannels'⟩ := List.forall_mem_cons.mp hchannels
    obtain ⟨hcalm', hcalms⟩ := List.forall_mem_cons.mp hcalm
    rw [List.append_assoc] at hunread
    -- the packet is read and handled in this turn
    obtain ⟨session', hturn, hmoves, hunread'⟩ :=
      turn_packet hknown hcalm' allowEncryptedStream hlength hchannel hunread
    cases hrefuses : (loopRule allowEncryptedStream).refuses packet with
    -- a packet that is refused is no request, and brings no media
    | true =>
      have hrequest : packet.isRequest = false := by
        by_contra h
        simp [loopRule, h] at hrefuses
      have hfresh : (loopRule allowEncryptedStream).fresh packet = false := by
        have hboth : packet.encrypted = true ∧ packet.media allowEncryptedStream = false := by
          simpa [loopRule, hrequest] using hrefuses
        simp [Rule.fresh, loopRule, hboth.2]
      rw [hrequest, hfresh] at hmoves
      exact follows_refused hrefuses hturn hmoves
    | false =>
      refine follows_cons hrefuses hturn hmoves (ih (hmoves.known hknown) hchannels' hrest hunread'
        hcalms ?_)
      exact Nat.lt_of_succ_lt_succ hlong

end Runs

/-! ### The two rules -/

section Rules

variable {allowEncryptedStream : Bool} {packet : VtmPacket} {packets : List VtmPacket}

/-- The rules agree about a packet that is no request on another channel than the message
channel. -/
theorem rules_agree (h : packet.isRequest = true → packet.channel = channelMessage) :
    (loopRule allowEncryptedStream).refuses packet =
      (channelRule allowEncryptedStream).refuses packet ∧
    (loopRule allowEncryptedStream).pays packet = (channelRule allowEncryptedStream).pays packet ∧
    (loopRule allowEncryptedStream).answers packet =
      (channelRule allowEncryptedStream).answers packet := by
  cases hrequest : packet.isRequest with
  | false => simp [loopRule, channelRule, hrequest]
  | true =>
    -- on the message channel there is no media, and nothing is encrypted
    have hmessage := h hrequest
    have hmedia : packet.media allowEncryptedStream = false := by
      rw [VtmPacket.media, hmessage]
      cases allowEncryptedStream <;> rfl
    have hencrypted : packet.encrypted = false := by
      rw [VtmPacket.encrypted, hmessage]
      rfl
    simp [loopRule, channelRule, hrequest, hmedia, hencrypted, hmessage]

/-- What the rule of the loop refuses, the rule of the channels refuses as well. -/
theorem refuses_of_loopRule (h : (channelRule allowEncryptedStream).refuses packet = false) :
    (loopRule allowEncryptedStream).refuses packet = false := by
  have hopen : (packet.encrypted && !packet.media allowEncryptedStream) = false := h
  simp only [loopRule, hopen, Bool.and_false]

theorem Rule.accepted_cons (rule : Rule) (packet : VtmPacket) (packets : List VtmPacket) :
    rule.accepted (packet :: packets) =
      if rule.refuses packet then [] else packet :: rule.accepted packets := by
  cases h : rule.refuses packet <;> simp [Rule.accepted, h]

/-- The packets are clear when the first one is and, unless the channels refuse it, the rest are. -/
theorem clear_cons : Clear allowEncryptedStream (packet :: packets) ↔
    (packet.isRequest = true → packet.channel = channelMessage) ∧
      ((channelRule allowEncryptedStream).refuses packet = false →
        Clear allowEncryptedStream packets) := by
  unfold Clear
  rw [Rule.accepted_cons]
  cases hrefuses : (channelRule allowEncryptedStream).refuses packet with
  | true => simp
  | false => simp

/-- Without such a packet the same packets are accepted. -/
theorem Clear.accepted_eq (h : Clear allowEncryptedStream packets) :
    (loopRule allowEncryptedStream).accepted packets =
      (channelRule allowEncryptedStream).accepted packets := by
  induction packets with
  | nil => rfl
  | cons packet packets ih =>
    obtain ⟨hpacket, hrest⟩ := clear_cons.mp h
    rw [Rule.accepted_cons, Rule.accepted_cons, (rules_agree hpacket).1]
    cases hrefuses : (channelRule allowEncryptedStream).refuses packet with
    | true => rfl
    | false => rw [if_neg (by decide), if_neg (by decide), ih (hrest hrefuses)]

/-- The loop answers at least the requests of the message channel, and more if the packets are not
clear. -/
theorem countP_answers_le (packets : List VtmPacket) :
    ((channelRule allowEncryptedStream).accepted packets).countP
        (channelRule allowEncryptedStream).answers ≤
      ((loopRule allowEncryptedStream).accepted packets).countP
        (loopRule allowEncryptedStream).answers ∧
    (¬ Clear allowEncryptedStream packets →
      ((channelRule allowEncryptedStream).accepted packets).countP
          (channelRule allowEncryptedStream).answers <
        ((loopRule allowEncryptedStream).accepted packets).countP
          (loopRule allowEncryptedStream).answers) := by
  induction packets with
  | nil => exact ⟨le_rfl, fun h => absurd (fun _ hmem => absurd hmem List.not_mem_nil) h⟩
  | cons packet packets ih =>
    obtain ⟨hle, hlt⟩ := ih
    rw [clear_cons, Rule.accepted_cons, Rule.accepted_cons]
    cases hrefuses : (channelRule allowEncryptedStream).refuses packet with
    | true =>
      refine ⟨Nat.zero_le _, fun hclear => ?_⟩
      -- the packet is a request that the channels refuse, and the loop answers it
      have hrequest : packet.isRequest = true := by
        by_contra h
        exact hclear ⟨fun h' => absurd h' h, fun h' => absurd h' (by decide)⟩
      have haccepts : (loopRule allowEncryptedStream).refuses packet = false := by
        simp [loopRule, hrequest]
      have hloop : (loopRule allowEncryptedStream).answers packet = true := hrequest
      rw [haccepts, if_pos rfl, if_neg (by decide), List.countP_cons_of_pos hloop]
      exact Nat.zero_lt_succ _
    | false =>
      rw [refuses_of_loopRule hrefuses, if_neg (by decide), if_neg (by decide), List.countP_cons,
        List.countP_cons]
      -- both rules treat this packet alike, or it is a request on another channel
      by_cases hpacket : packet.isRequest = true → packet.channel = channelMessage
      · rw [(rules_agree hpacket).2.2]
        refine ⟨Nat.add_le_add_right hle _, fun hclear => Nat.add_lt_add_right (hlt fun h => ?_) _⟩
        exact hclear ⟨hpacket, fun _ => h⟩
      · obtain ⟨hrequest, hchannel⟩ := Classical.not_imp.mp hpacket
        have hloop : (loopRule allowEncryptedStream).answers packet = true := hrequest
        have hother : (channelRule allowEncryptedStream).answers packet = false := by
          simp [channelRule, hchannel]
        rw [hloop, hother, if_neg (by decide), if_pos rfl]
        exact ⟨by omega, fun _ => by omega⟩

/-- The same packets, with the same done to them. -/
theorem Follows.congr {rule rule' : Rule} {session : VtmSession} {error : SessionError}
    {turns : List Turn} (h : Follows rule allowEncryptedStream session packets error turns)
    (haccepted : rule.accepted packets = rule'.accepted packets)
    (hpays : ∀ packet ∈ rule'.accepted packets, rule.pays packet = rule'.pays packet)
    (hanswers : ∀ packet ∈ rule'.accepted packets, rule.answers packet = rule'.answers packet) :
    Follows rule' allowEncryptedStream session packets error turns := by
  -- what is fresh is what pays with a body
  have hfresh : ∀ packet ∈ rule'.accepted packets, rule.fresh packet = rule'.fresh packet := by
    intro packet hpacket
    rw [Rule.fresh, Rule.fresh, hpays packet hpacket]
  have hany : (rule'.accepted packets).any rule.fresh =
      (rule'.accepted packets).any rule'.fresh := by
    rw [Bool.eq_iff_iff, List.any_eq_true, List.any_eq_true]
    constructor <;> rintro ⟨packet, hpacket, h⟩ <;> refine ⟨packet, hpacket, ?_⟩
    · rwa [← hfresh packet hpacket]
    · rwa [hfresh packet hpacket]
  have hlast : ∀ (accepted : List VtmPacket) (turns : List Turn) (last : ℕ),
      (∀ packet ∈ accepted, rule.fresh packet = rule'.fresh packet) →
      rule.lastMedia accepted turns last = rule'.lastMedia accepted turns last := by
    intro accepted
    induction accepted with
    | nil => intro turns last _; rfl
    | cons packet accepted ih =>
      intro turns last hsame
      obtain ⟨hpacket, hrest⟩ := List.forall_mem_cons.mp hsame
      cases turns with
      | nil => rfl
      | cons turn turns => rw [Rule.lastMedia, Rule.lastMedia, hpacket, ih turns _ hrest]
  constructor
  · rw [h.payloads, haccepted, List.filter_congr hpays]
  · rw [h.answered, haccepted, List.countP_congr fun packet hpacket => by
      rw [hanswers packet hpacket]]
  · rw [h.mediaSeen, haccepted, hany]
  · rw [h.lastMedia, haccepted, hlast _ _ _ hfresh]
  · rw [h.ending, haccepted, hany]

end Rules

/-- **Media delivery.** A session in calm turns hands out the media packets, answers the requests of
the message channel and ends at the first packet that is refused, or as the relay closes, exactly
when no packet that it reaches has the code of a keepalive request on another channel. -/
theorem media_delivery_iff (allowEncryptedStream : Bool) (session : VtmSession)
    (hknown : Known session) (packets : List VtmPacket) (data tail : Bytes) (error : SessionError)
    (turns : List Turn) (hchannels : ∀ packet ∈ packets, packet.channel ∈ channels)
    (hsent : encodeAll packets = .ok data) (hunread : session.unread.flatten = data ++ tail)
    (htail : endOf tail = some error) (hcalm : ∀ turn ∈ turns, Calm turn)
    (hlong : packets.length < turns.length) :
    Follows (channelRule allowEncryptedStream) allowEncryptedStream session packets error turns ↔
      Clear allowEncryptedStream packets := by
  have hloop : Follows (loopRule allowEncryptedStream) allowEncryptedStream session packets
      error turns :=
    follows_loopRule hknown hchannels hsent hunread htail hcalm hlong
  constructor
  · intro h
    by_contra hclear
    have hlt := (countP_answers_le packets).2 hclear
    have heq := h.answered.symm.trans hloop.answered
    omega
  · intro hclear
    have haccepted := hclear.accepted_eq
    have hagree : ∀ packet ∈ (channelRule allowEncryptedStream).accepted packets,
        packet.isRequest = true → packet.channel = channelMessage := by
      intro packet hpacket
      refine hclear packet (List.IsPrefix.subset ?_ hpacket)
      exact List.prefix_take_iff.mpr ⟨List.takeWhile_prefix _, Nat.le_succ _⟩
    exact hloop.congr haccepted (fun packet hpacket => (rules_agree (hagree packet hpacket)).2.1)
      fun packet hpacket => (rules_agree (hagree packet hpacket)).2.2

def sampleFields : List (UInt64 × ProtoValue) := [(4, .bytes (asBytes "s"))]

/-- A live session, and what the relay sends in it, in two segments. -/
def sampleSession (segments : List Bytes) : VtmSession where
  unread := segments
  info := infoOf sampleFields
  lastKeepalive := 0
  lastMedia := 0
  playback := false

theorem sampleSession_known (segments : List Bytes) : Known (sampleSession segments) where
  parsed := by
    have hwritable : Writable sampleFields := ⟨by decide, by decide +kernel⟩
    exact ⟨encode sampleFields, by decide +kernel, hwritable.parseStreamInfo⟩
  named := by
    have hname : lastTextOf sampleFields 4 = some "s" :=
      @lastTextOf_written _ [] [] _ _ rfl fun _ hitem => absurd hitem List.not_mem_nil
    show lastTextOf sampleFields 4 ≠ none
    rw [hname]
    exact Option.some_ne_none _

/-- A calm turn. -/
def sampleTurn : Turn where
  top := 1
  askedAt := 1
  done := 2

/-- Media, a request of the message channel and media again, cut inside the first body. -/
theorem media_delivery_sample :
    Follows (channelRule false) false
      (sampleSession [[0x24, 0x01, 0, 2, 0, 0, 0, 0, 0x61],
        [0x62, 0x24, 0x00, 0, 0, 0, 1, 0x01, 0x32, 0x24, 0x02, 0, 1, 0, 2, 0, 0, 0x63]])
      [⟨channelStream, 0, 0, [0x61, 0x62]⟩, ⟨channelMessage, 1, keepaliveRequest, []⟩,
        ⟨channelStreamAlt, 2, 0, [0x63]⟩]
      (.io .unexpectedEof) (List.replicate 4 sampleTurn) :=
  (media_delivery_iff false _ (sampleSession_known _) _
    [0x24, 0x01, 0, 2, 0, 0, 0, 0, 0x61, 0x62, 0x24, 0x00, 0, 0, 0, 1, 0x01, 0x32, 0x24, 0x02,
      0, 1, 0, 2, 0, 0, 0x63] [] _ _ (by decide) (by decide) (by decide) (by decide)
    (fun turn hturn => List.eq_of_mem_replicate hturn ▸ ⟨rfl, rfl, rfl, rfl⟩) (by decide)).mpr
    (by unfold Clear; decide)

/-- A payload with the code of a request is swallowed, and answered. -/
theorem media_with_request_code_is_lost :
    ¬ ∀ (allowEncryptedStream : Bool) (session : VtmSession), Known session →
      ∀ (packets : List VtmPacket) (data tail : Bytes) (error : SessionError) (turns : List Turn),
        (∀ packet ∈ packets, packet.channel ∈ channels) → encodeAll packets = .ok data →
        session.unread.flatten = data ++ tail → endOf tail = some error →
        (∀ turn ∈ turns, Calm turn) → packets.length < turns.length →
        Follows (channelRule allowEncryptedStream) allowEncryptedStream session packets error
          turns := by
  intro h
  have hfollows := h false (sampleSession [[0x24, 0x01, 0, 1, 0, 0, 0x01, 0x32, 0x61]])
    (sampleSession_known _) [⟨channelStream, 0, keepaliveRequest, [0x61]⟩]
    [0x24, 0x01, 0, 1, 0, 0, 0x01, 0x32, 0x61] [] (.io .unexpectedEof) (List.replicate 2 sampleTurn)
    (by decide) (by decide) (by decide) (by decide)
    (fun turn hturn => List.eq_of_mem_replicate hturn ▸ ⟨rfl, rfl, rfl, rfl⟩) (by decide)
  have hlost : (deliver false (sampleSession [[0x24, 0x01, 0, 1, 0, 0, 0x01, 0x32, 0x61]])
      (List.replicate 2 sampleTurn)).payloads = [] := by decide +kernel
  rw [hfollows.payloads] at hlost
  revert hlost
  decide

end Vtm

end EzvizBridge
