import EzvizBridge.Vtm.Address
import EzvizBridge.Vtm.Session

/-!
# How a session is opened

`VtmSession::open` and `start` (`vtm/session.rs`). A relay may send the bridge on to another relay,
with a key for it, three times at most. The relays are `network`: what a connection comes to, by its
number and its address. A `Hop` is a connection as it was left, with the address and the key that it
was made with.
-/

namespace EzvizBridge

namespace Vtm

/-- Why a read of a packet fails when the relay would still send. -/
inductive Fault
  | timedOut (body : Bool)
  | failed (kind : ErrorKind)
  deriving DecidableEq, Repr

def Fault.error : Fault → SessionError
  | .timedOut false => upstream "VTM read timed out"
  | .timedOut true => upstream "VTM body read timed out"
  | .failed kind => .io kind

/-- What becomes of a connection: how it is made, how the request is written, what the relay sends,
the reads that fail, and the clock when it is made and when the relay has answered. -/
structure Link where
  connected : Written := .done
  write : Written := .done
  segments : List Bytes
  faults : ℕ → Option Fault := fun _ => none
  madeAt : ℕ := 0
  answeredAt : ℕ := 0

/-- `TcpStream::connect` with its timeout. -/
def connect : Written → Except SessionError Unit
  | .done => .ok ()
  | .timedOut => .error (upstream "VTM connection timed out")
  | .failed kind => .error (.io kind)

namespace VtmSession

/-- The body of the request. -/
def requestBody (playback : Bool) (url : String) (key : Option String) : Bytes :=
  if playback then buildPlaybackStreamInfo url key else buildStreamInfo url key

/-- The loop of `start`, with the number of the next packet. -/
def awaitAnswer (faults : ℕ → Option Fault) :
    ℕ → ℕ → VtmSession → Except SessionError Unit × VtmSession
  | 0, _, session => (.error (upstream "timed out waiting for VTM stream info"), session)
  | n + 1, number, session =>
    match faults number with
    | some fault => (.error fault.error, session)
    | none =>
      match session.readPacket with
      | (.error error, session) => (.error error, session)
      | (.ok packet, session) =>
        if packet.messageCode = streamInfoResponse then
          match parseStreamInfo packet.body with
          | .error (.failed error) => (.error (.bridge error), session)
          | .error .panicked => (.error (upstream ""), session)
          | .ok info => (.ok (), { session with info := info })
        -- any other packet is passed over
        else awaitAnswer faults n (number + 1) session

/-- `start` on a connection. -/
def startOn (link : Link) (session : VtmSession) (url : String) (key : Option String) :
    Except SessionError Unit × VtmSession :=
  match session.send link.write channelMessage streamInfoRequest
    (requestBody session.playback url key) with
  | (.error error, session) => (.error error, session)
  | (.ok (), session) => awaitAnswer link.faults 20 0 session

/-- Nothing goes wrong on the way: `start` as it is for a session that has been opened. -/
theorem startOn_eq_start {link : Link} (hwrite : link.write = .done)
    (hfaults : ∀ n, link.faults n = none) (session : VtmSession) (url : String)
    (key : Option String) :
    session.startOn link url key = start session url key := by
  have hawait : ∀ n number session, awaitAnswer link.faults n number session =
      awaitInfo n session := by
    intro n
    induction n with
    | zero => exact fun _ _ => rfl
    | succ n ih =>
      intro number session
      rw [awaitAnswer, hfaults number]
      simp only [ih]
      rfl
  rw [startOn, hwrite]
  simp only [hawait, requestBody]
  rfl

end VtmSession

/-- A connection, as it was left. -/
structure Hop where
  url : String
  key : Option String
  session : VtmSession

/-- The relays. -/
abbrev Network := ℕ → String × UInt16 → Link

/-- A session on a new connection. -/
def Link.fresh (link : Link) (playback : Bool) : VtmSession where
  unread := link.segments
  lastKeepalive := link.madeAt
  lastMedia := link.madeAt
  playback := playback

/-- What the relay has decided: the address and the key to go on with, or the end. -/
def redirection (playback : Bool) (info : StreamInfo) :
    Except SessionError (Option (String × String)) :=
  match info.result.filter (· ≠ 0) with
  | none => .ok none
  | some result =>
    -- the two codes of an offline camera
    if result = 5404 ∨ result = 5405 then .error (.bridge .cameraOffline)
    else if result = 5402 ∧ playback then .error (.bridge .sdNoRecording)
    else
      match info.redirectUrl with
      | none =>
        .error (upstream ("VTM stream request was rejected with result " ++ toString result.toNat))
      | some url =>
        match info.redirectKey with
        | none => .error (upstream "VTM redirect omitted its key")
        | some key => .ok (some (url, key))

/-- The loop of `open`: the attempts that are left, the number of the next connection, its address
and its key. -/
def openFrom (crate : UrlCrate) (network : Network) (playback : Bool) :
    ℕ → ℕ → String → Option String → Except SessionError VtmSession × List Hop
  | 0, _, _, _ => (.error (upstream "too many VTM redirects"), [])
  | n + 1, number, url, key =>
    match endpoint crate url with
    | .error error => (.error (.bridge error), [])
    | .ok address =>
      let link := network number address
      match connect link.connected with
      | .error error => (.error error, [])
      | .ok () =>
        match (link.fresh playback).startOn link url key with
        | (.error error, session) => (.error error, [⟨url, key, session⟩])
        | (.ok (), session) =>
          match redirection playback session.info with
          | .error error => (.error error, [⟨url, key, session⟩])
          -- the stream is open
          | .ok none => (.ok { session with lastMedia := link.answeredAt }, [⟨url, key, session⟩])
          | .ok (some (next, nextKey)) =>
            -- on to the next relay
            let (result, hops) := openFrom crate network playback n (number + 1) next (some nextKey)
            (result, ⟨url, key, session⟩ :: hops)

def VtmSession.open_ (crate : UrlCrate) (network : Network) (playback : Bool) (url : String) :
    Except SessionError VtmSession × List Hop :=
  openFrom crate network playback 4 0 url none

/-! ### Errors on the way -/

/-- The error says nothing about the camera or its card. -/
def SessionError.Technical (self : SessionError) : Prop :=
  (∃ detail, self = upstream detail) ∨ ∃ kind, self = .io kind

/-- A reader fails with an upstream error. -/
def Plain {α : Type} (x : Except Stop α) : Prop :=
  ∀ error, x = .error (.failed error) → ∃ detail, error = .upstream detail

section Plain

variable {α β : Type} {data : Bytes} {position shift : ℕ} {value : UInt64}

theorem plain_ok (x : α) : Plain (.ok x : Except Stop α) := fun _ h => by cases h

theorem plain_upstream (detail : String) :
    Plain (.error (.failed (.upstream detail)) : Except Stop α) := by
  rintro error ⟨⟩
  exact ⟨detail, rfl⟩

/-- One parser after the other. -/
theorem plain_bind {x : Except Stop α} {f : α → Except Stop β} (hx : Plain x)
    (hf : ∀ a, Plain (f a)) :
    Plain (x >>= f) := by
  intro error h
  cases x with
  | error stop =>
    obtain rfl : stop = .failed error := Except.error.inj h
    exact hx error rfl
  | ok a => exact hf a error h

/-- A varint fails plainly. -/
theorem plain_readVarint : Plain (readVarint data position) := by
  have hfrom : ∀ position shift value, Plain (readVarintFrom data position shift value) := by
    intro position shift value
    fun_induction readVarintFrom data position shift value with
    | case1 => exact fun _ h => by cases h
    | case2 => exact plain_ok _
    | case3 _ _ _ _ _ _ _ _ ih => exact ih
    | case4 => exact plain_upstream _
  exact hfrom position 0 0

/-- A field of bytes fails plainly. -/
theorem plain_readBytes : Plain (readBytes data position) := by
  refine plain_bind plain_readVarint fun read => plain_bind ?_ fun length => ?_
  · unfold usizeTryFrom
    split
    · exact plain_ok _
    · exact plain_upstream _
  -- the length is checked before the slice, so the slice is there
  · dsimp only
    split
    · exact plain_upstream _
    · refine plain_bind ?_ fun value => plain_ok _
      unfold slice
      split
      · exact fun _ h => by cases h
      · exact plain_ok _

/-- A field of any wire type fails plainly. -/
theorem plain_readField : Plain (readField data position) := by
  refine plain_bind plain_readVarint fun key => ?_
  dsimp only
  split
  · exact plain_bind plain_readVarint fun _ => plain_ok _
  · split
    · exact plain_bind plain_readBytes fun _ => plain_ok _
    · exact plain_upstream _

/-- The whole message fails plainly. -/
theorem plain_parseStreamInfo : Plain (parseStreamInfo data) := by
  refine plain_bind ?_ fun fields => plain_ok _
  have hfrom : ∀ position fields, Plain (readFieldsFrom data position fields) := by
    intro position fields
    fun_induction readFieldsFrom data position fields with
    | case1 position fields hin stop hread =>
      have hplain : Plain (readField data position) := plain_readField
      rw [hread] at hplain
      exact fun error h => hplain error (congrArg Except.error (Except.error.inj h))
    | case2 position fields hin item next hread ih => exact ih
    | case3 => exact plain_ok _
  exact hfrom 0 []

end Plain

/-- The endpoint of a URL fails technically. -/
theorem endpoint_technical {crate : UrlCrate} {url : String} {error : BridgeError}
    (h : endpoint crate url = .error error) : SessionError.Technical (.bridge error) := by
  unfold endpoint at h
  split at h
  · exact .inl ⟨_, congrArg SessionError.bridge (Except.error.inj h).symm⟩
  · split at h
    · exact .inl ⟨_, congrArg SessionError.bridge (Except.error.inj h).symm⟩
    · split at h
      · exact .inl ⟨_, congrArg SessionError.bridge (Except.error.inj h).symm⟩
      · split at h
        · exact .inl ⟨_, congrArg SessionError.bridge (Except.error.inj h).symm⟩
        · cases h

/-- A connection fails technically. -/
theorem connect_technical {connected : Written} {error : SessionError}
    (h : connect connected = .error error) :
    error.Technical := by
  cases connected with
  | done => cases h
  | timedOut => exact .inl ⟨_, (Except.error.inj h).symm⟩
  | failed kind => exact .inr ⟨kind, (Except.error.inj h).symm⟩

namespace VtmSession

variable {session after : VtmSession} {error : SessionError}

/-- A packet that is too large fails technically. -/
theorem encodePacket_technical {body : Bytes} {channel : UInt8} {sequence code : UInt16}
    (h : encodePacket body channel sequence code = .error error) : error.Technical := by
  unfold encodePacket at h
  split at h
  · exact .inl ⟨_, (Except.error.inj h).symm⟩
  · cases h

/-- A header that is not one fails technically. -/
theorem decodeHeader_technical {header : Bytes} (h : decodeHeader header = .error error) :
    error.Technical := by
  unfold decodeHeader at h
  split at h
  · split at h
    · exact .inl ⟨_, (Except.error.inj h).symm⟩
    · split at h
      · exact .inl ⟨_, (Except.error.inj h).symm⟩
      · cases h
  · exact .inl ⟨_, (Except.error.inj h).symm⟩

/-- Reading takes from what the relay sends, and nothing else. -/
structure Reads (session after : VtmSession) : Prop where
  written : after.written = session.written
  info : after.info = session.info
  playback : after.playback = session.playback

/-- Reading a packet changes what is unread only. -/
theorem readPacket_reads (session : VtmSession) : session.Reads session.readPacket.2 := by
  unfold readPacket
  split
  · exact ⟨rfl, rfl, rfl⟩
  · split
    · exact ⟨rfl, rfl, rfl⟩
    · split <;> exact ⟨rfl, rfl, rfl⟩

/-- Reading a packet fails technically. -/
theorem readPacket_technical (h : session.readPacket.1 = .error error) : error.Technical := by
  unfold readPacket at h
  split at h
  · exact .inr ⟨_, (Except.error.inj h).symm⟩
  · split at h
    · next hheader =>
      obtain rfl := Except.error.inj h
      exact decodeHeader_technical hheader
    · split at h
      · exact .inr ⟨_, (Except.error.inj h).symm⟩
      · cases h

/-- What `start` leaves behind: an answer that is read, or an error that is not the relay's. -/
structure Started (session : VtmSession) (result : Except SessionError Unit)
    (after : VtmSession) : Prop where
  playback : after.playback = session.playback
  technical : ∀ error, result = .error error → error.Technical ∧ after.info = session.info

/-- The wait for the answer, which fails technically and writes nothing. -/
theorem awaitAnswer_started (faults : ℕ → Option Fault) (n number : ℕ) (session : VtmSession) :
    session.Started (awaitAnswer faults n number session).1
      (awaitAnswer faults n number session).2 ∧
      (awaitAnswer faults n number session).2.written = session.written := by
  -- on the packets that may still be read
  induction n generalizing number session with
  | zero =>
    refine ⟨⟨rfl, ?_⟩, rfl⟩
    rintro error ⟨⟩
    exact ⟨.inl ⟨_, rfl⟩, rfl⟩
  | succ n ih =>
    rw [awaitAnswer]
    cases faults number with
    | some fault =>
      refine ⟨⟨rfl, ?_⟩, rfl⟩
      rintro error ⟨⟩
      refine ⟨?_, rfl⟩
      cases fault with
      -- a read that fails, with or without a part of a packet
      | timedOut body => cases body <;> exact .inl ⟨_, rfl⟩
      | failed kind => exact .inr ⟨kind, rfl⟩
    | none =>
      have hreads := session.readPacket_reads
      cases hread : session.readPacket with
      | mk packet after =>
        rw [hread] at hreads
        cases packet with
        | error failure =>
          refine ⟨⟨hreads.playback, ?_⟩, hreads.written⟩
          rintro error ⟨⟩
          exact ⟨readPacket_technical (congrArg Prod.fst hread), hreads.info⟩
        | ok packet =>
          dsimp only
          -- the answer is parsed, and any other packet is passed over
          by_cases hcode : packet.messageCode = streamInfoResponse
          · rw [if_pos hcode]
            split
            · next failure hparse =>
              refine ⟨⟨hreads.playback, ?_⟩, hreads.written⟩
              rintro error ⟨⟩
              obtain ⟨detail, rfl⟩ := plain_parseStreamInfo failure hparse
              exact ⟨.inl ⟨detail, rfl⟩, hreads.info⟩
            · refine ⟨⟨hreads.playback, ?_⟩, hreads.written⟩
              rintro error ⟨⟩
              exact ⟨.inl ⟨_, rfl⟩, hreads.info⟩
            · exact ⟨⟨hreads.playback, fun error h => by cases h⟩, hreads.written⟩
          · rw [if_neg hcode]
            obtain ⟨hstarted, hwritten⟩ := ih (number + 1) after
            refine ⟨⟨hstarted.playback.trans hreads.playback, fun error h => ?_⟩,
              hwritten.trans hreads.written⟩
            obtain ⟨htechnical, hinfo⟩ := hstarted.technical error h
            exact ⟨htechnical, hinfo.trans hreads.info⟩

/-- The one packet that is written on a connection. -/
def Requests (playback : Bool) (url : String) (key : Option String) (packet : Bytes) : Prop :=
  encodePacket (requestBody playback url key) channelMessage 0 streamInfoRequest = .ok packet

/-- The request is written once, and the answer awaited. -/
theorem startOn_started (link : Link) (playback : Bool) (url : String) (key : Option String) :
    let started := (link.fresh playback).startOn link url key
    (link.fresh playback).Started started.1 started.2 ∧
      ((started.2.written = [] ∧ ∃ error, started.1 = .error error) ∨
        ∃ packet, Requests playback url key packet ∧ started.2.written = [packet]) := by
  intro started
  have hsend : started = match (link.fresh playback).send link.write channelMessage
      streamInfoRequest
      (requestBody playback url key) with
    | (.error error, session) => (.error error, session)
    | (.ok (), session) => awaitAnswer link.faults 20 0 session := rfl
  rw [hsend, send]
  -- the request does not fit a packet, or it is written, or the connection fails
  cases hpacket : encodePacket (requestBody playback url key) channelMessage
    (link.fresh playback).sequence
      streamInfoRequest with
  | error failure =>
    refine ⟨⟨rfl, ?_⟩, .inl ⟨rfl, _, rfl⟩⟩
    rintro error ⟨⟩
    exact ⟨encodePacket_technical hpacket, rfl⟩
  | ok packet =>
    cases link.write with
    | done =>
      obtain ⟨hstarted, hwritten⟩ := awaitAnswer_started link.faults 20 0
        { link.fresh playback with
          sequence := (link.fresh playback).sequence + 1
          written := [packet] }
      exact ⟨⟨hstarted.playback, hstarted.technical⟩, .inr ⟨packet, hpacket, hwritten⟩⟩
    | timedOut =>
      refine ⟨⟨rfl, ?_⟩, .inl ⟨rfl, _, rfl⟩⟩
      rintro error ⟨⟩
      exact ⟨.inl ⟨_, rfl⟩, rfl⟩
    | failed kind =>
      refine ⟨⟨rfl, ?_⟩, .inl ⟨rfl, _, rfl⟩⟩
      rintro error ⟨⟩
      exact ⟨.inr ⟨kind, rfl⟩, rfl⟩

end VtmSession

/-! ### What a relay reads -/

/-- The fields of the request. -/
def requestFields (playback : Bool) (url : String) (key : Option String) :
    List (UInt64 × ProtoValue) :=
  let version := if playback then "v3.9.0.20251120" else "v3.6.3.20221124"
  (1, .bytes (asBytes url)) :: (key.toList.map fun key => (2, .bytes (asBytes key))) ++
    [(3, .bytes (asBytes version)), (4, .integer 0), (6, .bytes (asBytes version))] ++
    if playback then [(8, .integer 10)] else []

theorem requestBody_eq (playback : Bool) (url : String) (key : Option String) :
    VtmSession.requestBody playback url key = encode (requestFields playback url key) := by
  cases playback <;> cases key <;>
    simp [VtmSession.requestBody, buildPlaybackStreamInfo, buildStreamInfo, streamInfo,
      requestFields, encode, encodeField, protoString]

/-- The fields of the request have the URL and the key. -/
theorem lastTextOf_requestFields (playback : Bool) (url : String) (key : Option String) :
    lastTextOf (requestFields playback url key) 1 = some url ∧
      lastTextOf (requestFields playback url key) 2 = key := by
  have hnumbers : ∀ item ∈ (requestFields playback url key).tail, item.1 ≠ 1 := by
    intro item hitem
    cases playback <;> cases key <;> revert item <;> simp [requestFields]
  refine ⟨@lastTextOf_written _ [] _ _ _ rfl hnumbers, ?_⟩
  cases key with
  | none => cases playback <;> rfl
  | some key =>
    refine @lastTextOf_written _ [(1, .bytes (asBytes url))] _ _ _ rfl fun item hitem => ?_
    cases playback <;> revert item <;> simp

theorem writable_requestFields {playback : Bool} {url : String} {key : Option String}
    (hsize : (encode (requestFields playback url key)).length < 2 ^ 63) :
    Writable (requestFields playback url key) := by
  refine ⟨fun item hitem => ?_, hsize⟩
  cases playback <;> cases key <;> revert item <;> simp [requestFields]

/-- What a relay reads from the packet: the address it was reached by, and the key. -/
def Carries (packet : Bytes) (url : String) (key : Option String) : Prop :=
  ∃ fields, readFields (packet.drop headerSize) = .ok fields ∧ lastString fields 1 = some url ∧
    lastString fields 2 = key

/-- The packet of the request carries the URL and the key. -/
theorem carries_of_requests {playback : Bool} {url : String} {key : Option String} {packet : Bytes}
    (h : VtmSession.Requests playback url key packet) : Carries packet url key := by
  rw [VtmSession.Requests, requestBody_eq, encodePacket, u16TryFrom] at h
  split at h
  · cases h
  · next length hlength =>
    obtain rfl := Except.ok.inj h
    have hsmall : (encode (requestFields playback url key)).length < 65536 := by
      by_contra hlarge
      rw [if_neg hlarge] at hlength
      cases hlength
    have hwritable : Writable (requestFields playback url key) := writable_requestFields (by omega)
    -- the body reads back as its fields
    obtain ⟨fields, hread, hget⟩ := hwritable.readsBack.fields
    have hlast : ∀ field, lastString fields field =
        lastTextOf (requestFields playback url key) field := by
      intro field
      rw [lastString, hget, getLast?_entryOf]
      rfl
    obtain ⟨hurl, hkey⟩ := lastTextOf_requestFields playback url key
    exact ⟨fields, hread, (hlast 1).trans hurl, (hlast 2).trans hkey⟩

/-! ### The chain of relays -/

/-- One request has been written, or none. -/
def Hop.Asked (self : Hop) : Prop :=
  self.session.written = [] ∨ ∃ packet, self.session.written = [packet] ∧
    Carries packet self.url self.key

/-- The relay of one connection has named the address and the key of the next. -/
def Leads (playback : Bool) (hop next : Hop) : Prop :=
  ∃ key, next.key = some key ∧ redirection playback hop.session.info = .ok (some (next.url, key))

/-- What comes of `n` attempts. -/
structure Followed (playback : Bool) (n : ℕ) (url : String) (key : Option String)
    (result : Except SessionError VtmSession) (hops : List Hop) : Prop where
  length_le : hops.length ≤ n
  first : ∀ hop ∈ hops.head?, hop.url = url ∧ hop.key = key
  chain : hops.IsChain (Leads playback)
  asked : ∀ hop ∈ hops, hop.Asked
  opened : ∀ session, result = .ok session → ∃ hop ∈ hops.getLast?,
    redirection playback hop.session.info = .ok none ∧ hop.session.written ≠ [] ∧
      ∃ time, session = { hop.session with lastMedia := time }
  refused : ∀ error : SessionError, ¬error.Technical →
    (result = .error error ↔ ∃ hop ∈ hops.getLast?,
      redirection playback hop.session.info = .error error)

section Followed

variable {crate : UrlCrate} {network : Network} {playback : Bool} {n number : ℕ} {url : String}
  {key : Option String} {hop : Hop} {hops : List Hop} {result : Except SessionError VtmSession}

/-- Nothing came of the first attempt. -/
theorem followed_nil {error : SessionError} (h : error.Technical) :
    Followed playback n url key (.error error) [] := by
  refine ⟨Nat.zero_le _, ?_, List.isChain_nil, ?_, ?_, fun other hother => ⟨fun heq => ?_, ?_⟩⟩
  · rintro hop ⟨⟩
  · rintro hop ⟨⟩
  · rintro session ⟨⟩
  · obtain rfl := Except.error.inj heq
    exact absurd h hother
  · rintro ⟨hop, hhop, -⟩
    cases hhop

/-- The first connection is the last one. -/
theorem followed_one (hasked : hop.Asked)
    (hopened : ∀ session, result = .ok session → redirection playback hop.session.info = .ok none ∧
      hop.session.written ≠ [] ∧ ∃ time, session = { hop.session with lastMedia := time })
    (hrefused : ∀ error : SessionError, ¬error.Technical →
      (result = .error error ↔ redirection playback hop.session.info = .error error)) :
    Followed playback (n + 1) hop.url hop.key result [hop] := by
  refine ⟨Nat.succ_le_succ (Nat.zero_le _), ?_, List.isChain_singleton _, ?_, ?_, ?_⟩
  · rintro _ ⟨⟩
    exact ⟨rfl, rfl⟩
  · intro other hother
    -- the only connection is also the last one
    rw [List.mem_singleton.mp hother]
    exact hasked
  · intro session hsession
    exact ⟨hop, rfl, hopened session hsession⟩
  · intro error herror
    rw [hrefused error herror]
    refine ⟨fun h => ⟨hop, rfl, h⟩, ?_⟩
    rintro ⟨_, ⟨⟩, h⟩
    exact h

/-- The first connection leads to the others. -/
theorem Followed.cons {next nextKey : String}
    (h : Followed playback n next (some nextKey) result hops) (hasked : hop.Asked)
    (hleads : redirection playback hop.session.info = .ok (some (next, nextKey))) :
    Followed playback (n + 1) hop.url hop.key result (hop :: hops) := by
  -- the last connection is one of the others
  have hlast : ∀ {P : Hop → Prop}, ¬P hop →
      ((∃ last ∈ (hop :: hops).getLast?, P last) ↔ ∃ last ∈ hops.getLast?, P last) := by
    intro P hnot
    cases hops with
    | nil =>
      refine ⟨?_, fun ⟨_, hmem, _⟩ => by cases hmem⟩
      rintro ⟨_, ⟨⟩, hp⟩
      exact absurd hp hnot
    | cons second hops => rw [List.getLast?_cons_cons]
  -- the bound, the first connection, the chain, the answer and the errors
  refine ⟨Nat.succ_le_succ h.length_le, ?_, ?_, List.forall_mem_cons.mpr ⟨hasked, h.asked⟩, ?_, ?_⟩
  · rintro _ ⟨⟩
    exact ⟨rfl, rfl⟩
  · rw [List.isChain_cons]
    refine ⟨fun second hsecond => ?_, h.chain⟩
    obtain ⟨rfl, hkey⟩ := h.first second hsecond
    exact ⟨nextKey, hkey, hleads⟩
  · intro session hsession
    refine (hlast ?_).mpr (h.opened session hsession)
    rintro ⟨hnone, -⟩
    rw [hleads] at hnone
    cases hnone
  · intro error herror
    rw [hlast, h.refused error herror]
    rw [hleads]
    rintro ⟨⟩

/-- The connections are followed, from any of them on. -/
theorem followed_openFrom (crate : UrlCrate) (network : Network) (playback : Bool) (n number : ℕ)
    (url : String) (key : Option String) :
    Followed playback n url key (openFrom crate network playback n number url key).1
      (openFrom crate network playback n number url key).2 := by
  -- on the connections that may still be made
  induction n generalizing number url key with
  | zero => exact followed_nil (.inl ⟨_, rfl⟩)
  | succ n ih =>
    rw [openFrom]
    split
    · next error hendpoint => exact followed_nil (endpoint_technical hendpoint)
    · next address hendpoint =>
      dsimp only
      split
      · next error hconnect => exact followed_nil (connect_technical hconnect)
      · obtain ⟨hstarted, hwritten⟩ :=
          VtmSession.startOn_started (network number address) playback url key
        have hasked : ∀ session,
            ((network number address).fresh playback).startOn (network number address) url
            key = session → Hop.Asked ⟨url, key, session.2⟩ := by
          -- a request that was written carries the URL and the key
          rintro _ rfl
          rcases hwritten with ⟨hnone, -⟩ | ⟨packet, hrequests, hone⟩
          · exact .inl hnone
          · exact .inr ⟨packet, hone, carries_of_requests hrequests⟩
        split
        · next error session hstart =>
          -- the relay has said nothing
          rw [hstart] at hstarted
          obtain ⟨htechnical, hinfo⟩ := hstarted.technical error rfl
          have hnone : redirection playback session.info = .ok none := by
            rw [hinfo]
            rfl
          refine @followed_one _ _ ⟨url, key, session⟩ _ (hasked _ hstart)
            (fun _ h => by cases h) ?_
          intro other hother
          refine ⟨fun h => ?_, fun h => ?_⟩
          · obtain rfl := Except.error.inj h
            exact absurd htechnical hother
          · rw [hnone] at h
            cases h
        · next session hstart =>
          have hsent : session.written ≠ [] := by
            rw [hstart] at hwritten
            rcases hwritten with ⟨-, error, herror⟩ | ⟨packet, -, hone⟩
            · cases herror
            · rw [hone]
              exact List.cons_ne_nil _ _
          -- the answer of the relay is an error, the stream, or another relay
          split
          · next error hdecided =>
            refine @followed_one _ _ ⟨url, key, session⟩ _ (hasked _ hstart)
              (fun _ h => by cases h) ?_
            intro other _
            rw [hdecided]
            exact ⟨fun h => congrArg Except.error (Except.error.inj h),
              fun h => congrArg Except.error (Except.error.inj h)⟩
          · next hdecided =>
            refine @followed_one _ _ ⟨url, key, session⟩ _ (hasked _ hstart) ?_ ?_
            · rintro _ ⟨⟩
              exact ⟨hdecided, hsent, _, rfl⟩
            · intro other _
              rw [hdecided]
              exact ⟨(fun h => by cases h), (fun h => by cases h)⟩
          · next next nextKey hdecided =>
            exact (ih (number + 1) next (some nextKey)).cons (hasked _ hstart) hdecided

end Followed

/-- What the relay may decide. -/
inductive Decided (playback : Bool) (info : StreamInfo) :
    Except SessionError (Option (String × String)) → Prop
  | stream (h : ∀ result ∈ info.result, result = 0) : Decided playback info (.ok none)
  | offline (h : info.result = some 5404 ∨ info.result = some 5405) :
    Decided playback info (.error (.bridge .cameraOffline))
  | noRecording (h : info.result = some 5402) (hplayback : playback = true) :
    Decided playback info (.error (.bridge .sdNoRecording))
  | rejected {result : UInt64} (h : info.result = some result) (hother : result ∉ [0, 5404, 5405])
      (hlive : result = 5402 → playback = false) (detail : String) :
    Decided playback info (.error (upstream detail))
  | moved {result : UInt64} (h : info.result = some result) (hother : result ∉ [0, 5404, 5405])
      (hlive : result = 5402 → playback = false) {url key : String}
        (hurl : info.redirectUrl = some url)
      (hkey : info.redirectKey = some key) : Decided playback info (.ok (some (url, key)))

/-- What the relay's answer decides. -/
theorem decided_redirection (playback : Bool) (info : StreamInfo) :
    Decided playback info (redirection playback info) := by
  unfold redirection
  -- there is no result code, or it is zero
  split
  · next hnone =>
    refine .stream fun result hresult => ?_
    rw [Option.filter_eq_none_iff] at hnone
    simpa using hnone result hresult
  · next result hsome =>
    obtain ⟨hresult, hzero⟩ := Option.filter_eq_some_iff.mp hsome
    have hzero' : result ≠ 0 := by simpa using hzero
    split
    · next hoffline =>
      refine .offline ?_
      rw [hresult]
      exact hoffline.imp (congrArg some) (congrArg some)
    · next honline =>
      have hother : result ∉ [0, 5404, 5405] := by
        rw [List.mem_cons, List.mem_cons, List.mem_singleton, not_or]
        exact ⟨hzero', honline⟩
      -- the remaining codes lead on, if there is a relay to go to
      split
      · next hempty =>
        obtain ⟨rfl, hplayback⟩ := hempty
        exact .noRecording hresult hplayback
      · next hlive =>
        have hlive' : result = 5402 → playback = false := fun h => by simpa using not_and.mp hlive h
        split
        · exact .rejected hresult hother hlive' _
        · next url hurl =>
          split
          · exact .rejected hresult hother hlive' _
          · next key hkey => exact .moved hresult hother hlive' hurl hkey

/-- The camera is offline with two codes. -/
theorem redirection_offline_iff {playback : Bool} {info : StreamInfo} :
    redirection playback info = .error (.bridge .cameraOffline) ↔
      info.result = some 5404 ∨ info.result = some 5405 := by
  constructor
  · intro h
    have hdecided := decided_redirection playback info
    rw [h] at hdecided
    cases hdecided with
    | offline hresult => exact hresult
  · rintro (h | h) <;> rw [redirection, h] <;> rfl

/-- There is no recording with one code, for a playback. -/
theorem redirection_noRecording_iff {playback : Bool} {info : StreamInfo} :
    redirection playback info = .error (.bridge .sdNoRecording) ↔
      info.result = some 5402 ∧ playback = true := by
  constructor
  · intro h
    have hdecided := decided_redirection playback info
    rw [h] at hdecided
    cases hdecided with
    | noRecording hresult hplayback => exact ⟨hresult, hplayback⟩
  · rintro ⟨h, rfl⟩
    rw [redirection, h]
    rfl

/-- A relay sends the bridge on to the next one, with its key. -/
structure SendsOn (hop next : Hop) : Prop where
  url : hop.session.info.redirectUrl = some next.url
  key : ∃ key, hop.session.info.redirectKey = some key ∧ next.key = some key
  result : ∃ result, hop.session.info.result = some result ∧ result ∉ [0, 5404, 5405]

/-- A connection that leads on sends the URL and the key of the next one. -/
theorem Leads.sendsOn {playback : Bool} {hop next : Hop} (h : Leads playback hop next) :
    SendsOn hop next := by
  obtain ⟨key, hkey, hmoved⟩ := h
  have hdecided := decided_redirection playback hop.session.info
  rw [hmoved] at hdecided
  cases hdecided with
  | moved hresult hother hlive hurl hnext => exact ⟨hurl, ⟨key, hnext, hkey⟩, _, hresult, hother⟩

/-- **The chain of relays.** Whatever the relays send and whenever a connection fails: there are
four connections at most, the first one to the given address without a key, each other one to the
address and with the key that the relay before has named. No connection gets more than one packet,
from which the relay reads just that. A session is that of a relay that has not refused;
`CameraOffline` and `SdNoRecording` mean that the last relay has said so. -/
theorem open_redirects (crate : UrlCrate) (network : Network) (playback : Bool) (url : String) :
    let result := (VtmSession.open_ crate network playback url).1
    let hops := (VtmSession.open_ crate network playback url).2
    hops.length ≤ 4 ∧ (∀ hop ∈ hops.head?, hop.url = url ∧ hop.key = none) ∧ hops.IsChain SendsOn ∧
    (∀ hop ∈ hops, hop.Asked) ∧
    (∀ session, result = .ok session → (∀ code ∈ session.info.result, code = 0) ∧
      ∃ hop ∈ hops.getLast?, session.info = hop.session.info ∧ session.unread = hop.session.unread ∧
        ∃ packet, session.written = [packet] ∧ Carries packet hop.url hop.key) ∧
    (result = .error (.bridge .cameraOffline) ↔ ∃ hop ∈ hops.getLast?,
      hop.session.info.result = some 5404 ∨ hop.session.info.result = some 5405) ∧
    (result = .error (.bridge .sdNoRecording) ↔ ∃ hop ∈ hops.getLast?,
      hop.session.info.result = some 5402 ∧ playback = true) := by
  intro result hops
  have h : Followed playback 4 url none result hops :=
    followed_openFrom crate network playback 4 0 url none
  -- the errors of the camera are not technical ones
  have hspoken : ∀ error : BridgeError, (∀ detail, error ≠ .upstream detail) →
      ¬SessionError.Technical (.bridge error) := by
    rintro error hother (⟨detail, hdetail⟩ | ⟨kind, hkind⟩)
    · exact hother detail (SessionError.bridge.inj hdetail)
    · cases hkind
  refine ⟨h.length_le, h.first, h.chain.imp fun _ _ => Leads.sendsOn, h.asked,
    fun session hsession => ?_, ?_, ?_⟩
  -- the session that was opened is the one of the last connection
  · obtain ⟨hop, hhop, hstream, hwritten, time, rfl⟩ := h.opened session hsession
    have hdecided := decided_redirection playback hop.session.info
    rw [hstream] at hdecided
    cases hdecided with
    | stream hzero =>
      refine ⟨hzero, hop, hhop, rfl, rfl, ?_⟩
      exact (h.asked hop (List.mem_of_getLast? hhop)).resolve_left hwritten
  · rw [h.refused _ (hspoken _ fun _ h => by cases h)]
    simp only [redirection_offline_iff]
  · rw [h.refused _ (hspoken _ fun _ h => by cases h)]
    simp only [redirection_noRecording_iff]

end Vtm

end EzvizBridge
