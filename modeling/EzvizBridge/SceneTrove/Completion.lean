import EzvizBridge.SceneTrove.Handoff

/-!
# One more pull completes the hand-over

Once the recording under the key is `ready`, it stays so, with its media, until there is a receipt;
and the receipt stays until the pull removes it (`offers_run`). From any such state, whatever was
interrupted before, one pull that nothing interrupts ends with the file in place, the recording
acknowledged and the receipt removed (`pull_completes`): it repeats the DELETE if there is a
receipt, and otherwise gets the same recording again by its key.

`recording_handed_over` puts this together with the invariant of `Handoff`.
-/

namespace EzvizBridge

namespace SceneTrove

open Recordings

variable {cfg : Config} {sha256 : Sha256} {key : String} {own : Option Uuid} {b b' : Manager}
    {c c' : Consumer} {id : Uuid} {n : ℕ} {l l' : Link Consumer} {m : RecordingManifest}
    {format : RecordingFormat} {bytes : Bytes}

/-! ### A recording that is ready -/

/-- The recording is `ready`, and its media are there. -/
def Offers (b : Manager) (m : RecordingManifest) : Prop :=
  b.known.get m.recordingId = some m ∧ m.status = .ready ∧ Stocked b m.recordingId

/-- A recording that is ready is not active. -/
theorem inactive_of_ready (h : m.status = .ready) : m.isActive = false := by
  rw [RecordingManifest.isActive, h]
  rfl

/-- The operation on the bridge that a step runs, if it runs one, is no acknowledgement of the
recording under the key, unless there is a receipt. -/
theorem not_acknowledged {event : LinkEvent PullEvent} (h : Handoff cfg sha256 key own n l)
    (hok : Meanwhile key l event) (hown : own = some id) (hget : l.bridge.known.get id = some m)
    (hready : m.status = .ready) (hreceipt : l.client.receipt key = none)
    (hstep : handoffStep cfg sha256 l event = some l') :
    l'.bridge = l.bridge ∨ ∃ e, l.bridge.step cfg sha256 e = some l'.bridge ∧
      l.bridge.Timely e ∧ ∀ now faults, e ≠ .acknowledge id now faults := by
  -- a handler acknowledges what a DELETE names
  have hserved : ∀ {call request handling b' rest}, (call, request) ∈ l.requests →
      Served cfg sha256 l.bridge request handling b' rest →
        b' = l.bridge ∨ ∃ e, l.bridge.step cfg sha256 e = some b' ∧ l.bridge.Timely e ∧
          ∀ now faults, e ≠ .acknowledge id now faults := by
    intro call request handling b' rest hmem hserved
    -- a handler either leaves the bridge alone or runs one operation
    rcases hserved.operates with heq | ⟨e, hop, hb⟩
    · exact .inl heq
    refine .inr ⟨e, hb, ?_, ?_⟩
    · cases hop <;> trivial
    · rintro now faults rfl
      cases hop
      obtain ⟨-, hsettled | hsome⟩ := h.requests _ hmem
      · exact ((hsettled m hget).2 hready).elim
      · exact hsome hreceipt
  -- by the step of the link; the client and the delivery do not touch the bridge
  cases Link.step_cases hstep with
  | client => exact .inl Link.sent_bridge
  | deliver => exact .inl Link.sent_bridge
  | passed hmem hs => exact hserved hmem hs
  | answered hmem hs => exact hserved hmem hs
  -- an operation that is foreign to the key does not remove the recording
  | @bridge e b' hb =>
    obtain ⟨-, htimely, hforeign⟩ := hok
    refine .inr ⟨e, hb, htimely, ?_⟩
    rintro now faults rfl
    exact nomatch hget.symm.trans (h.gone_of_foreign hown hforeign hb)

/-- Media of a `ready` recording stay until there is a receipt. -/
theorem media_kept {event : LinkEvent PullEvent} (hcfg : cfg.Bounded)
    (h : Handoff cfg sha256 key own n l) (hok : Meanwhile key l event) (hown : own = some id)
    (hget : l.bridge.known.get id = some m) (hready : m.status = .ready)
    (hmem : (SpoolFile.media id format, bytes) ∈ l.bridge.directory)
    (hreceipt : l.client.receipt key = none)
    (hstep : handoffStep cfg sha256 l event = some l') :
    (SpoolFile.media id format, bytes) ∈ l'.bridge.directory := by
  -- the directory is the same, or it was changed by an operation that is no acknowledgement
  rcases not_acknowledged h hok hown hget hready hreceipt hstep with heq | ⟨e, hb, -, hne⟩
  · rw [heq]
    exact hmem
  · refine (Manager.media_step hcfg h.bridge hget (inactive_of_ready hready) hmem hb).resolve_right
      ?_
    rintro ⟨now, faults, heq⟩
    exact hne now faults heq

/-- The bridge goes on offering the recording, as long as there is no receipt. -/
theorem offers_step {event : LinkEvent PullEvent} (hcfg : cfg.Bounded)
    (h : Handoff cfg sha256 key (some m.recordingId) n l) (hok : Meanwhile key l event)
    (hoffers : Offers l.bridge m) (hreceipt : l.client.receipt key = none)
    (hstep : handoffStep cfg sha256 l event = some l') : Offers l'.bridge m := by
  obtain ⟨hget, hready, format, bytes, hmem⟩ := hoffers
  have hmem' := media_kept hcfg h hok rfl hget hready hmem hreceipt hstep
  refine ⟨?_, hready, format, bytes, hmem'⟩
  -- the manifest: the recording takes its turn in the operation
  rcases not_acknowledged h hok rfl hget hready hreceipt hstep with heq | ⟨e, hb, htimely, hne⟩
  · rw [heq]
    exact hget
  · have hturn := @Manager.turns_step cfg sha256 _ _ m.recordingId e h.bridge htimely hb
    rw [hget] at hturn
    generalize l'.bridge.known.get m.recordingId = found at hturn ⊢
    -- it is not active, its media are there, and nothing acknowledges it
    cases hturn with
    | stays => rfl
    | moves hactive => exact nomatch (inactive_of_ready hready).symm.trans hactive
    | lost _ hmissing => exact absurd hmem (hmissing format bytes)
    | released heq => exact absurd heq (hne _ _)

/-- Only its removal takes a receipt away. -/
theorem receipt_advances {event : PullEvent} {request : Option Request}
    (hadv : Advances sha256 c event c' request) (hevent : event ≠ .remove)
    (h : c.receipt key ≠ none) : c'.receipt key ≠ none := by
  -- writing a receipt, under this key or another
  cases hadv with
  | @receipt r x =>
    by_cases hkey : r.idempotencyKey = key
    · have hsome : Keyed.lookup Prod.fst
          (Keyed.insert Prod.fst c.receipts (r.idempotencyKey, x)) key =
            some (r.idempotencyKey, x) :=
        hkey ▸ Keyed.lookup_insert_self
      rw [Consumer.receipt, hsome]
      exact Option.some_ne_none _
    · have hsame : Keyed.lookup Prod.fst
          (Keyed.insert Prod.fst c.receipts (r.idempotencyKey, x)) key =
            Keyed.lookup Prod.fst c.receipts key :=
        Keyed.lookup_insert_of_ne (Ne.symm hkey)
      rw [Consumer.receipt, hsame]
      exact h
  -- the removal is excluded
  | remove => exact absurd rfl hevent
  | _ => exact h

theorem receipt_receives {reply : Reply} {request : Option Request}
    (hrec : Receives sha256 c reply c' request) : c'.receipt key = c.receipt key := by
  cases hrec <;> rfl

/-- The recording is `ready` with its media, or there is a receipt. -/
def Pending (key : String) (m : RecordingManifest) (l : Link Consumer) : Prop :=
  Offers l.bridge m ∨ l.client.receipt key ≠ none

/-- A recording that is offered or has a receipt stays so. -/
theorem pending_step {event : LinkEvent PullEvent} (hcfg : cfg.Bounded)
    (h : Handoff cfg sha256 key (some m.recordingId) n l) (hok : Meanwhile key l event)
    (hevent : event ≠ .client .remove) (hpending : Pending key m l)
    (hstep : handoffStep cfg sha256 l event = some l') : Pending key m l' := by
  -- without a receipt the bridge offers it
  by_cases hreceipt : l.client.receipt key = none
  · exact .inl
      (offers_step hcfg h hok (hpending.resolve_right (not_not.mpr hreceipt)) hreceipt hstep)
  -- with one, the receipt stays
  · refine .inr ?_
    cases Link.step_cases hstep with
    | client hnext =>
      rw [Link.sent_client]
      exact receipt_advances (advance_cases hnext) (fun heq => hevent (heq ▸ rfl)) hreceipt
    | deliver _ hnext =>
      rw [Link.sent_client, receipt_receives (receive_cases hnext)]
      exact hreceipt
    | passed => exact hreceipt
    | answered => exact hreceipt
    | bridge => exact hreceipt

/-- **A recording that was `ready` can be had until its receipt is removed.** -/
theorem pending_run {events : List (LinkEvent PullEvent)} (hcfg : cfg.Bounded)
    (h : Handoff cfg sha256 key (some m.recordingId) n l) (hpending : Pending key m l)
    (hok : EventSystem.Steps (handoffStep cfg sha256)
      (fun t event => Meanwhile key t event ∧ event ≠ .client .remove) l events)
    (hrun : EventSystem.run (handoffStep cfg sha256) l events = some l')
    (hfew : n + EventSystem.spent (handoffStep cfg sha256) others l events < maxAckTombstones) :
    Handoff cfg sha256 key (some m.recordingId)
        (n + EventSystem.spent (handoffStep cfg sha256) others l events) l' ∧ Pending key m l' := by
  -- the budget counts the tombstones that other recordings leave
  refine EventSystem.run_budget (fun k t => k < maxAckTombstones →
    Handoff cfg sha256 key (some m.recordingId) k t ∧ Pending key m t) ?_ ?_ hok hrun hfew
  -- one step keeps both, while the budget lasts
  · intro k t event t' ht hevent hstep hfew
    obtain ⟨h₁, hpending₁⟩ := ht (Nat.lt_of_le_of_lt (Nat.le_add_right _ _) hfew)
    obtain ⟨own', hown', h₂⟩ := handoff_step hcfg h₁ hevent.1 hfew hstep
    obtain rfl := hown' _ rfl
    exact ⟨h₂, pending_step hcfg h₁ hevent.1 hevent.2 hpending₁ hstep⟩
  · exact fun _ => ⟨h, hpending⟩

/-! ### A pull that is not interrupted -/

/-- The request that the last reply is for is on its way. -/
def Waiting (l : Link Consumer) (request : Request) : Prop :=
  Keyed.lookup Prod.fst l.requests l.calls = some (l.calls, request)

/-- The request that was sent last waits under the last number. -/
theorem waiting_sent {request : Request} (h : l.Numbered) :
    Waiting (l.sent (c', some request)) request := by
  have hnew : ∀ e ∈ l.requests, e.1 ≠ l.calls + 1 := by
    intro e he heq
    have hle := h.requests e he
    omega
  change Keyed.lookup Prod.fst (l.requests ++ [(l.calls + 1, request)]) (l.calls + 1) = _
  rw [← Keyed.insert_of_new (a := (l.calls + 1, request)) hnew]
  exact Keyed.lookup_insert_self

/-- A request is handled, and its reply arrives. -/
theorem run_answered {request : Request} {handling : Handling} {reply : Reply}
    {next : Consumer × Option Request} {events : List (LinkEvent PullEvent)}
    (hwait : Waiting l request)
    (hserve : serve cfg sha256 l.bridge request handling = some (b', .inr reply))
    (hnext : l.client.receive sha256 reply = some next) :
    EventSystem.run (handoffStep cfg sha256) l (.serve l.calls handling :: .deliver :: events) =
      EventSystem.run (handoffStep cfg sha256)
        (Link.sent { l with
          bridge := b'
          requests := Keyed.remove Prod.fst l.requests l.calls
          replies := Keyed.insert Prod.fst l.replies (l.calls, reply) } next) events := by
  -- the reply has the number of the request
  have hreply : Keyed.lookup Prod.fst (Keyed.insert Prod.fst l.replies (l.calls, reply)) l.calls =
      some (l.calls, reply) := Keyed.lookup_insert_self
  unfold Waiting at hwait
  simp only [EventSystem.run, handoffStep, Link.step, hwait, hserve, Option.bind_some,
    hreply, hnext, Option.map_some]

theorem run_client {event : PullEvent} {next : Consumer × Option Request}
    {events : List (LinkEvent PullEvent)} (hnext : l.client.advance sha256 event = some next) :
    EventSystem.run (handoffStep cfg sha256) l (.client event :: events) =
      EventSystem.run (handoffStep cfg sha256) (l.sent next) events := by
  simp only [EventSystem.run, handoffStep, Link.step, hnext, Option.map_some, Option.bind_some]

/-- The end of a pull: the DELETE is answered, and the receipt goes. -/
def closing (call : ℕ) (now : Timestamp) : List (LinkEvent PullEvent) :=
  [.serve call (.acknowledge now {}), .deliver, .client .remove, .client .finish]

/-- An acknowledgement without faults succeeds, unless the recording is active. -/
theorem acknowledge_ok {state : State} {d : Directory} (now : Timestamp)
    (h : ∀ m, state.get id = some m → m.isActive = false) :
    ∃ found, (Recordings.acknowledge state d id now {}).1 = .ok found := by
  unfold Recordings.acknowledge
  split
  · exact ⟨false, rfl⟩
  · rename_i m hm
    rw [h m hm]
    refine ⟨true, ?_⟩
    simp only [Bool.false_eq_true, if_false]
    split_ifs <;> rfl

/-- The DELETE is served, and the receipt is removed. -/
theorem closing_completes {r : PullRequest} {x : PullResult}
    (hphase : l.client.phase = .acknowledging r x) (hwait : Waiting l (.delete x.recordingId))
    (hrunning : l.bridge.running = true)
    (hfinal : ∀ m, l.bridge.state.get x.recordingId = some m → m.isActive = false)
    (now : Timestamp) :
    ∃ l', EventSystem.run (handoffStep cfg sha256) l (closing l.calls now) = some l' ∧
      l'.client.phase = .finished r (.ok x) ∧ l'.client.destination = l.client.destination ∧
      l'.client.receipt r.idempotencyKey = none ∧ l'.bridge.running = true ∧
      l'.bridge.state.get x.recordingId = none := by
  -- the acknowledgement finds a recording that is over, or none
  obtain ⟨found, hok⟩ := acknowledge_ok (d := l.bridge.directory) now hfinal
  obtain ⟨b', hserve⟩ : ∃ b',
      serve cfg sha256 l.bridge (.delete x.recordingId) (.acknowledge now {}) =
      some (b', .inr .noContent) := by
    simp only [serve, Manager.step, hrunning, if_pos, Option.map_some, hok]
    exact ⟨_, rfl⟩
  -- the consumer hears that it has been removed
  have hreceive : l.client.receive sha256 .noContent =
      some ({ l.client with phase := .acknowledged r x }, none) := by
    simp only [Consumer.receive, hphase]
  -- receipt and phase are written after that
  cases serve_cases hserve with
  | deleted _ hrunning' hget' =>
    refine ⟨_, (run_answered hwait hserve hreceive).trans
      ((run_client rfl).trans ((run_client rfl).trans rfl)), ?_⟩
    exact ⟨rfl, rfl, Consumer.receipt_eq_none.mpr Keyed.lookup_remove_self, hrunning', hget'⟩

/-- The middle of a pull: the media are fetched and put in place, and the receipt is written. -/
def transfer (call : ℕ) : List (LinkEvent PullEvent) :=
  [.serve call .read, .deliver, .client .rename, .client .receipt, .client .acknowledge]

/-- The consumer accepts a file that starts as its format does. -/
theorem matchesPrefix_of_starts {f : MediaFormat}
    (hformat : MediaFormat.fromMediaType format.mediaType = some f) (h : Starts format bytes) :
    f.matchesPrefix (bytes.take probeBytes) = true := by
  -- by the format: the pack code, or three sync bytes
  cases format with
  | mpegPs =>
    obtain rfl := Option.some.inj hformat
    refine List.isPrefixOf_iff_prefix.mpr (List.prefix_take_iff.mpr ⟨h, by decide⟩)
  | mpegTs =>
    obtain rfl := Option.some.inj hformat
    obtain ⟨h₀, h₁, h₂⟩ := of_decide_eq_true h
    -- the third sync byte is there, so there are more than two packets
    obtain ⟨hlength, -⟩ := List.getElem?_eq_some_iff.mp h₂
    refine decide_eq_true ⟨?_, decide_eq_true ⟨?_, ?_, ?_⟩⟩
    · rw [List.length_take, probeBytes]
      rw [tsPacketBytes] at hlength ⊢
      omega
    · rw [List.getElem?_take_of_lt (by decide)]
      exact h₀
    · rw [List.getElem?_take_of_lt (by decide)]
      exact h₁
    · rw [List.getElem?_take_of_lt (by decide)]
      exact h₂

/-- A file that starts with a marker is not empty. -/
theorem length_pos_of_starts (h : Starts format bytes) : 0 < bytes.length := by
  cases format with
  | mpegPs => exact Nat.lt_of_lt_of_le (by decide) h.length_le
  | mpegTs =>
    obtain ⟨h₀, -, -⟩ := of_decide_eq_true h
    exact (List.getElem?_eq_some_iff.mp h₀).1

/-- The numbers stay in order when a request is answered. -/
theorem numbered_answered {reply : Reply} (h : l.Numbered) :
    Link.Numbered { l with
      bridge := b'
      requests := Keyed.remove Prod.fst l.requests l.calls
      replies := Keyed.insert Prod.fst l.replies (l.calls, reply) } := by
  refine ⟨fun e he => h.requests e (Keyed.mem_remove.mp he).1, fun e he => ?_⟩
  rcases Keyed.mem_insert.mp he with ⟨he, -⟩ | rfl
  · exact h.replies e he
  · exact le_rfl

/-- The media of a `ready` recording, as the bridge sends them. -/
theorem readMedia_eq (hb : b.Described cfg sha256) (hget : b.state.get m.recordingId = some m)
    (hready : m.status = .ready)
    (hmem : (SpoolFile.media m.recordingId format, bytes) ∈ b.directory) :
    readMedia b m.recordingId = .media m.mediaType bytes := by
  have hread : b.directory.read (.media m.recordingId format) = some bytes :=
    (Directory.read_eq_some hb.names).mpr hmem
  obtain ⟨htype, -, -⟩ := hb.memory m (State.mem_of_get hget).1 hready format bytes hmem
  unfold readMedia
  rw [hget]
  dsimp only
  rw [if_pos hready, mediaPath_of_mem hb.names hb.single hmem, hread, htype]
  cases format <;> rfl

/-- The file is read, checked, renamed and noted, and the DELETE is sent. -/
theorem transfer_completes {r : PullRequest} {name : MediaName} (hnumbered : l.Numbered)
    (hphase : l.client.phase = .fetching r m name) (hwait : Waiting l (.media m.recordingId))
    (hrunning : l.bridge.running = true) (hb : l.bridge.Described cfg sha256)
    (hget : l.bridge.state.get m.recordingId = some m) (hready : m.status = .ready)
    (hmem : (SpoolFile.media m.recordingId format, bytes) ∈ l.bridge.directory)
    (hsize : bytes.length ≤ r.maxBytes)
    (hformat : MediaFormat.fromMediaType m.mediaType = some name.format) :
    ∃ l' x, EventSystem.run (handoffStep cfg sha256) l (transfer l.calls) = some l' ∧
      l'.client.phase = .acknowledging r x ∧ x.recordingId = m.recordingId ∧ Agrees x m ∧
      Committed sha256 l'.client.destination x ∧ l'.calls = l.calls + 1 ∧
      Waiting l' (.delete x.recordingId) ∧ l'.bridge = l.bridge := by
  -- the manifest describes the file
  obtain ⟨htype, hbytes, hdigest⟩ := hb.memory m (State.mem_of_get hget).1 hready format bytes hmem
  have hserve : serve cfg sha256 l.bridge (.media m.recordingId) .read =
      some (l.bridge, .inr (.media m.mediaType bytes)) := by
    simp only [serve, hrunning, if_pos, readMedia_eq hb hget hready hmem]
  set x : PullResult :=
    { recordingId := m.recordingId, path := name, bytes := bytes.length, sha256 := sha256 bytes }
  -- the download passes the checks on type, size, marker and digest
  have hdownload : download sha256 r m name m.mediaType bytes = .ok x := by
    have hprefix : name.format.matchesPrefix (bytes.take probeBytes) = true :=
      matchesPrefix_of_starts (htype ▸ hformat) (hb.started _ _ _ hmem)
    unfold download
    rw [if_neg (not_not.mpr rfl), if_neg (Nat.not_lt.mpr hsize), if_neg (not_not.mpr hprefix),
      hbytes, hdigest, if_neg (not_or.mpr ⟨not_not.mpr rfl, not_not.mpr rfl⟩)]
  -- the client has the file
  have hreceive : l.client.receive sha256 (.media m.mediaType bytes) =
      some ({ l.client with phase := .downloaded r x bytes }, none) := by
    simp only [Consumer.receive, hphase, hdownload]
  obtain ⟨hfits, hagrees, -, -⟩ := download_eq_ok hdownload
  -- rename, receipt and DELETE are steps of the client alone
  refine ⟨_, x, (run_answered hwait hserve hreceive).trans ((run_client rfl).trans
    ((run_client rfl).trans ((run_client rfl).trans rfl))), ?_⟩
  refine ⟨rfl, rfl, hagrees, ⟨bytes, Keyed.lookup_insert_self, hfits⟩, rfl, ?_, rfl⟩
  exact waiting_sent (numbered_answered hnumbered).sent.sent.sent

/-- What a request asks for, as `same_request` compares it. -/
def PullRequest.asks (self : PullRequest) : String × ℕ × Option Source × Option ℤ × Option ℤ :=
  match self.sdInterval with
  | none => (self.camera, self.durationSeconds, none, none, none)
  | some (start, stop) =>
    (self.camera, (saturatingSubI64 stop start).toNat, some .sd, some start, some stop)

/-- The beginning of a pull: the recording is looked up by its key. -/
def opening (r : PullRequest) (call : ℕ) (id : Uuid) (now : Timestamp)
    (scan : Except BridgeError Directory) (live : Bool) : List (LinkEvent PullEvent) :=
  match r.sdInterval with
  | none => [.serve call (.start id now scan .ok), .deliver]
  | some _ => [.serve call (.probe live), .serve call (.startSd id now scan .ok), .deliver]

/-- The name that a `ready` manifest within the bound leads to. -/
theorem nameOf_eq_ok {r : PullRequest} {k : ℕ} (hchecked : Checked cfg m)
    (htype : m.mediaType = format.mediaType) (hbytes : m.bytes = some k) (hpos : 0 < k)
    (hle : k ≤ r.maxBytes) (hdigest : m.sha256.isSome = true)
    (hcompleted : m.completedAt.isSome = true) :
    ∃ name, nameOf r m = .ok name ∧ MediaFormat.fromMediaType m.mediaType = some name.format := by
  -- a digest and a time of completion are there
  obtain ⟨digest, hdigest⟩ := Option.isSome_iff_exists.mp hdigest
  obtain ⟨completed, hcompleted⟩ := Option.isSome_iff_exists.mp hcompleted
  -- the stamp is the start of the interval, which is in range
  obtain ⟨stamp, hstamp⟩ : ∃ stamp, stampOf m completed = .ok stamp := by
    unfold stampOf
    rcases hchecked with ⟨hlive, -⟩ | ⟨start, stop, hstart, -, hinterval⟩
    · rw [hlive]
      exact ⟨_, rfl⟩
    · rw [hstart]
      unfold checkInterval at hinterval
      split_ifs at hinterval with _ _ hrange
      exact ⟨start, if_pos hrange.1⟩
  -- the media type is one of the two
  obtain ⟨f, hf⟩ : ∃ f, MediaFormat.fromMediaType m.mediaType = some f := by
    rw [htype]
    cases format <;> exact ⟨_, rfl⟩
  refine ⟨⟨stamp, m.recordingId, f⟩, ?_, hf⟩
  unfold nameOf
  simp only [hbytes, hdigest, hcompleted, hstamp, hf]
  rw [if_neg (not_not.mpr ⟨hpos, hle⟩)]

/-- A request under the key of a recording that it asked for is answered with the recording. -/
theorem enqueue_repeated {state : State} {m' : RecordingManifest} {exclusive : Bool}
    {spool : Except BridgeError ℕ} {persist : Persist} (hc : state.Consistent)
    (hkey : (key, m.recordingId) ∈ state.idempotency) (hget : state.get m.recordingId = some m)
    (hrequest : m.request = m'.request) :
    Recordings.enqueue cfg state key m' exclusive spool persist =
      (.ok (m, false), none, state) := by
  obtain ⟨first, hfirst, hadm⟩ := @admission_of_known cfg state key m' exclusive spool hc _ hkey
  obtain rfl := Option.some.inj (hget.symm.trans hfirst)
  unfold Recordings.enqueue
  rw [hadm, repeated, if_pos (RecordingManifest.sameRequest_iff.mpr hrequest)]

/-- A microSD interval that passed the checks passes those of `start_sd`, under a known key. -/
theorem checkStartSd_eq_ok {state : State} {camera : String} {start stop : ℤ} {live : Bool}
    (hinterval : checkInterval cfg camera start stop = .ok ())
    (hkey : (key, id) ∈ state.idempotency) :
    checkStartSd cfg state camera start stop key live = .ok () := by
  -- the interval passed the checks on camera, length and range
  unfold checkInterval at hinterval
  split_ifs at hinterval with hcamera hlength hrange
  obtain ⟨hstart, hstop⟩ := hrange
  have hstart' := of_decide_eq_true hstart
  have hstop' := of_decide_eq_true hstop
  -- no saturation within the range
  have hbound : saturatingSubI64 stop start = stop - start := by
    unfold saturatingSubI64
    omega
  -- the key is known, so the backlog is not looked at
  have hknown : (Keyed.lookup Prod.fst state.idempotency key).isNone = false := by
    rw [Option.isNone_eq_false_iff, Keyed.lookup_isSome]
    exact List.mem_map_of_mem hkey
  unfold checkStartSd
  dsimp only
  rw [if_neg (not_not.mpr hcamera), hbound, if_neg, hknown]
  · simp
  · rw [not_not]
    omega

/-- A request is handled in part. -/
theorem run_passed {request request' : Request} {handling : Handling}
    {events : List (LinkEvent PullEvent)} (hwait : Waiting l request)
    (hserve : serve cfg sha256 l.bridge request handling = some (b', .inl request')) :
    EventSystem.run (handoffStep cfg sha256) l (.serve l.calls handling :: events) =
      EventSystem.run (handoffStep cfg sha256)
        { l with
          bridge := b'
          requests := Keyed.insert Prod.fst l.requests (l.calls, request') } events := by
  unfold Waiting at hwait
  simp only [EventSystem.run, handoffStep, Link.step, hwait, hserve, Option.bind_some]

/-- The bridge finds a live recording by its key. -/
theorem serve_live {r : PullRequest} {newId : Uuid} {now : Timestamp}
    {scan : Except BridgeError Directory} (hc : b.state.Consistent)
    (hkey : (r.idempotencyKey, m.recordingId) ∈ b.state.idempotency)
    (hget : b.state.get m.recordingId = some m) (hrequest : m.request = r.asks)
    (hchecked : Checked cfg m) (hlive : r.sdInterval = none) (hcan : b.canEnqueue newId scan) :
    ∃ b', serve cfg sha256 b (.create r) (.start newId now scan .ok) =
      some (b', .inr (.manifest m)) := by
  -- the request asks for what the manifest is about
  simp only [PullRequest.asks, hlive, RecordingManifest.request, Prod.mk.injEq] at hrequest
  obtain ⟨hcamera, hduration, hsource, hstart, hstop⟩ := hrequest
  -- it passed the checks when it was accepted
  have hcheck : checkStart cfg r.camera r.durationSeconds = .ok () := by
    rcases hchecked with ⟨-, hcheck⟩ | ⟨start, -, hsd, -⟩
    · rw [← hcamera, ← hduration]
      exact hcheck
    · cases hstart.symm.trans hsd
  -- so `enqueue` finds the recording under its key
  have hsame : m.request =
      (RecordingManifest.pending newId now r.camera r.durationSeconds).request := by
    simp only [RecordingManifest.request, RecordingManifest.pending, hcamera, hduration, hsource,
      hstart, hstop]
  simp only [serve, hlive, Manager.step, if_pos hcan, hcheck, Option.map_some,
    enqueue_repeated hc hkey hget hsame, replyOf]
  exact ⟨_, rfl⟩

/-- The bridge finds a microSD recording by its key, after the first guard of `start_sd`. -/
theorem serve_probed {r : PullRequest} {newId : Uuid} {now : Timestamp} {start stop : ℤ}
    {scan : Except BridgeError Directory} (hc : b.state.Consistent)
    (hkey : (r.idempotencyKey, m.recordingId) ∈ b.state.idempotency)
    (hget : b.state.get m.recordingId = some m) (hrequest : m.request = r.asks)
    (hsd : r.sdInterval = some (start, stop)) (hcan : b.canEnqueue newId scan)
    (hprobed : ⟨r.camera, start, stop, r.idempotencyKey⟩ ∈ b.probed) :
    ∃ b', serve cfg sha256 b (.probed r) (.startSd newId now scan .ok) =
      some (b', .inr (.manifest m)) := by
  -- the manifest is about this interval
  have hsame : m.request = (RecordingManifest.pendingSd newId now r.camera start stop).request := by
    rw [hrequest, PullRequest.asks, hsd]
    rfl
  simp only [serve, hsd, Manager.step, if_pos (And.intro hcan hprobed), Option.map_some,
    enqueue_repeated hc hkey hget hsame, replyOf]
  exact ⟨_, rfl⟩

/-- The first guard of `start_sd` lets a known key pass. -/
theorem serve_probe {r : PullRequest} {start stop : ℤ} {live : Bool} (hrunning : b.running = true)
    (hkey : (r.idempotencyKey, id) ∈ b.state.idempotency) (hsd : r.sdInterval = some (start, stop))
    (hinterval : checkInterval cfg r.camera start stop = .ok ()) :
    serve cfg sha256 b (.create r) (.probe live) =
      some ({ b with probed := b.probed ++ [⟨r.camera, start, stop, r.idempotencyKey⟩] },
        .inl (.probed r)) := by
  simp only [serve, hsd, hinterval, Manager.step, if_pos hrunning,
    checkStartSd_eq_ok hinterval hkey, Option.map_some]

/-- The interval of a microSD request is the one that was checked. -/
theorem Checked.interval {r : PullRequest} {start stop : ℤ} (h : Checked cfg m)
    (hrequest : m.request = r.asks) (hsd : r.sdInterval = some (start, stop)) :
    checkInterval cfg r.camera start stop = .ok () := by
  simp only [PullRequest.asks, hsd, RecordingManifest.request, Prod.mk.injEq] at hrequest
  obtain ⟨hcamera, -, -, hstart, hstop⟩ := hrequest
  rcases h with ⟨hnone, -⟩ | ⟨start', stop', hstart', hstop', hinterval⟩
  · cases hnone.symm.trans hstart
  · obtain rfl := Option.some.inj (hstart.symm.trans hstart')
    obtain rfl := Option.some.inj (hstop.symm.trans hstop')
    rw [← hcamera]
    exact hinterval

/-- What the bridge has of a recording that it has just been asked for again. -/
theorem served_again {request : Request} {handling : Handling} {r : PullRequest}
    (hcfg : cfg.Bounded) (hb : b.Orderly cfg sha256) (hrunning : b.running = true)
    (hrequest : request = .create r ∨ request = .probed r) (hok : handling.persists)
    (hready : m.status = .ready) (hget : b.state.get m.recordingId = some m)
    (hmem : (SpoolFile.media m.recordingId format, bytes) ∈ b.directory)
    (hserve : serve cfg sha256 b request handling = some (b', .inr (.manifest m))) :
    b'.Orderly cfg sha256 ∧ b'.running = true ∧ b'.state.get m.recordingId = some m ∧
      (SpoolFile.media m.recordingId format, bytes) ∈ b'.directory := by
  -- the answer was a manifest, which only an operation that finds a recording gives
  have hserved := serve_cases hserve
  generalize hrest : (Sum.inr (.manifest m) : Request ⊕ Reply) = rest at hserved
  cases hserved with
  | @found _ _ _ _ e m' _ hop hstep hrunning' _ hget' =>
    obtain ⟨⟩ := Sum.inr.inj hrest
    have hknown : b.known.get m.recordingId = some m := Manager.known_of_running hrunning ▸ hget
    -- the operation keeps order and media
    refine ⟨Manager.orderly_step hcfg hb (hop.persists hok) hstep, hrunning', hget', ?_⟩
    -- it is no acknowledgement
    refine (Manager.media_step hcfg hb hknown (inactive_of_ready hready) hmem hstep).resolve_right
      ?_
    rintro ⟨now, faults, rfl⟩
    cases hop
    rcases hrequest with heq | heq <;> exact nomatch heq
  | status => rcases hrequest with heq | heq <;> exact nomatch heq
  | refused => exact nomatch Sum.inr.inj hrest
  | probed => exact nomatch hrest
  | media => exact nomatch Sum.inr.inj hrest
  | deleted => exact nomatch Sum.inr.inj hrest

/-- The recording is asked for again, and the bridge answers with its manifest. -/
theorem opening_completes {r : PullRequest} {name : MediaName} {newId : Uuid} {now : Timestamp}
    {scan : Except BridgeError Directory} {live : Bool} (hcfg : cfg.Bounded)
    (hnumbered : l.Numbered) (hphase : l.client.phase = .creating r) (hwait : Waiting l (.create r))
    (hb : l.bridge.Orderly cfg sha256) (hrunning : l.bridge.running = true)
    (hkey : (r.idempotencyKey, m.recordingId) ∈ l.bridge.state.idempotency)
    (hget : l.bridge.state.get m.recordingId = some m) (hready : m.status = .ready)
    (hmem : (SpoolFile.media m.recordingId format, bytes) ∈ l.bridge.directory)
    (hrequest : m.request = r.asks) (hchecked : Checked cfg m) (hname : nameOf r m = .ok name)
    (hcan : l.bridge.canEnqueue newId scan) :
    ∃ l', EventSystem.run (handoffStep cfg sha256) l (opening r l.calls newId now scan live) =
        some l' ∧
      l'.Numbered ∧ l'.client = { l.client with phase := .fetching r m name } ∧
      l'.calls = l.calls + 1 ∧ Waiting l' (.media m.recordingId) ∧
      l'.bridge.Orderly cfg sha256 ∧ l'.bridge.running = true ∧
      l'.bridge.state.get m.recordingId = some m ∧
      (SpoolFile.media m.recordingId format, bytes) ∈ l'.bridge.directory := by
  have hc := hb.state.consistent
  -- a manifest that is ready leads to the file
  have hreceive : l.client.receive sha256 (.manifest m) =
      some ({ l.client with phase := .fetching r m name }, some (.media m.recordingId)) := by
    simp only [Consumer.receive, hphase, examine, hready, hname]
  -- a live recording takes one guard, a microSD recording two
  cases hsd : r.sdInterval with
  | none =>
    obtain ⟨b', hserve⟩ : ∃ b', serve cfg sha256 l.bridge (.create r) (.start newId now scan .ok) =
      some (b', .inr (.manifest m)) := serve_live hc hkey hget hrequest hchecked hsd hcan
    have hok : Handling.persists (.start newId now scan .ok) := rfl
    have hfacts := served_again hcfg hb hrunning (.inl rfl) hok hready hget hmem hserve
    rw [opening, hsd]
    refine ⟨_, (run_answered hwait hserve hreceive).trans rfl, ?_⟩
    exact ⟨(numbered_answered hnumbered).sent, rfl, rfl, waiting_sent (numbered_answered hnumbered),
      hfacts⟩
  | some interval =>
    obtain ⟨start, stop⟩ := interval
    have hinterval := hchecked.interval hrequest hsd
    have hprobe : serve cfg sha256 l.bridge (.create r) (.probe live) =
        some (_, .inl (.probed r)) :=
      serve_probe hrunning hkey hsd hinterval
    -- between the guards the request is noted as probed
    set b₁ : Manager := { l.bridge with
      probed := l.bridge.probed ++ [⟨r.camera, start, stop, r.idempotencyKey⟩] } with hb₁
    have horderly₁ : b₁.Orderly cfg sha256 := by
      cases serve_cases hprobe with
      | probed hop _ _ hstep => exact Manager.orderly_step hcfg hb (hop.persists trivial) hstep
    have hprobed : ⟨r.camera, start, stop, r.idempotencyKey⟩ ∈ b₁.probed :=
      List.mem_append_right _ (List.mem_singleton_self _)
    obtain ⟨b', hserve⟩ : ∃ b', serve cfg sha256 b₁ (.probed r) (.startSd newId now scan .ok) =
      some (b', .inr (.manifest m)) := serve_probed hc hkey hget hrequest hsd hcan hprobed
    have hok : Handling.persists (.startSd newId now scan .ok) := rfl
    have hfacts := served_again hcfg horderly₁ hrunning (.inr rfl) hok hready hget hmem hserve
    -- the request goes through the two guards of `start_sd`
    set l₁ : Link Consumer := { l with
      bridge := b₁, requests := Keyed.insert Prod.fst l.requests (l.calls, .probed r) }
    have hnumbered₁ : l₁.Numbered := by
      refine ⟨fun e he => ?_, hnumbered.replies⟩
      rcases Keyed.mem_insert.mp he with ⟨he, -⟩ | rfl
      · exact hnumbered.requests e he
      · exact le_rfl
    have hwait₁ : Waiting l₁ (.probed r) := Keyed.lookup_insert_self
    rw [opening, hsd]
    refine ⟨_, (run_passed hwait hprobe).trans
      ((run_answered hwait₁ hserve hreceive).trans rfl), ?_⟩
    exact ⟨(numbered_answered hnumbered₁).sent, rfl, rfl,
      waiting_sent (numbered_answered hnumbered₁), hfacts⟩

/-- A pull that nothing interrupts: every request is handled and every reply arrives. `newId`,
`now`, `scan` and `live` are what the bridge meets meanwhile. -/
def uninterrupted (l : Link Consumer) (r : PullRequest) (newId : Uuid) (now : Timestamp)
    (scan : Except BridgeError Directory) (live : Bool) : List (LinkEvent PullEvent) :=
  .client (.call r) ::
    if l.client.receipt r.idempotencyKey = none then
      opening r (l.calls + 1) newId now scan live ++
        (transfer (l.calls + 2) ++ closing (l.calls + 3) now)
    else closing (l.calls + 1) now

/-- **One more pull completes the hand-over.** -/
theorem pull_completes {r : PullRequest} {newId : Uuid} {now : Timestamp}
    {scan : Except BridgeError Directory} {live : Bool} {k : ℕ} (hcfg : cfg.Bounded)
    (h : Handoff cfg sha256 key (some m.recordingId) n l) (hpending : Pending key m l)
    (hidle : l.client.phase.request? = none) (hrunning : l.bridge.running = true)
    (hkey : r.idempotencyKey = key) (hrequest : m.request = r.asks) (hbytes : m.bytes = some k)
    (hle : k ≤ r.maxBytes) (hcan : l.bridge.canEnqueue newId scan) :
    ∃ l' x, EventSystem.run (handoffStep cfg sha256) l (uninterrupted l r newId now scan live) =
        some l' ∧
      l'.client.phase = .finished r (.ok x) ∧ x.recordingId = m.recordingId ∧
      Committed sha256 l'.client.destination x ∧ l'.client.receipt key = none ∧
      l'.bridge.running = true ∧ l'.bridge.state.get m.recordingId = none := by
  subst hkey
  have hknown := Manager.known_of_running hrunning
  -- with a receipt only the DELETE is left
  cases hreceipt : l.client.receipt r.idempotencyKey with
  | some x =>
    -- the DELETE is sent again
    obtain ⟨⟨hown, hsettled⟩, hcommitted⟩ := h.receipt x hreceipt
    have hid : m.recordingId = x.recordingId := Option.some.inj hown
    have hcall : l.client.advance sha256 (.call r) =
        some ({ l.client with phase := .acknowledging r x }, some (.delete x.recordingId)) := by
      have hverify := verifyCommitted_eq_ok.mpr hcommitted
      simp only [Consumer.advance, hidle, if_pos, recoverReceipt,
        Consumer.receipt_eq_some.mp hreceipt, hverify, Except.map]
    obtain ⟨l', hrun, hphase, hdestination, hnone, hrunning', hgone⟩ :=
      @closing_completes cfg sha256 (l.sent ({ l.client with phase := .acknowledging r x },
        some (.delete x.recordingId))) r x rfl (waiting_sent h.numbered) hrunning
        (fun m' hm' => (hsettled m' (hknown ▸ hm')).1) now
    refine ⟨l', x, ?_, hphase, hid.symm, ?_, hnone, hrunning', hid ▸ hgone⟩
    · rw [uninterrupted, hreceipt, if_neg (Option.some_ne_none x)]
      exact (run_client hcall).trans hrun
    · rw [hdestination]
      exact hcommitted
  | none =>
    obtain ⟨hget, hready, format, bytes, hmem⟩ :=
      hpending.resolve_right (not_not.mpr hreceipt)
    -- the manifest describes its file, which is within the bound
    rw [hknown] at hget
    obtain ⟨hmedia, -⟩ := State.mem_of_get hget
    obtain ⟨htype, hlength, hdigest⟩ := h.bridge.memory m hmedia hready format bytes hmem
    obtain rfl := Option.some.inj (hbytes.symm.trans hlength)
    have hchecked := h.checked _ m rfl (hknown ▸ hget)
    obtain ⟨name, hname, hformat⟩ := nameOf_eq_ok hchecked htype hbytes
      (length_pos_of_starts (h.bridge.started _ _ _ hmem)) hle (hdigest ▸ rfl)
      (h.bridge.dated m (.inl hmedia) hready)
    -- the key still leads to the recording, as it was not retired
    have howned : (r.idempotencyKey, m.recordingId) ∈ l.bridge.state.idempotency := by
      rcases (h.owned _ rfl).2 with hmem | ⟨before, t, after, hacks, -, hid, -⟩
      · exact hknown ▸ hmem
      · refine absurd ?_ (h.bridge.known.consistent.retired t
          (hacks ▸ List.mem_append_right _ List.mem_cons_self))
        rw [hid, hknown]
        exact State.mem_ids hmedia
    -- the pull asks for the recording
    have hcall : l.client.advance sha256 (.call r) =
        some ({ l.client with phase := .creating r }, some (.create r)) := by
      simp only [Consumer.advance, hidle, if_pos, recoverReceipt,
        Consumer.receipt_eq_none.mp hreceipt]
    -- opening, transfer and closing, one after the other
    obtain ⟨l₁, hrun₁, hnumbered₁, hclient₁, hcalls₁, hwait₁, hb₁, hrunning₁, hget₁, hmem₁⟩ :=
      @opening_completes cfg sha256 (l.sent ({ l.client with phase := .creating r },
        some (.create r))) m format bytes r name newId now scan live hcfg h.numbered.sent rfl
        (waiting_sent h.numbered) h.bridge hrunning howned hget hready hmem hrequest
          hchecked hname hcan
    obtain ⟨l₂, x, hrun₂, hphase₂, hid, -, hcommitted, hcalls₂, hwait₂, hbridge₂⟩ :=
      transfer_completes hnumbered₁ (hclient₁ ▸ rfl) hwait₁ hrunning₁ hb₁.toDescribed hget₁ hready
        hmem₁ hle hformat
    obtain ⟨l', hrun₃, hphase, hdestination, hnone, hrunning', hgone⟩ :=
      @closing_completes cfg sha256 l₂ r x hphase₂ hwait₂ (hbridge₂ ▸ hrunning₁)
        (fun m' hm' => by
          rw [hbridge₂, hid, hget₁] at hm'
          exact Option.some.inj hm' ▸ inactive_of_ready hready) now
    refine ⟨l', x, ?_, hphase, hid, ?_, hnone, hrunning', hid ▸ hgone⟩
    -- the numbers of the three parts follow each other
    · rw [uninterrupted, hreceipt, if_pos rfl]
      have hfirst : l.calls + 2 = l₁.calls := hcalls₁.symm
      have hsecond : l.calls + 3 = l₂.calls := by rw [hcalls₂, ← hfirst]
      have hopened : EventSystem.run (handoffStep cfg sha256)
          (l.sent ({ l.client with phase := .creating r }, some (.create r)))
          (opening r (l.calls + 1) newId now scan live) = some l₁ := hrun₁
      refine (run_client hcall).trans ?_
      rw [EventSystem.run_append, hopened, Option.bind_some, EventSystem.run_append, hfirst, hrun₂,
        Option.bind_some, hsecond, hrun₃]
    · rw [hdestination]
      exact hcommitted

/-! ### The hand-over -/

/-- No recording is known under the key, and no pull under it has begun. -/
theorem handoff_fresh (hb : b.Orderly cfg sha256) (hunheld : ¬ b.known.Holds key)
    (hidle : c.phase = .idle) (hnone : c.receipt key = none) :
    Handoff cfg sha256 key none 0 { client := c, bridge := b } where
  bridge := hb
  numbered := ⟨fun _ he => (nomatch he), fun _ he => (nomatch he)⟩
  unheld _ := hunheld
  owned _ hid := nomatch hid
  checked _ _ hid := nomatch hid
  stocked _ _ hid := nomatch hid
  requests _ he := nomatch he
  replies _ he := nomatch he
  receipt _ hx := nomatch hnone.symm.trans hx
  phase := by
    rw [hidle]
    trivial

/-- **The hand-over of a recording, in every run.** `l` is any state of a run in which `pull` is
called again and again under a key that was new, with crashes of the process and of the bridge,
messages that are lost or late, and fewer than 4096 acknowledgements of others.

* Media of the `ready` recording under the key leave the spool only while there is a receipt, and
  with it a file of the manifest's size and digest.
* No other recording is ever created under the key.
* A pull that has ended well names a file of its size and digest.
* From any later state before the removal of a receipt in which the bridge is running and no pull is
  going on, one pull that is not interrupted ends well if the recording is `ready` in `l` and within
  the bound: the file is there, the recording is acknowledged, and the receipt is gone. -/
theorem recording_handed_over {before : List Recordings.Event} {b₀ : Manager} {c₀ : Consumer}
    {events : List (LinkEvent PullEvent)} (hcfg : cfg.Bounded)
    (hbefore : EventSystem.run (Manager.step cfg sha256) {} before = some b₀)
    (hpersists : ∀ e ∈ before, Manager.persists e) (hunheld : ¬ b₀.known.Holds key)
    (hidle : c₀.phase = .idle) (hnone : c₀.receipt key = none)
    (hok : EventSystem.Steps (handoffStep cfg sha256) (Meanwhile key)
      { client := c₀, bridge := b₀ } events)
    (hrun : EventSystem.run (handoffStep cfg sha256) { client := c₀, bridge := b₀ } events = some l)
    (hfew : EventSystem.spent (handoffStep cfg sha256) others
      { client := c₀, bridge := b₀ } events <
      maxAckTombstones) :
    (∀ event l' id m format bytes, Meanwhile key l event →
      handoffStep cfg sha256 l event = some l' → (key, id) ∈ l.bridge.known.idempotency →
      l.bridge.known.get id = some m → m.status = .ready →
      (SpoolFile.media id format, bytes) ∈ l.bridge.directory →
      (SpoolFile.media id format, bytes) ∉ l'.bridge.directory →
        ∃ x file, l.client.receipt key = some x ∧ x.recordingId = id ∧
          Keyed.lookup Prod.fst l.client.destination x.path = some (x.path, file) ∧
          m.bytes = some file.length ∧ m.sha256 = some (sha256 file)) ∧
    (∀ later l' id id', EventSystem.Steps (handoffStep cfg sha256) (Meanwhile key) l later →
      EventSystem.run (handoffStep cfg sha256) l later = some l' →
      EventSystem.spent (handoffStep cfg sha256) others { client := c₀, bridge := b₀ } events +
        EventSystem.spent (handoffStep cfg sha256) others l later < maxAckTombstones →
      (key, id) ∈ l.bridge.known.idempotency → (key, id') ∈ l'.bridge.known.idempotency →
        id = id') ∧
    (∀ r x, l.client.phase = .finished r (.ok x) →
      ∃ file, Keyed.lookup Prod.fst l.client.destination x.path = some (x.path, file) ∧
        file.length = x.bytes ∧ sha256 file = x.sha256) ∧
    ∀ m k r later l', (key, m.recordingId) ∈ l.bridge.known.idempotency →
      l.bridge.known.get m.recordingId = some m → m.status = .ready → m.bytes = some k →
      k ≤ r.maxBytes → r.idempotencyKey = key → m.request = r.asks →
      EventSystem.Steps (handoffStep cfg sha256)
        (fun t event => Meanwhile key t event ∧ event ≠ .client .remove) l later →
      EventSystem.run (handoffStep cfg sha256) l later = some l' →
      EventSystem.spent (handoffStep cfg sha256) others { client := c₀, bridge := b₀ } events +
        EventSystem.spent (handoffStep cfg sha256) others l later < maxAckTombstones →
      l'.client.phase.request? = none → l'.bridge.running = true →
      ∀ newId now scan live, l'.bridge.canEnqueue newId scan →
        ∃ l'' x, EventSystem.run (handoffStep cfg sha256) l'
            (uninterrupted l' r newId now scan live) = some l'' ∧
          l''.client.phase = .finished r (.ok x) ∧ x.recordingId = m.recordingId ∧
          Committed sha256 l''.client.destination x ∧ l''.client.receipt key = none ∧
          l''.bridge.running = true ∧ l''.bridge.state.get m.recordingId = none := by
  -- the bridge is in order before the first pull
  have horderly := Manager.orderly_run hcfg Manager.orderly_fresh hpersists hbefore
  have hfresh := handoff_fresh horderly hunheld hidle hnone
  rw [← Nat.zero_add (EventSystem.spent (handoffStep cfg sha256) others
    { client := c₀, bridge := b₀ } events)] at hfew ⊢
  obtain ⟨own, -, h⟩ := handoff_run hcfg hfresh hok hrun hfew
  refine ⟨?_, ?_, ?_, ?_⟩
  -- media disappear only with a receipt
  · intro event l' id m format bytes hevent hstep hkey hget hready hmem hgone
    have hown := h.own_of_mem hkey
    cases hreceipt : l.client.receipt key with
    | none => exact absurd (media_kept hcfg h hevent hown hget hready hmem hreceipt hstep) hgone
    | some x =>
      obtain ⟨⟨hid, hsettled⟩, file, hlookup, hlength, hdigest, -⟩ := h.receipt x hreceipt
      obtain rfl := Option.some.inj (hown.symm.trans hid)
      obtain ⟨hbytes, hsha⟩ := (hsettled m hget).2 hready
      exact ⟨x, file, rfl, rfl, hlookup, hlength ▸ hbytes, hdigest ▸ hsha⟩
  -- one key, one recording
  · intro later l' id id' hok' hrun' hfew' hkey hkey'
    obtain ⟨own', hown', h'⟩ := handoff_run hcfg h hok' hrun' hfew'
    have hid := hown' id (h.own_of_mem hkey)
    exact Option.some.inj (hid.symm.trans (h'.own_of_mem hkey'))
  -- what the pull has handed over is on the disk
  · intro r x hphase
    have hstands := h.phase
    rw [hphase] at hstands
    obtain ⟨file, hlookup, hlength, hdigest, -⟩ := hstands x rfl
    exact ⟨file, hlookup, hlength, hdigest⟩
  -- from a recording that is ready, any later state at rest completes
  · intro m k r later l' hkey hget hready hbytes hle hr hrequest hok' hrun' hfew' hidle' hrunning'
      newId now scan live hcan
    obtain rfl := h.own_of_mem hkey
    have hpending : Pending key m l :=
      (h.stocked _ m rfl hget hready).imp_left fun hstocked => ⟨hget, hready, hstocked⟩
    obtain ⟨h', hpending'⟩ := pending_run hcfg h hpending hok' hrun' hfew'
    exact pull_completes hcfg h' hpending' hidle' hrunning' hr hrequest hbytes hle hcan

def sampleRequest : PullRequest :=
  { camera := "front", durationSeconds := 10, sdInterval := none, idempotencyKey := "request-0001",
    maxBytes := 1024 }

/-- The recording becomes `ready`, and its file is renamed. -/
def sampleInterrupted : List (LinkEvent PullEvent) :=
  [.client (.call sampleRequest), .serve 1 (.start 1 1 (.ok []) .ok), .deliver,
    .bridge (.spawn 1), .bridge (.begin 1 .ok), .bridge (.create 1 none),
    .bridge (.receive 1 [0x00, 0x00, 0x01, 0xba, 1, 2, 3, 4] 2 true none), .bridge (.flush 1 none),
    .bridge (.publish 1 none), .bridge (.complete 1 3 10), .bridge (.record 1 4 .ok),
    .client .poll, .serve 2 .read, .deliver, .serve 3 .read, .deliver, .client .rename,
    .client .crash]

/-- Its manifest. -/
def sampleManifest : RecordingManifest :=
  (RecordingManifest.pending 1 1 "front" 10).publish Manager.sampleSha256
    { startedAt := 2, bytes := 8, digest := [0x00, 0x00, 0x01, 0xba, 1, 2, 3, 4],
      format := .mpegPs } 3 10

/-- A hand-over that is interrupted by crashes and completed by one more pull. -/
theorem recording_handed_over_sample :
    ∃ l l' x, EventSystem.run (handoffStep Manager.sampleConfig Manager.sampleSha256)
        { client := {}, bridge := { running := true, journal := some {} } } sampleInterrupted =
          some l ∧
      l.client.phase = .idle ∧
      EventSystem.run (handoffStep Manager.sampleConfig Manager.sampleSha256) l
        (uninterrupted l sampleRequest 2 9
          (.ok [(.media 1 .mpegPs, [0x00, 0x00, 0x01, 0xba, 1, 2, 3, 4])]) false) = some l' ∧
      l'.client.phase = .finished sampleRequest (.ok x) ∧ l'.bridge.state.get 1 = none := by
  have hcfg : Manager.sampleConfig.Bounded := ⟨by decide, by decide⟩
  have hbefore : EventSystem.run (Manager.step Manager.sampleConfig Manager.sampleSha256) {}
      [.restart 0 .ok] = some { running := true, journal := some {} } := rfl
  have hok : EventSystem.Steps (handoffStep Manager.sampleConfig Manager.sampleSha256)
      (Meanwhile "request-0001") { client := {}, bridge := { running := true, journal := some {} } }
      sampleInterrupted := by
    refine .of_forall fun event hevent l => ?_
    simp only [sampleInterrupted, List.mem_cons, List.not_mem_nil, or_false] at hevent
    rcases hevent with rfl | rfl | rfl | rfl | rfl | rfl | rfl | rfl | rfl | rfl | rfl | rfl | rfl |
      rfl | rfl | rfl | rfl | rfl
    all_goals trivial
  have hfew : EventSystem.spent (handoffStep Manager.sampleConfig Manager.sampleSha256) others
      { client := {}, bridge := { running := true, journal := some {} } }
      sampleInterrupted = 0 := by
    decide +kernel
  obtain ⟨l, hl, hphase, hrunning, hcan, hget, hkey⟩ :
      ∃ l ∈ EventSystem.run (handoffStep Manager.sampleConfig Manager.sampleSha256)
          { client := {}, bridge := { running := true, journal := some {} } } sampleInterrupted,
        l.client.phase = .idle ∧ l.bridge.running = true ∧
        l.bridge.canEnqueue 2 (.ok [(.media 1 .mpegPs, [0x00, 0x00, 0x01, 0xba, 1, 2, 3, 4])]) ∧
        l.bridge.known.get 1 = some sampleManifest ∧
        ("request-0001", 1) ∈ l.bridge.known.idempotency := by
    decide +kernel
  -- the key is new
  have hunheld : ¬ State.Holds {} "request-0001" := by
    rintro (⟨_, he, -⟩ | ⟨_, ht, -⟩)
    · exact nomatch he
    · exact nomatch ht
  have hsame : EventSystem.run (handoffStep Manager.sampleConfig Manager.sampleSha256) l
      [] = some l :=
    rfl
  have hfew' : 0 + EventSystem.spent
      (handoffStep Manager.sampleConfig Manager.sampleSha256) others l [] <
      maxAckTombstones := Nat.zero_lt_succ _
  -- the bound on the tombstones is far away
  rw [← hfew] at hfew'
  obtain ⟨-, -, -, hcompletes⟩ := recording_handed_over hcfg hbefore (by simp [Manager.persists])
    hunheld rfl rfl hok hl (hfew ▸ by decide)
  obtain ⟨l', x, hrun, hfinished, -, -, -, -, hgone⟩ :=
    hcompletes sampleManifest 8 sampleRequest [] l
    hkey hget rfl rfl (by decide) rfl rfl trivial hsame hfew'
      (hphase ▸ rfl) hrunning 2 9 _ false hcan
  exact ⟨l, l', x, hl, hphase, hrun, hfinished, hgone⟩

end SceneTrove

end EzvizBridge
