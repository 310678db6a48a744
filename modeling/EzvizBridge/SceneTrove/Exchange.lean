import EzvizBridge.SceneTrove.Link
import EzvizBridge.Recordings.Custody

/-!
# What one step of the exchange can do

* `serve_cases` — the bridge runs at most one operation for a request, and what its reply says is
  true of its state;
* `Link.step_cases` — the client moves, by itself or on a reply; the bridge handles a request; or
  the bridge moves by itself.

Requests are numbered, so the reply that a client waits for belongs to its last request
(`Link.Numbered`).
-/

namespace EzvizBridge

namespace SceneTrove

open Recordings

/-! ### Handlers -/

/-- The operation that a handler runs. -/
inductive Operates : Request → Handling → Recordings.Event → Prop
  | start {r id now scan persist} : r.sdInterval = none →
      Operates (.create r) (.start id now scan persist)
        (.start r.camera r.durationSeconds r.idempotencyKey id now scan persist)
  | probe {r start stop live} : r.sdInterval = some (start, stop) →
      Operates (.create r) (.probe live) (.probeSd ⟨r.camera, start, stop, r.idempotencyKey⟩ live)
  | startSd {r start stop id now scan persist} : r.sdInterval = some (start, stop) →
      Operates (.probed r) (.startSd id now scan persist)
        (.startSd ⟨r.camera, start, stop, r.idempotencyKey⟩ id now scan persist)
  | acknowledge {id now faults} :
      Operates (.delete id) (.acknowledge now faults) (.acknowledge id now faults)

/-- What a handler does. -/
inductive Served (cfg : Config) (sha256 : Sha256) (bridge : Manager) :
    Request → Handling → Manager → Request ⊕ Reply → Prop
  | refused {request handling bridge' status} :
      bridge' = bridge ∨
        (∃ e, Operates request handling e ∧ bridge.step cfg sha256 e = some bridge') →
      Served cfg sha256 bridge request handling bridge' (.inr (.refused status))
  | probed {r start stop live bridge' e} : Operates (.create r) (.probe live) e →
      r.sdInterval = some (start, stop) → checkInterval cfg r.camera start stop = .ok () →
      bridge.step cfg sha256 e = some bridge' →
      Served cfg sha256 bridge (.create r) (.probe live) bridge' (.inl (.probed r))
  | found {request r handling bridge' e m} : request = .create r ∨ request = .probed r →
      Operates request handling e → bridge.step cfg sha256 e = some bridge' →
      bridge'.running = true → (r.idempotencyKey, m.recordingId) ∈ bridge'.state.idempotency →
      bridge'.state.get m.recordingId = some m →
      Served cfg sha256 bridge request handling bridge' (.inr (.manifest m))
  | status {id m} : bridge.running = true → bridge.state.get id = some m →
      Served cfg sha256 bridge (.status id) .read bridge (.inr (.manifest m))
  | media {id mediaType bytes} :
      Served cfg sha256 bridge (.media id) .read bridge (.inr (.media mediaType bytes))
  | deleted {id now faults bridge'} :
      bridge.step cfg sha256 (.acknowledge id now faults) = some bridge' →
      bridge'.running = true → bridge'.state.get id = none →
      Served cfg sha256 bridge (.delete id) (.acknowledge now faults) bridge' (.inr .noContent)

variable {cfg : Config} {sha256 : Sha256} {b b' : Manager}

/-- A request that is answered with an earlier recording: it has the key, and it is there. -/
theorem admission_found {state : State} {key : String} {m found : RecordingManifest}
    {exclusive : Bool} {spool : Except BridgeError ℕ}
    (h : admission cfg state key m exclusive spool = .ok (some found)) :
    (key, found.recordingId) ∈ state.idempotency ∧ state.get found.recordingId = some found := by
  -- the request, its key, and what is there under the key
  unfold admission at h
  split at h
  · cases h
  split at h
  · cases h
  split at h
  · rename_i key' id hlookup
    obtain ⟨hmem, rfl⟩ := Keyed.mem_of_lookup hlookup
    split at h
    · cases h
    · rename_i first hget
      split_ifs at h
      obtain rfl := Option.some.inj (Except.ok.inj h)
      obtain ⟨-, rfl⟩ := State.mem_of_get hget
      exact ⟨hmem, hget⟩
  · -- a new key is never answered with a recording
    split at h
    · cases h
    split at h
    · cases h
    split_ifs at h
    cases Except.ok.inj h

/-- A request that is answered with a recording: it has the key, and it is there from now on. -/
theorem enqueue_found {state : State} {key : String} {m found : RecordingManifest}
    {exclusive new : Bool} {spool : Except BridgeError ℕ} {persist : Persist}
    (h : (Recordings.enqueue cfg state key m exclusive spool persist).1 = .ok (found, new)) :
    (key, found.recordingId) ∈
        (Recordings.enqueue cfg state key m exclusive spool persist).2.2.idempotency ∧
      (Recordings.enqueue cfg state key m exclusive spool persist).2.2.get found.recordingId =
        some found := by
  -- the recording was there, or it has just been entered
  unfold Recordings.enqueue at h ⊢
  split at h
  · exact nomatch h
  · rename_i existing hadm
    obtain ⟨rfl, -⟩ := Prod.mk.inj (Except.ok.inj h)
    exact admission_found hadm
  · cases persist with
    | ok =>
      obtain ⟨rfl, -⟩ := Prod.mk.inj (Except.ok.inj h)
      exact ⟨Keyed.mem_insert.mpr (.inr rfl), State.get_enter_self⟩
    | failed => exact nomatch h

/-- The manager has the state of its `enqueue`. -/
theorem enqueue_state (cfg : Config) (b : Manager) (key : String) (m : RecordingManifest)
    (kind : JobKind) (scan : Except BridgeError Directory) (persist : Persist) :
    (b.enqueue cfg key m kind scan persist).state =
        (Recordings.enqueue cfg b.state key m (kind = .sd) (scan.map spoolBytes) persist).2.2 ∧
      (b.enqueue cfg key m kind scan persist).running = b.running := by
  unfold Manager.enqueue
  dsimp only
  rw [Manager.persisted_eq]
  exact ⟨rfl, rfl⟩

/-- `acknowledge` answers 204 when the recording is gone. -/
theorem acknowledge_gone {state : State} {d : Directory} {id : Uuid} {now : Timestamp}
    {faults : AckFaults} {found : Bool}
    (h : (Recordings.acknowledge state d id now faults).1 = .ok found) :
    (Recordings.acknowledge state d id now faults).2.2.1.get id = none := by
  -- the recording was gone before, or it goes now
  unfold Recordings.acknowledge at h ⊢
  split at h
  · rename_i hnone
    exact hnone
  · dsimp only at h ⊢
    split_ifs at h ⊢
    · split at h
      · exact nomatch h
      · exact nomatch h
      · exact State.get_release_self
    · exact State.get_release_self

/-- **What a handler can do.** -/
theorem serve_cases {request : Request} {handling : Handling} {rest : Request ⊕ Reply}
    (h : serve cfg sha256 b request handling = some (b', rest)) :
    Served cfg sha256 b request handling b' rest := by
  unfold serve at h
  -- the handlers one after the other: start, probe, microSD start, status, media, delete
  split at h
  case h_1 r id now scan persist =>
    split at h
    · exact nomatch h
    · rename_i hlive
      obtain ⟨t, hstep, heq⟩ := Option.map_eq_some_iff.mp h
      obtain ⟨rfl, rfl⟩ := Prod.mk.inj heq
      have hop : Operates (.create r) (.start id now scan persist) _ := .start hlive
      cases hcheck : checkStart cfg r.camera r.durationSeconds with
      | error error => exact .refused (.inr ⟨_, hop, hstep⟩)
      | ok =>
        dsimp only
        cases hreply : (Recordings.enqueue cfg b.state r.idempotencyKey
            (.pending id now r.camera r.durationSeconds) false (scan.map spoolBytes) persist).1 with
        | error error => exact .refused (.inr ⟨_, hop, hstep⟩)
        | ok result =>
          -- the manager has run the same `enqueue`
          have hnext := hstep
          simp only [Manager.step, hcheck] at hnext
          obtain ⟨hcan, rfl⟩ := EventSystem.guarded hnext
          obtain ⟨hstate, hrunning⟩ := enqueue_state cfg b r.idempotencyKey
            (.pending id now r.camera r.durationSeconds) .live scan persist
          obtain ⟨hmem, hget⟩ := enqueue_found hreply
          refine .found (.inl rfl) hop hstep (hrunning.trans hcan.1) ?_ ?_
          · rw [hstate]
            exact hmem
          · rw [hstate]
            exact hget
  case h_2 r live =>
    split at h
    · exact nomatch h
    · rename_i start stop hsd
      have hop : Operates (.create r) (.probe live) _ := .probe hsd
      split at h
      · obtain ⟨-, heq⟩ := EventSystem.guarded h
        obtain ⟨rfl, rfl⟩ := Prod.mk.inj heq
        exact .refused (.inl rfl)
      · rename_i hinterval
        obtain ⟨t, hstep, heq⟩ := Option.map_eq_some_iff.mp h
        obtain ⟨rfl, rfl⟩ := Prod.mk.inj heq
        split
        · exact .refused (.inr ⟨_, hop, hstep⟩)
        · exact .probed hop hsd hinterval hstep
  case h_3 r id now scan persist =>
    split at h
    · exact nomatch h
    · rename_i start stop hsd
      obtain ⟨t, hstep, heq⟩ := Option.map_eq_some_iff.mp h
      obtain ⟨rfl, rfl⟩ := Prod.mk.inj heq
      have hop : Operates (.probed r) (.startSd id now scan persist) _ := .startSd hsd
      cases hreply : (Recordings.enqueue cfg b.state r.idempotencyKey
          (.pendingSd id now r.camera start stop) true (scan.map spoolBytes) persist).1 with
      | error error => exact .refused (.inr ⟨_, hop, hstep⟩)
      | ok result =>
        have hnext := hstep
        simp only [Manager.step] at hnext
        obtain ⟨⟨hcan, -⟩, rfl⟩ := EventSystem.guarded hnext
        obtain ⟨hstate, hrunning⟩ := enqueue_state cfg
          { b with probed := b.probed.erase ⟨r.camera, start, stop, r.idempotencyKey⟩ }
          r.idempotencyKey (.pendingSd id now r.camera start stop) .sd scan persist
        obtain ⟨hmem, hget⟩ := enqueue_found hreply
        refine .found (.inr rfl) hop hstep (hrunning.trans hcan.1) ?_ ?_
        · rw [hstate]
          exact hmem
        · rw [hstate]
          exact hget
  case h_4 id =>
    obtain ⟨hrunning, heq⟩ := EventSystem.guarded h
    obtain ⟨rfl, rfl⟩ := Prod.mk.inj heq
    unfold readManifest
    split
    · exact .refused (.inl rfl)
    · rename_i hget
      exact .status hrunning hget
  case h_5 id =>
    obtain ⟨-, heq⟩ := EventSystem.guarded h
    obtain ⟨rfl, rfl⟩ := Prod.mk.inj heq
    unfold readMedia
    split
    · exact .refused (.inl rfl)
    · split
      · split
        · exact .refused (.inl rfl)
        · exact .media
      · exact .refused (.inl rfl)
  case h_6 id now faults =>
    obtain ⟨t, hstep, heq⟩ := Option.map_eq_some_iff.mp h
    obtain ⟨rfl, rfl⟩ := Prod.mk.inj heq
    cases hreply : (Recordings.acknowledge b.state b.directory id now faults).1 with
    | error error => exact .refused (.inr ⟨_, .acknowledge, hstep⟩)
    | ok found =>
      have hnext := hstep
      simp only [Manager.step] at hnext
      obtain ⟨hrunning, rfl⟩ := EventSystem.guarded hnext
      refine .deleted hstep ?_ ?_
      · rw [Manager.persisted_eq]
        exact hrunning
      · rw [Manager.persisted_eq]
        exact acknowledge_gone hreply
  case h_7 =>
    obtain ⟨-, heq⟩ := EventSystem.guarded h
    obtain ⟨rfl, rfl⟩ := Prod.mk.inj heq
    exact .refused (.inl rfl)
  case h_8 => exact nomatch h

/-- A handler runs at most one operation. -/
theorem Served.operates {request : Request} {handling : Handling} {rest : Request ⊕ Reply}
    (h : Served cfg sha256 b request handling b' rest) :
    b' = b ∨ ∃ e, Operates request handling e ∧ b.step cfg sha256 e = some b' := by
  cases h with
  | refused hcase => exact hcase
  | probed hop _ _ hstep => exact .inr ⟨_, hop, hstep⟩
  | found _ hop hstep => exact .inr ⟨_, hop, hstep⟩
  | status => exact .inl rfl
  | media => exact .inl rfl
  | deleted hstep => exact .inr ⟨_, .acknowledge, hstep⟩

/-! ### The consumer -/

/-- What the process does by itself. -/
inductive Advances (sha256 : Sha256) (c : Consumer) :
    PullEvent → Consumer → Option Request → Prop
  | stuck {r fault} : c.phase.request? = none → Advances sha256 c (.call r)
      { c with phase := .finished r (.broken fault) } none
  | recover {r x} : c.phase.request? = none →
      Keyed.lookup Prod.fst c.receipts r.idempotencyKey = some (r.idempotencyKey, x) →
      verifyCommitted sha256 c.destination x = .ok () → Advances sha256 c (.call r)
        { c with phase := .acknowledging r x } (some (.delete x.recordingId))
  | create {r} : c.phase.request? = none →
      Keyed.lookup Prod.fst c.receipts r.idempotencyKey = none → Advances sha256 c (.call r)
        { c with phase := .creating r } (some (.create r))
  | poll {r m} : c.phase = .polling r m →
      Advances sha256 c .poll { c with phase := .asking r } (some (.status m.recordingId))
  | deadline {r m} : c.phase = .polling r m →
      Advances sha256 c .deadline { c with phase := .finished r .deadline } none
  | rename {r x file} : c.phase = .downloaded r x file →
      Advances sha256 c .rename
        { c with
          destination := Keyed.insert Prod.fst c.destination (x.path, file)
          phase := .renamed r x } none
  | receipt {r x} : c.phase = .renamed r x →
      Advances sha256 c .receipt
        { c with
          receipts := Keyed.insert Prod.fst c.receipts (r.idempotencyKey, x)
          phase := .receipted r x } none
  | acknowledge {r x} : c.phase = .receipted r x →
      Advances sha256 c .acknowledge
        { c with phase := .acknowledging r x } (some (.delete x.recordingId))
  | remove {r x} : c.phase = .acknowledged r x →
      Advances sha256 c .remove
        { c with
          receipts := Keyed.remove Prod.fst c.receipts r.idempotencyKey
          phase := .closing r x } none
  | finish {r x} : c.phase = .closing r x →
      Advances sha256 c .finish { c with phase := .finished r (.ok x) } none
  | failed {r m fault} : c.phase = .releasing r m →
      Advances sha256 c (.fail fault) { c with phase := .finished r (.failed m) } none
  | broken {r fault} : c.phase.request? = some r → (∀ m, c.phase ≠ .releasing r m) →
      Advances sha256 c (.fail fault) { c with phase := .finished r (.broken fault) } none
  | crash : Advances sha256 c .crash { c with phase := .idle } none

/-- What the process does with a reply. -/
inductive Receives (sha256 : Sha256) (c : Consumer) : Reply → Consumer → Option Request → Prop
  | examine {r m} : c.phase = .creating r ∨ c.phase = .asking r →
      Receives sha256 c (.manifest m) { c with phase := (examine r m).1 } (examine r m).2
  | refused {r status} : c.phase = .creating r ∨ c.phase = .asking r →
      Receives sha256 c (.refused status) { c with phase := .finished r (.refused status) } none
  | released {r m reply} : c.phase = .releasing r m →
      Receives sha256 c reply { c with phase := .finished r (.failed m) } none
  | noMedia {r m name status fault} : c.phase = .fetching r m name →
      Receives sha256 c (.refused status) { c with phase := .finished r (.broken fault) } none
  | mismatch {r m name mediaType body fault} : c.phase = .fetching r m name →
      Receives sha256 c (.media mediaType body) { c with phase := .finished r (.broken fault) } none
  | download {r m name mediaType body x} : c.phase = .fetching r m name →
      download sha256 r m name mediaType body = .ok x →
      Receives sha256 c (.media mediaType body) { c with phase := .downloaded r x body } none
  | acknowledged {r x} : c.phase = .acknowledging r x →
      Receives sha256 c .noContent { c with phase := .acknowledged r x } none
  | unacknowledged {r x status fault} : c.phase = .acknowledging r x →
      Receives sha256 c (.refused status) { c with phase := .finished r (.broken fault) } none

/-- The file is named after its recording, and the pull looks for the type of the manifest. -/
theorem nameOf_fields {r : PullRequest} {m : RecordingManifest} {name : MediaName}
    (h : nameOf r m = .ok name) :
    name.id = m.recordingId ∧ MediaFormat.fromMediaType m.mediaType = some name.format := by
  -- the checks of the name, and then the format
  unfold nameOf at h
  split at h
  · exact nomatch h
  · split_ifs at h
    split at h
    · exact nomatch h
    · exact nomatch h
    · split at h
      · exact nomatch h
      · exact nomatch h
      · rename_i hformat
        obtain rfl := Except.ok.inj h
        exact ⟨rfl, hformat⟩

variable {c c' : Consumer}

/-- **What the process can do by itself.** -/
theorem advance_cases {event : PullEvent} {request : Option Request}
    (h : c.advance sha256 event = some (c', request)) : Advances sha256 c event c' request := by
  unfold Consumer.advance at h
  -- the events one after the other
  split at h
  case h_1 r =>
    split_ifs at h with hphase
    unfold recoverReceipt at h
    -- a receipt that is there is verified, and without one the recording is requested
    cases hlookup : Keyed.lookup Prod.fst c.receipts r.idempotencyKey with
    | none =>
      rw [hlookup] at h
      obtain ⟨rfl, rfl⟩ := Prod.mk.inj (Option.some.inj h)
      exact .create hphase hlookup
    | some entry =>
      obtain ⟨key, x⟩ := entry
      obtain ⟨-, rfl⟩ := Keyed.mem_of_lookup hlookup
      rw [hlookup] at h
      cases hverify : verifyCommitted sha256 c.destination x with
      | error fault =>
        simp only [hverify, Except.map] at h
        obtain ⟨rfl, rfl⟩ := Prod.mk.inj (Option.some.inj h)
        exact .stuck hphase
      | ok =>
        simp only [hverify, Except.map] at h
        obtain ⟨rfl, rfl⟩ := Prod.mk.inj (Option.some.inj h)
        exact .recover hphase hlookup hverify
  case h_9 fault =>
    split at h
    · rename_i hphase
      obtain ⟨rfl, rfl⟩ := Prod.mk.inj (Option.some.inj h)
      exact .failed hphase
    · rename_i hrequest hphase
      obtain ⟨rfl, rfl⟩ := Prod.mk.inj (Option.some.inj h)
      exact .broken hrequest fun m => hphase _ m
    · exact nomatch h
  case h_10 =>
    obtain ⟨rfl, rfl⟩ := Prod.mk.inj (Option.some.inj h)
    exact .crash
  all_goals
    split at h
    · rename_i hphase
      obtain ⟨rfl, rfl⟩ := Prod.mk.inj (Option.some.inj h)
      first
      | exact .poll hphase
      | exact .deadline hphase
      | exact .rename hphase
      | exact .receipt hphase
      | exact .acknowledge hphase
      | exact .remove hphase
      | exact .finish hphase
    · exact nomatch h

/-- **What the process can do with a reply.** -/
theorem receive_cases {reply : Reply} {request : Option Request}
    (h : c.receive sha256 reply = some (c', request)) : Receives sha256 c reply c' request := by
  unfold Consumer.receive at h
  -- the phase in which a reply arrives decides what it means
  split at h
  case h_1 hphase =>
    obtain ⟨rfl, rfl⟩ := Prod.mk.inj (Option.some.inj h)
    exact .examine (.inl hphase)
  case h_2 hphase =>
    obtain ⟨rfl, rfl⟩ := Prod.mk.inj (Option.some.inj h)
    exact .examine (.inr hphase)
  case h_3 hphase =>
    obtain ⟨rfl, rfl⟩ := Prod.mk.inj (Option.some.inj h)
    exact .refused (.inl hphase)
  case h_4 hphase =>
    obtain ⟨rfl, rfl⟩ := Prod.mk.inj (Option.some.inj h)
    exact .refused (.inr hphase)
  case h_5 hphase =>
    obtain ⟨rfl, rfl⟩ := Prod.mk.inj (Option.some.inj h)
    exact .released hphase
  case h_6 hphase =>
    obtain ⟨rfl, rfl⟩ := Prod.mk.inj (Option.some.inj h)
    exact .released hphase
  case h_7 hphase =>
    obtain ⟨rfl, rfl⟩ := Prod.mk.inj (Option.some.inj h)
    exact .noMedia hphase
  case h_8 hphase =>
    split at h
    · obtain ⟨rfl, rfl⟩ := Prod.mk.inj (Option.some.inj h)
      exact .mismatch hphase
    · rename_i hdownload
      obtain ⟨rfl, rfl⟩ := Prod.mk.inj (Option.some.inj h)
      exact .download hphase hdownload
  case h_9 hphase =>
    obtain ⟨rfl, rfl⟩ := Prod.mk.inj (Option.some.inj h)
    exact .acknowledged hphase
  case h_10 hphase =>
    obtain ⟨rfl, rfl⟩ := Prod.mk.inj (Option.some.inj h)
    exact .unacknowledged hphase
  case h_11 => exact nomatch h

/-! ### The two parties -/

namespace Link

variable {σ ε : Type} {advance : σ → ε → Option (σ × Option Request)}
    {receive : σ → Reply → Option (σ × Option Request)} {l l' : Link σ} {next : σ × Option Request}

@[simp] theorem sent_client : (l.sent next).client = next.1 := by
  rcases next with ⟨c, _ | request⟩ <;> rfl

/-- A step of the client does not touch the bridge. -/
@[simp] theorem sent_bridge : (l.sent next).bridge = l.bridge := by
  rcases next with ⟨c, _ | request⟩ <;> rfl

/-- A step of the client does not touch the replies. -/
@[simp] theorem sent_replies : (l.sent next).replies = l.replies := by
  rcases next with ⟨c, _ | request⟩ <;> rfl

theorem calls_le_sent : l.calls ≤ (l.sent next).calls := by
  rcases next with ⟨c, _ | request⟩
  · exact le_rfl
  · exact Nat.le_succ _

/-- The requests after a step of the client. -/
theorem mem_sent_requests {e : ℕ × Request} :
    e ∈ (l.sent next).requests ↔
      e ∈ l.requests ∨ ∃ request, next.2 = some request ∧ e = (l.calls + 1, request) := by
  rcases next with ⟨c, _ | request⟩
  · simp [sent]
  · simp [sent]

/-- What one step can do. -/
inductive Moves (cfg : Config) (sha256 : Sha256) (advance : σ → ε → Option (σ × Option Request))
    (receive : σ → Reply → Option (σ × Option Request)) (l : Link σ) :
    LinkEvent ε → Link σ → Prop
  | client {event next} : advance l.client event = some next →
      Moves cfg sha256 advance receive l (.client event) (l.sent next)
  | deliver {reply next} : (l.calls, reply) ∈ l.replies → receive l.client reply = some next →
      Moves cfg sha256 advance receive l .deliver (l.sent next)
  | passed {call handling request bridge' request'} : (call, request) ∈ l.requests →
      Served cfg sha256 l.bridge request handling bridge' (.inl request') →
      Moves cfg sha256 advance receive l (.serve call handling)
        { l with
          bridge := bridge'
          requests := Keyed.insert Prod.fst l.requests (call, request') }
  | answered {call handling request bridge' reply} : (call, request) ∈ l.requests →
      Served cfg sha256 l.bridge request handling bridge' (.inr reply) →
      Moves cfg sha256 advance receive l (.serve call handling)
        { l with
          bridge := bridge'
          requests := Keyed.remove Prod.fst l.requests call
          replies := Keyed.insert Prod.fst l.replies (call, reply) }
  | bridge {event bridge'} : l.bridge.step cfg sha256 event = some bridge' →
      Moves cfg sha256 advance receive l (.bridge event) { l with bridge := bridge' }

/-- **What one step can do.** -/
theorem step_cases {e : LinkEvent ε} (h : l.step cfg sha256 advance receive e = some l') :
    Moves cfg sha256 advance receive l e l' := by
  unfold step at h
  -- a step of the client, a delivery, a handler, or a step of the bridge
  split at h
  case h_1 event =>
    obtain ⟨next, hnext, rfl⟩ := Option.map_eq_some_iff.mp h
    exact .client hnext
  case h_2 =>
    split at h
    · exact nomatch h
    · rename_i call reply hlookup
      obtain ⟨hmem, rfl⟩ := Keyed.mem_of_lookup hlookup
      obtain ⟨next, hnext, rfl⟩ := Option.map_eq_some_iff.mp h
      exact .deliver hmem hnext
  case h_3 call handling =>
    split at h
    · exact nomatch h
    · rename_i call' request hlookup
      obtain ⟨hmem, rfl⟩ := Keyed.mem_of_lookup hlookup
      split at h
      · exact nomatch h
      · rename_i hserve
        obtain rfl := Option.some.inj h
        exact .passed hmem (serve_cases hserve)
      · rename_i hserve
        obtain rfl := Option.some.inj h
        exact .answered hmem (serve_cases hserve)
  case h_4 event =>
    obtain ⟨bridge', hstep, rfl⟩ := Option.map_eq_some_iff.mp h
    exact .bridge hstep

/-- Every message has the number of a request that was sent. -/
structure Numbered (l : Link σ) : Prop where
  requests : ∀ e ∈ l.requests, e.1 ≤ l.calls
  replies : ∀ e ∈ l.replies, e.1 ≤ l.calls

/-- A new request has a new number. -/
theorem Numbered.sent (h : l.Numbered) : (l.sent next).Numbered := by
  refine ⟨?_, ?_⟩
  · intro e he
    rcases mem_sent_requests.mp he with he | ⟨request, hrequest, rfl⟩
    · exact (h.requests e he).trans calls_le_sent
    · rcases next with ⟨c, _ | request'⟩
      · exact nomatch hrequest
      · exact le_rfl
  · intro e he
    rw [sent_replies] at he
    exact (h.replies e he).trans calls_le_sent

/-- Every step keeps the numbers apart. -/
theorem numbered_step {e : LinkEvent ε} (h : l.Numbered)
    (hstep : l.step cfg sha256 advance receive e = some l') : l'.Numbered := by
  cases step_cases hstep with
  | client => exact h.sent
  | deliver => exact h.sent
  -- a handler answers under the number of its request
  | passed hmem =>
    have hcall := h.requests _ hmem
    refine ⟨fun e he => ?_, h.replies⟩
    rcases Keyed.mem_insert.mp he with ⟨he, -⟩ | rfl
    · exact h.requests e he
    · exact hcall
  | answered hmem =>
    have hcall := h.requests _ hmem
    refine ⟨fun e he => h.requests e (Keyed.mem_remove.mp he).1, fun e he => ?_⟩
    rcases Keyed.mem_insert.mp he with ⟨he, -⟩ | rfl
    · exact h.replies e he
    · exact hcall
  | bridge => exact ⟨h.requests, h.replies⟩

end Link

end SceneTrove

end EzvizBridge
