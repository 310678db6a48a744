import EzvizBridge.SceneTrove.Day
import EzvizBridge.SceneTrove.Handoff

/-!
# What the import of a day leaves behind

`pull_day` against the bridge itself (`Link Day`): any number of runs over one destination, with
crashes, lost and late messages, restarts of the bridge and other clients. `Cleared` says that
nothing is left behind: every file in the destination belongs to a recording that the bridge has
given up, and there is no receipt. The one exception is a pull between its rename and the removal of
its receipt.

If no pull is interrupted there, this holds in every run (`day_leaves_nothing`). If one is, the next
run finds the file, takes the clip for done, and does not call `pull` again: neither the receipt nor
the recording are ever seen to (`day_leaves_recording`).
-/

namespace EzvizBridge

namespace SceneTrove

open Recordings

variable {cfg : Config} {sha256 : Sha256} {template : PullRequest} {b b' : Manager}
    {l l' : Link Day} {id : Uuid}

/-- The pull is between its rename and the removal of its receipt. -/
def PullPhase.committing? : PullPhase → Option (PullRequest × PullResult)
  | .renamed r x | .receipted r x | .acknowledging r x | .acknowledged r x => some (r, x)
  | _ => none

/-- One event of the import and the bridge. -/
abbrev dayStep (cfg : Config) (sha256 : Sha256) (template : PullRequest) :
    Link Day → LinkEvent DayEvent → Option (Link Day) :=
  Link.step cfg sha256 (Day.advance sha256 template) (Day.receive sha256)

/-- The reply is an error. -/
def Reply.isRefused : Reply → Bool
  | .refused _ => true
  | _ => false

/-- An acknowledgement writes the journal. -/
def Handling.acksPersist : Handling → Prop
  | .acknowledge _ faults => faults.persist = .ok
  | _ => True

/-- The condition on the steps: a pull is not interrupted between its rename and the removal of its
receipt, and the acknowledgements of all clients are written to the journal. -/
def Undisturbed (l : Link Day) : LinkEvent DayEvent → Prop
  | .client .crash | .client (.pull (.fail _)) => l.client.consumer.phase.committing? = none
  | .client _ => True
  -- the DELETE is not refused
  | .deliver => l.client.consumer.phase.committing? = none ∨
      ∀ e ∈ l.replies, e.1 = l.calls → e.2.isRefused = false
  | .serve _ handling => handling.acksPersist
  | .bridge event => Manager.acksPersist event

instance (handling : Handling) : Decidable handling.acksPersist :=
  match handling with
  | .acknowledge _ faults => inferInstanceAs (Decidable (faults.persist = .ok))
  | .start .. | .probe .. | .startSd .. | .read | .unavailable _ => isTrue trivial

instance (event : Recordings.Event) : Decidable (Manager.acksPersist event) :=
  match event with
  | .acknowledge _ _ faults => inferInstanceAs (Decidable (faults.persist = .ok))
  | .start .. | .probeSd .. | .startSd .. | .spawn _ | .begin .. | .refuse .. | .create ..
  | .receive .. | .close _ | .flush .. | .publish .. | .timeout .. | .discard .. | .settle ..
  | .retract .. | .complete .. | .record .. | .crash | .restart .. => isTrue trivial

instance (l : Link Day) (event : LinkEvent DayEvent) : Decidable (Undisturbed l event) :=
  match event with
  | .client .crash | .client (.pull (.fail _)) =>
    inferInstanceAs (Decidable (l.client.consumer.phase.committing? = none))
  | .client (.start ..) | .client .next | .client .settle | .client (.pull (.call _))
  | .client (.pull .poll) | .client (.pull .deadline) | .client (.pull .rename)
  | .client (.pull .receipt) | .client (.pull .acknowledge) | .client (.pull .remove)
  | .client (.pull .finish) | .client (.pull .crash) => isTrue trivial
  | .deliver => inferInstanceAs (Decidable (l.client.consumer.phase.committing? = none ∨
      ∀ e ∈ l.replies, e.1 = l.calls → e.2.isRefused = false))
  | .serve _ handling => inferInstanceAs (Decidable handling.acksPersist)
  | .bridge event => inferInstanceAs (Decidable (Manager.acksPersist event))

/-! ### The invariant -/

/-- What the phase of the pull says about its recording. -/
def Tracks (l : Link Day) : PullPhase → Prop
  | .fetching _ m name => name.id = m.recordingId ∧ m.recordingId ∈ l.bridge.used
  | .downloaded _ x _ | .renamed _ x | .receipted _ x =>
    x.path.id = x.recordingId ∧ x.recordingId ∈ l.bridge.used
  | .acknowledging _ x => (x.path.id = x.recordingId ∧ x.recordingId ∈ l.bridge.used) ∧
      (∀ request, (l.calls, request) ∈ l.requests → request = .delete x.recordingId) ∧
      ((l.calls, Reply.noContent) ∈ l.replies → l.bridge.Dropped x.recordingId)
  | .acknowledged _ x => x.path.id = x.recordingId ∧ l.bridge.Dropped x.recordingId
  | _ => True

/-- Nothing is left behind, but for the pull that is going on. -/
structure Cleared (l : Link Day) : Prop where
  coherent : l.bridge.Coherent
  attuned : l.bridge.Attuned
  numbered : l.Numbered
  issued : ∀ call m, (call, Reply.manifest m) ∈ l.replies → m.recordingId ∈ l.bridge.used
  files : ∀ entry ∈ l.client.consumer.destination, l.bridge.Dropped entry.1.id ∨
    ∃ r x, l.client.consumer.phase.committing? = some (r, x) ∧ entry.1 = x.path
  receipts : ∀ entry ∈ l.client.consumer.receipts,
    ∃ r x, l.client.consumer.phase.committing? = some (r, x) ∧ entry.1 = r.idempotencyKey
  tracks : Tracks l l.client.consumer.phase
  resting : (∀ run record attempt, l.client.phase ≠ .pulling run record attempt) →
    l.client.consumer.phase.request? = none

theorem committing_eq_none {phase : PullPhase} (h : phase.request? = none) :
    phase.committing? = none := by
  cases phase with
  | idle | finished => rfl
  | _ => exact nomatch h

/-- A receipt is there only while its pull is committing. -/
theorem Cleared.no_receipts (h : Cleared l) (hphase : l.client.consumer.phase.committing? = none) :
    l.client.consumer.receipts = [] := by
  refine List.eq_nil_iff_forall_not_mem.mpr fun entry hentry => ?_
  obtain ⟨r, x, hcommitting, -⟩ := h.receipts entry hentry
  exact nomatch hphase.symm.trans hcommitting

/-- Otherwise every file is one of a recording that is gone. -/
theorem Cleared.dropped (h : Cleared l) (hphase : l.client.consumer.phase.committing? = none)
    {entry : MediaName × Bytes} (hentry : entry ∈ l.client.consumer.destination) :
    l.bridge.Dropped entry.1.id := by
  rcases h.files entry hentry with hdropped | ⟨r, x, hcommitting, -⟩
  · exact hdropped
  · exact nomatch hphase.symm.trans hcommitting

/-! ### The bridge -/

/-- What a step of the bridge keeps. -/
structure Advanced (b b' : Manager) : Prop where
  coherent : b'.Coherent
  attuned : b'.Attuned
  used : b.used ⊆ b'.used
  dropped : ∀ id, b.Dropped id → b'.Dropped id

/-- The bridge moves on, with or without a change to the messages. -/
theorem Cleared.onward (h : Cleared l) (hclient : l'.client = l.client)
    (hcalls : l'.calls = l.calls) (hb : Advanced l.bridge l'.bridge) (hnumbered : l'.Numbered)
    (hissued : ∀ call m, (call, Reply.manifest m) ∈ l'.replies → m.recordingId ∈ l'.bridge.used)
    (hacks : ∀ r x, l.client.consumer.phase = .acknowledging r x →
      (∀ request, (l.calls, request) ∈ l'.requests → request = .delete x.recordingId) ∧
      ((l.calls, Reply.noContent) ∈ l'.replies → l'.bridge.Dropped x.recordingId)) :
    Cleared l' where
  coherent := hb.coherent
  attuned := hb.attuned
  numbered := hnumbered
  issued := hissued
  files entry hentry := by
    rw [hclient] at hentry ⊢
    exact (h.files entry hentry).imp_left (hb.dropped _)
  receipts := hclient ▸ h.receipts
  -- what the client knows of its recording is only strengthened
  tracks := by
    have htracks := h.tracks
    rw [hclient]
    cases hphase : l.client.consumer.phase with
    | fetching => rw [hphase] at htracks; exact ⟨htracks.1, hb.used htracks.2⟩
    | downloaded | renamed | receipted =>
      rw [hphase] at htracks; exact ⟨htracks.1, hb.used htracks.2⟩
    -- the recording is still held until the DELETE is answered
    | acknowledging r x =>
      rw [hphase] at htracks
      obtain ⟨hrequests, hreplies⟩ := hacks r x hphase
      refine ⟨⟨htracks.1.1, hb.used htracks.1.2⟩, ?_, ?_⟩
      · rw [hcalls]
        exact hrequests
      · rw [hcalls]
        exact hreplies
    | acknowledged => rw [hphase] at htracks; exact ⟨htracks.1, hb.dropped _ htracks.2⟩
    | _ => trivial
  resting := hclient ▸ h.resting

theorem advanced_step {event : Recordings.Event} (h : Cleared l) (hok : Manager.acksPersist event)
    (hstep : l.bridge.step cfg sha256 event = some b') : Advanced l.bridge b' where
  coherent := Manager.coherent_step h.coherent hstep
  attuned := Manager.attuned_step h.coherent h.attuned hok hstep
  used := Manager.used_step hstep
  dropped _ hid := Manager.dropped_step h.coherent hid hstep

theorem advanced_served {request : Request} {handling : Handling} {rest : Request ⊕ Reply}
    (h : Cleared l) (hok : handling.acksPersist)
    (hserved : Served cfg sha256 l.bridge request handling b' rest) : Advanced l.bridge b' := by
  rcases hserved.operates with rfl | ⟨event, hop, hstep⟩
  · exact ⟨h.coherent, h.attuned, List.Subset.refl _, fun _ hid => hid⟩
  · refine advanced_step h ?_ hstep
    cases hop with
    | acknowledge => exact hok
    | start | probe | startSd => trivial

/-- The bridge moves by itself. -/
theorem cleared_bridge {event : Recordings.Event} (h : Cleared l) (hok : Manager.acksPersist event)
    (hstep : l.bridge.step cfg sha256 event = some b') : Cleared { l with bridge := b' } := by
  have hb := advanced_step h hok hstep
  refine h.onward ?_ ?_ hb ⟨h.numbered.requests, h.numbered.replies⟩
    (fun call m hm => hb.used (h.issued call m hm)) ?_
  · rfl
  · rfl
  · intro r x hphase
    have htracks := h.tracks
    rw [hphase] at htracks
    exact ⟨htracks.2.1, fun hm => hb.dropped _ (htracks.2.2 hm)⟩

/-- A request passes the first guard of `start_sd`. -/
theorem cleared_passed {call : ℕ} {request request' : Request} {handling : Handling} (h : Cleared l)
    (hok : handling.acksPersist) (hmem : (call, request) ∈ l.requests)
    (hserved : Served cfg sha256 l.bridge request handling b' (.inl request'))
    (hnumbered : Link.Numbered { l with
      bridge := b'
      requests := Keyed.insert Prod.fst l.requests (call, request') }) :
    Cleared { l with
      bridge := b'
      requests := Keyed.insert Prod.fst l.requests (call, request') } := by
  have hb := advanced_served h hok hserved
  -- only the messages and the bridge have changed
  refine h.onward ?_ ?_ hb hnumbered (fun call m hm => hb.used (h.issued call m hm)) ?_
  · rfl
  · rfl
  · intro r x hphase
    have htracks := h.tracks
    rw [hphase] at htracks
    obtain ⟨-, hrequests, hreplies⟩ := htracks
    refine ⟨?_, fun hm => hb.dropped _ (hreplies hm)⟩
    -- the requests of this call are DELETEs of its recording
    intro request'' hrequest
    rcases Keyed.mem_insert.mp hrequest with ⟨hrequest, -⟩ | heq
    · exact hrequests request'' hrequest
    · -- the last request is a DELETE, which has no second part
      obtain ⟨rfl, rfl⟩ := Prod.mk.inj heq
      obtain rfl := hrequests request hmem
      exact nomatch hserved

/-- A request is answered. -/
theorem cleared_answered {call : ℕ} {request : Request} {reply : Reply} {handling : Handling}
    (h : Cleared l) (hok : handling.acksPersist) (hmem : (call, request) ∈ l.requests)
    (hserved : Served cfg sha256 l.bridge request handling b' (.inr reply))
    (hnumbered : Link.Numbered { l with
      bridge := b'
      requests := Keyed.remove Prod.fst l.requests call
      replies := Keyed.insert Prod.fst l.replies (call, reply) }) :
    Cleared { l with
      bridge := b'
      requests := Keyed.remove Prod.fst l.requests call
      replies := Keyed.insert Prod.fst l.replies (call, reply) } := by
  have hb := advanced_served h hok hserved
  refine h.onward ?_ ?_ hb hnumbered ?_ ?_
  · rfl
  · rfl
  -- the manifests that were sent are of recordings that the bridge knows
  · intro call' m hm
    rcases Keyed.mem_insert.mp hm with ⟨hm, -⟩ | heq
    · exact hb.used (h.issued call' m hm)
    · -- a manifest that is sent is one of the state
      obtain ⟨-, rfl⟩ := Prod.mk.inj heq
      have hget : b'.state.get m.recordingId = some m := by
        cases hserved with
        | found _ _ _ _ _ hget => exact hget
        | status _ hget =>
          obtain ⟨-, rfl⟩ := State.mem_of_get hget
          exact hget
      refine hb.coherent.state.issued _ ?_
      exact List.mem_map_of_mem (State.mem_of_get hget).1
  -- the requests that are left are those of before
  · intro r x hphase
    have htracks := h.tracks
    rw [hphase] at htracks
    obtain ⟨⟨-, hissued⟩, hrequests, hreplies⟩ := htracks
    refine ⟨fun request' hrequest => hrequests request' (Keyed.mem_remove.mp hrequest).1, ?_⟩
    intro hm
    rcases Keyed.mem_insert.mp hm with ⟨hm, -⟩ | heq
    · exact hb.dropped _ (hreplies hm)
    · -- the DELETE is answered: the recording is not in memory, and so not in the journal
      obtain ⟨rfl, rfl⟩ := Prod.mk.inj heq
      obtain rfl := hrequests request hmem
      cases hserved with
      | deleted _ hrunning hnone =>
        exact ⟨hb.used hissued, hnone, hb.attuned hrunning _ hnone⟩

/-! ### The client -/

section

variable {d' : Day} {c' : Consumer} {message : Option Request} {phase : PullPhase}

/-- The client moves on, and may send a request. -/
theorem Cleared.sent (h : Cleared l)
    (hfiles : ∀ entry ∈ d'.consumer.destination, l.bridge.Dropped entry.1.id ∨
      ∃ r x, d'.consumer.phase.committing? = some (r, x) ∧ entry.1 = x.path)
    (hreceipts : ∀ entry ∈ d'.consumer.receipts,
      ∃ r x, d'.consumer.phase.committing? = some (r, x) ∧ entry.1 = r.idempotencyKey)
    (htracks : Tracks (l.sent (d', message)) d'.consumer.phase)
    (hresting : (∀ run record attempt, d'.phase ≠ .pulling run record attempt) →
      d'.consumer.phase.request? = none) : Cleared (l.sent (d', message)) where
  coherent := by
    rw [Link.sent_bridge]
    exact h.coherent
  attuned := by
    rw [Link.sent_bridge]
    exact h.attuned
  numbered := h.numbered.sent
  issued := by
    rw [Link.sent_bridge, Link.sent_replies]
    exact h.issued
  files := by
    rw [Link.sent_bridge, Link.sent_client]
    exact hfiles
  receipts := by
    rw [Link.sent_client]
    exact hreceipts
  tracks := by
    rw [Link.sent_client]
    exact htracks
  resting := by
    rw [Link.sent_client]
    exact hresting

/-- The phase of the pull changes and nothing else, outside the commit. -/
theorem Cleared.moved (h : Cleared l) (hconsumer : d'.consumer = { l.client.consumer with phase })
    (hold : l.client.consumer.phase.committing? = none)
    (htracks : Tracks (l.sent (d', message)) phase)
    (hresting : (∀ run record attempt, d'.phase ≠ .pulling run record attempt) →
      phase.request? = none) : Cleared (l.sent (d', message)) := by
  refine h.sent ?_ ?_ ?_ ?_ <;> rw [hconsumer]
  · exact fun entry hentry => .inl (h.dropped hold hentry)
  · intro entry hentry
    rw [h.no_receipts hold] at hentry
    exact nomatch hentry
  · exact htracks
  · exact hresting

/-- A DELETE that is sent now is the last request, and is not answered yet. -/
theorem tracks_acknowledging {r : PullRequest} {x : PullResult} (h : Cleared l)
    (hid : x.path.id = x.recordingId) (hissued : x.recordingId ∈ l.bridge.used) :
    Tracks (l.sent (d', some (.delete x.recordingId))) (.acknowledging r x) := by
  refine ⟨⟨hid, hissued⟩, ?_, ?_⟩
  · intro request hrequest
    rcases Link.mem_sent_requests.mp hrequest with hmem | ⟨request', heq, hnew⟩
    · exact absurd (h.numbered.requests _ hmem) (Nat.not_succ_le_self l.calls)
    · obtain rfl := Option.some.inj heq
      exact (Prod.mk.inj hnew).2
  · intro hmem
    exact absurd (h.numbered.replies _ hmem) (Nat.not_succ_le_self l.calls)

/-- The pull goes on by itself. -/
theorem cleared_advances {event : PullEvent} (h : Cleared l)
    (hadv : Advances sha256 l.client.consumer event c' message)
    (hfail : ∀ fault, event = .fail fault → l.client.consumer.phase.committing? = none)
    (hcrash : event = .crash → l.client.consumer.phase.committing? = none)
    (hconsumer : d'.consumer = c')
    (hresting : (∀ run record attempt, d'.phase ≠ .pulling run record attempt) →
      c'.phase.request? = none) :
    Cleared (l.sent (d', message)) := by
  have htracks := h.tracks
  cases hadv with
  | stuck hrequest => exact h.moved hconsumer (committing_eq_none hrequest) trivial hresting
  | recover hrequest hlookup =>
    -- there is no receipt between two pulls
    have hmem := (Keyed.mem_of_lookup hlookup).1
    rw [h.no_receipts (committing_eq_none hrequest)] at hmem
    exact nomatch hmem
  | create hrequest => exact h.moved hconsumer (committing_eq_none hrequest) trivial hresting
  | poll hphase => exact h.moved hconsumer (by rw [hphase]; rfl) trivial hresting
  | deadline hphase => exact h.moved hconsumer (by rw [hphase]; rfl) trivial hresting
  -- the rename puts the file into the destination
  | @rename r x file hphase =>
    rw [hphase] at htracks
    have hold : l.client.consumer.phase.committing? = none := by rw [hphase]; rfl
    refine h.sent ?_ ?_ ?_ ?_ <;> rw [hconsumer]
    · intro entry hentry
      rcases Keyed.mem_insert.mp hentry with ⟨hentry, -⟩ | rfl
      · exact .inl (h.dropped hold hentry)
      · exact .inr ⟨r, x, rfl, rfl⟩
    · intro entry hentry
      rw [h.no_receipts hold] at hentry
      exact nomatch hentry
    · exact htracks
    · exact hresting
  -- the receipt is written for the pull under way
  | @receipt r x hphase =>
    rw [hphase] at htracks
    have hsame : ∀ r' x', l.client.consumer.phase.committing? = some (r', x') → r' = r ∧
        x' = x := by
      rw [hphase]
      rintro _ _ ⟨⟩
      exact ⟨rfl, rfl⟩
    refine h.sent ?_ ?_ ?_ ?_ <;> rw [hconsumer]
    -- the file is still the one of this pull
    · intro entry hentry
      refine (h.files entry hentry).imp_right ?_
      rintro ⟨r', x', hcommitting, heq⟩
      obtain ⟨rfl, rfl⟩ := hsame r' x' hcommitting
      exact ⟨r', x', rfl, heq⟩
    -- the new receipt is the one of this pull
    · intro entry hentry
      rcases Keyed.mem_insert.mp hentry with ⟨hentry, -⟩ | rfl
      · obtain ⟨r', x', hcommitting, heq⟩ := h.receipts entry hentry
        obtain ⟨rfl, rfl⟩ := hsame r' x' hcommitting
        exact ⟨r', x', rfl, heq⟩
      · exact ⟨r, x, rfl, rfl⟩
    · exact htracks
    · exact hresting
  -- the DELETE is sent
  | acknowledge hphase =>
    rw [hphase] at htracks
    have hfiles := h.files
    have hreceipts := h.receipts
    rw [hphase] at hfiles hreceipts
    refine h.sent ?_ ?_ ?_ ?_ <;> rw [hconsumer]
    · exact hfiles
    · exact hreceipts
    · exact tracks_acknowledging h htracks.1 htracks.2
    · exact hresting
  -- the acknowledged pull removes its receipt
  | @remove r x hphase =>
    rw [hphase] at htracks
    refine h.sent ?_ ?_ ?_ ?_ <;> rw [hconsumer]
    · intro entry hentry
      refine .inl ?_
      rcases h.files entry hentry with hdropped | ⟨r', x', hcommitting, heq⟩
      · exact hdropped
      · -- the file of this pull: its recording is acknowledged
        rw [hphase] at hcommitting
        cases hcommitting
        rw [heq, htracks.1]
        exact htracks.2
    -- a receipt of another request would belong to another pull
    · intro entry hentry
      obtain ⟨hentry, hne⟩ := Keyed.mem_remove.mp hentry
      obtain ⟨r', x', hcommitting, heq⟩ := h.receipts entry hentry
      rw [hphase] at hcommitting
      cases hcommitting
      exact absurd heq hne
    · trivial
    · exact hresting
  | finish hphase => exact h.moved hconsumer (by rw [hphase]; rfl) trivial hresting
  | failed hphase => exact h.moved hconsumer (by rw [hphase]; rfl) trivial hresting
  | broken => exact h.moved hconsumer (hfail _ rfl) trivial hresting
  | crash => exact h.moved hconsumer (hcrash rfl) trivial hresting

/-- The pull gets a reply. -/
theorem cleared_receives {reply : Reply} (h : Cleared l) (hmem : (l.calls, reply) ∈ l.replies)
    (hok : Undisturbed l .deliver) (hconsumer : d'.consumer = c')
    (hresting : (∀ run record attempt, d'.phase ≠ .pulling run record attempt) →
      c'.phase.request? = none)
    (hrec : Receives sha256 l.client.consumer reply c' message) :
    Cleared (l.sent (d', message)) := by
  have htracks := h.tracks
  cases hrec with
  | @examine r m hphase =>
    have hold : l.client.consumer.phase.committing? = none := by
      rcases hphase with heq | heq <;> rw [heq] <;> rfl
    refine h.moved hconsumer hold ?_ hresting
    -- the examination starts the download, or ends the pull
    unfold SceneTrove.examine
    split
    · trivial
    · trivial
    · trivial
    · split
      · trivial
      · rename_i hname
        exact ⟨(nameOf_fields hname).1, h.issued _ m hmem⟩
  | refused hphase =>
    refine h.moved hconsumer ?_ trivial hresting
    rcases hphase with heq | heq <;> rw [heq] <;> rfl
  | released hphase => exact h.moved hconsumer (by rw [hphase]; rfl) trivial hresting
  | noMedia hphase => exact h.moved hconsumer (by rw [hphase]; rfl) trivial hresting
  | mismatch hphase => exact h.moved hconsumer (by rw [hphase]; rfl) trivial hresting
  | download hphase hdownload =>
    rw [hphase] at htracks
    obtain ⟨-, -, hid, hpath⟩ := download_eq_ok hdownload
    refine h.moved hconsumer (by rw [hphase]; rfl) ⟨?_, ?_⟩ hresting
    · rw [hpath, hid]
      exact htracks.1
    · rw [hid]
      exact htracks.2
  -- the DELETE was answered, so the bridge has given the recording up
  | acknowledged hphase =>
    rw [hphase] at htracks
    have hfiles := h.files
    have hreceipts := h.receipts
    rw [hphase] at hfiles hreceipts
    refine h.sent ?_ ?_ ?_ ?_ <;> rw [hconsumer]
    · exact hfiles
    · exact hreceipts
    · exact ⟨htracks.1.1, htracks.2.2 hmem⟩
    · exact hresting
  -- the answer is not one of the DELETE under way
  | unacknowledged hphase =>
    rcases hok with hnone | hanswer
    · rw [hphase] at hnone
      exact nomatch hnone
    · exact nomatch hanswer _ hmem rfl

/-- The loop goes on: no pull is under way. -/
theorem cleared_loop {ledger : Ledger} {phase : DayPhase} (h : Cleared l)
    (hrequest : l.client.consumer.phase.request? = none) :
    Cleared (l.sent ({ l.client with ledger, phase }, none)) := by
  have hold := committing_eq_none hrequest
  refine h.sent ?_ ?_ ?_ fun _ => hrequest
  · exact fun entry hentry => .inl (h.dropped hold hentry)
  · intro entry hentry
    rw [h.no_receipts hold] at hentry
    exact nomatch hentry
  · exact h.tracks

/-- The import moves by itself. -/
theorem cleared_client {event : DayEvent} (h : Cleared l) (hok : Undisturbed l (.client event))
    (hmoves : Day.Moves sha256 template l.client event d' message) :
    Cleared (l.sent (d', message)) := by
  -- outside a pull there is none under way
  have hlooping : ∀ {run}, l.client.phase = .looping run →
      l.client.consumer.phase.request? = none := by
    intro run hphase
    refine h.resting fun _ _ _ hpulling => ?_
    exact nomatch hphase.symm.trans hpulling
  cases hmoves with
  -- the loop over the records has no pull
  | start hphase =>
    refine cleared_loop h (h.resting fun _ _ _ hpulling => ?_)
    rcases hphase with heq | ⟨result, heq⟩ <;> exact nomatch heq.symm.trans hpulling
  | ended hphase => exact cleared_loop h (hlooping hphase)
  | skipped hphase => exact cleared_loop h (hlooping hphase)
  | found hphase => exact cleared_loop h (hlooping hphase)
  | called _ _ _ _ hcall =>
    exact cleared_advances h hcall nofun nofun rfl fun hne => absurd rfl (hne _ _ _)
  | @pulled run record attempt event c' _ hphase _ hcrash hpull =>
    refine cleared_advances h hpull ?_ (fun heq => absurd heq hcrash) rfl
      fun hne => absurd hphase (hne _ _ _)
    rintro fault rfl
    exact hok
  -- a pull that is settled has ended
  | @settled run record attempt r outcome hphase hfinished =>
    obtain ⟨ledger, phase, hsettle, -, -⟩ :=
      l.client.settle_spec template run record attempt outcome
    rw [hsettle]
    exact cleared_loop h (by rw [hfinished]; rfl)
  | crash =>
    exact cleared_advances h (@Advances.crash sha256 _) nofun (fun _ => hok) rfl fun _ => rfl

/-- **One step.** -/
theorem cleared_step {event : LinkEvent DayEvent} (h : Cleared l) (hok : Undisturbed l event)
    (hstep : dayStep cfg sha256 template l event = some l') : Cleared l' := by
  have hnumbered := Link.numbered_step h.numbered hstep
  cases Link.step_cases hstep with
  | client hnext => exact cleared_client h hok (Day.advance_cases hnext)
  | deliver hmem hnext =>
    obtain ⟨run, record, attempt, c', hphase, heq, hrec⟩ := Day.receive_cases hnext
    -- the reply goes to the pull, which stays the pull of its record
    refine cleared_receives h hmem hok (congrArg Day.consumer heq) ?_ hrec
    intro hne
    refine absurd ?_ (hne run record attempt)
    rw [heq]
    exact hphase
  | passed hmem hserved => exact cleared_passed h hok hmem hserved hnumbered
  | answered hmem hserved => exact cleared_answered h hok hmem hserved hnumbered
  | bridge hbridge => exact cleared_bridge h hok hbridge

end

/-! ### Whole runs -/

/-- A bridge with any past, and a destination whose files are those of recordings that it has given
up: nothing is left behind. -/
theorem cleared_start {before : List Recordings.Event} {destination : List (MediaName × Bytes)}
    {ledger : Ledger} (hbefore : EventSystem.run (Manager.step cfg sha256) {} before = some b)
    (hacks : ∀ event ∈ before, Manager.acksPersist event)
    (hfiles : ∀ entry ∈ destination, b.Dropped entry.1.id) :
    Cleared { client := { consumer := { destination }, ledger }, bridge := b } := by
  -- the bridge by itself, before the import starts
  have hbridge : b.Coherent ∧ b.Attuned := by
    refine EventSystem.run_invariant (fun s => s.Coherent ∧ s.Attuned) ?_
      ⟨Manager.coherent_fresh [], fun hrunning => nomatch hrunning⟩
      (.of_forall fun event hevent _ => hacks event hevent) hbefore
    rintro s event s' ⟨hcoherent, hattuned⟩ hok hstep
    exact ⟨Manager.coherent_step hcoherent hstep, Manager.attuned_step hcoherent hattuned hok hstep⟩
  exact
    { coherent := hbridge.1
      attuned := hbridge.2
      numbered := ⟨fun _ he => absurd he List.not_mem_nil, fun _ he => absurd he List.not_mem_nil⟩
      issued := fun _ _ hm => absurd hm List.not_mem_nil
      files := fun entry hentry => .inl (hfiles entry hentry)
      receipts := fun _ hentry => absurd hentry List.not_mem_nil
      tracks := trivial
      resting := fun _ => rfl }

/-- A day that was imported without an interruption in a commit leaves no receipt, and every
recording whose media is in the destination is acknowledged. -/
theorem day_leaves_nothing {before : List Recordings.Event} {destination : List (MediaName × Bytes)}
    {ledger : Ledger} {events : List (LinkEvent DayEvent)} {pulled : List PullResult}
    (hbefore : EventSystem.run (Manager.step cfg sha256) {} before = some b)
    (hacks : ∀ event ∈ before, Manager.acksPersist event)
    (hfiles : ∀ entry ∈ destination, b.Dropped entry.1.id)
    (hok : EventSystem.Steps (dayStep cfg sha256 template) Undisturbed
      { client := { consumer := { destination }, ledger }, bridge := b } events)
    (hrun : EventSystem.run (dayStep cfg sha256 template)
      { client := { consumer := { destination }, ledger }, bridge := b } events = some l)
    (hreturned : l.client.phase = .returned (.ok pulled)) :
    l.client.consumer.receipts = [] ∧
      ∀ entry ∈ l.client.consumer.destination, l.bridge.Dropped entry.1.id := by
  have hcleared : Cleared l :=
    EventSystem.run_invariant Cleared (fun _ _ _ => cleared_step)
      (cleared_start hbefore hacks hfiles)
      hok hrun
  have hresting : l.client.consumer.phase.request? = none := by
    refine hcleared.resting fun _ _ _ hpulling => ?_
    exact nomatch hreturned.symm.trans hpulling
  -- between two pulls there is no receipt, and every file is of an acknowledged recording
  have hcommitting := committing_eq_none hresting
  exact ⟨hcleared.no_receipts hcommitting, fun entry hentry => hcleared.dropped hcommitting hentry⟩

/-- One clip is recorded from the card, downloaded and renamed. -/
def sampleRenamedClip : List (LinkEvent DayEvent) :=
  [.client (.start [⟨100, 130⟩] ⟨5, 120⟩), .client .next, .serve 1 (.probe false),
    .serve 1 (.startSd 1 1 (.ok []) .ok), .deliver, .bridge (.spawn 1), .bridge (.begin 1 .ok),
    .bridge (.create 1 none),
    .bridge (.receive 1 [0x00, 0x00, 0x01, 0xba, 1, 2, 3, 4] 2 false none), .bridge (.close 1),
    .bridge (.flush 1 none), .bridge (.publish 1 none), .bridge (.complete 1 3 10),
    .bridge (.record 1 4 .ok), .client (.pull .poll), .serve 2 .read, .deliver,
    .serve 3 .read, .deliver, .client (.pull .rename)]

/-- The rest of the run, without an interruption. -/
def sampleCommitted : List (LinkEvent DayEvent) :=
  sampleRenamedClip ++ [.client (.pull .receipt), .client (.pull .acknowledge),
    .serve 4 (.acknowledge 5 {}), .deliver, .client (.pull .remove), .client (.pull .finish),
    .client .settle, .client .next]

/-- What it has imported. -/
def sampleClip : PullResult where
  recordingId := 1
  path := { stamp := 100, id := 1, format := .programStream }
  bytes := 8
  sha256 := Manager.sampleSha256 [0x00, 0x00, 0x01, 0xba, 1, 2, 3, 4]

/-- An import of one clip whose reply to the DELETE arrives. -/
theorem day_leaves_nothing_sample :
    ∃ l, EventSystem.run (dayStep Manager.sampleConfig Manager.sampleSha256 sampleTemplate)
        { client := {}, bridge := { running := true, journal := some {} } } sampleCommitted =
          some l ∧
      l.client.phase = .returned (.ok [sampleClip]) ∧ l.client.consumer.receipts = [] ∧
      ∀ entry ∈ l.client.consumer.destination, l.bridge.Dropped entry.1.id := by
  have hbefore : EventSystem.run (Manager.step Manager.sampleConfig Manager.sampleSha256) {}
      [.restart 0 .ok] = some { running := true, journal := some {} } := rfl
  have hok : EventSystem.Steps (dayStep Manager.sampleConfig Manager.sampleSha256 sampleTemplate)
      Undisturbed { client := {}, bridge := { running := true, journal := some {} } }
      sampleCommitted := by
    decide +kernel
  obtain ⟨l, hl, hreturned⟩ :
      ∃ l ∈ EventSystem.run (dayStep Manager.sampleConfig Manager.sampleSha256 sampleTemplate)
          { client := {}, bridge := { running := true, journal := some {} } } sampleCommitted,
        l.client.phase = .returned (.ok [sampleClip]) := by
    decide +kernel
  -- the bridge starts with the destination empty
  exact ⟨l, hl, hreturned, day_leaves_nothing hbefore (by simp [Manager.acksPersist])
    (fun _ hentry => absurd hentry List.not_mem_nil) hok hl hreturned⟩

/-- The process dies after the receipt is written. The next run finds the file and takes the clip
for done: the recording stays on the bridge with its media, and the receipt in the destination. -/
theorem day_leaves_recording :
    ∃ l, EventSystem.run (dayStep Manager.sampleConfig Manager.sampleSha256 sampleTemplate)
        { client := {}, bridge := { running := true, journal := some {} } }
        (sampleRenamedClip ++ [.client (.pull .receipt), .client .crash,
          .client (.start [⟨100, 130⟩] ⟨5, 120⟩), .client .next, .client .next]) = some l ∧
      l.client.phase = .returned (.ok []) ∧
      (∀ record ∈ listed [⟨100, 130⟩], clipOf "front" record ∈ l.client.ledger.done) ∧
      sampleClip.path ∈ l.client.consumer.destination.map Prod.fst ∧
      l.client.consumer.receipts.length = 1 ∧ l.bridge.running = true ∧
      (l.bridge.state.get 1).map RecordingManifest.status = some .ready ∧
      (.media 1 .mpegPs, [0x00, 0x00, 0x01, 0xba, 1, 2, 3, 4]) ∈ l.bridge.directory := by
  have hexists : ∀ {run : Option (Link Day)} {p : Link Day → Prop},
      (∃ l ∈ run, p l) → ∃ l, run = some l ∧ p l := id
  exact hexists (by decide +kernel)

end SceneTrove

end EzvizBridge
