import EzvizBridge.SceneTrove.Exchange

/-!
# The hand-over of one recording

`pull` is called again and again under one key. Between any two of its steps the process may die,
any message may be lost or come late, the bridge may crash and start again, and other clients use
it. The four durable steps of a pull, the rename, the receipt, the DELETE and the removal of the
receipt, then happen in this order whatever comes between them:

* the bridge has one recording under the key, ever (`Handoff.owned`);
* a DELETE is on its way only if the recording has failed, or the receipt is there, and with it the
  file (`Sendable`, `Kept`);
* the receipt goes only after the bridge has answered the DELETE, and then the recording is gone
  (`Truthful`, `Stands`);
* until then, a recording that was `ready` is still `ready`, or the receipt is there, and one more
  pull without interruption ends well (`pull_completes`).

The journal of the bridge can be written in these runs, and it does not crash between the
publication of a recording in memory and in the journal.
-/

namespace EzvizBridge

namespace SceneTrove

open Recordings

variable {cfg : Config} {sha256 : Sha256} {key : String} {own own' : Option Uuid} {b b' : Manager}
    {c c' : Consumer} {id : Uuid}

/-! ### The recording -/

/-- The recording is not active any more, and if it is `ready`, its manifest is one of these. -/
def Settled (b : Manager) (id : Uuid) (is : RecordingManifest → Prop) : Prop :=
  ∀ m, b.known.get id = some m → m.isActive = false ∧ (m.status = .ready → is m)

theorem Settled.mono {is is' : RecordingManifest → Prop} (h : Settled b id is)
    (hsub : ∀ m, is m → is' m) : Settled b id is' :=
  fun m hm => ⟨(h m hm).1, fun hready => hsub m ((h m hm).2 hready)⟩

/-- A recording that the bridge has given up is settled. -/
theorem settled_of_gone {is : RecordingManifest → Prop} (h : b.known.get id = none) :
    Settled b id is :=
  fun _ hm => nomatch h.symm.trans hm

/-- The file that the consumer has got is the one of the manifest. -/
def Agrees (x : PullResult) (m : RecordingManifest) : Prop :=
  m.bytes = some x.bytes ∧ m.sha256 = some x.sha256

/-- The manifest that was asked for passed the checks of its request. -/
def Checked (cfg : Config) (m : RecordingManifest) : Prop :=
  (m.sdStart = none ∧ checkStart cfg m.camera m.requestedDurationSeconds = .ok ()) ∨
    ∃ start stop, m.sdStart = some start ∧ m.sdEnd = some stop ∧
      checkInterval cfg m.camera start stop = .ok ()

/-- The checks look at the request only. -/
theorem Checked.congr {m m' : RecordingManifest} (h : Checked cfg m)
    (hrequest : m'.request = m.request) : Checked cfg m' := by
  simp only [RecordingManifest.request, Prod.mk.injEq] at hrequest
  obtain ⟨hcamera, hduration, -, hstart, hstop⟩ := hrequest
  rw [Checked, hcamera, hduration, hstart, hstop]
  exact h

/-- The recording has media. -/
def Stocked (b : Manager) (id : Uuid) : Prop :=
  ∃ format bytes, (SpoolFile.media id format, bytes) ∈ b.directory

/-- What has happened to the recording under the key cannot be undone. -/
structure Onward (own own' : Option Uuid) (b b' : Manager) : Prop where
  stays : ∀ id, own = some id → own' = some id
  settled : ∀ id is, own = some id → Settled b id is → Settled b' id is
  gone : ∀ id, own = some id → b.known.get id = none → b'.known.get id = none

theorem Onward.refl (own : Option Uuid) (b : Manager) : Onward own own b b :=
  ⟨fun _ h => h, fun _ _ _ h => h, fun _ _ h => h⟩

/-- A step of the bridge, for the recording under the key. -/
theorem onward_of_turns (hown : ∀ id, own = some id → own' = some id ∧ id ∈ b.used)
    {e : Recordings.Event}
    (hturns : ∀ id, Manager.Turns b e id (b.known.get id) (b'.known.get id)) :
    Onward own own' b b' := by
  refine ⟨fun id h => (hown id h).1, ?_, ?_⟩
  · intro id is h hsettled m hm
    have hstep := hturns id
    rw [hm] at hstep
    generalize hget : b.known.get id = found at hstep
    cases hstep with
    | stays => exact hsettled m hget
    | created hfresh => exact absurd (hown id h).2 hfresh
    | moves hactive =>
      -- it was settled, so it was not active
      exact nomatch (hsettled _ hget).1.symm.trans hactive
    -- the recovery finds its media gone, so it is failed
    | lost _ _ hfailed =>
      refine ⟨?_, fun hready => nomatch hfailed.symm.trans hready⟩
      rw [RecordingManifest.isActive, hfailed]
      rfl
  -- what is gone does not come back, as its id was used
  · intro id h hgone
    have hstep := hturns id
    rw [hgone] at hstep
    generalize b'.known.get id = found at hstep
    cases hstep with
    | stays => rfl
    | created hfresh => exact absurd (hown id h).2 hfresh

/-! ### The file -/

namespace Consumer

/-- The receipt under a key. -/
def receipt (self : Consumer) (key : String) : Option PullResult :=
  (Keyed.lookup Prod.fst self.receipts key).map Prod.snd

theorem receipt_eq_none : c.receipt key = none ↔ Keyed.lookup Prod.fst c.receipts key = none :=
  Option.map_eq_none_iff

/-- There is this receipt under the key. -/
theorem receipt_eq_some {x : PullResult} :
    c.receipt key = some x ↔ Keyed.lookup Prod.fst c.receipts key = some (key, x) := by
  rw [receipt, Option.map_eq_some_iff]
  constructor
  · rintro ⟨⟨key', x'⟩, hlookup, rfl⟩
    obtain ⟨-, rfl⟩ := Keyed.mem_of_lookup hlookup
    exact hlookup
  · exact fun hlookup => ⟨_, hlookup, rfl⟩

end Consumer

/-- The bytes are those of the result. -/
def Fits (sha256 : Sha256) (x : PullResult) (file : Bytes) : Prop :=
  file.length = x.bytes ∧ sha256 file = x.sha256 ∧
    (MediaFormat.detect (file.take probeBytes)).isSome = true

/-- The file of the result is in the destination. -/
def Committed (sha256 : Sha256) (destination : List (MediaName × Bytes)) (x : PullResult) : Prop :=
  ∃ file, Keyed.lookup Prod.fst destination x.path = some (x.path, file) ∧ Fits sha256 x file

/-- The check of `verify_committed` passes exactly on a file that is committed. -/
theorem verifyCommitted_eq_ok {destination : List (MediaName × Bytes)} {x : PullResult} :
    verifyCommitted sha256 destination x = .ok () ↔ Committed sha256 destination x := by
  unfold verifyCommitted Committed Fits
  cases hlookup : Keyed.lookup Prod.fst destination x.path with
  | none => simp
  | some entry =>
    obtain ⟨name, file⟩ := entry
    obtain ⟨-, rfl⟩ := Keyed.mem_of_lookup hlookup
    -- the source reads the head of the file for the probe and then the rest in chunks
    have hread : file.take probeBytes ++
        (chunks (64 * 1024) (file.drop probeBytes)).flatten = file := by
      rw [flatten_chunks (by decide), List.take_append_drop]
    dsimp only
    rw [hread]
    cases hdetect : MediaFormat.detect (file.take probeBytes) with
    | none => simp [hdetect]
    | some format =>
      -- a format was detected, so size and digest are compared
      simp only [Option.isNone_some, Bool.false_eq_true, if_false]
      constructor
      · intro h
        split_ifs at h with hbad
        rw [not_or, not_not, not_not] at hbad
        exact ⟨file, rfl, hbad.1, hbad.2, by rw [hdetect]; rfl⟩
      · rintro ⟨file', hfile, hlength, hdigest, -⟩
        obtain rfl : file = file' := congrArg Prod.snd (Option.some.inj hfile)
        rw [if_neg (not_or.mpr ⟨not_not.mpr hlength, not_not.mpr hdigest⟩)]

/-- A file that was downloaded is the one of the manifest. -/
theorem download_eq_ok {r : PullRequest} {m : RecordingManifest} {name : MediaName}
    {mediaType : MediaType} {body : Bytes} {x : PullResult}
    (h : download sha256 r m name mediaType body = .ok x) :
    Fits sha256 x body ∧ Agrees x m ∧ x.recordingId = m.recordingId ∧ x.path = name := by
  unfold download at h
  split_ifs at h with htype hsize hformat hmatch
  obtain rfl := Except.ok.inj h
  rw [not_or, not_not, not_not] at hmatch
  refine ⟨⟨rfl, rfl, ?_⟩, ⟨hmatch.1.symm, hmatch.2.symm⟩, rfl, rfl⟩
  rw [MediaFormat.detect, List.find?_isSome]
  refine ⟨name.format, ?_, hformat⟩
  cases name.format <;> simp

/-! ### The invariant -/

/-- A request on its way: a DELETE comes after the recording has failed, or while the receipt is
there. -/
def Sendable (cfg : Config) (key : String) (own : Option Uuid) (b : Manager) (c : Consumer) :
    Request → Prop
  | .create r => r.idempotencyKey = key
  | .probed r => r.idempotencyKey = key ∧ ∃ start stop, r.sdInterval = some (start, stop) ∧
      checkInterval cfg r.camera start stop = .ok ()
  | .status id => own = some id
  | .media _ => True
  | .delete id => own = some id ∧ (Settled b id (fun _ => False) ∨ c.receipt key ≠ none)

/-- A reply on its way: a manifest that was final is final, and what was acknowledged is gone. -/
def Truthful (own : Option Uuid) (b : Manager) : Reply → Prop
  | .manifest m => own = some m.recordingId ∧
      (m.isActive = false → Settled b m.recordingId fun m' => m' = m)
  | .noContent => ∃ id, own = some id ∧ b.known.get id = none
  | .media _ _ | .refused _ => True

/-- The result is about the recording, and the receipt is safe to act on. -/
def Kept (own : Option Uuid) (b : Manager) (x : PullResult) : Prop :=
  own = some x.recordingId ∧ Settled b x.recordingId (Agrees x)

/-- What the phase of the pull says. -/
def Stands (sha256 : Sha256) (key : String) (own : Option Uuid) (b : Manager) (c : Consumer) :
    PullPhase → Prop
  | .idle => True
  | .creating r | .asking r => r.idempotencyKey = key ∧ c.receipt key = none
  | .polling r m | .releasing r m =>
    r.idempotencyKey = key ∧ c.receipt key = none ∧ own = some m.recordingId
  | .fetching r m _ => r.idempotencyKey = key ∧ c.receipt key = none ∧
      own = some m.recordingId ∧ Settled b m.recordingId fun m' => m' = m
  | .downloaded r x file => r.idempotencyKey = key ∧ c.receipt key = none ∧ Kept own b x ∧
      Fits sha256 x file
  | .renamed r x => r.idempotencyKey = key ∧ c.receipt key = none ∧ Kept own b x ∧
      Committed sha256 c.destination x
  | .receipted r x | .acknowledging r x => r.idempotencyKey = key ∧ c.receipt key = some x
  | .acknowledged r x => r.idempotencyKey = key ∧ c.receipt key = some x ∧
      b.known.get x.recordingId = none
  | .closing r x => r.idempotencyKey = key ∧ Committed sha256 c.destination x
  | .finished _ outcome => ∀ x, outcome = .ok x → Committed sha256 c.destination x

/-- The invariant: `own` is the recording that was created under the key, if any, and at most `n`
others were acknowledged since. -/
structure Handoff (cfg : Config) (sha256 : Sha256) (key : String) (own : Option Uuid) (n : ℕ)
    (l : Link Consumer) : Prop where
  bridge : l.bridge.Orderly cfg sha256
  numbered : l.Numbered
  unheld : own = none → ¬ l.bridge.known.Holds key
  owned : ∀ id, own = some id → id ∈ l.bridge.used ∧ Manager.Owned l.bridge.known key id n
  checked : ∀ id m, own = some id → l.bridge.known.get id = some m → Checked cfg m
  stocked : ∀ id m, own = some id → l.bridge.known.get id = some m → m.status = .ready →
    Stocked l.bridge id ∨ l.client.receipt key ≠ none
  requests : ∀ e ∈ l.requests, Sendable cfg key own l.bridge l.client e.2
  replies : ∀ e ∈ l.replies, Truthful own l.bridge e.2
  receipt : ∀ x, l.client.receipt key = some x →
    Kept own l.bridge x ∧ Committed sha256 l.client.destination x
  phase : Stands sha256 key own l.bridge l.client l.client.phase

/-! What the bridge does leaves all of this true. -/

theorem Kept.onward {x : PullResult} (h : Kept own b x) (hb : Onward own own' b b') :
    Kept own' b' x :=
  ⟨hb.stays _ h.1, hb.settled _ _ h.1 h.2⟩

/-- A request that may be on its way still may. -/
theorem Sendable.onward {request : Request} (h : Sendable cfg key own b c request)
    (hb : Onward own own' b b') : Sendable cfg key own' b' c request := by
  cases request with
  | create => exact h
  | probed => exact h
  | status => exact hb.stays _ h
  | media => trivial
  | delete id => exact ⟨hb.stays id h.1, h.2.imp_left (hb.settled id _ h.1)⟩

/-- A reply that was true when it was sent still is. -/
theorem Truthful.onward {reply : Reply} (h : Truthful own b reply) (hb : Onward own own' b b') :
    Truthful own' b' reply := by
  cases reply with
  | manifest m => exact ⟨hb.stays _ h.1, fun hfinal => hb.settled _ _ h.1 (h.2 hfinal)⟩
  | noContent =>
    obtain ⟨id, hid, hgone⟩ := h
    exact ⟨id, hb.stays id hid, hb.gone id hid hgone⟩
  | media => trivial
  | refused => trivial

/-- Where the pull stands is not affected by the bridge moving on. -/
theorem Stands.onward {phase : PullPhase} (h : Stands sha256 key own b c phase)
    (hreceipt : ∀ x, c.receipt key = some x → Kept own b x) (hb : Onward own own' b b') :
    Stands sha256 key own' b' c phase := by
  cases phase with
  -- the recording is still the one under the key
  | polling | releasing => exact ⟨h.1, h.2.1, hb.stays _ h.2.2⟩
  | fetching =>
    obtain ⟨hkey, hnone, hown, hsettled⟩ := h
    exact ⟨hkey, hnone, hb.stays _ hown, hb.settled _ _ hown hsettled⟩
  | downloaded | renamed =>
    obtain ⟨hkey, hnone, hkept, hfile⟩ := h
    exact ⟨hkey, hnone, hkept.onward hb, hfile⟩
  -- the recording that is gone stays gone
  | acknowledged =>
    obtain ⟨hkey, hsome, hgone⟩ := h
    exact ⟨hkey, hsome, hb.gone _ (hreceipt _ hsome).1 hgone⟩
  | _ => exact h

section

variable {n n' : ℕ} {l l' : Link Consumer} {e : Recordings.Event}

/-- The bridge with another state, after which everything is as far as before or further. -/
theorem Handoff.onward (h : Handoff cfg sha256 key own n l) (hb : Onward own own' l.bridge b')
    (horderly : b'.Orderly cfg sha256) (hunheld : own' = none → ¬ b'.known.Holds key)
    (howned : ∀ id, own' = some id → id ∈ b'.used ∧ Manager.Owned b'.known key id n')
    (hchecked : ∀ id m, own' = some id → b'.known.get id = some m → Checked cfg m)
    (hstocked : ∀ id m, own' = some id → b'.known.get id = some m → m.status = .ready →
      Stocked b' id ∨ l.client.receipt key ≠ none) :
    Handoff cfg sha256 key own' n' { l with bridge := b' } where
  bridge := horderly
  numbered := ⟨h.numbered.requests, h.numbered.replies⟩
  unheld := hunheld
  owned := howned
  checked := hchecked
  stocked := hstocked
  requests e he := (h.requests e he).onward hb
  replies e he := (h.replies e he).onward hb
  receipt x hx := ⟨(h.receipt x hx).1.onward hb, (h.receipt x hx).2⟩
  phase := h.phase.onward (fun x hx => (h.receipt x hx).1) hb

/-- **A step of the bridge.** A recording that is created under the key is the first one. -/
theorem handoff_bridge (hcfg : cfg.Bounded) (h : Handoff cfg sha256 key own n l)
    (hpersists : Manager.persists e) (htimely : l.bridge.Timely e)
    (hstep : l.bridge.step cfg sha256 e = some b')
    (hadmits : ∀ m kind scan persist, Manager.Requests e key m kind scan persist →
      Manager.Admitted cfg l.bridge key m kind scan persist b' → Checked cfg m)
    (hacks : ∀ id now faults, own = some id → e = .acknowledge id now faults →
      Settled l.bridge id (fun _ => False) ∨ l.client.receipt key ≠ none)
    (hle : n ≤ n')
    (hothers : ∀ id x now faults, own = some id → e = .acknowledge x now faults → x ≠ id →
      l.bridge.releases e = true → n + 1 ≤ n' ∧ n + 1 < maxAckTombstones) :
    ∃ own', Onward own own' l.bridge b' ∧
      Handoff cfg sha256 key own' n' { l with bridge := b' } := by
  have horderly := Manager.orderly_step hcfg h.bridge hpersists hstep
  have hturns := fun id => @Manager.turns_step cfg sha256 _ _ id e h.bridge htimely hstep
  have hused := @Manager.used_step cfg sha256 _ _ e hstep
  -- the recording under the key is known
  cases own with
  | some id =>
    obtain ⟨hid, howned⟩ := h.owned id rfl
    have hown : ∀ id', some id = some id' → some id = some id' ∧ id' ∈ l.bridge.used := by
      rintro _ ⟨⟩
      exact ⟨rfl, hid⟩
    have hb : Onward (some id) (some id) l.bridge b' := onward_of_turns hown hturns
    refine ⟨some id, hb, h.onward hb horderly (by rintro ⟨⟩) ?_ ?_ ?_⟩
    · rintro _ ⟨⟩
      exact ⟨hused hid, Manager.owned_step h.bridge howned hle (hothers id · · · rfl) hstep⟩
    -- its request does not change
    · rintro _ m' ⟨⟩ hm'
      have hturn := hturns id
      rw [hm'] at hturn
      generalize hget : l.bridge.known.get id = found at hturn
      cases hturn with
      | stays => exact h.checked id m' rfl hget
      | created hfresh => exact absurd hid hfresh
      | moves _ hrequest => exact (h.checked id _ rfl hget).congr hrequest
      | lost _ _ _ hrequest => exact (h.checked id _ rfl hget).congr hrequest
    -- its media is there while it is ready
    · rintro _ m' ⟨⟩ hm' hready
      rcases Manager.media_of_ready h.bridge htimely hstep hm' hready with hget | hstocked
      · -- it was `ready` before, and only an acknowledgement removes its media
        rcases h.stocked id m' rfl hget hready with ⟨format, bytes, hmem⟩ | hsome
        · have hinactive : m'.isActive = false := by
            rw [RecordingManifest.isActive, hready]
            rfl
          rcases Manager.media_step hcfg h.bridge hget hinactive hmem hstep with
            hmem' | ⟨now, faults, heq⟩
          · exact .inl ⟨format, bytes, hmem'⟩
          · refine (hacks id now faults rfl heq).imp_left fun hsettled => ?_
            exact ((hsettled m' hget).2 hready).elim
        · exact .inr hsome
      · exact .inl hstocked
  -- there is none yet, and one may be created now
  | none =>
    have hnew : ∀ own', Onward none own' l.bridge b' := by
      intro own'
      constructor
      · rintro _ ⟨⟩
      · rintro _ _ ⟨⟩
      · rintro _ ⟨⟩
    rcases Manager.unheld_step h.bridge (h.unheld rfl) hstep with
      hunheld | ⟨m, kind, scan, persist, hreq, hadm, hmem⟩
    · refine ⟨none, hnew none, h.onward (hnew none) horderly (fun _ => hunheld) ?_ ?_ ?_⟩
      · rintro _ ⟨⟩
      · rintro _ _ ⟨⟩
      · rintro _ _ ⟨⟩
    -- the recording that was created
    · have hnow : b'.known.get m.recordingId = some m := by
        rw [Manager.known_of_running hadm.running, hadm.state]
        exact State.get_enter_self
      refine ⟨some m.recordingId, hnew _,
        h.onward (hnew _) horderly (by rintro ⟨⟩) ?_ ?_ ?_⟩
      · rintro _ ⟨⟩
        refine ⟨?_, .inl hmem⟩
        rw [hadm.used]
        exact List.mem_append_right _ (List.mem_singleton_self _)
      · rintro _ m' ⟨⟩ hm'
        obtain rfl := Option.some.inj (hnow.symm.trans hm')
        exact hadmits m kind scan persist hreq hadm
      · rintro _ m' ⟨⟩ hm' hready
        obtain rfl := Option.some.inj (hnow.symm.trans hm')
        cases hadm.pending.symm.trans hready

/-! ### Handlers -/

/-- The journal is written. -/
def Handling.persists : Handling → Prop
  | .start _ _ _ persist | .startSd _ _ _ persist => persist = .ok
  | .acknowledge _ faults => faults.persist = .ok
  | _ => True

/-- What the request does on the bridge can be persisted. -/
theorem Operates.persists {request : Request} {handling : Handling}
    (h : Operates request handling e) (hok : handling.persists) : Manager.persists e := by
  cases h with
  | probe => trivial
  | _ => exact hok

/-- A request that a recording was created for has passed the checks. -/
theorem checked_of_admitted {request : Request} {handling : Handling} {m : RecordingManifest}
    {kind : JobKind} {scan : Except BridgeError Directory} {persist : Persist}
    (hsendable : Sendable cfg key own b c request) (hop : Operates request handling e)
    (hstep : b.step cfg sha256 e = some b') (hreq : Manager.Requests e key m kind scan persist)
    (hadm : Manager.Admitted cfg b key m kind scan persist b') : Checked cfg m := by
  cases hop with
  | @start r id now _ _ _ =>
    cases hreq
    refine .inl ⟨rfl, ?_⟩
    cases hcheck : checkStart cfg r.camera r.durationSeconds with
    | ok => exact hcheck
    -- the check of `start` comes before the admission
    | error error =>
      -- a request that fails the checks changes nothing
      simp only [Manager.step, hcheck] at hstep
      obtain ⟨-, rfl⟩ := EventSystem.guarded hstep
      have hused := congrArg List.length hadm.used
      rw [List.length_append, List.length_singleton] at hused
      omega
  -- a request of `start_sd` has passed the check of its interval
  | startSd hsd =>
    cases hreq
    obtain ⟨-, start, stop, hsd', hinterval⟩ := hsendable
    obtain ⟨rfl, rfl⟩ := Prod.mk.inj (Option.some.inj (hsd.symm.trans hsd'))
    exact .inr ⟨_, _, rfl, rfl, hinterval⟩
  | probe => cases hreq
  | acknowledge => cases hreq

/-- What a request does on the bridge. -/
theorem handoff_operates {call : ℕ} {request : Request} {handling : Handling} (hcfg : cfg.Bounded)
    (h : Handoff cfg sha256 key own n l) (hmem : (call, request) ∈ l.requests)
    (hok : handling.persists) (hop : Operates request handling e)
    (hstep : l.bridge.step cfg sha256 e = some b') :
    ∃ own', Onward own own' l.bridge b' ∧
      Handoff cfg sha256 key own' n { l with bridge := b' } := by
  have hsendable := h.requests _ hmem
  refine handoff_bridge hcfg h (hop.persists hok) ?_ hstep ?_ ?_ le_rfl ?_
  · cases hop <;> trivial
  · exact fun m kind scan persist hreq hadm => checked_of_admitted hsendable hop hstep hreq hadm
  · rintro id now faults - rfl
    cases hop
    exact hsendable.2
  · -- the consumer deletes no other recording
    rintro id x now faults rfl rfl hne
    cases hop
    exact absurd (Option.some.inj hsendable.1).symm hne

/-- The recording under the key, while it is there. -/
theorem Handoff.own_of_mem (h : Handoff cfg sha256 key own n l)
    (hmem : (key, id) ∈ l.bridge.known.idempotency) : own = some id := by
  have hc := h.bridge.known.consistent
  cases own with
  | none => exact absurd (.inl ⟨_, hmem, rfl⟩) (h.unheld rfl)
  | some id' =>
    rcases (h.owned id' rfl).2 with hmem' | ⟨before, t, after, hacks, hkey, -, -⟩
    · exact congrArg (fun entry => some entry.2) (Keyed.eq_of_mem hc.keys hmem' hmem rfl)
    · have ht : t ∈ l.bridge.known.acknowledgements :=
        hacks ▸ List.mem_append_right _ List.mem_cons_self
      exact absurd hkey (hc.apart t ht _ hmem)

theorem truthful_manifest {m : RecordingManifest} (hown : own = some m.recordingId)
    (hget : b.known.get m.recordingId = some m) : Truthful own b (.manifest m) := by
  refine ⟨hown, fun hfinal m' hm' => ?_⟩
  obtain rfl := Option.some.inj (hget.symm.trans hm')
  exact ⟨hfinal, fun _ => rfl⟩

/-- **The bridge handles a request.** -/
theorem handoff_served {call : ℕ} {request : Request} {handling : Handling} {rest : Request ⊕ Reply}
    (hcfg : cfg.Bounded) (h : Handoff cfg sha256 key own n l) (hmem : (call, request) ∈ l.requests)
    (hok : handling.persists) (hserved : Served cfg sha256 l.bridge request handling b' rest) :
    ∃ own', Onward own own' l.bridge b' ∧
      Handoff cfg sha256 key own' n { l with bridge := b' } ∧
      (∀ request', rest = .inl request' → Sendable cfg key own' b' l.client request') ∧
      ∀ reply, rest = .inr reply → Truthful own' b' reply := by
  have hsame : Onward own own l.bridge l.bridge := Onward.refl own l.bridge
  have hsendable := h.requests _ hmem
  -- the requests, as they are handled on the bridge
  cases hserved with
  | refused hcase =>
    obtain ⟨own', hb, h'⟩ : ∃ own', Onward own own' l.bridge b' ∧
        Handoff cfg sha256 key own' n { l with bridge := b' } := by
      rcases hcase with rfl | ⟨e, hop, hstep⟩
      · exact ⟨own, hsame, h⟩
      · exact handoff_operates hcfg h hmem hok hop hstep
    -- an error tells nothing
    refine ⟨own', hb, h', (fun _ heq => nomatch heq), ?_⟩
    rintro _ ⟨⟩
    trivial
  | probed hop hsd hinterval hstep =>
    obtain ⟨own', hb, h'⟩ := handoff_operates hcfg h hmem hok hop hstep
    refine ⟨own', hb, h', ?_, fun _ heq => nomatch heq⟩
    rintro _ ⟨⟩
    exact ⟨hsendable, _, _, hsd, hinterval⟩
  -- a recording that was found under the key is the one of the key
  | @found _ r _ _ _ m hrequest hop hstep hrunning hkey hget =>
    obtain ⟨own', hb, h'⟩ := handoff_operates hcfg h hmem hok hop hstep
    refine ⟨own', hb, h', (fun _ heq => nomatch heq), ?_⟩
    rintro _ ⟨⟩
    have hr : r.idempotencyKey = key := by
      rcases hrequest with rfl | rfl
      · exact hsendable
      · exact hsendable.1
    rw [← Manager.known_of_running hrunning] at hkey hget
    exact truthful_manifest (h'.own_of_mem (hr ▸ hkey)) hget
  | status hrunning hget =>
    refine ⟨own, hsame, h, (fun _ heq => nomatch heq), ?_⟩
    rintro _ ⟨⟩
    obtain ⟨-, rfl⟩ := State.mem_of_get hget
    rw [← Manager.known_of_running hrunning] at hget
    exact truthful_manifest hsendable hget
  -- what is sent of the media is checked by the client
  | media =>
    refine ⟨own, hsame, h, (fun _ heq => nomatch heq), ?_⟩
    rintro _ ⟨⟩
    trivial
  -- the recording was released by this request, or before
  | deleted hstep hrunning hget =>
    obtain ⟨own', hb, h'⟩ := handoff_operates hcfg h hmem hok .acknowledge hstep
    refine ⟨own', hb, h', (fun _ heq => nomatch heq), ?_⟩
    rintro _ ⟨⟩
    rw [← Manager.known_of_running hrunning] at hget
    exact ⟨_, hb.stays _ hsendable.1, hget⟩

/-! ### The consumer -/

/-- The client moves on, and may send a request. -/
theorem Handoff.sent {request : Option Request} (h : Handoff cfg sha256 key own n l)
    (hkeeps : (l.client.receipt key ≠ none → c'.receipt key ≠ none) ∨
      ∀ id, own = some id → l.bridge.known.get id = none)
    (hnew : ∀ request', request = some request' → Sendable cfg key own l.bridge c' request')
    (hreceipt : ∀ x, c'.receipt key = some x →
      Kept own l.bridge x ∧ Committed sha256 c'.destination x)
    (hphase : Stands sha256 key own l.bridge c' c'.phase) :
    Handoff cfg sha256 key own n (l.sent (c', request)) where
  bridge := by rw [Link.sent_bridge]; exact h.bridge
  numbered := h.numbered.sent
  unheld := by rw [Link.sent_bridge]; exact h.unheld
  owned := by rw [Link.sent_bridge]; exact h.owned
  checked := by rw [Link.sent_bridge]; exact h.checked
  stocked := by
    rw [Link.sent_bridge, Link.sent_client]
    -- a recording that is ready keeps its media or has a receipt
    intro id m hid hget hready
    rcases hkeeps with hkeeps | hgone
    · exact (h.stocked id m hid hget hready).imp_right hkeeps
    · exact nomatch (hgone id hid).symm.trans hget
  requests := by
    intro e he
    rw [Link.sent_bridge, Link.sent_client]
    -- the requests of before, and the new one
    rcases Link.mem_sent_requests.mp he with he | ⟨request', hrequest, rfl⟩
    · have hsendable := h.requests e he
      revert hsendable
      cases e.2 with
      | delete id =>
        rintro ⟨hid, hdelete⟩
        refine ⟨hid, ?_⟩
        rcases hkeeps with hkeeps | hgone
        · exact hdelete.imp_right hkeeps
        · -- a DELETE that is still on its way finds nothing
          exact .inl (settled_of_gone (hgone id hid))
      | _ => exact fun hsendable => hsendable
    · exact hnew request' hrequest
  replies := by rw [Link.sent_replies, Link.sent_bridge]; exact h.replies
  receipt := by rw [Link.sent_client, Link.sent_bridge]; exact hreceipt
  phase := by rw [Link.sent_client, Link.sent_bridge]; exact hphase

/-- The destination stays as it is. -/
theorem Handoff.moved {phase : PullPhase} {request : Option Request}
    (h : Handoff cfg sha256 key own n l)
    (hnew : ∀ request', request = some request' →
      Sendable cfg key own l.bridge l.client request')
    (hphase : Stands sha256 key own l.bridge l.client phase) :
    Handoff cfg sha256 key own n (l.sent ({ l.client with phase }, request)) :=
  h.sent (.inl fun hsome => hsome) hnew h.receipt hphase

/-- The pull goes on by itself. -/
theorem handoff_advances {event : PullEvent} {request : Option Request}
    (h : Handoff cfg sha256 key own n l) (hkey : ∀ r, event = .call r → r.idempotencyKey = key)
    (hadv : Advances sha256 l.client event c' request) :
    Handoff cfg sha256 key own n (l.sent (c', request)) := by
  have hphase := h.phase
  have hquiet : ∀ request', none = some request' →
      Sendable cfg key own l.bridge l.client request' := fun _ heq => nomatch heq
  cases hadv with
  | stuck => exact h.moved hquiet fun _ heq => nomatch heq
  -- a receipt is left of a former pull: its recording is only to be acknowledged
  | @recover r x _ hlookup =>
    rw [hkey r rfl] at hlookup
    have hsome := Consumer.receipt_eq_some.mpr hlookup
    refine h.moved ?_ ⟨hkey r rfl, hsome⟩
    rintro _ ⟨⟩
    exact ⟨(h.receipt x hsome).1.1, .inr (hsome ▸ Option.some_ne_none x)⟩
  -- without one the recording is requested
  | @create r _ hlookup =>
    rw [hkey r rfl] at hlookup
    refine h.moved ?_ ⟨hkey r rfl, Consumer.receipt_eq_none.mpr hlookup⟩
    rintro _ ⟨⟩
    exact hkey r rfl
  | poll hpoll =>
    rw [hpoll] at hphase
    refine h.moved ?_ ⟨hphase.1, hphase.2.1⟩
    rintro _ ⟨⟩
    exact hphase.2.2
  | deadline => exact h.moved hquiet fun _ heq => nomatch heq
  -- the file is renamed to its place, and checked against the manifest
  | rename hdown =>
    rw [hdown] at hphase
    obtain ⟨hr, hnone, hkept, hfits⟩ := hphase
    refine h.sent (.inl fun hsome => hsome) hquiet ?_
      ⟨hr, hnone, hkept, _, Keyed.lookup_insert_self, hfits⟩
    exact fun x hx => nomatch hnone.symm.trans hx
  -- the receipt is written for the file that is in the destination
  | @receipt r x hren =>
    rw [hren] at hphase
    obtain ⟨hr, -, hkept, hcommitted⟩ := hphase
    have hsome : Consumer.receipt { l.client with
        receipts := Keyed.insert Prod.fst l.client.receipts (r.idempotencyKey, x)
        phase := .receipted r x } key = some x := by
      rw [Consumer.receipt_eq_some, ← hr]
      exact Keyed.lookup_insert_self
    refine h.sent (.inl fun _ => hsome ▸ Option.some_ne_none x) (fun _ heq => nomatch heq) ?_
      ⟨hr, hsome⟩
    intro x' hx'
    obtain rfl := Option.some.inj (hsome.symm.trans hx')
    exact ⟨hkept, hcommitted⟩
  | @acknowledge r x hrec =>
    rw [hrec] at hphase
    obtain ⟨hr, hsome⟩ := hphase
    refine h.moved ?_ ⟨hr, hsome⟩
    rintro _ ⟨⟩
    exact ⟨(h.receipt x hsome).1.1, .inr (hsome ▸ Option.some_ne_none x)⟩
  -- the receipt goes only when the bridge has given the recording up
  | @remove r x hack =>
    rw [hack] at hphase
    obtain ⟨hr, hsome, hgone⟩ := hphase
    obtain ⟨hkept, hcommitted⟩ := h.receipt x hsome
    have hnone : Consumer.receipt { l.client with
        receipts := Keyed.remove Prod.fst l.client.receipts r.idempotencyKey
        phase := .closing r x } key = none := by
      rw [Consumer.receipt_eq_none, ← hr]
      exact Keyed.lookup_remove_self
    refine h.sent (.inr ?_) (fun _ heq => nomatch heq) ?_ ⟨hr, hcommitted⟩
    · intro id hown
      obtain rfl := Option.some.inj (hown.symm.trans hkept.1)
      exact hgone
    · exact fun x' hx' => nomatch hnone.symm.trans hx'
  | finish hclose =>
    rw [hclose] at hphase
    refine h.moved hquiet ?_
    rintro _ ⟨⟩
    exact hphase.2
  | failed => exact h.moved hquiet fun _ heq => nomatch heq
  | broken => exact h.moved hquiet fun _ heq => nomatch heq
  | crash => exact h.moved hquiet trivial

/-- The pull gets a reply. -/
theorem handoff_receives {reply : Reply} {request : Option Request}
    (h : Handoff cfg sha256 key own n l) (htruthful : Truthful own l.bridge reply)
    (hrec : Receives sha256 l.client reply c' request) :
    Handoff cfg sha256 key own n (l.sent (c', request)) := by
  have hphase := h.phase
  have hquiet : ∀ request', none = some request' →
      Sendable cfg key own l.bridge l.client request' := by
    rintro _ ⟨⟩
  cases hrec with
  -- what the manifest says decides how the pull goes on
  | @examine r m hwait =>
    obtain ⟨hown, hsettled⟩ := htruthful
    have hr : r.idempotencyKey = key ∧ l.client.receipt key = none := by
      rcases hwait with heq | heq <;> rw [heq] at hphase <;> exact hphase
    unfold SceneTrove.examine
    split
    · exact h.moved hquiet ⟨hr.1, hr.2, hown⟩
    · exact h.moved hquiet ⟨hr.1, hr.2, hown⟩
    · rename_i hfailed
      refine h.moved ?_ ⟨hr.1, hr.2, hown⟩
      rintro _ ⟨⟩
      -- a failed recording has nothing to lose
      refine ⟨hown, .inl ?_⟩
      have hfinal : m.isActive = false := by
        rw [RecordingManifest.isActive, hfailed]
        rfl
      intro m' hm'
      obtain ⟨hfinal', heq⟩ := hsettled hfinal m' hm'
      refine ⟨hfinal', fun hready => ?_⟩
      rw [heq hready] at hready
      cases hfailed.symm.trans hready
    -- a recording that is ready has a name for its media, and is fetched
    · rename_i hready
      split
      · exact h.moved hquiet (by rintro _ ⟨⟩)
      · refine h.moved ?_ ⟨hr.1, hr.2, hown, hsettled ?_⟩
        · rintro _ ⟨⟩
          trivial
        · rw [RecordingManifest.isActive, hready]
          rfl
  | refused => exact h.moved hquiet (by rintro _ ⟨⟩)
  | released => exact h.moved hquiet (by rintro _ ⟨⟩)
  | noMedia => exact h.moved hquiet (by rintro _ ⟨⟩)
  | mismatch => exact h.moved hquiet (by rintro _ ⟨⟩)
  -- the media that was downloaded is the media of the manifest
  | download hfetch hdownload =>
    rw [hfetch] at hphase
    obtain ⟨hr, hnone, hown, hsettled⟩ := hphase
    obtain ⟨hfits, hagrees, hid, -⟩ := download_eq_ok hdownload
    refine h.moved hquiet ⟨hr, hnone, ⟨hid ▸ hown, ?_⟩, hfits⟩
    rw [hid]
    refine hsettled.mono ?_
    rintro _ rfl
    exact hagrees
  -- the answer to the DELETE says that the recording is gone
  | @acknowledged r x hack =>
    rw [hack] at hphase
    obtain ⟨hr, hsome⟩ := hphase
    obtain ⟨id, hown, hgone⟩ := htruthful
    obtain rfl := Option.some.inj (hown.symm.trans (h.receipt x hsome).1.1)
    exact h.moved hquiet ⟨hr, hsome, hgone⟩
  | unacknowledged => exact h.moved hquiet (by rintro _ ⟨⟩)

/-! ### Whole runs -/

/-- Other clients neither use the key nor acknowledge its recording. -/
def Foreign (key : String) (b : Manager) : Recordings.Event → Prop
  | .start _ _ key' _ _ _ _ => key' ≠ key
  | .startSd request _ _ _ _ => request.key ≠ key
  | .acknowledge id _ _ => (key, id) ∉ b.state.idempotency
  | _ => True

/-- The runs in question: every pull is under the key; the journal of the bridge can be written, it
does not crash while a recording is `ready` in memory only, and others use other keys. -/
def Meanwhile (key : String) (l : Link Consumer) : LinkEvent PullEvent → Prop
  | .client (.call r) => r.idempotencyKey = key
  | .client _ | .deliver => True
  | .serve _ handling => handling.persists
  | .bridge event => Manager.persists event ∧ l.bridge.Timely event ∧ Foreign key l.bridge event

/-- The recording has the key as long as it is there, so others do not acknowledge it. -/
theorem Handoff.gone_of_foreign {now : Timestamp} {faults : AckFaults}
    (h : Handoff cfg sha256 key own n l) (hown : own = some id)
    (hforeign : Foreign key l.bridge (.acknowledge id now faults))
    (hstep : l.bridge.step cfg sha256 (.acknowledge id now faults) = some b') :
    l.bridge.known.get id = none := by
  obtain ⟨hrunning, -⟩ := EventSystem.guarded hstep
  rcases (h.owned id hown).2 with hmem | ⟨before, t, after, hacks, -, rfl, -⟩
  · exact absurd (Manager.known_of_running hrunning ▸ hmem) hforeign
  · exact State.get_eq_none.mpr (h.bridge.known.consistent.retired t
      (hacks ▸ List.mem_append_right _ List.mem_cons_self))

/-- The acknowledgements of others. -/
def others (l : Link Consumer) : LinkEvent PullEvent → ℕ
  | .bridge event => if l.bridge.releases event then 1 else 0
  | _ => 0

/-- One event of the consumer and the bridge. -/
abbrev handoffStep (cfg : Config) (sha256 : Sha256) :
    Link Consumer → LinkEvent PullEvent → Option (Link Consumer) :=
  Link.step cfg sha256 (Consumer.advance sha256) (Consumer.receive sha256)

/-- **One step.** -/
theorem handoff_step {event : LinkEvent PullEvent} (hcfg : cfg.Bounded)
    (h : Handoff cfg sha256 key own n l) (hok : Meanwhile key l event)
    (hfew : n + others l event < maxAckTombstones)
    (hstep : handoffStep cfg sha256 l event = some l') :
    ∃ own', (∀ id, own = some id → own' = some id) ∧
      Handoff cfg sha256 key own' (n + others l event) l' := by
  cases Link.step_cases hstep with
  -- the client
  | @client event next hnext =>
    refine ⟨own, fun _ hid => hid, handoff_advances h ?_ (advance_cases hnext)⟩
    rintro r rfl
    exact hok
  | deliver hmem hnext =>
    exact ⟨own, fun _ hid => hid, handoff_receives h (h.replies _ hmem) (receive_cases hnext)⟩
  -- the bridge
  | passed hmem hserved =>
    obtain ⟨own', hb, h', hpassed, -⟩ := handoff_served hcfg h hmem hok hserved
    refine ⟨own', hb.stays,
      { h' with numbered := Link.numbered_step h.numbered hstep, requests := ?_ }⟩
    intro e he
    rcases Keyed.mem_insert.mp he with ⟨he, -⟩ | rfl
    · exact h'.requests e he
    · exact hpassed _ rfl
  | answered hmem hserved =>
    obtain ⟨own', hb, h', -, hreply⟩ := handoff_served hcfg h hmem hok hserved
    refine ⟨own', hb.stays, { h' with
      numbered := Link.numbered_step h.numbered hstep, requests := ?_, replies := ?_ }⟩
    · exact fun e he => h'.requests e (Keyed.mem_remove.mp he).1
    · intro e he
      rcases Keyed.mem_insert.mp he with ⟨he, -⟩ | rfl
      · exact h'.replies e he
      · exact hreply _ rfl
  -- the bridge by itself, with requests of others that use other keys
  | @bridge event b' hbridge =>
    obtain ⟨hpersists, htimely, hforeign⟩ := hok
    have hadmits : ∀ m kind scan persist, Manager.Requests event key m kind scan persist →
        Manager.Admitted cfg l.bridge key m kind scan persist b' → Checked cfg m := by
      -- nobody else uses the key
      intro m kind scan persist hreq _
      cases hreq <;> exact absurd rfl hforeign
    have hacks : ∀ id now faults, own = some id → event = .acknowledge id now faults →
        Settled l.bridge id (fun _ => False) ∨ l.client.receipt key ≠ none := by
      rintro id now faults hown rfl
      exact .inl (settled_of_gone (h.gone_of_foreign hown hforeign hbridge))
    have hcount : ∀ id x now faults, own = some id → event = .acknowledge x now faults → x ≠ id →
        l.bridge.releases event = true →
          n + 1 ≤ n + others l (.bridge event) ∧ n + 1 < maxAckTombstones := by
      intro id x now faults _ _ _ hreleases
      have hone : others l (.bridge event) = 1 := if_pos hreleases
      rw [hone] at hfew ⊢
      exact ⟨le_rfl, hfew⟩
    obtain ⟨own', hb, h'⟩ := handoff_bridge hcfg h hpersists htimely hbridge hadmits hacks
      (Nat.le_add_right n _) hcount
    exact ⟨own', hb.stays, h'⟩

/-- **Every run.** -/
theorem handoff_run {events : List (LinkEvent PullEvent)} (hcfg : cfg.Bounded)
    (h : Handoff cfg sha256 key own n l)
    (hok : EventSystem.Steps (handoffStep cfg sha256) (Meanwhile key) l events)
    (hrun : EventSystem.run (handoffStep cfg sha256) l events = some l')
    (hfew : n + EventSystem.spent (handoffStep cfg sha256) others l events < maxAckTombstones) :
    ∃ own', (∀ id, own = some id → own' = some id) ∧
      Handoff cfg sha256 key own' (n + EventSystem.spent (handoffStep cfg sha256) others l events)
        l' := by
  refine EventSystem.run_budget (fun k t => k < maxAckTombstones → ∃ own',
    (∀ id, own = some id → own' = some id) ∧ Handoff cfg sha256 key own' k t) ?_ ?_ hok hrun hfew
  -- the recording under the key stays the same from step to step
  · intro k t event t' ht hevent hstep hfew
    obtain ⟨own₁, hown₁, h₁⟩ := ht (Nat.lt_of_le_of_lt (Nat.le_add_right _ _) hfew)
    obtain ⟨own₂, hown₂, h₂⟩ := handoff_step hcfg h₁ hevent hfew hstep
    exact ⟨own₂, fun id hid => hown₂ id (hown₁ id hid), h₂⟩
  · exact fun _ => ⟨own, fun _ hid => hid, h⟩

end

end SceneTrove

end EzvizBridge
