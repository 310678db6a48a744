import EzvizBridge.Hub.FanOut

/-!
# Upstream sessions of one camera

A camera serves live sessions (`stream_mpeg_ps`, called by the producer tasks of its hub) and
microSD playbacks (`stream_sd_playback`, called by `RawStreamHub::sd_playback` for a recording of
`RecordingManager::start_sd`). ADR-0004 allows at most one upstream session at a time.

What the code enforces is this: a playback is refused when a live subscriber or an unfinished
producer exists at the moment of the test (`is_live`), and a microSD recording is admitted only when
no recording of the camera is active (`enqueue` with `exclusive`). What it does not enforce: a
`subscribe` that restarts the stream cancels the current session and starts the next one without
waiting for the first to return; a `subscribe` does not look at playbacks at all; and `is_live` is
tested before the playback is opened, not together with it. `two_live_sessions` is a run with two
sessions in progress.

`Exclusive` names the starts that these gaps allow and that lead to a second session. In a run
without them there is at most one session at any time (`at_most_one_session`).
-/

namespace EzvizBridge

/-! ### Recordings -/

/-- Where a recording stands, from its request to its final manifest. -/
inductive Stage
  /-- `start_sd` is about to test whether anybody is subscribed -/
  | requested
  /-- `start_sd` is about to test whether a producer is unfinished -/
  | probing
  /-- about to enter the critical section of `enqueue` -/
  | queueing
  | refused
  /-- the manifest is `pending` -/
  | pending
  /-- the manifest is `recording`; a microSD recording is about to spawn `sd_playback` -/
  | recording
  /-- the two tests of `is_live` in `sd_playback` -/
  | testing
  | tested
  /-- `is_live` was false; `stream_sd_playback` is not called yet -/
  | idle
  /-- `stream_sd_playback` has been called and has not returned -/
  | playing
  /-- `sd_playback` has returned -/
  | returned
  /-- the manifest is `ready` or `failed` -/
  | settled
  deriving DecidableEq, Repr

def Stage.isActive : Stage → Bool
  | .requested | .probing | .queueing | .refused | .settled => false
  | _ => true

/-- A playback that has passed its test of `is_live` and has not returned. -/
def Stage.holdsCamera : Stage → Bool
  | .idle | .playing => true
  | _ => false

/-- A recording of the camera: a live one, or a microSD interval. -/
structure Recording where
  sd : Bool
  stage : Stage
  deriving DecidableEq, Repr

/-- The hub of one camera and the recordings of that camera. A live recording is a client of the
hub like any other: its subscription is made of the events of the hub. -/
structure Camera where
  hub : RawInner := {}
  recordings : List Recording := []

/-- What can happen next to a camera. -/
inductive CameraEvent
  | hub (e : Event)
  /-- `start_sd` with a fresh key, and `start` -/
  | requestSd
  | requestLive
  /-- the next step of a recording; `stream_sd_playback` returns -/
  | advance (n : ℕ)
  | playbackReturns (n : ℕ)
  /-- a recording ends: `complete` or `fail` on its manifest (`fail` also when `begin` cannot
  persist it) -/
  | settle (n : ℕ)
  deriving DecidableEq, Repr

namespace Camera

/-- The second operand of `is_live`: the stored producer is unfinished. -/
def producerLive (self : Camera) : Bool :=
  self.hub.producer.any fun current => !self.hub.isFinished current

/-- The next stage of a recording in `start_sd`, `enqueue`, `begin` and `sd_playback`. -/
def nextStage (self : Camera) (sd : Bool) : Stage → Option Stage
  | .requested => if self.hub.subscribers = [] then some .probing else some .refused
  | .probing => if self.producerLive then some .refused else some .queueing
  | .queueing =>
    if sd ∧ self.recordings.any (·.stage.isActive) then some .refused else some .pending
  | .pending => some .recording
  | .recording => if sd then some .testing else none
  | .testing => if self.hub.subscribers = [] then some .tested else some .returned
  | .tested => if self.producerLive then some .returned else some .idle
  | .idle => some .playing
  | .refused | .playing | .returned | .settled => none

/-- Recording `n` moves to another stage. -/
def setStage (self : Camera) (n : ℕ) (sd : Bool) (stage : Stage) : Camera :=
  { self with recordings := self.recordings.set n ⟨sd, stage⟩ }

/-- One event; `none` when it cannot happen in this state. -/
def step (cfg : HubConfig) (self : Camera) : CameraEvent → Option Camera
  | .hub e => (self.hub.step cfg e).map fun hub => { self with hub }
  | .requestSd => some { self with recordings := self.recordings ++ [⟨true, .requested⟩] }
  | .requestLive => some { self with recordings := self.recordings ++ [⟨false, .queueing⟩] }
  | .advance n =>
    match self.recordings[n]? with
    | some ⟨sd, stage⟩ => (self.nextStage sd stage).map (self.setStage n sd)
    | none => none
  | .playbackReturns n =>
    match self.recordings[n]? with
    | some ⟨true, .playing⟩ => some (self.setStage n true .returned)
    | _ => none
  | .settle n =>
    match self.recordings[n]? with
    | some ⟨true, .returned⟩ => some (self.setStage n true .settled)
    | some ⟨false, .recording⟩ => some (self.setStage n false .settled)
    | some ⟨sd, .pending⟩ => some (self.setStage n sd .settled)
    | _ => none

/-- An upstream session: the live one of a generation, or the playback of a recording. -/
inductive Session
  | live (g : ℕ)
  | sd (n : ℕ)
  deriving DecidableEq, Repr

/-- The session has been started and has not returned. -/
def InProgress (self : Camera) : Session → Prop
  | .live g => self.hub.phase g = some .streaming
  | .sd n => self.recordings[n]? = some ⟨true, .playing⟩

/-- At most one upstream session is in progress. -/
def AtMostOne (self : Camera) : Prop :=
  ∀ x y, self.InProgress x → self.InProgress y → x = y

/-- A `subscribe` that starts a new generation does so only when every earlier producer has returned
from its session, and no playback has passed its test of `is_live` without having returned. -/
def Exclusive (cfg : HubConfig) (self : Camera) : CameraEvent → Prop
  | .hub (.join _) =>
    self.hub.subscribers.length < cfg.maxSubscribers → self.hub.starts →
      (∀ g p, self.hub.phase g = some p → p.mayStream = false) ∧
      ∀ (n : ℕ) (r : Recording), self.recordings[n]? = some r → r.stage.holdsCamera = false
  | _ => True

/-! ### The invariant -/

variable {cfg : HubConfig} {c c' : Camera}

/-- The invariant of a camera whose hub is not being closed. Only the current producer can be in a
session or still get into one; none can while a playback has passed its test and has not returned;
and at most one microSD recording is active. -/
structure OneSession (c : Camera) : Prop where
  hub : c.hub.FedFrom
  live : ∀ g p, c.hub.phase g = some p → p.mayStream = true → g = c.hub.producerGeneration
  playback : ∀ (n : ℕ) (r : Recording), c.recordings[n]? = some r →
    r.stage.holdsCamera = true → ∀ g p, c.hub.phase g = some p → p.mayStream = false
  sd : ∀ (n m : ℕ) (r r' : Recording), c.recordings[n]? = some r → c.recordings[m]? = some r' →
    r.sd = true → r'.sd = true → r.stage.isActive = true → r'.stage.isActive = true → n = m

theorem oneSession_new : OneSession {} where
  hub := RawInner.fedFrom_new
  live := fun _ _ h => nomatch h
  playback := fun _ _ h => nomatch h
  sd := fun _ _ _ _ h => nomatch h

/-- There is one session at most. -/
theorem OneSession.atMostOne (h : c.OneSession) : c.AtMostOne := by
  intro x y hx hy
  cases x with
  | live g =>
    cases y with
    | live g' => rw [h.live g _ hx rfl, h.live g' _ hy rfl]
    | sd n => exact nomatch h.playback n _ hy rfl g _ hx
  | sd n =>
    cases y with
    | live g => exact nomatch h.playback n _ hx rfl g _ hy
    | sd m => rw [h.sd n m _ _ hx hy rfl rfl rfl rfl]

/-! ### Steps of the hub -/

/-- A task does not get back to a point from which it can open its session. -/
theorem mayStream_of_moves {current : Prop} {p q : Phase} (h : Phase.Moves current p q)
    (hq : q.mayStream = true) : p.mayStream = true := by
  cases h with
  | backoff | start | wake | session => rfl
  | _ => exact nomatch hq

/-- No producer that could not stream before a step of the hub can stream after it, unless the step
started it. -/
theorem OneSession.hubStep {e : Event} {hub : RawInner} (h : c.OneSession)
    (hex : c.Exclusive cfg (.hub e)) (hstep : c.hub.step cfg e = some hub)
    (hclose : e ≠ .close) : OneSession { c with hub } := by
  have hfed := h.hub.step hstep hclose
  -- a caller that joins, a task, or anything else
  cases e with
  | join id =>
    obtain ⟨-, rfl⟩ := EventSystem.guarded hstep
    rcases RawInner.join_cases cfg c.hub id with ⟨-, heq⟩ | ⟨hlt, -, hrun⟩
    · rw [heq] at hfed ⊢
      exact ⟨hfed, h.live, h.playback, h.sd⟩
    · rcases hrun with ⟨-, hphase, -, hgen⟩ | ⟨hstarts, hphase, -, hgen⟩
      · refine ⟨hfed, ?_, ?_, h.sd⟩
        · rw [hphase, hgen]
          exact h.live
        · rw [hphase]
          exact h.playback
      · -- the new producer is alone: no earlier one can stream, and no playback is under way
        obtain ⟨halone, hidle⟩ := hex hlt hstarts
        refine ⟨hfed, fun g p hp hm => ?_, fun n r hn hr => ?_, h.sd⟩
        · rw [hphase] at hp
          rw [hgen]
          by_contra hne
          rw [Function.update_of_ne hne] at hp
          exact Bool.false_ne_true ((halone g p hp).symm.trans hm)
        · exact absurd hr (by rw [hidle n r hn]; exact Bool.false_ne_true)
  | advance g | giveUp g | ret g _ =>
    obtain ⟨p, q, ht⟩ := RawInner.step_task (g := g) hstep rfl
    -- what may stream now could stream before
    have hback : ∀ x r, hub.phase x = some r → r.mayStream = true →
        ∃ r', c.hub.phase x = some r' ∧ r'.mayStream = true := by
      intro x r hr hm
      rw [ht.phase] at hr
      by_cases hx : x = g
      · rw [hx, Function.update_self] at hr
        obtain rfl := Option.some.inj hr
        exact ⟨p, by rw [hx]; exact ht.was, mayStream_of_moves ht.moves hm⟩
      · rw [Function.update_of_ne hx] at hr
        exact ⟨r, hr, hm⟩
    refine ⟨hfed, fun x r hr hm => ?_, fun n r hn hr x u hu => ?_, h.sd⟩
    · obtain ⟨r', hr', hm'⟩ := hback x r hr hm
      rw [ht.generation]
      exact h.live x r' hr' hm'
    · by_contra hm
      obtain ⟨u', hu', hm'⟩ := hback x u hu (by simpa using hm)
      exact Bool.false_ne_true ((h.playback n r hn hr x u' hu').symm.trans hm')
  | _ =>
    have hk := RawInner.step_keeps hstep id
    refine ⟨hfed, ?_, ?_, h.sd⟩
    · rw [hk.phase, hk.generation]
      exact h.live
    · rw [hk.phase]
      exact h.playback

/-! ### Steps of a recording -/

/-- The recording whose stage is set, or another one. -/
theorem getElem?_setStage {n m : ℕ} {sd : Bool} {stage : Stage} {r : Recording}
    (h : (c.setStage n sd stage).recordings[m]? = some r) :
    (m = n ∧ r = ⟨sd, stage⟩) ∨ (m ≠ n ∧ c.recordings[m]? = some r) := by
  rw [setStage, List.getElem?_set] at h
  by_cases hm : n = m
  · rw [if_pos hm] at h
    split at h
    · exact .inl ⟨hm.symm, (Option.some.inj h).symm⟩
    · exact nomatch h
  · rw [if_neg hm] at h
    exact .inr ⟨fun h => hm h.symm, h⟩

/-- When the second test of `is_live` fails, no producer can stream. -/
theorem OneSession.notLive (h : c.OneSession) (hlive : c.producerLive = false) :
    ∀ g p, c.hub.phase g = some p → p.mayStream = false := by
  intro g p hp
  by_contra hm
  have hm : p.mayStream = true := by simpa using hm
  obtain rfl := h.live g p hp hm
  have hpos := (h.hub.tasks _ p hp).1
  have hfin : c.hub.isFinished c.hub.producerGeneration = false := by
    rw [RawInner.isFinished, hp]
    cases p <;> first | rfl | contradiction
  rw [producerLive, h.hub.producer, if_neg (by omega), Option.any_some, hfin] at hlive
  cases hlive

/-- A recording becomes active only in the critical section of `enqueue`. -/
theorem nextStage_active {sd : Bool} {stage stage' : Stage}
    (h : c.nextStage sd stage = some stage') (hactive : stage'.isActive = true) :
    stage.isActive = true ∨
      (sd = true → ∀ (m : ℕ) (r : Recording), c.recordings[m]? = some r →
        r.stage.isActive = false) := by
  -- only `enqueue` makes a recording active
  cases stage with
  | queueing =>
    refine .inr fun hsd m r hr => ?_
    rw [nextStage] at h
    split at h
    · obtain rfl := Option.some.inj h
      exact nomatch hactive
    · next hnone =>
      by_contra hr'
      exact hnone ⟨hsd, List.any_eq_true.mpr ⟨r, List.mem_of_getElem? hr, by simpa using hr'⟩⟩
  | requested | probing =>
    rw [nextStage] at h
    split at h <;> obtain rfl := Option.some.inj h <;> exact nomatch hactive
  | refused | settled => exact nomatch h
  | _ => exact .inl rfl

/-- A playback passes its test only when no producer can stream. -/
theorem OneSession.nextStage_playback {n : ℕ} {sd : Bool} {stage stage' : Stage}
    (h : c.OneSession) (hn : c.recordings[n]? = some ⟨sd, stage⟩)
    (hnext : c.nextStage sd stage = some stage') (hplay : stage'.holdsCamera = true) :
    ∀ g p, c.hub.phase g = some p → p.mayStream = false := by
  -- only the test lets a recording hold the camera
  cases stage with
  | tested =>
    rw [nextStage] at hnext
    split at hnext
    · obtain rfl := Option.some.inj hnext
      exact nomatch hplay
    · next hlive => exact h.notLive (by simpa using hlive)
  | idle => exact h.playback n _ hn rfl
  | requested | probing | queueing | recording | testing =>
    rw [nextStage] at hnext
    split at hnext <;>
      first
      | contradiction
      | (obtain rfl := Option.some.inj hnext
         exact nomatch hplay)
  | pending =>
    obtain rfl := Option.some.inj hnext
    exact nomatch hplay
  | refused | playing | returned | settled => exact nomatch hnext

/-- A recording goes on. -/
theorem OneSession.setStage {n : ℕ} {sd : Bool} {stage stage' : Stage} (h : c.OneSession)
    (hn : c.recordings[n]? = some ⟨sd, stage⟩)
    (hactive : stage'.isActive = true → stage.isActive = true ∨
      (sd = true → ∀ (m : ℕ) (r : Recording), c.recordings[m]? = some r →
        r.stage.isActive = false))
    (hplay : stage'.holdsCamera = true →
      ∀ g p, c.hub.phase g = some p → p.mayStream = false) :
    (c.setStage n sd stage').OneSession := by
  -- an active microSD recording of the new list was one of the old list, or is the first one
  have hold : ∀ (m : ℕ) (r : Recording), (c.setStage n sd stage').recordings[m]? = some r →
      r.sd = true → r.stage.isActive = true →
      (∃ r', c.recordings[m]? = some r' ∧ r'.sd = true ∧ r'.stage.isActive = true) ∨
        (m = n ∧ ∀ (k : ℕ) (r : Recording), c.recordings[k]? = some r →
          r.stage.isActive = false) := by
    intro m r hr hsd hact
    rcases getElem?_setStage hr with ⟨hm, rfl⟩ | ⟨-, hr⟩
    · rcases hactive hact with hst | hnone
      · exact .inl ⟨⟨sd, stage⟩, by rw [hm]; exact hn, hsd, hst⟩
      · exact .inr ⟨hm, hnone hsd⟩
    · exact .inl ⟨r, hr, hsd, hact⟩
  refine ⟨h.hub, h.live, fun m r hr hst => ?_, fun m k r r' hr hr' hsd hsd' ha ha' => ?_⟩
  · rcases getElem?_setStage hr with ⟨-, rfl⟩ | ⟨-, hr⟩
    · exact hplay hst
    · exact h.playback m r hr hst
  -- two recordings that are active at once are the same
  · rcases hold m r hr hsd ha with ⟨u, hu, husd, hua⟩ | ⟨hm, hnone⟩ <;>
      rcases hold k r' hr' hsd' ha' with ⟨v, hv, hvsd, hva⟩ | ⟨hk, hnone'⟩
    · exact h.sd m k u v hu hv husd hvsd hua hva
    · exact absurd hua (by rw [hnone' m u hu]; exact Bool.false_ne_true)
    · exact absurd hva (by rw [hnone k v hv]; exact Bool.false_ne_true)
    · rw [hm, hk]

theorem holdsCamera_active {stage : Stage} (h : stage.holdsCamera = true) :
    stage.isActive = true := by
  cases stage with
  | idle | playing => rfl
  | _ => exact nomatch h

/-- Every step but a close keeps it. -/
theorem OneSession.step {e : CameraEvent} (h : c.OneSession) (hex : c.Exclusive cfg e)
    (hstep : c.step cfg e = some c') (hclose : e ≠ .hub .close) : c'.OneSession := by
  -- a request is not active yet
  have hrequest : ∀ r : Recording, r.stage.isActive = false →
      OneSession { c with recordings := c.recordings ++ [r] } := by
    intro r hr
    have hget : ∀ (m : ℕ) (u : Recording), (c.recordings ++ [r])[m]? = some u →
        c.recordings[m]? = some u ∨ u = r := by
      intro m u hu
      rw [List.getElem?_append] at hu
      split at hu
      · exact .inl hu
      · exact .inr (List.mem_singleton.mp (List.mem_of_getElem? hu))
    refine ⟨h.hub, h.live, fun m u hu hst => ?_, fun m k u v hu hv hsd hsd' ha ha' => ?_⟩
    · rcases hget m u hu with hu | rfl
      · exact h.playback m u hu hst
      · exact absurd (holdsCamera_active hst) (by rw [hr]; exact Bool.false_ne_true)
    · rcases hget m u hu with hu | rfl
      · rcases hget k v hv with hv | rfl
        · exact h.sd m k u v hu hv hsd hsd' ha ha'
        · exact absurd ha' (by rw [hr]; exact Bool.false_ne_true)
      · exact absurd ha (by rw [hr]; exact Bool.false_ne_true)
  -- event by event
  cases e with
  | hub e =>
    obtain ⟨hub, hhub, rfl⟩ := Option.map_eq_some_iff.mp hstep
    exact h.hubStep hex hhub fun he => hclose (by rw [he])
  | requestSd =>
    obtain rfl := Option.some.inj hstep
    exact hrequest _ rfl
  | requestLive =>
    obtain rfl := Option.some.inj hstep
    exact hrequest _ rfl
  | advance n =>
    simp only [Camera.step] at hstep
    split at hstep
    · next sd stage hn =>
      obtain ⟨stage', hnext, rfl⟩ := Option.map_eq_some_iff.mp hstep
      exact h.setStage hn (nextStage_active hnext) (h.nextStage_playback hn hnext)
    · exact nomatch hstep
  | playbackReturns n =>
    simp only [Camera.step] at hstep
    split at hstep
    · next hn =>
      obtain rfl := Option.some.inj hstep
      exact h.setStage hn (fun _ => .inl rfl) fun h => nomatch h
    · exact nomatch hstep
  | settle n =>
    simp only [Camera.step] at hstep
    split at hstep
    case h_4 => exact nomatch hstep
    all_goals
      obtain rfl := Option.some.inj hstep
      exact h.setStage (by assumption) (fun h => nomatch h) fun h => nomatch h

/-! ### Runs -/

/-- Only a close closes the hub. -/
theorem step_closed {e : CameraEvent} (h : c.step cfg e = some c') (he : e ≠ .hub .close) :
    c'.hub.closed = c.hub.closed := by
  cases e with
  | hub e =>
    obtain ⟨hub, hhub, rfl⟩ := Option.map_eq_some_iff.mp h
    exact RawInner.step_closed hhub fun h => he (by rw [h])
  | requestSd | requestLive =>
    obtain rfl := Option.some.inj h
    rfl
  | advance n =>
    simp only [Camera.step] at h
    split at h
    · obtain ⟨stage', -, rfl⟩ := Option.map_eq_some_iff.mp h
      rfl
    · exact nomatch h
  | playbackReturns n | settle n =>
    simp only [Camera.step] at h
    split at h
    all_goals first | contradiction | (obtain rfl := Option.some.inj h; rfl)

/-- **At most one upstream session.** In a run that does not close the hub, and in which every
`subscribe` that started a new generation did so when no earlier producer could be in a session any
more and no playback had passed its test of `is_live` without having returned, at most one session
is in progress in every state. -/
theorem at_most_one_session (cfg : HubConfig) {es : List CameraEvent} {c : Camera}
    (hrun : EventSystem.run (step cfg) {} es = some c) (hopen : c.hub.closed = false)
    (hex : EventSystem.Steps (step cfg) (Exclusive cfg) {} es) : c.AtMostOne := by
  -- the invariant holds as long as the hub is open
  have hinv : c.hub.closed = false → c.OneSession := by
    refine EventSystem.run_invariant (fun m => m.hub.closed = false → m.OneSession) ?_
      (fun _ => oneSession_new) hex hrun
    intro m e m' hm hok hstep hopen'
    by_cases he : e = .hub .close
    · subst he
      obtain rfl := Option.some.inj hstep
      exact nomatch hopen'
    · rw [step_closed hstep he] at hopen'
      exact (hm hopen').step hok hstep he
  exact (hinv hopen).atMostOne

/-- A playback that returns, and a live session after it. -/
def samplePlayback : List CameraEvent :=
  [.requestSd, .advance 0, .advance 0, .advance 0, .advance 0, .advance 0, .advance 0, .advance 0,
    .advance 0, .playbackReturns 0, .hub .enter, .hub (.join 1), .hub (.advance 1),
    .hub (.advance 1)]

/-- A playback, and then a live stream. -/
theorem at_most_one_session_sample :
    ∃ c, EventSystem.run (step sampleConfig) {} samplePlayback = some c ∧
      c.InProgress (.live 1) ∧ c.AtMostOne := by
  have hex : EventSystem.Steps (step sampleConfig) (Exclusive sampleConfig) {} samplePlayback := by
    iterate 11 refine .cons trivial rfl ?_
    -- the first subscriber arrives when the playback has returned and nothing was ever started
    refine .cons ?_ rfl (.cons trivial rfl (.cons trivial rfl trivial))
    refine fun _ _ => ⟨fun g p hp => (nomatch hp), fun n r hr => ?_⟩
    cases n with
    | zero =>
      obtain rfl := Option.some.inj hr
      rfl
    | succ n => exact nomatch hr
  exact ⟨_, rfl, rfl, at_most_one_session sampleConfig rfl rfl hex⟩

/-- The last subscriber leaves and the next one arrives while the session of the first generation
has not returned: the second one is opened beside it. -/
theorem two_live_sessions :
    ¬ ∀ (cfg : HubConfig) (es : List CameraEvent) (c : Camera),
      EventSystem.run (step cfg) {} es = some c → c.hub.closed = false → c.AtMostOne := by
  intro h
  have hone := h sampleConfig
    [.hub .enter, .hub (.join 1), .hub (.advance 1), .hub (.advance 1), .hub (.unsubscribe 1),
      .hub .enter, .hub (.join 2), .hub (.advance 2), .hub (.advance 2)] _ rfl rfl
  exact absurd (hone (.live 1) (.live 2) rfl rfl) (by decide)

end Camera

end EzvizBridge
