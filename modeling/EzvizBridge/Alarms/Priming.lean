import EzvizBridge.Alarms.Accounts
import EzvizBridge.Alarms.Poller

/-!
# Priming comes before what is new

Priming raises the floor of a history. This would hide alarms from a client that has not read them
yet, were it not that a device is primed only until its first synchronisation, and inserts something
new only after it. `Sane` says so of the poller in any phase of its cycle; from it every step of the
poller is a publication for the readers of every camera (`Sane.step`).
-/

namespace EzvizBridge

namespace Alarms

open Recordings (Persist)

namespace PollerTask

/-- The alarms that a step makes new for the readers of a camera. -/
def newAlarms (self : PollerTask) (event : PollEvent) (camera : String) : List Entry :=
  match event, self.phase with
  | .camera world, .publishing _ _ _ _ live result (published :: _) =>
    if published.1 = camera then
      (self.poller.feed.slots camera).history.newAlarms
        (withPictures world (mine published.2 result.messages)) live
    else []
  | _, _ => []

/-- The cameras belong to the device. -/
def Belong (feed : AlarmFeed) (group : String × List (String × CameraConfig)) : Prop :=
  ∀ camera ∈ group.2, camera ∈ feed.cameras ∧ camera.2.serial = group.1

/-- The phase fits the state of the poller. -/
def Fits (self : PollerTask) : Prop :=
  match self.phase with
  | .idle => True
  | .serials _ groups => ∀ group ∈ groups, Belong self.poller.feed group
  | .publishing _ groups serial _ live _ cameras =>
    (∀ group ∈ groups, Belong self.poller.feed group) ∧ Belong self.poller.feed (serial, cameras) ∧
      live = (self.poller.serials serial).baseline.isSome

/-- What holds of the poller in every reachable state. -/
structure Sane (task : PollerTask) : Prop where
  ordered : ∀ camera, (task.poller.feed.slots camera).Ordered
  /-- before the first synchronisation nothing is new -/
  primed : ∀ camera ∈ task.poller.feed.cameras,
    (task.poller.serials camera.2.serial).baseline = none →
    (task.poller.feed.slots camera.1).history.floor = (task.poller.feed.slots camera.1).history.head
  fits : task.Fits

variable {self next : PollerTask} {feed : AlarmFeed} {result : FetchResult} {live : Bool}
  {camera : String × CameraConfig} {world : CameraIo}

theorem belong_groups (feed : AlarmFeed) : ∀ group ∈ feed.groups, Belong feed group := by
  intro group hgroup camera hcamera
  obtain ⟨serial, -, rfl⟩ := List.mem_map.mp hgroup
  obtain ⟨hmem, hserial⟩ := List.mem_filter.mp hcamera
  exact ⟨hmem, of_decide_eq_true hserial⟩

/-- The history of a camera before and after one turn of the loop over the aliases. -/
theorem extends_publishCamera (hordered : ∀ camera, (feed.slots camera).Ordered)
    (hprimed : live = false →
      (feed.slots camera.1).history.floor = (feed.slots camera.1).history.head) (reader : String) :
    CameraHistory.Extends (feed.slots reader).history
      ((publishCamera feed result live camera world).2.slots reader).history
      (if camera.1 = reader then
        (feed.slots reader).history.newAlarms
          (withPictures world (mine camera.2 result.messages)) live
      else []) := by
  obtain ⟨-, ⟨hnone, hslots⟩ | hslots⟩ := publishCamera_cases feed result live camera world
  · have hnew : (feed.slots reader).history.newAlarms
        (withPictures world (mine camera.2 result.messages)) live = [] := by
      rw [hnone]
      cases live <;> rfl
    rw [hslots, hnew, ite_self]
    exact .refl (hordered reader).indexed
  · rw [hslots]
    -- only the camera that is published gains alarms
    by_cases heq : camera.1 = reader
    · subst heq
      rw [if_pos rfl, Function.update_self, CameraSlot.publish_history]
      exact CameraHistory.extends_insert (hordered _).indexed (hordered _).size hprimed
    · rw [if_neg heq, Function.update_of_ne (Ne.symm heq)]
      exact .refl (hordered reader).indexed

theorem ordered_publishCamera (hordered : ∀ camera, (feed.slots camera).Ordered) (reader : String) :
    ((publishCamera feed result live camera world).2.slots reader).Ordered := by
  obtain ⟨-, ⟨-, hslots⟩ | hslots⟩ := publishCamera_cases feed result live camera world
  · rw [hslots]
    exact hordered reader
  · rw [hslots]
    by_cases heq : reader = camera.1
    · subst heq
      rw [Function.update_self]
      exact (hordered _).publish
    · rw [Function.update_of_ne heq]
      exact hordered reader

/-- Priming leaves nothing new. -/
theorem primed_publishCamera (hordered : ∀ camera, (feed.slots camera).Ordered)
    (hprimed : (feed.slots camera.1).history.floor = (feed.slots camera.1).history.head) :
    ((publishCamera feed result false camera world).2.slots camera.1).history.floor =
      ((publishCamera feed result false camera world).2.slots camera.1).history.head := by
  obtain ⟨-, ⟨-, hslots⟩ | hslots⟩ := publishCamera_cases feed result false camera world
  · rw [hslots]
    exact hprimed
  · rw [hslots, Function.update_self, CameraSlot.publish_history]
    obtain ⟨-, -, hhead, hfloor, -⟩ := CameraHistory.insert_spec (hordered camera.1).indexed
      (hordered camera.1).size
    exact hfloor.trans hhead.symm

/-- The state of a device changes, but not its baseline. -/
theorem Sane.setSerial {serial : String} {state : SerialState} (h : self.Sane)
    (hsame : state.baseline = (self.poller.serials serial).baseline) :
    { self with poller := self.poller.setSerial serial state }.Sane := by
  have hbaseline : ∀ other,
      ((self.poller.setSerial serial state).serials other).baseline =
        (self.poller.serials other).baseline := by
    intro other
    by_cases heq : other = serial
    · subst heq
      rw [AlarmPoller.setSerial_self, hsame]
    · rw [AlarmPoller.setSerial_of_ne _ _ heq]
  -- only the baseline of a serial is looked at
  refine ⟨h.ordered, fun camera hcamera hnone => ?_, ?_⟩
  · exact h.primed camera hcamera ((hbaseline _).symm.trans hnone)
  · have hfits := h.fits
    unfold Fits at hfits ⊢
    dsimp only
    split at hfits
    · trivial
    · exact hfits
    · rw [hbaseline]
      exact hfits

theorem learn_baseline (state : SerialState) (device : Option DeviceSummary) :
    (state.learn device).baseline = state.baseline := by
  unfold SerialState.learn
  split <;> rfl

theorem Sane.moves {phase : CyclePhase} (h : self.Sane)
    (hfits : { self with phase : PollerTask }.Fits) : { self with phase : PollerTask }.Sane :=
  ⟨h.ordered, h.primed, hfits⟩

/-- The next device. -/
theorem Sane.serial {summary : List DeviceSummary} {group : String × List (String × CameraConfig)}
    {groups : List (String × List (String × CameraConfig))} {clock : Clock} {list : ListAnswers}
    (h : self.Sane) (hgroup : Belong self.poller.feed group)
    (hgroups : ∀ group ∈ groups, Belong self.poller.feed group) :
    (PollerTask.serial self.poller summary group groups clock list).Sane ∧
      (PollerTask.serial self.poller summary group groups clock list).poller.feed =
        self.poller.feed := by
  have hlearned := h.setSerial
    (learn_baseline (self.poller.serials group.1)
      (summary.find? fun device => device.serial = group.1))
  unfold PollerTask.serial
  dsimp only
  split_ifs
  · exact ⟨hlearned.moves hgroups, rfl⟩
  · split
    · exact ⟨hlearned.moves hgroups, rfl⟩
    · exact ⟨hlearned.moves ⟨hgroups, hgroup, rfl⟩, rfl⟩

/-- The next camera. -/
theorem Sane.publish {summary : List DeviceSummary}
    {groups : List (String × List (String × CameraConfig))} {serial : String}
    {current : Option String × ℕ} {cameras : List (String × CameraConfig)} (h : self.Sane)
    (hphase : self.phase = .publishing summary groups serial current live result
      (camera :: cameras)) :
    let feed := (publishCamera self.poller.feed result live camera world).2
    PollerTask.Sane
        { poller := { self.poller with feed }
          phase := .publishing summary groups serial current live result cameras } ∧
      PollerTask.Sane { poller := { self.poller with feed }, phase := .serials summary groups } ∧
      ∀ reader, CameraHistory.Extends (self.poller.feed.slots reader).history
        (feed.slots reader).history
        (self.newAlarms (.camera world) reader) := by
  have hfits := h.fits
  unfold Fits at hfits
  rw [hphase] at hfits
  obtain ⟨hgroups, hcameras, hlive⟩ := hfits
  obtain ⟨hmem, hserial⟩ := hcameras camera List.mem_cons_self
  have hcamera := publishCamera_cases self.poller.feed result live camera world
  have hprimed : live = false → (self.poller.feed.slots camera.1).history.floor =
      (self.poller.feed.slots camera.1).history.head := by
    rintro rfl
    refine h.primed camera hmem ?_
    rw [hserial]
    exact Option.isSome_eq_false_iff.mp hlive.symm |> Option.isNone_iff_eq_none.mp
  have hbelong : ∀ group, Belong self.poller.feed group →
      Belong (publishCamera self.poller.feed result live camera world).2 group := by
    intro group hgroup camera' hcamera'
    rw [hcamera.1]
    exact hgroup camera' hcamera'
  -- a camera without baseline has published nothing live
  have hnothing : ∀ camera' ∈ self.poller.feed.cameras,
      (self.poller.serials camera'.2.serial).baseline = none →
      ((publishCamera self.poller.feed result live camera world).2.slots camera'.1).history.floor =
        ((publishCamera self.poller.feed result live camera world).2.slots
          camera'.1).history.head := by
    intro camera' hcamera' hnone
    have hbefore := h.primed camera' hcamera' hnone
    by_cases heq : camera'.1 = camera.1
    · -- the aliases are distinct, so this is the camera that is published
      obtain rfl : camera' = camera :=
        List.inj_on_of_nodup_map self.poller.feed.distinct hcamera' hmem heq
      rw [hserial] at hnone
      rw [hnone] at hlive
      obtain rfl : live = false := hlive
      exact primed_publishCamera h.ordered hbefore
    · obtain ⟨-, ⟨-, hslots⟩ | hslots⟩ := hcamera
      · rw [hslots]
        exact hbefore
      · rw [hslots, Function.update_of_ne heq]
        exact hbefore
  refine ⟨⟨ordered_publishCamera h.ordered, ?_, ?_⟩, ⟨ordered_publishCamera h.ordered, ?_, ?_⟩, ?_⟩
  · intro camera' hcamera'
    exact hnothing camera' (hcamera.1 ▸ hcamera')
  · refine ⟨fun group hgroup => hbelong group (hgroups group hgroup),
      hbelong (serial, cameras) ?_, hlive⟩
    exact fun camera' hcamera' => hcameras camera' (List.mem_cons_of_mem _ hcamera')
  · intro camera' hcamera'
    exact hnothing camera' (hcamera.1 ▸ hcamera')
  · exact fun group hgroup => hbelong group (hgroups group hgroup)
  · intro reader
    have hextends := @extends_publishCamera _ result _ _ world h.ordered hprimed reader
    unfold PollerTask.newAlarms
    rw [hphase]
    exact hextends

/-- The device is synchronised: from now on its alarms are new. -/
theorem Sane.settle {summary : List DeviceSummary}
    {groups : List (String × List (String × CameraConfig))} {serial : String}
    {current : Option String × ℕ} (h : self.Sane)
    (hgroups : ∀ group ∈ groups, Belong self.poller.feed group) (messages : List ParsedMessage) :
    PollerTask.Sane
      { poller := self.poller.settle serial current messages
        phase := .serials summary groups } := by
  refine ⟨h.ordered, fun camera hcamera hnone => ?_, hgroups⟩
  by_cases heq : camera.2.serial = serial
  · rw [heq, AlarmPoller.settle, AlarmPoller.setSerial_self] at hnone
    exact nomatch hnone
  · rw [AlarmPoller.settle, AlarmPoller.setSerial_of_ne _ _ heq] at hnone
    exact h.primed camera hcamera hnone

/-- Every step of the poller, seen by the readers. -/
theorem Sane.step {event : PollEvent} (h : self.Sane) (hs : self.step event = some next) :
    next.Sane ∧ ∀ reader, CameraHistory.Extends (self.poller.feed.slots reader).history
      (next.poller.feed.slots reader).history (self.newAlarms event reader) := by
  have hquiet : ∀ reader, CameraHistory.Extends (self.poller.feed.slots reader).history
      (self.poller.feed.slots reader).history [] := fun reader => .refl (h.ordered reader).indexed
  have hfits := h.fits
  unfold Fits at hfits
  cases event with
  | summary answer =>
    unfold PollerTask.step at hs
    dsimp only at hs
    split at hs
    · split at hs
      · obtain rfl := Option.some.inj hs
        exact ⟨h, hquiet⟩
      · obtain rfl := Option.some.inj hs
        exact ⟨h.moves (belong_groups self.poller.feed), hquiet⟩
    · exact nomatch hs
  -- one serial is asked for, and nothing published
  | serial clock list =>
    unfold PollerTask.step at hs
    dsimp only at hs
    split at hs
    · rename_i summary group groups hphase
      rw [hphase] at hfits
      obtain ⟨hgroup, hgroups⟩ := List.forall_mem_cons.mp hfits
      obtain rfl := Option.some.inj hs
      obtain ⟨hsane, hfeed⟩ := @Sane.serial _ summary _ _ clock list h hgroup hgroups
      refine ⟨hsane, fun reader => ?_⟩
      rw [hfeed]
      exact hquiet reader
    · exact nomatch hs
  | camera world =>
    unfold PollerTask.step at hs
    dsimp only at hs
    split at hs
    · rename_i summary groups serial current live result camera cameras hphase
      obtain ⟨hnext, hbroken, hextends⟩ := @Sane.publish _ _ _ _ world _ _ _ _ _ h hphase
      split at hs
      · rename_i hpublished
        obtain rfl := Option.some.inj hs
        rw [hpublished] at hbroken hextends
        exact ⟨hbroken, hextends⟩
      · rename_i hpublished
        obtain rfl := Option.some.inj hs
        rw [hpublished] at hnext hextends
        exact ⟨hnext, hextends⟩
    · exact nomatch hs
  | leave =>
    unfold PollerTask.step at hs
    dsimp only at hs
    split at hs
    · rename_i hphase
      rw [hphase] at hfits
      obtain rfl := Option.some.inj hs
      exact ⟨h.settle hfits.1 _, hquiet⟩
    · obtain rfl := Option.some.inj hs
      exact ⟨h.moves trivial, hquiet⟩
    · exact nomatch hs

/-- The poller after the start of the process. -/
theorem sane_load (cameras : List (String × CameraConfig)) (distinct : (cameras.map Prod.fst).Nodup)
    (files : String → CameraFiles) (binding : CameraConfig → String) (limits : AlarmLimits)
    (serials : String → SerialState) :
    PollerTask.Sane
      { poller := { feed := AlarmFeed.load cameras distinct files binding limits, serials } } := by
  refine ⟨fun camera => CameraSlot.ordered_start .., fun camera _ _ => ?_, trivial⟩
  exact (CameraHistory.indexed_load ..).2.2.2

end PollerTask

end Alarms

end EzvizBridge
