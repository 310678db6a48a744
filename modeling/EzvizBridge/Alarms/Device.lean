import EzvizBridge.Alarms.Priming

/-!
# One device in a cycle

A cycle goes through all devices, but what it does to the cameras of one of them depends on that
device only. `cycle_device` picks it out: around its turn nothing changes for it (`SameFor`), and in
its turn every one of its cameras is published to once.
-/

namespace EzvizBridge

namespace Alarms

variable {feed : AlarmFeed} {result : FetchResult} {live : Bool} {world : String → CameraIo}
  {cameras : List (String × CameraConfig)}

/-! ### The loop over the aliases -/

theorem publishCamera_of_ne {camera : String × CameraConfig} {world : CameraIo} {other : String}
    (h : other ≠ camera.1) :
    (publishCamera feed result live camera world).2.slots other = feed.slots other ∧
      (publishCamera feed result live camera world).2.backlogTruncated other =
        feed.backlogTruncated other := by
  rw [publishCamera_truncated, Function.update_of_ne h]
  obtain ⟨-, ⟨-, hslots⟩ | hslots⟩ := publishCamera_cases feed result live camera world
  · exact ⟨by rw [hslots], rfl⟩
  · exact ⟨by rw [hslots, Function.update_of_ne h], rfl⟩

theorem publishCameras_cameras :
    (publishCameras feed result live world cameras).2.cameras = feed.cameras := by
  induction cameras generalizing feed with
  | nil => rfl
  | cons camera cameras ih =>
    have hcameras := (publishCamera_cases feed result live camera (world camera.1)).1
    rw [publishCameras]
    split
    · rename_i heq
      rw [heq] at hcameras
      exact hcameras
    · rename_i heq
      rw [heq] at hcameras
      exact ih.trans hcameras

/-- A camera that is not among them stays as it is. -/
theorem publishCameras_of_not_mem {other : String} (h : other ∉ cameras.map Prod.fst) :
    (publishCameras feed result live world cameras).2.slots other = feed.slots other ∧
      (publishCameras feed result live world cameras).2.backlogTruncated other =
        feed.backlogTruncated other := by
  induction cameras generalizing feed with
  | nil => exact ⟨rfl, rfl⟩
  | cons camera cameras ih =>
    rw [List.map_cons, List.mem_cons, not_or] at h
    have hcamera := @publishCamera_of_ne feed result live camera (world camera.1) other h.1
    rw [publishCameras]
    split
    · rename_i heq
      rw [heq] at hcamera
      exact hcamera
    · rename_i heq
      rw [heq] at hcamera
      obtain ⟨hslots, hcount⟩ := @ih _ h.2
      exact ⟨hslots.trans hcamera.1, hcount.trans hcamera.2⟩

/-- Each camera has its turn, if none of them fails. -/
theorem publishCameras_spec {camera : String × CameraConfig}
    (hdistinct : (cameras.map Prod.fst).Nodup) (hcamera : camera ∈ cameras)
    (hok : (publishCameras feed result live world cameras).1 = .ok ()) :
    (mine camera.2 result.messages ≠ [] →
      (publishCameras feed result live world cameras).2.slots camera.1 =
        ((feed.slots camera.1).publish
          (withPictures (world camera.1) (mine camera.2 result.messages)) live
          (world camera.1).persist).2) ∧
      (publishCameras feed result live world cameras).2.backlogTruncated camera.1 =
        feed.backlogTruncated camera.1 + if live && result.truncated then 1 else 0 := by
  induction cameras generalizing feed with
  | nil => exact absurd hcamera List.not_mem_nil
  | cons first cameras ih =>
    rw [List.map_cons, List.nodup_cons] at hdistinct
    have hcases := (publishCamera_cases feed result live first (world first.1)).2
    have hcount := publishCamera_truncated feed result live first (world first.1)
    have hother := fun other => @publishCamera_of_ne feed result live first (world first.1) other
    rw [publishCameras] at hok ⊢
    cases hfirst : publishCamera feed result live first (world first.1) with
    | mk outcome next =>
      rw [hfirst] at hok hcases hcount hother
      cases outcome with
      | error error => cases hok
      | ok done =>
        dsimp only at hok hcases hcount hother ⊢
        rcases List.mem_cons.mp hcamera with rfl | hcamera
        · -- its turn; the others do not touch it
          obtain ⟨hslots, hcount'⟩ := @publishCameras_of_not_mem next result live world cameras _
            hdistinct.1
          refine ⟨fun hmine => ?_, ?_⟩
          · rw [hslots, hcases.resolve_left fun hnone => hmine hnone.1, Function.update_self]
          · rw [hcount', hcount, Function.update_self]
        · have hne : camera.1 ≠ first.1 := by
            intro heq
            exact hdistinct.1 (heq ▸ List.mem_map_of_mem hcamera)
          obtain ⟨hslots, hsame⟩ := hother camera.1 hne
          obtain ⟨hpublished, hcounted⟩ := ih hdistinct.2 hcamera hok
          rw [hslots] at hpublished
          rw [hsame] at hcounted
          exact ⟨hpublished, hcounted⟩

/-! ### The other devices -/

/-- Nothing has changed for a device. -/
structure SameFor (serial : String) (before after : AlarmPoller) : Prop where
  cameras : after.feed.cameras = before.feed.cameras
  state : after.serials serial = before.serials serial
  slots : ∀ camera ∈ before.feed.cameras, camera.2.serial = serial →
    after.feed.slots camera.1 = before.feed.slots camera.1 ∧
      after.feed.backlogTruncated camera.1 = before.feed.backlogTruncated camera.1

namespace SameFor

variable {serial : String} {before mid after : AlarmPoller}

theorem refl (before : AlarmPoller) : SameFor serial before before :=
  ⟨rfl, rfl, fun _ _ _ => ⟨rfl, rfl⟩⟩

theorem trans (h : SameFor serial before mid) (h' : SameFor serial mid after) :
    SameFor serial before after := by
  refine ⟨h'.cameras.trans h.cameras, h'.state.trans h.state, fun camera hcamera hserial => ?_⟩
  obtain ⟨hslot, hcount⟩ := h.slots camera hcamera hserial
  obtain ⟨hslot', hcount'⟩ := h'.slots camera (h.cameras ▸ hcamera) hserial
  exact ⟨hslot'.trans hslot, hcount'.trans hcount⟩

theorem setSerial {other : String} (before : AlarmPoller) (state : SerialState)
    (h : serial ≠ other) : SameFor serial before (before.setSerial other state) :=
  ⟨rfl, before.setSerial_of_ne state h, fun _ _ _ => ⟨rfl, rfl⟩⟩

end SameFor

namespace AlarmPoller

open PollerTask (Belong)

variable {self : AlarmPoller} {outside : Surroundings} {summary : List DeviceSummary}
  {serial : String}
  {group : String × List (String × CameraConfig)}
  {groups : List (String × List (String × CameraConfig))}

theorem conclude_same {published : Except BridgeError Unit × AlarmFeed}
    {current : Option String × ℕ} {messages : List ParsedMessage} (hne : serial ≠ group.1)
    (h : SameFor serial self { self with feed := published.2 }) :
    SameFor serial self (self.conclude group.1 current messages published).2 := by
  obtain ⟨outcome, feed⟩ := published
  cases outcome with
  | error error => exact h
  | ok done => exact h.trans (SameFor.setSerial _ _ hne)

/-- The turn of another device. -/
theorem syncSerial_other (hne : serial ≠ group.1) (hgroup : Belong self.feed group) :
    SameFor serial self (self.syncSerial outside summary group).2 := by
  have hlearned : ∀ state, SameFor serial self (self.setSerial group.1 state) :=
    fun state => .setSerial self state hne
  unfold syncSerial
  dsimp only
  split_ifs
  · exact hlearned _
  · split
    · exact hlearned _
    · refine (hlearned _).trans (conclude_same hne ⟨publishCameras_cameras, rfl, ?_⟩)
      intro camera hcamera hserial
      refine publishCameras_of_not_mem fun hmem => ?_
      -- a camera of the other device with the same alias is the same camera
      obtain ⟨camera', hcamera', heq⟩ := List.mem_map.mp hmem
      obtain ⟨hmem', hserial'⟩ := hgroup camera' hcamera'
      obtain rfl := List.inj_on_of_nodup_map self.feed.distinct hmem' hcamera heq
      exact hne (hserial.symm.trans hserial')

theorem syncSerials_other (hne : serial ∉ groups.map Prod.fst)
    (hgroups : ∀ group ∈ groups, Belong self.feed group) :
    SameFor serial self (self.syncSerials outside summary groups).2 := by
  induction groups generalizing self with
  | nil => exact .refl self
  | cons group groups ih =>
    rw [List.map_cons, List.mem_cons, not_or] at hne
    obtain ⟨hgroup, hgroups⟩ := List.forall_mem_cons.mp hgroups
    have hfirst := @syncSerial_other self outside summary serial group hne.1 hgroup
    refine hfirst.trans (ih hne.2 fun group' hgroup' camera hcamera => ?_)
    rw [hfirst.cameras]
    exact hgroups group' hgroup' camera hcamera

theorem syncSerial_cameras :
    (self.syncSerial outside summary group).2.feed.cameras = self.feed.cameras := by
  unfold syncSerial
  dsimp only
  split_ifs
  · rfl
  · split
    · rfl
    · rename_i result _
      have hcameras :
          ∀ live, (publishCameras self.feed result live outside.world group.2).2.cameras =
          self.feed.cameras := fun live => publishCameras_cameras
      unfold conclude
      split
      · rename_i heq
        exact (congrArg (·.2.cameras) heq).symm.trans (hcameras _)
      · rename_i heq
        exact (congrArg (·.2.cameras) heq).symm.trans (hcameras _)

/-- The turn of a device. -/
theorem syncSerials_device {cameras : List (String × CameraConfig)}
    (hdistinct : (groups.map Prod.fst).Nodup) (hgroups : ∀ group ∈ groups, Belong self.feed group)
    (hmem : (serial, cameras) ∈ groups)
    (hok : (self.syncSerials outside summary groups).1 = false) :
    ∃ mid, SameFor serial self mid ∧ (mid.syncSerial outside summary (serial, cameras)).1 = false ∧
      SameFor serial (mid.syncSerial outside summary (serial, cameras)).2
        (self.syncSerials outside summary groups).2 := by
  induction groups generalizing self with
  | nil => exact absurd hmem List.not_mem_nil
  | cons group groups ih =>
    rw [List.map_cons, List.nodup_cons] at hdistinct
    obtain ⟨hgroup, hgroups⟩ := List.forall_mem_cons.mp hgroups
    obtain ⟨hok, hok'⟩ := Bool.or_eq_false_iff.mp hok
    have hrest : ∀ group' ∈ groups,
        Belong (self.syncSerial outside summary group).2.feed group' := by
      intro group' hgroup' camera hcamera
      rw [syncSerial_cameras]
      exact hgroups group' hgroup' camera hcamera
    rcases List.mem_cons.mp hmem with rfl | hmem
    · exact ⟨self, .refl self, hok, syncSerials_other hdistinct.1 hrest⟩
    · have hne : serial ≠ group.1 := by
        rintro rfl
        exact hdistinct.1 (List.mem_map.mpr ⟨_, hmem, rfl⟩)
      obtain ⟨mid, hbefore, hturn, hafter⟩ := ih hdistinct.2 hrest hmem hok'
      exact ⟨mid, (syncSerial_other hne hgroup).trans hbefore, hturn, hafter⟩

/-- A cycle that does not fail, for one device. -/
theorem cycle_device (hserial : ∃ camera ∈ self.feed.cameras, camera.2.serial = serial)
    (hsummary : outside.summary = .ok summary) (hok : (self.cycle outside).1 = false) :
    ∃ mid, SameFor serial self mid ∧
      (mid.syncSerial outside summary (serial, self.feed.aliasesOf serial)).1 = false ∧
      SameFor serial (mid.syncSerial outside summary (serial, self.feed.aliasesOf serial)).2
        (self.cycle outside).2 := by
  have hcycle : self.cycle outside = self.syncSerials outside summary self.feed.groups := by
    rw [cycle, hsummary]
  rw [hcycle] at hok ⊢
  refine syncSerials_device ?_ (PollerTask.belong_groups self.feed) ?_ hok
  · rw [AlarmFeed.groups, List.map_map]
    have hkeys : (Prod.fst ∘ fun serial => (serial, self.feed.aliasesOf serial)) = id := rfl
    rw [hkeys, List.map_id]
    exact (List.perm_insertionSort _ _).nodup_iff.mpr (List.nodup_dedup _)
  · obtain ⟨camera, hcamera, rfl⟩ := hserial
    refine List.mem_map_of_mem ((List.perm_insertionSort _ _).mem_iff.mpr ?_)
    exact List.mem_dedup.mpr (List.mem_map_of_mem hcamera)

/-! ### Its turn -/

/-- The turn of a device that does not fail: it has learned its offset, and its baseline is what the
summary says. If that is new, the unknown alarms were fetched and published. -/
theorem syncSerial_ok (hok : (self.syncSerial outside summary group).1 = false) :
    let device := summary.find? fun device => device.serial = group.1
    let state := (self.serials group.1).learn device
    ((self.syncSerial outside summary group).2.serials group.1).offset = state.offset ∧
      ((self.syncSerial outside summary group).2.serials group.1).baseline =
        some (currentOf device) ∧
      (state.baseline ≠ some (currentOf device) → ∃ result,
        fetchSerial self.feed group.2 state state.baseline.isSome (outside.clock group.1)
          (outside.list group.1) = .ok result ∧
        (publishCameras self.feed result state.baseline.isSome outside.world group.2).1 = .ok () ∧
        (self.syncSerial outside summary group).2.feed =
          (publishCameras self.feed result state.baseline.isSome outside.world group.2).2) := by
  unfold syncSerial at hok ⊢
  dsimp only at hok ⊢
  rw [setSerial_self] at hok ⊢
  split_ifs at hok ⊢ with hsame
  · rw [setSerial_self]
    exact ⟨rfl, hsame, fun hne => absurd hsame hne⟩
  · cases hfetch : fetchSerial (self.setSerial group.1 _).feed group.2 _ _ (outside.clock group.1)
        (outside.list group.1) with
    | error error =>
      rw [hfetch] at hok
      exact nomatch hok
    | ok result =>
      rw [hfetch] at hok
      dsimp only at hok ⊢
      cases hpublish : publishCameras
        (self.setSerial group.1 _).feed result _ outside.world group.2 with
      | mk outcome feed =>
        rw [hpublish] at hok
        cases outcome with
        | error error => exact nomatch hok
        | ok done =>
          refine ⟨?_, ?_, fun _ => ⟨result, hfetch, ?_, ?_⟩⟩
          · rw [conclude, settle, setSerial_self]
            dsimp only [SerialState.remember]
            rw [setSerial_self]
          · rw [conclude, settle, setSerial_self]
          · exact congrArg Prod.fst hpublish
          · exact (congrArg Prod.snd hpublish).symm

end AlarmPoller

end Alarms

end EzvizBridge
