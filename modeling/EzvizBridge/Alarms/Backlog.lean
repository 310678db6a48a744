import EzvizBridge.Alarms.Device
import EzvizBridge.Alarms.Vendor

/-!
# The backlog of a device

The alarms that a device has had since the last cycle are fetched and inserted, unless there are too
many of them, which is counted. This fails silently at midnight. `fetch_unknown` reads the day
before only if the newest stored alarm is older than midnight, so not if nothing is stored; and not
if the list of today ends with the last page that it may read, in which case nothing is counted
either. `missed_before_midnight` is such a run; `Covered` keeps these cases out, and then nothing is
lost (`new_alarms_handled`).
-/

namespace EzvizBridge

namespace Alarms

/-! ### New alarms are accepted -/

namespace CameraHistory

variable {self : CameraHistory} {batch : List Incoming} {incoming : Incoming}

/-- There is room for so many alarms, or all stored ones sort before this record. -/
def Admits (history : CameraHistory) (count : ℕ) (record : AlarmRecord) : Prop :=
  history.events.length + count ≤ history.limit ∨ ∀ e ∈ history.events, e.record.key ≤ record.key

/-- A record that is admitted does not predate a full history. -/
theorem Admits.not_predates {count : ℕ} {record : AlarmRecord}
    (h : self.Admits (count + 1) record) :
    self.predatesFullHistory record = false := by
  unfold predatesFullHistory
  rcases h with hroom | hbehind
  · rw [decide_eq_false (by omega), Bool.false_and]
  · cases hhead : self.events.head? with
    | none => exact Bool.and_false _
    | some oldest =>
      have hle := hbehind oldest (List.mem_of_head? hhead)
      dsimp only
      rw [decide_eq_false (not_lt_of_ge hle), Bool.and_false]

/-- Another record is taken before. -/
theorem Admits.take {count : ℕ} {record : AlarmRecord} (h : self.Admits (count + 1) record)
    (hsorted : incoming.record.key ≤ record.key) : (self.take incoming).1.Admits count record := by
  obtain ⟨halarms, -, -, hlimit, -⟩ := self.take_spec incoming
  have hlength := self.take_length incoming
  -- there is room for it, or it is behind all that is there
  rcases h with hroom | hbehind
  · refine .inl ?_
    rw [hlimit]
    omega
  · refine .inr fun e he => ?_
    have hmem := mem_alarms_of_mem he
    rw [halarms] at hmem
    rcases List.mem_append.mp (List.mem_of_mem_drop hmem) with hmem | hmem
    · obtain ⟨x, hx, hbare⟩ := List.mem_map.mp hmem
      have hkey : x.bare.record.key = e.bare.record.key := by rw [hbare]
      exact hkey.symm.trans_le (hbehind x hx)
    · have hkey : e.bare.record.key = incoming.record.bare.key := by rw [List.mem_singleton.mp hmem]
      exact hkey.trans_le hsorted

/-- An id that is not there and is not taken is still not there. -/
theorem not_mem_take {id : String} (h : id ∉ idsOf self.events) (hne : incoming.record.id ≠ id) :
    id ∉ idsOf (self.take incoming).1.events := by
  -- what is there now was there before, or was just taken
  intro hmem
  obtain ⟨e, he, rfl⟩ := List.mem_map.mp hmem
  have hmem := mem_alarms_of_mem he
  rw [(self.take_spec incoming).1] at hmem
  rcases List.mem_append.mp (List.mem_of_mem_drop hmem) with hmem | hmem
  · obtain ⟨x, hx, hbare⟩ := List.mem_map.mp hmem
    have hid : x.bare.record.id = e.bare.record.id := by rw [hbare]
    have hmem : x.record.id ∈ idsOf self.events := List.mem_map_of_mem hx
    exact h (hid ▸ hmem)
  · have hid : e.bare.record.id = incoming.record.bare.id := by rw [List.mem_singleton.mp hmem]
    exact hne hid.symm

/-- A new alarm of a sorted batch is inserted. -/
theorem mem_appended (h : self.Indexed) (hmem : incoming ∈ batch)
    (htoken : isToken incoming.record.id = true) (hnew : incoming.record.id ∉ idsOf self.events)
    (hsorted : batch.Pairwise fun i i' => i.record.key ≤ i'.record.key)
    (hadmits : self.Admits batch.length incoming.record) :
    ∃ e ∈ self.appended batch, e.record.id = incoming.record.id := by
  -- on the batch, which is sorted
  induction batch generalizing self with
  | nil => exact absurd hmem List.not_mem_nil
  | cons first batch ih =>
    obtain ⟨hfirst, hsorted⟩ := List.pairwise_cons.mp hsorted
    rw [appended]
    split_ifs with haccepts
    -- this is the alarm, or it comes later
    · by_cases hid : first.record.id = incoming.record.id
      · exact ⟨_, List.mem_cons_self, hid⟩
      · have hrest : incoming ∈ batch := by
          refine (List.mem_cons.mp hmem).resolve_left ?_
          rintro rfl
          exact hid rfl
        obtain ⟨e, he, heq⟩ := ih (h.take haccepts) hrest (not_mem_take hnew hid) hsorted
          (hadmits.take (hfirst incoming hrest))
        exact ⟨e, List.mem_cons_of_mem _ he, heq⟩
    · -- it was refused, so it is not the new one
      have hrest : incoming ∈ batch := by
        refine (List.mem_cons.mp hmem).resolve_left ?_
        rintro rfl
        refine haccepts (accepts_iff.mpr ⟨htoken, ?_, ?_⟩)
        · rw [← Bool.not_eq_true, knows_iff h]
          exact hnew
        · exact hadmits.not_predates
      refine ih h hrest hnew hsorted (hadmits.imp (fun hroom => ?_) id)
      rw [List.length_cons] at hroom
      omega

end CameraHistory

/-! ### The batch and the known ids -/

/-- The pictures do not change the records. -/
theorem withPictures_records (world : CameraIo) (messages : List ParsedMessage) :
    (withPictures world messages).map (·.record) = messages.map (·.record) := by
  refine List.ext_getElem ?_ fun i h h' => ?_
  · rw [List.length_map, List.length_map, withPictures, List.length_mapIdx]
  · rw [List.getElem_map, List.getElem_map]
    simp only [withPictures, List.getElem_mapIdx]

theorem length_withPictures (world : CameraIo) (messages : List ParsedMessage) :
    (withPictures world messages).length = messages.length :=
  List.length_mapIdx

/-- What is stored is known. -/
theorem mem_knownIds {feed : AlarmFeed} {cameras : List (String × CameraConfig)}
    {state : SerialState} {camera : String × CameraConfig} {id : String}
    (hcamera : camera ∈ cameras) (hordered : (feed.slots camera.1).Ordered)
    (hid : id ∈ idsOf (feed.slots camera.1).history.events) :
    id ∈ (knownIds feed cameras state).1 := by
  -- the whole history is asked for
  have hall : (feed.slots camera.1).history.recent (feed.slots camera.1).history.limit =
      (feed.slots camera.1).history.events := by
    have hzero := Nat.sub_eq_zero_of_le hordered.size
    simp only [CameraHistory.recent, CameraHistory.page, List.filter_true, hzero, List.drop_zero]
  rw [knownIds, Finset.mem_union, List.mem_toFinset, List.mem_toFinset]
  refine .inr (List.mem_flatMap.mpr ⟨_, List.mem_map_of_mem hcamera, ?_⟩)
  rw [hall]
  exact hid

/-- The known ids depend on the slots of the device and on what was seen. -/
theorem knownIds_congr {feed feed' : AlarmFeed} {cameras : List (String × CameraConfig)}
    {state state' : SerialState}
    (hslots : ∀ camera ∈ cameras, feed'.slots camera.1 = feed.slots camera.1)
    (hseen : state'.seen = state.seen) :
    knownIds feed' cameras state' = knownIds feed cameras state := by
  have hhistories : (cameras.map fun camera => (feed'.slots camera.1).history) =
      cameras.map fun camera => (feed.slots camera.1).history :=
    List.map_congr_left fun camera hcamera => by rw [hslots camera hcamera]
  unfold knownIds
  rw [hhistories, hseen]

/-- A result holds at most as many messages as there are alarms of the two days. -/
theorem FetchResult.Ordered.length_le {log : List VendorAlarm} {offset today : ℤ}
    {result : FetchResult} (h : result.Ordered log offset today) :
    result.messages.length ≤ log.countP fun a => a.Recent offset today := by
  have hsubset : result.messages.map (·.id) ⊆
      (log.filter fun a => a.Recent offset today).map (·.id) := by
    intro id hid
    obtain ⟨m, hm, rfl⟩ := List.mem_map.mp hid
    obtain ⟨a, ha, hrecent, rfl⟩ := h.origin m hm
    exact List.mem_map.mpr ⟨a, List.mem_filter.mpr ⟨ha, decide_eq_true hrecent⟩, rfl⟩
  have hle := (h.distinct.subperm hsubset).length_le
  rwa [List.length_map, List.length_map, ← List.countP_eq_length_filter] at hle

/-! ### Cycles over the log of a device -/

/-- One cycle, as far as a device is concerned: the alarms that it has had since the last one, how
long the pages of its list are, and what the world outside does. -/
structure Poll where
  more : List VendorAlarm
  size : ℤ → Option ℤ → ℕ
  outside : Surroundings

/-- The cycle does not fail, and EZVIZ answers for the device out of its log. -/
structure Poll.Answers (serial : String) (offset : ℤ)
    (summaryOf : List VendorAlarm → Option String × ℕ) (poller : AlarmPoller)
    (log : List VendorAlarm) (poll : Poll) : Prop where
  growing : VendorLog (log ++ poll.more)
  size : ∀ day endTime, 0 < poll.size day endTime
  summary : ∃ summary, poll.outside.summary = .ok summary ∧
    currentOf (summary.find? fun device => device.serial = serial) = summaryOf (log ++ poll.more) ∧
    ∀ device ∈ summary.find? (fun device => device.serial = serial),
      device.utcOffset = none ∨ device.utcOffset = some offset
  list : poll.outside.list serial = vendorList (log ++ poll.more) offset poll.size
  succeeds : (poller.cycle poll.outside).1 = false

/-- The poller after any number of cycles, and the log of the device at the last of them. It starts
with any files and knows the offset of the device. -/
inductive Watched (serial : String) (offset : ℤ)
    (summaryOf : List VendorAlarm → Option String × ℕ) :
    AlarmPoller → List VendorAlarm → Prop
  | start {cameras : List (String × CameraConfig)} (distinct : (cameras.map Prod.fst).Nodup)
      (files : String → CameraFiles) (binding : CameraConfig → String) (limits : AlarmLimits)
      {serials : String → SerialState} (log : List VendorAlarm)
      (configured : ∃ camera ∈ cameras, camera.2.serial = serial)
      (known : serials serial = { offset := some offset }) :
      Watched serial offset summaryOf
        { feed := AlarmFeed.load cameras distinct files binding limits, serials } log
  | cycle {poller : AlarmPoller} {log : List VendorAlarm} {poll : Poll}
      (before : Watched serial offset summaryOf poller log)
      (answers : poll.Answers serial offset summaryOf poller log) :
      Watched serial offset summaryOf (poller.cycle poll.outside).2 (log ++ poll.more)

/-- What the poller keeps about the device. -/
structure Tracks (serial : String) (offset : ℤ) (summaryOf : List VendorAlarm → Option String × ℕ)
    (poller : AlarmPoller) (log : List VendorAlarm) : Prop where
  sane : PollerTask.Sane { poller }
  configured : ∃ camera ∈ poller.feed.cameras, camera.2.serial = serial
  offset : (poller.serials serial).offset = some offset
  baseline : ∀ current ∈ (poller.serials serial).baseline, current = summaryOf log

section Watching

variable {serial : String} {offset : ℤ} {summaryOf : List VendorAlarm → Option String × ℕ}
  {poller : AlarmPoller} {log : List VendorAlarm} {poll : Poll}

/-- The offset of the device is learned. -/
theorem learn_offset {state : SerialState} {device : Option DeviceSummary}
    (h : state.offset = some offset)
    (hdevice : ∀ found ∈ device, found.utcOffset = none ∨ found.utcOffset = some offset) :
    (state.learn device).offset = some offset := by
  unfold SerialState.learn
  cases device with
  | none => exact h
  | some found =>
    rcases hdevice found rfl with hnone | hsome
    · rw [Option.bind_some, hnone]
      exact h
    · rw [Option.bind_some, hsome]

/-- Learning the device changes nothing of what was seen. -/
theorem learn_seen (state : SerialState) (device : Option DeviceSummary) :
    (state.learn device).seen = state.seen := by
  unfold SerialState.learn
  split <;> rfl

theorem sane_cycle (h : PollerTask.Sane { poller }) (outside : Surroundings) :
    PollerTask.Sane { poller := (poller.cycle outside).2 } := by
  obtain ⟨events, hevents⟩ := poller.run_cycle outside
  exact EventSystem.run_keeps PollerTask.Sane (fun _ _ _ h hs => (h.step hs).1) h hevents

/-- A cycle that does not fail keeps the track of the device. -/
theorem Tracks.cycle (h : Tracks serial offset summaryOf poller log)
    (hpoll : poll.Answers serial offset summaryOf poller log) :
    Tracks serial offset summaryOf (poller.cycle poll.outside).2 (log ++ poll.more) := by
  obtain ⟨summary, hsummary, hcurrent, hoffset⟩ := hpoll.summary
  obtain ⟨mid, hbefore, hturn, hafter⟩ :=
    AlarmPoller.cycle_device h.configured hsummary hpoll.succeeds
  obtain ⟨hlearned, hbaseline, -⟩ := AlarmPoller.syncSerial_ok hturn
  -- the cameras, the offset, and the baseline of the device
  refine ⟨sane_cycle h.sane _, ?_, ?_, ?_⟩
  · rw [hafter.cameras, AlarmPoller.syncSerial_cameras, hbefore.cameras]
    exact h.configured
  · rw [hafter.state]
    refine hlearned.trans (learn_offset ?_ hoffset)
    rw [hbefore.state]
    exact h.offset
  · intro current hmem
    rw [hafter.state, hbaseline] at hmem
    rw [← Option.some.inj hmem]
    exact hcurrent

/-- A device that was watched is tracked. -/
theorem Watched.tracks (h : Watched serial offset summaryOf poller log) :
    Tracks serial offset summaryOf poller log := by
  induction h with
  | start distinct files binding limits log configured known =>
    refine ⟨PollerTask.sane_load _ distinct files binding limits _, configured, ?_, ?_⟩
    · exact congrArg SerialState.offset known
    · intro current hmem
      dsimp only at hmem
      rw [known] at hmem
      exact nomatch hmem
  | cycle _ answers ih => exact ih.cycle answers

/-- The cycle is not one of those that lose alarms: no new alarm is known, the day before is read if
one of them is of that day, and none of them is put off by a full history. -/
structure Covered (serial : String) (offset : ℤ) (poller : AlarmPoller) (log : List VendorAlarm)
    (poll : Poll) : Prop where
  unknown : ∀ a ∈ poll.more,
    a.id ∉ (knownIds poller.feed (poller.feed.aliasesOf serial) (poller.serials serial)).1
  back : ReadsBack log poll.more offset poll.size (poll.outside.clock serial)
    (knownIds poller.feed (poller.feed.aliasesOf serial) (poller.serials serial)).2
  admits : ∀ camera ∈ poller.feed.aliasesOf serial, ∀ a ∈ poll.more,
    a.Recent offset (localDay (some offset) (poll.outside.clock serial)) →
    a.message.ownChannel = camera.2.channel →
    (poller.feed.slots camera.1).history.Admits
      ((log ++ poll.more).countP fun b =>
        b.Recent offset (localDay (some offset) (poll.outside.clock serial))) a.record

/-- Between two states of the poller an alarm was inserted for a camera, or the counter of a
truncated backlog was incremented. -/
def Handled (before after : AlarmPoller) (camera : String) (a : VendorAlarm) : Prop :=
  (∃ batch persist, after.feed.slots camera =
    ((before.feed.slots camera).publish batch true persist).2 ∧
    ∃ e ∈ (before.feed.slots camera).history.appended batch, e.record.id = a.id) ∨
  after.feed.backlogTruncated camera = before.feed.backlogTruncated camera + 1

/-- A fetched alarm is inserted. -/
theorem appended_of_fetched {slot : CameraSlot} {config : CameraConfig} {world : CameraIo}
    {result : FetchResult} {today : ℤ} {a : VendorAlarm} (hslot : slot.Ordered)
    (hresult : result.Ordered log offset today) (hmem : a.message ∈ result.messages)
    (hchannel : a.message.ownChannel = config.channel) (hnew : a.id ∉ idsOf slot.history.events)
    (hadmits : slot.history.Admits (log.countP fun b => b.Recent offset today) a.record) :
    mine config result.messages ≠ [] ∧
      ∃ e ∈ slot.history.appended (withPictures world (mine config result.messages)),
        e.record.id = a.id := by
  -- the alarm is one of this camera's
  have hmine : a.message ∈ mine config result.messages :=
    List.mem_filter.mpr ⟨hmem, decide_eq_true hchannel⟩
  have hsublist : (mine config result.messages).Sublist result.messages := List.filter_sublist
  refine ⟨List.ne_nil_of_mem hmine, ?_⟩
  have hrecord : a.record ∈ (withPictures world (mine config result.messages)).map (·.record) := by
    rw [withPictures_records]
    exact List.mem_map_of_mem hmine
  obtain ⟨incoming, hincoming, heq⟩ := List.mem_map.mp hrecord
  -- the records of this camera are sorted as those of the device
  have hsorted : (withPictures world (mine config result.messages)).Pairwise fun i i' =>
      i.record.key ≤ i'.record.key := by
    have hrecords : ((mine config result.messages).map (·.record)).Pairwise fun r r' =>
        r.key ≤ r'.key := List.pairwise_map.mpr (hresult.sorted.sublist hsublist)
    rwa [← withPictures_records world, List.pairwise_map] at hrecords
  have hlength := (hsublist.length_le).trans hresult.length_le
  have hid : incoming.record.id = a.id := congrArg AlarmRecord.id heq
  rw [← hid]
  refine CameraHistory.mem_appended hslot.indexed hincoming ?_ (hid ▸ hnew) hsorted ?_
  · rw [heq]
    exact a.token
  -- there is room for as many as the device has
  · rw [length_withPictures, heq]
    refine hadmits.imp (fun hroom => ?_) id
    omega

/-- What a cycle does for a device whose log has grown: the unknown alarms are fetched, and every
camera is published to. -/
theorem turn_of_device
    (hsummary : ∀ log more : List VendorAlarm, more ≠ [] → summaryOf (log ++ more) ≠ summaryOf log)
    (htracks : Tracks serial offset summaryOf poller log)
    (hpoll : poll.Answers serial offset summaryOf poller log)
    (hsynced : (poller.serials serial).baseline ≠ none) (hmore : poll.more ≠ []) :
    let known := knownIds poller.feed (poller.feed.aliasesOf serial) (poller.serials serial)
    ∃ result,
      fetchUnknown (vendorList (log ++ poll.more) offset poll.size) (poll.outside.clock serial)
        (some offset) known.2 (fun id => id ∈ known.1) livePages = .ok result ∧
      ∀ camera ∈ poller.feed.aliasesOf serial,
        (mine camera.2 result.messages ≠ [] →
          (poller.cycle poll.outside).2.feed.slots camera.1 =
            ((poller.feed.slots camera.1).publish
              (withPictures (poll.outside.world camera.1) (mine camera.2 result.messages)) true
              (poll.outside.world camera.1).persist).2) ∧
        (poller.cycle poll.outside).2.feed.backlogTruncated camera.1 =
          poller.feed.backlogTruncated camera.1 + if result.truncated then 1 else 0 := by
  intro known
  obtain ⟨summary, hanswer, hcurrent, hoffset⟩ := hpoll.summary
  obtain ⟨mid, hbefore, hturn, hafter⟩ :=
    AlarmPoller.cycle_device htracks.configured hanswer hpoll.succeeds
  obtain ⟨-, -, hfetches⟩ := AlarmPoller.syncSerial_ok hturn
  dsimp only at hfetches
  rw [hbefore.state] at hfetches
  generalize summary.find? (fun device => device.serial = serial) =
    device at hcurrent hoffset hfetches
  -- the state of the device when its turn comes
  obtain ⟨current, hbaseline⟩ := Option.ne_none_iff_exists'.mp hsynced
  have hlearned : ((poller.serials serial).learn device).baseline = some current :=
    (PollerTask.learn_baseline _ _).trans hbaseline
  have hchanged : ((poller.serials serial).learn device).baseline ≠ some (currentOf device) := by
    rw [hlearned, hcurrent, htracks.baseline current hbaseline]
    exact fun heq => hsummary log poll.more hmore (Option.some.inj heq).symm
  have hsame : ∀ camera ∈ poller.feed.aliasesOf serial,
      camera ∈ poller.feed.cameras ∧ camera.2.serial = serial := by
    intro camera hcamera
    obtain ⟨hmem, hserial⟩ := List.mem_filter.mp hcamera
    exact ⟨hmem, of_decide_eq_true hserial⟩
  have hknown : knownIds mid.feed (poller.feed.aliasesOf serial)
      ((poller.serials serial).learn device) = known := by
    refine knownIds_congr (fun camera hcamera => ?_) (learn_seen _ _)
    exact (hbefore.slots camera (hsame camera hcamera).1 (hsame camera hcamera).2).1
  -- what is fetched, and published
  obtain ⟨result, hfetch, hok, hfeed⟩ := hfetches hchanged
  rw [hlearned, Option.isSome_some] at hfetch hok hfeed
  rw [fetchSerial, hknown, learn_offset htracks.offset hoffset, hpoll.list] at hfetch
  refine ⟨result, hfetch, fun camera hcamera => ?_⟩
  obtain ⟨hmem, hserial⟩ := hsame camera hcamera
  have hdistinct : ((poller.feed.aliasesOf serial).map Prod.fst).Nodup :=
    poller.feed.distinct.sublist (List.filter_sublist.map _)
  obtain ⟨hpublished, hcounted⟩ := publishCameras_spec hdistinct hcamera hok
  obtain ⟨hslot, hcount⟩ := hbefore.slots camera hmem hserial
  have hmem' : camera ∈ (mid.syncSerial poll.outside summary
      (serial, poller.feed.aliasesOf serial)).2.feed.cameras := by
    rw [AlarmPoller.syncSerial_cameras, hbefore.cameras]
    exact hmem
  obtain ⟨hslot', hcount'⟩ := hafter.slots camera hmem' hserial
  rw [hslot', hcount', hfeed, hcounted, hcount]
  refine ⟨fun hmine => ?_, rfl⟩
  rw [hpublished hmine, hslot]

/-- **No alarm is lost silently**, in the cycles that are `Covered`. After any number of cycles, of
which none fails: when the device has been synchronised before, each alarm that it has had since the
last cycle, of this day or the one before, is inserted for every camera of its channel, or the
truncated backlog is counted for that camera. -/
theorem new_alarms_handled
    (hsummary : ∀ log more : List VendorAlarm, more ≠ [] → summaryOf (log ++ more) ≠ summaryOf log)
    (hwatched : Watched serial offset summaryOf poller log)
    (hpoll : poll.Answers serial offset summaryOf poller log)
    (hcovered : Covered serial offset poller log poll)
    (hsynced : (poller.serials serial).baseline ≠ none)
    {camera : String × CameraConfig} (hcamera : camera ∈ poller.feed.aliasesOf serial)
    {a : VendorAlarm} (ha : a ∈ poll.more)
    (hrecent : a.Recent offset (localDay (some offset) (poll.outside.clock serial)))
    (hchannel : a.message.ownChannel = camera.2.channel) :
    Handled poller (poller.cycle poll.outside).2 camera.1 a := by
  have htracks := hwatched.tracks
  -- the cycle fetches, publishes and counts
  obtain ⟨result, hfetch, hcameras⟩ :=
    turn_of_device hsummary htracks hpoll hsynced (List.ne_nil_of_mem ha)
  obtain ⟨hpublished, hcounted⟩ := hcameras camera hcamera
  obtain ⟨result', hfetch', hordered, hcovers⟩ :=
    @fetch_covers log poll.more offset poll.size _ _
      (fun id =>
        id ∈ (knownIds poller.feed (poller.feed.aliasesOf serial) (poller.serials serial)).1)
      hpoll.growing hpoll.size (fun b hb => decide_eq_false (hcovered.unknown b hb)) hcovered.back
  obtain rfl : result' = result := Except.ok.inj (hfetch'.symm.trans hfetch)
  rcases hcovers with htruncated | hfetched
  · -- the pages have run out
    refine .inr (hcounted.trans ?_)
    rw [htruncated]
    rfl
  -- the alarm was fetched, so it is published and inserted
  · have hslot : (poller.feed.slots camera.1).Ordered := htracks.sane.ordered camera.1
    have hnew : a.id ∉ idsOf (poller.feed.slots camera.1).history.events :=
      fun hid => hcovered.unknown a ha (mem_knownIds hcamera hslot hid)
    obtain ⟨hmine, happended⟩ := @appended_of_fetched offset (log ++ poll.more) _ camera.2
      (poll.outside.world camera.1) _ _ _ hslot hordered (hfetched a ha hrecent) hchannel hnew
      (hcovered.admits camera hcamera a ha hrecent hchannel)
    exact .inl ⟨_, _, hpublished hmine, happended⟩

end Watching

/-! ### Around midnight -/

/-- The summary of a device: its last alarm, and how many there are. -/
def lastAndTotal (log : List VendorAlarm) :
    Option String × ℕ := (log.getLast?.map (·.id), log.length)

/-- More alarms change the summary. -/
theorem lastAndTotal_changes (log more : List VendorAlarm) (h : more ≠ []) :
    lastAndTotal (log ++ more) ≠ lastAndTotal log := by
  intro heq
  have hlength : (log ++ more).length = log.length := congrArg Prod.snd heq
  rw [List.length_append] at hlength
  exact h (List.length_eq_zero_iff.mp (by omega))

theorem nodup_front :
    ([("front", ({ serial := "CAM1", channel := 1 } : CameraConfig))].map Prod.fst).Nodup :=
  List.nodup_singleton _

/-- One camera without a history, of a device in UTC. -/
def frontPoller : AlarmPoller :=
  { feed := AlarmFeed.load [("front", { serial := "CAM1", channel := 1 })] nodup_front (fun _ => {})
      (·.serial) ⟨50, 0⟩
    serials := fun _ => { offset := some 0 } }

/-- An alarm ten seconds before midnight. -/
def eveningAlarm : VendorAlarm :=
  { time := 86390000, record := { id := "m1", occurredAt := 86390 }, channel := some 1,
    token := by decide, occurred := by decide }

/-- A cycle at some time, with pages of 20 alarms. -/
def pollAt (log more : List VendorAlarm) (now : ℤ) : Poll :=
  { more
    size := fun _ _ => 20
    outside :=
      { summary := .ok
          [{  serial := "CAM1"
              total := (log ++ more).length
              topId := (log ++ more).getLast?.map (·.id)
              utcOffset := none }]
        clock := fun _ => { now }
        list := fun _ => vendorList (log ++ more) 0 fun _ _ => 20 } }

/-- The vendor answers from its log. -/
theorem answers_pollAt {poller : AlarmPoller} {log more : List VendorAlarm} {now : ℤ}
    (hlog : VendorLog (log ++ more))
    (hok : (poller.cycle (pollAt log more now).outside).1 = false) :
    (pollAt log more now).Answers "CAM1" 0 lastAndTotal poller log := by
  refine ⟨hlog, fun _ _ => Nat.succ_pos _, ⟨_, rfl, rfl, fun device hdevice => ?_⟩, rfl, hok⟩
  obtain rfl := Option.some.inj hdevice
  exact .inl rfl

theorem vendorLog_nil : VendorLog [] := ⟨.nil, .nil⟩

theorem vendorLog_singleton (a : VendorAlarm) : VendorLog [a] :=
  ⟨List.pairwise_singleton _ _, List.nodup_singleton _⟩

/-- The first cycle, before the alarm. -/
def primedPoller : AlarmPoller := (frontPoller.cycle (pollAt [] [] 86300).outside).2

/-- The poller was primed with an empty log. -/
theorem watched_primedPoller : Watched "CAM1" 0 lastAndTotal primedPoller [] := by
  have hstart : Watched "CAM1" 0 lastAndTotal frontPoller [] :=
    .start _ _ _ _ [] ⟨_, List.mem_cons_self, rfl⟩ rfl
  have hanswers : (pollAt [] [] 86300).Answers "CAM1" 0 lastAndTotal frontPoller [] :=
    answers_pollAt vendorLog_nil (by decide +kernel)
  exact .cycle hstart hanswers

/-- An alarm of the evening, with the next cycle before midnight. -/
theorem new_alarms_handled_sample :
    Handled primedPoller (primedPoller.cycle (pollAt [] [eveningAlarm] 86395).outside).2 "front"
      eveningAlarm := by
  -- the history has room for it
  have hcovered : Covered "CAM1" 0 primedPoller [] (pollAt [] [eveningAlarm] 86395) := by
    refine ⟨by decide +kernel, fun hbefore => absurd hbefore (by decide +kernel), ?_⟩
    have hroom : ∀ camera ∈ primedPoller.feed.aliasesOf "CAM1",
        (primedPoller.feed.slots camera.1).history.events.length + 1 ≤
          (primedPoller.feed.slots camera.1).history.limit := by
      decide +kernel
    exact fun camera hcamera _ _ _ _ => .inl (hroom camera hcamera)
  have hanswers : (pollAt [] [eveningAlarm] 86395).Answers "CAM1" 0 lastAndTotal primedPoller [] :=
    answers_pollAt (vendorLog_singleton eveningAlarm) (by decide +kernel)
  have hcamera : ("front", ⟨"CAM1", 1⟩) ∈ primedPoller.feed.aliasesOf "CAM1" := by decide +kernel
  exact new_alarms_handled lastAndTotal_changes watched_primedPoller hanswers hcovered
    (by decide +kernel) hcamera (List.mem_singleton.mpr rfl) (by decide +kernel) rfl

/-- **An alarm before midnight is lost.** The history is empty, and the next cycle comes after
midnight. It does not fail, it inserts nothing, and it counts nothing. -/
theorem missed_before_midnight :
    Watched "CAM1" 0 lastAndTotal primedPoller [] ∧
      (pollAt [] [eveningAlarm] 86410).Answers "CAM1" 0 lastAndTotal primedPoller [] ∧
      (primedPoller.serials "CAM1").baseline ≠ none ∧
      ("front", ⟨"CAM1", 1⟩) ∈ primedPoller.feed.aliasesOf "CAM1" ∧
      eveningAlarm.Recent 0 (localDay (some 0) { now := 86410 }) ∧
      eveningAlarm.message.ownChannel = 1 ∧
      ¬ Handled primedPoller (primedPoller.cycle (pollAt [] [eveningAlarm] 86410).outside).2 "front"
        eveningAlarm := by
  refine ⟨watched_primedPoller,
    answers_pollAt (vendorLog_singleton eveningAlarm) (by decide +kernel), by decide +kernel,
    by decide +kernel, by decide +kernel, rfl, ?_⟩
  rintro (⟨batch, persist, hslot, e, he, -⟩ | hcount)
  · -- nothing has got a number
    have hhead : ((primedPoller.cycle (pollAt [] [eveningAlarm] 86410).outside).2.feed.slots
        "front").history.head = (primedPoller.feed.slots "front").history.head := by
      decide +kernel
    rw [hslot, CameraSlot.publish_history, CameraHistory.insert_head] at hhead
    have := List.length_pos_of_mem he
    omega
  -- nothing was counted as truncated
  · exact absurd hcount (by decide +kernel)

end Alarms

end EzvizBridge
