import EzvizBridge.Alarms.Representation

/-!
# What an insert does to the events

Seen from a reader, `insert` appends the accepted alarms under the next numbers and drops what no
longer fits at the front; the only other change of an entry is that it may lose its picture. `Grows`
says this of two states of one process, with anything inserted in between: it is what the readers of
the feed rely on.
-/

namespace EzvizBridge

namespace Alarms

open Recordings (Persist)

/-- The entry without its picture. -/
def Entry.bare (self : Entry) : Entry := { self with record := self.record.bare }

namespace CameraHistory

/-- The entries, whatever became of their pictures. -/
def alarms (self : CameraHistory) : List Entry := self.events.map Entry.bare

variable {self next : CameraHistory} {record : AlarmRecord}

theorem bare_strip (e : Entry) : (strip e).bare = e.bare := by
  unfold strip
  split_ifs <;> rfl

/-- An entry of the history, without its picture. -/
theorem mem_alarms_of_mem {e : Entry} (h : e ∈ self.events) : e.bare ∈ self.alarms :=
  List.mem_map_of_mem h

theorem alarms_enforce (self : CameraHistory) : self.enforcePictureBudget.1.alarms = self.alarms :=
  enforce_maps Entry.bare bare_strip self

/-- The picture budget keeps the index. -/
theorem Indexed.enforce (h : self.Indexed) : self.enforcePictureBudget.1.Indexed := by
  have hsequence := enforce_maps Entry.sequence (fun e => (strip_fields e).1) self
  have hids : idsOf self.enforcePictureBudget.1.events = idsOf self.events :=
    enforce_maps _ (fun e => (strip_fields e).2.1) self
  refine { window := h.window.of_map_eq hsequence, distinct := hids ▸ h.distinct,
           index := hids ▸ h.index, floor := h.floor, tokens := ?_ }
  intro e he
  have hid : e.record.id ∈ idsOf self.events := hids ▸ List.mem_map_of_mem he
  obtain ⟨e', he', heq⟩ := List.mem_map.mp hid
  exact heq ▸ h.tokens e' he'

/-! ### The loop of `insert` -/

/-- The entries that the loop of `insert` appends. -/
def appended (self : CameraHistory) : List Incoming → List Entry
  | [] => []
  | incoming :: batch =>
    if self.accepts incoming.record then
      { sequence := self.head + 1, record := incoming.record.bare } ::
        (self.take incoming).1.appended batch
    else self.appended batch

/-- One accepted record. -/
theorem take_spec (self : CameraHistory) (incoming : Incoming) :
    (self.take incoming).1.alarms =
        (self.alarms ++
          [({ sequence := self.head + 1, record := incoming.record.bare } : Entry)]).drop
          (self.events.length + 1 - self.limit) ∧
      (self.take incoming).1.head = self.head + 1 ∧ (self.take incoming).1.floor = self.floor ∧
      (self.take incoming).1.limit = self.limit ∧ (self.take incoming).1.file = self.file ∧
      (self.take incoming).1.binding = self.binding := by
  obtain ⟨pushed, pictures, htake, hsame, -⟩ := self.take_cases incoming
  obtain ⟨hevents, hhead, hfloor, hlimit, -, hfile, hbinding⟩ :=
    push_events { self with pictures } pushed
  rw [htake]
  refine ⟨?_, hhead, hfloor, hlimit, hfile, hbinding⟩
  rw [alarms, hevents, List.map_drop, List.map_append, List.map_singleton, Entry.bare, hsame]
  rfl

/-- An accepted record keeps the index. -/
theorem Indexed.take {incoming : Incoming} (h : self.Indexed)
    (haccepts : self.accepts incoming.record = true) : (self.take incoming).1.Indexed := by
  obtain ⟨htoken, hnew, -⟩ := accepts_iff.mp haccepts
  obtain ⟨pushed, pictures, htake, hsame, -⟩ := self.take_cases incoming
  have hid := AlarmRecord.id_eq_of_bare_eq hsame
  rw [htake]
  exact (h.withPictures pictures).push (hid ▸ htoken) (hid ▸ hnew)

theorem length_alarms (self : CameraHistory) : self.alarms.length = self.events.length :=
  List.length_map _

/-- How many entries there are after one more. -/
theorem take_length (self : CameraHistory) (incoming : Incoming) :
    (self.take incoming).1.events.length =
      self.events.length + 1 - (self.events.length + 1 - self.limit) := by
  have hlength := congrArg List.length (self.take_spec incoming).1
  rwa [length_alarms, List.length_drop, List.length_append, List.length_singleton,
    length_alarms] at hlength

/-- How many records the loop accepts. -/
theorem insertAll_counts (self : CameraHistory) (batch : List Incoming) :
    (self.insertAll batch).1.head = self.head + (self.appended batch).length ∧
      (self.insertAll batch).2.inserted = (self.appended batch).length := by
  -- on the batch
  induction batch generalizing self with
  | nil => exact ⟨rfl, rfl⟩
  | cons incoming batch ih =>
    rw [CameraHistory.insertAll, appended]
    -- the record is accepted, or it is known
    split_ifs
    · obtain ⟨-, hhead, -⟩ := self.take_spec incoming
      obtain ⟨-, -, -, -, -, -, hinserted⟩ := self.take_cases incoming
      obtain ⟨hhead', hinserted'⟩ := ih (self.take incoming).1
      dsimp only
      rw [hhead', hhead, hinserted, hinserted', List.length_cons]
      exact ⟨by omega, by omega⟩
    · exact ih self

/-- The whole loop. -/
theorem insertAll_spec {batch : List Incoming} (h : self.Indexed)
    (hsize : self.events.length ≤ self.limit) :
    (self.insertAll batch).1.Indexed ∧
      (self.insertAll batch).1.alarms =
        (self.alarms ++ self.appended batch).drop
          (self.events.length + (self.appended batch).length - self.limit) ∧
      (self.insertAll batch).1.head = self.head + (self.appended batch).length ∧
      (self.insertAll batch).1.floor = self.floor ∧ (self.insertAll batch).1.limit = self.limit ∧
      (self.insertAll batch).1.file = self.file ∧
      (self.insertAll batch).1.binding = self.binding := by
  -- on the batch, with the history as it grows
  induction batch generalizing self with
  | nil =>
    have hzero : self.events.length + 0 - self.limit = 0 := by omega
    refine ⟨h, ?_, rfl, rfl, rfl, rfl, rfl⟩
    rw [appended, List.append_nil, List.length_nil, hzero]
    rfl
  | cons incoming batch ih =>
    rw [CameraHistory.insertAll, appended]
    -- the record is accepted, or it is known
    split_ifs with haccepts
    · obtain ⟨halarms, hhead, hfloor, hlimit, hfile, hbinding⟩ := self.take_spec incoming
      have hlength := self.take_length incoming
      obtain ⟨hindexed, halarms', hhead', hfloor', hlimit', hfile', hbinding'⟩ :=
        ih (h.take haccepts) (by rw [hlimit]; omega)
      dsimp only
      refine ⟨hindexed, ?_, ?_, hfloor'.trans hfloor, hlimit'.trans hlimit, hfile'.trans hfile,
        hbinding'.trans hbinding⟩
      · -- what is dropped now and what is dropped later is dropped at once
        rw [halarms', halarms, hlimit, hlength, ← List.drop_append_of_le_length, List.drop_drop,
          List.append_assoc, List.singleton_append]
        · congr 1
          rw [List.length_cons]
          omega
        · rw [List.length_append, List.length_singleton, length_alarms]
          omega
      · rw [hhead', hhead, List.length_cons]
        omega
    · exact ih h hsize

/-! ### `insert` and `load` -/

/-- Writing the file changes nothing but what the file is. -/
theorem persist_fields (self : CameraHistory) (persist : Persist) :
    (self.persist persist).events = self.events ∧ (self.persist persist).index = self.index ∧
      (self.persist persist).head = self.head ∧ (self.persist persist).floor = self.floor ∧
      (self.persist persist).limit = self.limit ∧
        (self.persist persist).binding = self.binding := by
  unfold CameraHistory.persist
  split_ifs <;> exact ⟨rfl, rfl, rfl, rfl, rfl, rfl⟩

/-- Writing the file keeps the index. -/
theorem Indexed.persist (h : self.Indexed) (persist : Persist) :
    (self.persist persist).Indexed := by
  obtain ⟨hevents, hindex, hhead, hfloor, -⟩ := self.persist_fields persist
  exact { window := by rw [hevents, hhead]; exact h.window
          distinct := hevents ▸ h.distinct
          index := by rw [hindex, hevents]; exact h.index
          floor := by rw [hfloor, hhead]; exact h.floor
          tokens := hevents ▸ h.tokens }

/-- What `insert` does after its loop, up to the file. -/
def conclude (self : CameraHistory) (live : Bool) : CameraHistory :=
  (if live then self else { self with floor := self.head }).enforcePictureBudget.1

/-- The end of an insert moves the floor only. -/
theorem conclude_spec {live : Bool} (h : self.Indexed) :
    (self.conclude live).Indexed ∧ (self.conclude live).alarms = self.alarms ∧
      (self.conclude live).head = self.head ∧
      (self.conclude live).floor = (if live then self.floor else self.head) ∧
      (self.conclude live).limit = self.limit ∧ (self.conclude live).file = self.file := by
  cases live with
  | true => exact ⟨h.enforce, alarms_enforce self, rfl, rfl, rfl, rfl⟩
  | false =>
    have hraised : { self with floor := self.head }.Indexed :=
      { window := h.window, distinct := h.distinct, index := h.index, floor := Nat.le_refl _,
        tokens := h.tokens }
    exact ⟨hraised.enforce, alarms_enforce { self with floor := self.head }, rfl, rfl, rfl, rfl⟩

/-- `insert` in one piece: the loop, the floor and the budget, and the file if anything was
accepted. -/
theorem insert_eq (self : CameraHistory) (batch : List Incoming) (live : Bool) (persist : Persist) :
    self.insert batch live persist =
      if 0 < (self.insertAll batch).2.inserted then
        (persist.result.map fun _ => (self.insertAll batch).2,
          ((self.insertAll batch).1.conclude live).persist persist)
      else (.ok (self.insertAll batch).2, (self.insertAll batch).1.conclude live) := rfl

/-- The history after `insert`, whether it succeeds or not. -/
theorem insert_spec {batch : List Incoming} {live : Bool} {persist : Persist} (h : self.Indexed)
    (hsize : self.events.length ≤ self.limit) :
    (self.insert batch live persist).2.Indexed ∧
      (self.insert batch live persist).2.alarms =
        (self.alarms ++ self.appended batch).drop
          (self.events.length + (self.appended batch).length - self.limit) ∧
      (self.insert batch live persist).2.head = self.head + (self.appended batch).length ∧
      (self.insert batch live persist).2.floor =
        (if live then self.floor else self.head + (self.appended batch).length) ∧
      (self.insert batch live persist).2.limit = self.limit := by
  obtain ⟨hindexed, halarms, hhead, hfloor, hlimit, -⟩ := @insertAll_spec self batch h hsize
  obtain ⟨hindexed', halarms', hhead', hfloor', hlimit', -⟩ := @conclude_spec _ live hindexed
  rw [hhead, hfloor] at hfloor'
  obtain ⟨hevents, -, hhead'', hfloor'', hlimit'', -⟩ :=
    ((self.insertAll batch).1.conclude live).persist_fields persist
  have halarms'' : (((self.insertAll batch).1.conclude live).persist persist).alarms =
      ((self.insertAll batch).1.conclude live).alarms := congrArg (List.map Entry.bare) hevents
  rw [insert_eq]
  -- the file is written only for a record that is new
  by_cases hinserted : 0 < (self.insertAll batch).2.inserted
  · rw [if_pos hinserted]
    refine ⟨hindexed'.persist persist, ?_, ?_, ?_, ?_⟩
    · exact halarms''.trans (halarms'.trans halarms)
    · exact hhead''.trans (hhead'.trans hhead)
    · exact hfloor''.trans hfloor'
    · exact hlimit''.trans (hlimit'.trans hlimit)
  · rw [if_neg hinserted]
    exact ⟨hindexed', halarms'.trans halarms, hhead'.trans hhead, hfloor', hlimit'.trans hlimit⟩

/-- The numbers that were given out stay given out. -/
theorem insert_head (self : CameraHistory) (batch : List Incoming) (live : Bool)
    (persist : Persist) :
    (self.insert batch live persist).2.head = self.head + (self.appended batch).length := by
  have hconclude : ((self.insertAll batch).1.conclude live).head =
      (self.insertAll batch).1.head := by
    cases live <;> rfl
  rw [insert_eq]
  split_ifs
  · exact (persist_fields _ persist).2.2.1.trans (hconclude.trans (self.insertAll_counts batch).1)
  · exact hconclude.trans (self.insertAll_counts batch).1

/-- `insert` fails exactly if something was accepted and the file cannot be written. -/
theorem insert_error_iff {batch : List Incoming} {live : Bool} {persist : Persist} :
    (∃ error, (self.insert batch live persist).1 = .error error) ↔
      self.appended batch ≠ [] ∧ persist ≠ .ok := by
  rw [insert_eq, (self.insertAll_counts batch).2, ← List.length_pos_iff]
  split_ifs with hpos
  · cases persist with
    | ok => exact ⟨fun herror => (nomatch herror), fun hand => absurd rfl hand.2⟩
    | failed renamed detail => exact ⟨fun _ => ⟨hpos, nofun⟩, fun _ => ⟨_, rfl⟩⟩
  · exact ⟨fun herror => (nomatch herror), fun hand => absurd hand.1 hpos⟩

/-- An insert keeps the limit. -/
theorem length_le_limit_insert {batch : List Incoming} {live : Bool} {persist : Persist}
    (h : self.Indexed) (hsize : self.events.length ≤ self.limit) :
    (self.insert batch live persist).2.events.length ≤
      (self.insert batch live persist).2.limit := by
  obtain ⟨-, halarms, -, -, hlimit⟩ := @insert_spec self batch live persist h hsize
  rw [← length_alarms, halarms, hlimit, List.length_drop, List.length_append, length_alarms]
  omega

/-- The records of the file are restored, whatever the file holds. -/
theorem indexed_restore (h : self.Indexed) (hsize : self.events.length ≤ self.limit) :
    (self.restore record).Indexed ∧
      (self.restore record).events.length ≤ (self.restore record).limit ∧
      (self.restore record).limit = self.limit := by
  unfold CameraHistory.restore
  -- an empty or a known id is skipped
  split_ifs with hskip
  · exact ⟨h, hsize, rfl⟩
  · rw [not_or, not_not, Bool.not_eq_true] at hskip
    have hpush : ∀ pushed : AlarmRecord, pushed.id = record.id →
        (self.push pushed).Indexed ∧ (self.push pushed).events.length ≤ (self.push pushed).limit ∧
          (self.push pushed).limit = self.limit := by
      intro pushed hid
      exact ⟨h.push (hid ▸ hskip.1) (hid ▸ hskip.2), push_length_le,
        (push_events self pushed).2.2.2.1⟩
    dsimp only
    -- with its picture, or without
    split_ifs
    · exact hpush _ rfl
    · exact hpush _ rfl

/-- A loaded history is in order, and nothing in it is new. -/
theorem indexed_load (file : Option HistoryFile) (pictures : Finset String) (binding : String)
    (pictureBudget limit : ℕ) (persist : Persist) :
    (load file pictures binding pictureBudget limit persist).Indexed ∧
      (load file pictures binding pictureBudget limit persist).events.length ≤ limit ∧
      (load file pictures binding pictureBudget limit persist).limit = limit ∧
      (load file pictures binding pictureBudget limit persist).floor =
        (load file pictures binding pictureBudget limit persist).head := by
  -- the records are restored one after the other
  have hfold : ∀ (records : List AlarmRecord) (history : CameraHistory), history.Indexed →
      history.events.length ≤ history.limit →
      (records.foldl restore history).Indexed ∧
        (records.foldl restore history).events.length ≤ (records.foldl restore history).limit ∧
        (records.foldl restore history).limit = history.limit := by
    intro records
    induction records with
    | nil => exact fun history h hsize => ⟨h, hsize, rfl⟩
    | cons record records ih =>
      intro history h hsize
      obtain ⟨h', hsize', hlimit'⟩ := @indexed_restore history record h hsize
      obtain ⟨h'', hsize'', hlimit''⟩ := ih _ h' hsize'
      exact ⟨h'', hsize'', hlimit''.trans hlimit'⟩
  have hempty : (empty file pictures binding pictureBudget limit).Indexed :=
    { window := Window.nil _ _, distinct := List.nodup_nil, index := rfl, floor := Nat.le_refl _,
      tokens := fun _ he => absurd he List.not_mem_nil }
  obtain ⟨h, hsize, hlimit⟩ := hfold
    ((storedRecords file binding).drop ((storedRecords file binding).length - limit)) _ hempty
    (Nat.zero_le _)
  -- the pictures that no record names are swept, and the floor is the head
  unfold load
  dsimp only
  generalize ((storedRecords file binding).drop ((storedRecords file binding).length - limit)).foldl
    restore (empty file pictures binding pictureBudget limit) = restored at *
  let swept := { restored with
    floor := restored.head
    pictures := PictureDir.removeOrphans restored.pictures (picturedOf restored.events) }
  have hswept : swept.Indexed :=
    { window := h.window, distinct := h.distinct, index := h.index, floor := Nat.le_refl _,
      tokens := h.tokens }
  have hlimit' : restored.limit = limit := hlimit
  have hlength : swept.enforcePictureBudget.1.events.length ≤ limit :=
    (enforce_length swept).trans_le (hsize.trans_eq hlimit')
  -- the file is written again, or it is as it should be
  have hresult : ∀ (rewrite : Prop) [Decidable rewrite] (loaded : CameraHistory),
      loaded = (if rewrite then swept.enforcePictureBudget.1.persist persist
        else swept.enforcePictureBudget.1) →
      loaded.Indexed ∧ loaded.events.length ≤ limit ∧ loaded.limit = limit ∧
        loaded.floor = loaded.head := by
    rintro rewrite _ loaded rfl
    split_ifs
    · obtain ⟨hevents, -, hhead, hfloor, hkept, -⟩ :=
        swept.enforcePictureBudget.1.persist_fields persist
      rw [hevents, hkept, hhead, hfloor]
      exact ⟨hswept.enforce.persist persist, hlength, hlimit', rfl⟩
    · exact ⟨hswept.enforce, hlength, hlimit', rfl⟩
  exact hresult _ _ rfl

/-! ### Two states of one process -/

/-- What a later state of the process has in common with an earlier one. -/
structure Grows (earlier later : CameraHistory) : Prop where
  head : earlier.head ≤ later.head
  floor : earlier.floor ≤ later.floor
  limit : later.limit = earlier.limit
  /-- an alarm that had been there is there only as it was -/
  old : ∀ e ∈ later.alarms, e.sequence ≤ earlier.head → e ∈ earlier.alarms

theorem Grows.refl (self : CameraHistory) : Grows self self :=
  ⟨Nat.le_refl _, Nat.le_refl _, rfl, fun _ he _ => he⟩

theorem Grows.trans {last : CameraHistory} (h : Grows self next) (h' : Grows next last) :
    Grows self last :=
  ⟨h.head.trans h'.head, h.floor.trans h'.floor, h'.limit.trans h.limit,
    fun e he hle => h.old e (h'.old e he (hle.trans h.head)) hle⟩

/-- The appended entries have new numbers. -/
theorem lt_of_mem_appended {batch : List Incoming} {e : Entry} (h : e ∈ self.appended batch) :
    self.head < e.sequence := by
  -- on the batch
  induction batch generalizing self with
  | nil => exact absurd h List.not_mem_nil
  | cons incoming batch ih =>
    rw [appended] at h
    split_ifs at h
    · rcases List.mem_cons.mp h with rfl | h
      · exact Nat.lt_succ_self _
      · have hlt := ih h
        rw [(self.take_spec incoming).2.1] at hlt
        omega
    · exact ih h

/-- An insert lets the history grow. -/
theorem grows_insert {batch : List Incoming} {live : Bool} {persist : Persist} (h : self.Indexed)
    (hsize : self.events.length ≤ self.limit) :
    Grows self (self.insert batch live persist).2 := by
  obtain ⟨-, halarms, hhead, hfloor, hlimit⟩ := @insert_spec self batch live persist h hsize
  refine { head := by omega, floor := ?_, limit := hlimit, old := ?_ }
  · rw [hfloor]
    have := h.floor
    split_ifs <;> omega
  -- an entry that is there was there before, or it is new
  · intro e he hle
    rw [halarms] at he
    rcases List.mem_append.mp (List.mem_of_mem_drop he) with he | he
    · exact he
    · have := lt_of_mem_appended he
      omega

end CameraHistory

end Alarms

end EzvizBridge
