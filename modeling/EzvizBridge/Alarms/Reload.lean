import EzvizBridge.Alarms.Browsing

/-!
# What a reload finds

`load` reads the file back through the same steps that a new alarm goes through, and then some:
every record is validated again, its picture is looked for, what no record needs is removed, and
limit and budget are applied. `load_records` is the result for any file that holds records of
distinct alarms: the newest `limit` records, each with its picture if that is there (`restored`) and
within the budget (`fitting`), numbered from one.

`Mirrored` says that a history is what its own file would be read back as. It is an invariant of
loads and successful inserts (`mirrored_of_reached`), and with it a reload loses nothing
(`reload_reproduces`). The one thing that may change is the file itself: a load that finds more
records than the limit allows rewrites it, and this may fail.
-/

namespace EzvizBridge

namespace Alarms

open Recordings (Persist)

/-- The record up to its title, which a load sanitizes once more. -/
def AlarmRecord.untitled (self : AlarmRecord) : AlarmRecord := { self with title := "" }

/-- The recorded sizes of the pictures. -/
def sizeOf (records : List AlarmRecord) : ℕ := (records.map (·.pictureBytes)).sum

/-! ### The picture budget -/

/-- The records with the pictures that fit: a picture stays if it and the newer ones are within the
budget. -/
def fitting (budget : ℕ) : List AlarmRecord → List AlarmRecord
  | [] => []
  | record :: rest =>
    (if sizeOf (record :: rest) ≤ budget then record else record.bare) :: fitting budget rest

/-- No record counts bytes of a picture that it does not have. -/
def Bare (records : List AlarmRecord) : Prop :=
  ∀ r ∈ records, r.hasPicture = false → r.pictureBytes = 0

/-- A record without a picture is as it was. -/
theorem AlarmRecord.bare_eq {record : AlarmRecord} (hpicture : record.hasPicture = false)
    (hbytes : record.pictureBytes = 0) : record.bare = record := by
  obtain ⟨id, occurredAt, alarmType, category, title, hasPicture, pictureBytes⟩ := record
  obtain rfl : hasPicture = false := hpicture
  obtain rfl : pictureBytes = 0 := hbytes
  rfl

section Fitting

variable {budget : ℕ} {records : List AlarmRecord}

theorem length_fitting : (fitting budget records).length = records.length := by
  induction records with
  | nil => rfl
  | cons record rest ih => exact congrArg (· + 1) ih

/-- What is within the budget stays. -/
theorem fitting_of_le (h : sizeOf records ≤ budget) : fitting budget records = records := by
  induction records with
  | nil => rfl
  | cons record rest ih =>
    have hrest : sizeOf rest ≤ budget := by
      refine Nat.le_trans ?_ h
      rw [sizeOf, sizeOf, List.map_cons, List.sum_cons]
      exact Nat.le_add_left _ _
    rw [fitting, if_pos h, ih hrest]

/-- What is left fits the budget. -/
theorem sizeOf_fitting_le : sizeOf (fitting budget records) ≤ budget := by
  induction records with
  | nil => exact Nat.zero_le _
  | cons record rest ih =>
    by_cases h : sizeOf (record :: rest) ≤ budget
    · rw [fitting_of_le h]
      exact h
    · rw [fitting, if_neg h, sizeOf, List.map_cons, List.sum_cons]
      show 0 + sizeOf (fitting budget rest) ≤ budget
      rw [Nat.zero_add]
      exact ih

/-- Each record stays as it is or loses its picture. -/
theorem getElem_fitting (budget : ℕ) (records : List AlarmRecord) (i : ℕ) (hi : i < records.length)
    (hfits : i < (fitting budget records).length) :
    (fitting budget records)[i] = records[i] ∨ (fitting budget records)[i] = records[i].bare := by
  -- on the records, from the oldest
  induction records generalizing i with
  | nil => exact absurd hi (Nat.not_lt_zero _)
  | cons record rest ih =>
    cases i with
    | zero =>
      show (if _ then record else record.bare) = record ∨ (if _ then record else record.bare) =
          record.bare
      split_ifs
      · exact Or.inl rfl
      · exact Or.inr rfl
    | succ i => exact ih i (Nat.lt_of_succ_lt_succ hi) (Nat.lt_of_succ_lt_succ hfits)

/-- A record that loses its picture has no bytes of it. -/
theorem bare_fitting (h : Bare records) : Bare (fitting budget records) := by
  intro r hr hpicture
  obtain ⟨i, hfits, rfl⟩ := List.mem_iff_getElem.mp hr
  have hi : i < records.length := by rwa [length_fitting] at hfits
  rcases getElem_fitting budget records i hi hfits with heq | heq
  · rw [heq] at hpicture ⊢
    exact h _ (List.getElem_mem _) hpicture
  · rw [heq]
    rfl

/-- The budget does not look at titles. -/
theorem fitting_untitled : (fitting budget records).map AlarmRecord.untitled =
    fitting budget (records.map AlarmRecord.untitled) := by
  induction records with
  | nil => rfl
  | cons record rest ih =>
    have hsize : sizeOf ((record :: rest).map AlarmRecord.untitled) = sizeOf (record :: rest) := by
      rw [sizeOf, sizeOf, List.map_map]
      rfl
    rw [List.map_cons] at hsize
    rw [fitting, List.map_cons, List.map_cons, fitting, hsize, ih]
    split_ifs <;> rfl

end Fitting

namespace CameraHistory

/-- The loop ends at once if the pictures fit. -/
theorem dropPictures_of_le {budget total : ℕ} (h : total ≤ budget) (events : List Entry)
    (pictures : Finset String) :
    dropPictures budget total events pictures = (events, pictures, false) := by
  cases events with
  | nil => rfl
  | cons entry rest => rw [dropPictures, if_pos h]

/-- The loop of `enforce_picture_budget` leaves the pictures that fit. -/
theorem dropPictures_records {budget : ℕ} {events : List Entry} (pictures : Finset String)
    (hbare : Bare (events.map (·.record))) :
    (dropPictures budget (sizeOf (events.map (·.record))) events pictures).1.map (·.record) =
      fitting budget (events.map (·.record)) := by
  -- on the entries, from the oldest; what is left to drop is the size of the rest
  induction events generalizing pictures with
  | nil => rfl
  | cons entry rest ih =>
    have hrest : Bare (rest.map (·.record)) := fun r hr => hbare r (List.mem_cons_of_mem _ hr)
    have hsize : sizeOf ((entry :: rest).map (·.record)) =
        entry.record.pictureBytes + sizeOf (rest.map (·.record)) := by
      rw [sizeOf, List.map_cons, List.map_cons, List.sum_cons]
      rfl
    -- the loop stops at the first entry from which on the pictures fit
    by_cases hfits : sizeOf ((entry :: rest).map (·.record)) ≤ budget
    · rw [dropPictures_of_le hfits, fitting_of_le hfits]
    · rw [dropPictures, if_neg hfits]
      rw [List.map_cons] at hfits hsize ⊢
      rw [fitting, if_neg hfits]
      split_ifs with hpicture
      · -- the picture goes, and what is left is the size of the rest
        dsimp only
        rw [hsize, Nat.add_sub_cancel_left, List.map_cons, ih _ hrest]
      -- an entry without a picture is passed over, and counts nothing
      · have hnone : entry.record.hasPicture = false := by simpa using hpicture
        have hzero : entry.record.pictureBytes = 0 := hbare _ (List.mem_cons_self ..) hnone
        dsimp only
        rw [hsize, hzero, Nat.zero_add, List.map_cons, ih _ hrest,
          AlarmRecord.bare_eq hnone hzero]

variable {self : CameraHistory}

/-- The records of the history, oldest first. -/
def records (self : CameraHistory) : List AlarmRecord := self.events.map (·.record)

/-- The records after the budget was enforced. -/
theorem records_enforce (hbare : Bare self.records) :
    self.enforcePictureBudget.1.records = fitting self.pictureBudget self.records := by
  have hsum : (self.events.map (·.record.pictureBytes)).sum = sizeOf self.records := by
    rw [sizeOf, records, List.map_map]
    rfl
  show (dropPictures _ _ _ _).1.map (·.record) = _
  rw [hsum]
  exact dropPictures_records self.pictures hbare

/-- A history within its budget is left as it is. -/
theorem enforce_of_le (h : sizeOf self.records ≤ self.pictureBudget) :
    self.enforcePictureBudget = (self, false) := by
  have hsum : (self.events.map (·.record.pictureBytes)).sum = sizeOf self.records := by
    rw [sizeOf, records, List.map_map]
    rfl
  unfold enforcePictureBudget
  rw [hsum]
  dsimp only
  rw [dropPictures_of_le h]

/-! ### Reading the file back -/

/-- The records, numbered behind `start`. -/
def numbered (start : ℕ) : List AlarmRecord → List Entry
  | [] => []
  | record :: rest => { sequence := start + 1, record } :: numbered (start + 1) rest

/-- The numbered entries have the records and ascending numbers. -/
theorem numbered_fields (start : ℕ) (records : List AlarmRecord) :
    (numbered start records).map (·.record) = records ∧
      (numbered start records).map (·.sequence) = List.range' (start + 1) records.length := by
  induction records generalizing start with
  | nil => exact ⟨rfl, rfl⟩
  | cons record rest ih =>
    obtain ⟨hrecords, hnumbers⟩ := ih (start + 1)
    refine ⟨congrArg (record :: ·) hrecords, ?_⟩
    rw [List.length_cons, List.range'_succ]
    exact congrArg ((start + 1) :: ·) hnumbers

/-- A record of the file as it is restored: with its picture, if that is there. -/
def restored (pictures : Finset String) (record : AlarmRecord) : AlarmRecord :=
  let record := { record with title := sanitizeTitle record.title }
  if record.hasPicture ∧ ¬ PictureDir.holds pictures record.id then record.bare else record

theorem restored_id (pictures : Finset String) (record : AlarmRecord) :
    (restored pictures record).id = record.id := by
  unfold restored
  dsimp only
  split_ifs <;> rfl

/-- The record counts the picture that it is restored with. -/
theorem bare_restored {records : List AlarmRecord} (h : Bare records) (pictures : Finset String) :
    Bare (records.map (restored pictures)) := by
  intro r hr hpicture
  obtain ⟨record, hrecord, rfl⟩ := List.mem_map.mp hr
  unfold restored at hpicture ⊢
  dsimp only at hpicture ⊢
  split_ifs at hpicture ⊢
  · rfl
  · exact h record hrecord hpicture

/-- Records of distinct alarms, each with a token for an id. -/
structure Distinct (records : List AlarmRecord) : Prop where
  tokens : ∀ r ∈ records, isToken r.id = true
  nodup : (records.map (·.id)).Nodup

theorem Distinct.sublist {records rest : List AlarmRecord} (h : Distinct records)
    (hrest : rest.Sublist records) : Distinct rest :=
  ⟨fun r hr => h.tokens r (hrest.subset hr), h.nodup.sublist (hrest.map _)⟩

/-- **Records of distinct alarms are restored one by one**, where the limit leaves room for them. -/
theorem foldl_restore {records : List AlarmRecord} (h : Distinct records)
    (hroom : self.events.length + records.length ≤ self.limit)
    (hnew : ∀ r ∈ records, r.id ∉ self.index) :
    records.foldl restore self =
      { self with
        events := self.events ++ numbered self.head (records.map (restored self.pictures))
        head := self.head + records.length
        index := (records.map (·.id)).foldl
          (fun index id => Insert.insert id index) self.index } := by
  -- on the records that are still to be restored
  induction records generalizing self with
  | nil => simp [numbered]
  | cons record rest ih =>
    rw [List.length_cons] at hroom
    -- the alarm is new, and there is room, so nothing is evicted
    have hknown : self.knows record.id = false := by
      rw [knows, decide_eq_false_iff_not]
      exact hnew record (List.mem_cons_self ..)
    have hstep : self.restore record = self.append (restored self.pictures record) := by
      unfold restore
      rw [if_neg (by simp [h.tokens record (List.mem_cons_self ..), hknown])]
      exact push_eq_append (by omega)
    obtain ⟨hfirst, hnodup⟩ := List.nodup_cons.mp h.nodup
    rw [List.foldl_cons, hstep, ih (h.sublist (List.sublist_cons_self ..))]
    · have hevents : (self.append (restored self.pictures record)).events =
          self.events ++ [{ sequence := self.head + 1, record := restored self.pictures record }] :=
        rfl
      have hindex : (self.append (restored self.pictures record)).index =
          Insert.insert record.id self.index :=
        congrArg (Insert.insert · self.index) (restored_id self.pictures record)
      rw [hevents, hindex, List.append_assoc]
      show ({ self with events := _, head := _, index := _ } : CameraHistory) = _
      rw [List.map_cons, List.map_cons, List.foldl_cons, List.length_cons, numbered]
      congr 1
      show self.head + 1 + rest.length = _
      omega
    · show (self.events ++ [_]).length + rest.length ≤ self.limit
      rw [List.length_append, List.length_singleton]
      omega
    -- the rest is still new, as the alarms are distinct
    · intro r hr hmem
      have hindex : r.id ∈ Insert.insert record.id self.index := by
        rw [← restored_id self.pictures record]
        exact hmem
      rcases Finset.mem_insert.mp hindex with heq | hold
      · exact hfirst (List.mem_map.mpr ⟨r, hr, heq⟩)
      · exact hnew r (List.mem_cons_of_mem _ hr) hold

/-- The records of the file that a load looks at. -/
def newest (file : Option HistoryFile) (binding : String) (limit : ℕ) : List AlarmRecord :=
  (storedRecords file binding).drop ((storedRecords file binding).length - limit)

/-- The newest records are records of the file. -/
theorem newest_sublist (file : Option HistoryFile) (binding : String) (limit : ℕ) :
    (newest file binding limit).Sublist (storedRecords file binding) := List.drop_sublist _ _

/-- What a load makes of a file. -/
structure LoadedFrom (file : Option HistoryFile) (pictures : Finset String) (binding : String)
    (pictureBudget limit : ℕ) (persist : Persist) (loaded : CameraHistory) : Prop where
  records : loaded.records =
    fitting pictureBudget ((newest file binding limit).map (restored pictures))
  numbers : loaded.events.map (·.sequence) = List.range' 1 (newest file binding limit).length
  head : loaded.head = (newest file binding limit).length
  floor : loaded.floor = (newest file binding limit).length
  settings : loaded.binding = binding ∧ loaded.limit = limit ∧ loaded.pictureBudget = pictureBudget
  /-- a load that trims nothing leaves the file alone -/
  untouched : (storedRecords file binding).length ≤ limit →
    sizeOf ((newest file binding limit).map (restored pictures)) ≤ pictureBudget →
    loaded.file = file
  file : loaded.file = some loaded.historyFile ∨
    loaded.file = file ∧ ((storedRecords file binding).length ≤ limit ∨ persist.published = false)

/-- The restored history, with the floor raised and without the files that no record needs. -/
def swept (self : CameraHistory) : CameraHistory :=
  { self with
    floor := self.head
    pictures := PictureDir.removeOrphans self.pictures self.ids }

/-- The load as the restoration of the newest records, and what follows it. -/
theorem load_eq (file : Option HistoryFile) (pictures : Finset String) (binding : String)
    (pictureBudget limit : ℕ) (persist : Persist) :
    load file pictures binding pictureBudget limit persist =
      (let enforced := (((newest file binding limit).foldl restore
        (empty file pictures binding pictureBudget limit)).swept).enforcePictureBudget
      if 0 < (storedRecords file binding).length - limit ∨ enforced.2 then
        enforced.1.persist persist
      else enforced.1) := rfl

/-- What a load makes of a file whose alarms are distinct. -/
theorem load_records {file : Option HistoryFile} {pictures : Finset String} {binding : String}
    {pictureBudget limit : ℕ} {persist : Persist}
    (hdistinct : Distinct (storedRecords file binding))
    (hbare : Bare (storedRecords file binding)) :
    LoadedFrom file pictures binding pictureBudget limit persist
      (load file pictures binding pictureBudget limit persist) := by
  -- only as many records are read as there is room for
  have hkept := hdistinct.sublist (newest_sublist file binding limit)
  have hbarekept : Bare ((newest file binding limit).map (restored pictures)) :=
    bare_restored (fun r hr => hbare r ((newest_sublist file binding limit).subset hr)) pictures
  have hroom : 0 + (newest file binding limit).length ≤ limit := by
    rw [newest, List.length_drop]
    omega
  have hfold := @foldl_restore (empty file pictures binding pictureBudget limit) _ hkept hroom
    (fun _ _ => Finset.notMem_empty _)
  rw [load_eq]
  generalize hrestored : (newest file binding limit).foldl restore
    (empty file pictures binding pictureBudget limit) = read
  rw [hrestored] at hfold
  -- the numbers start with one, so the head is the number of records
  have hhead : read.head = (newest file binding limit).length := by
    rw [hfold]
    exact Nat.zero_add _
  have hrecords : read.swept.records = (newest file binding limit).map (restored pictures) := by
    show read.events.map (·.record) = _
    rw [hfold]
    exact (numbered_fields 0 _).1
  have hsequence : read.swept.events.map (·.sequence) =
      List.range' 1 (newest file binding limit).length := by
    show read.events.map (·.sequence) = _
    rw [hfold]
    have hnumbers := (numbered_fields 0 ((newest file binding limit).map (restored pictures))).2
    rw [List.length_map] at hnumbers
    exact hnumbers
  have hbudget : read.swept.pictureBudget = pictureBudget := by
    show read.pictureBudget = _
    rw [hfold]
    rfl
  -- the budget is enforced over the records of the file
  have henforced := records_enforce (hrecords ▸ hbarekept)
  have hnumbers : read.swept.enforcePictureBudget.1.events.map (·.sequence) =
      read.swept.events.map (·.sequence) :=
    enforce_maps Entry.sequence (fun e => (strip_fields e).1) read.swept
  rw [hrecords, hbudget] at henforced
  rw [hsequence] at hnumbers
  have hfile : read.swept.enforcePictureBudget.1.file = file := by
    show read.file = _
    rw [hfold]
    rfl
  have hsettings : read.binding = binding ∧ read.limit = limit ∧
      read.pictureBudget = pictureBudget := by
    rw [hfold]
    exact ⟨rfl, rfl, rfl⟩
  -- whether the file is written or not, only the file is concerned
  have hwritten : ∀ loaded : CameraHistory,
      loaded = { read.swept.enforcePictureBudget.1 with file := loaded.file } →
      (((storedRecords file binding).length ≤ limit →
        sizeOf ((newest file binding limit).map (restored pictures)) ≤ pictureBudget →
        loaded.file = file)) →
      (loaded.file = some loaded.historyFile ∨
        loaded.file = file ∧
          ((storedRecords file binding).length ≤ limit ∨ persist.published = false)) →
      LoadedFrom file pictures binding pictureBudget limit persist loaded := by
    intro loaded hloaded huntouched hfiles
    exact {
      records := (congrArg CameraHistory.records hloaded).trans henforced
      numbers := (congrArg (fun h => h.events.map (·.sequence)) hloaded).trans hnumbers
      head := (congrArg CameraHistory.head hloaded).trans hhead
      floor := (congrArg CameraHistory.floor hloaded).trans hhead
      settings := by
        rw [hloaded]
        exact hsettings
      untouched := huntouched
      file := hfiles }
  dsimp only
  split_ifs with htrimmed
  -- the file is written, as some record or picture was dropped
  · apply hwritten
    · unfold CameraHistory.persist
      split_ifs <;> rfl
    -- a file within the limits would not be written
    · intro hfits hsize
      exfalso
      rw [enforce_of_le (by rw [hrecords, hbudget]; exact hsize)] at htrimmed
      rcases htrimmed with hskip | hdropped
      · omega
      · cases hdropped
    · unfold CameraHistory.persist
      split_ifs with hpublished
      · exact Or.inl rfl
      · exact Or.inr ⟨hfile, Or.inr (by simpa using hpublished)⟩
  -- the file is left as it is
  · apply hwritten
    · rfl
    · exact fun _ _ => hfile
    · exact Or.inr ⟨hfile, Or.inl (by omega)⟩

/-! ### The history in its own file -/

/-- The pictures of the records, each under the id of its alarm. -/
theorem mem_picturedOf_records {id : String} :
    id ∈ picturedOf self.events ↔ ∃ r ∈ self.records, r.hasPicture = true ∧ r.id = id := by
  rw [mem_picturedOf]
  constructor
  · rintro ⟨e, he, hpicture, hid⟩
    exact ⟨e.record, List.mem_map_of_mem he, hpicture, hid⟩
  · rintro ⟨r, hr, hpicture, hid⟩
    obtain ⟨e, he, rfl⟩ := List.mem_map.mp hr
    exact ⟨e, he, hpicture, hid⟩

/-- The alarms of an indexed history are distinct. -/
theorem Indexed.distinct_records (h : self.Indexed) : Distinct self.records := by
  refine ⟨fun r hr => ?_, ?_⟩
  · obtain ⟨e, he, rfl⟩ := List.mem_map.mp hr
    exact h.tokens e he
  · rw [records, List.map_map]
    exact h.distinct

/-- The pictures of a list of distinct records, as a set. -/
def Pictures (pictures : Finset String) (records : List AlarmRecord) : Prop :=
  ∀ id, id ∈ pictures ↔ ∃ r ∈ records, r.hasPicture = true ∧ r.id = id

/-- A record finds its own picture and no other one's. -/
theorem Pictures.mem_iff {pictures : Finset String} {records : List AlarmRecord}
    (h : Pictures pictures records) (hnodup : (records.map (·.id)).Nodup) {r : AlarmRecord}
    (hr : r ∈ records) : r.id ∈ pictures ↔ r.hasPicture = true := by
  rw [h r.id]
  constructor
  · rintro ⟨r', hr', hpicture, hid⟩
    rwa [← List.inj_on_of_nodup_map hnodup hr' hr hid]
  · exact fun hpicture => ⟨r, hr, hpicture, rfl⟩

/-- Read back with its own pictures, a record differs in its title at most. -/
theorem restored_own {pictures : Finset String} {records : List AlarmRecord}
    (h : Pictures pictures records) (hdistinct : Distinct records) {r : AlarmRecord}
    (hr : r ∈ records) : (restored pictures r).untitled = r.untitled := by
  unfold restored
  dsimp only
  rw [if_neg]
  · rfl
  · rintro ⟨hpicture, hmissing⟩
    apply hmissing
    rw [PictureDir.holds, decide_eq_true_iff]
    exact ⟨hdistinct.tokens r hr, (h.mem_iff hdistinct.nodup hr).mpr hpicture⟩

/-- **Restoring twice is restoring once.** The records that were restored, with the pictures that
fit, are what the file is read as when only these pictures are left. -/
theorem restored_again {records : List AlarmRecord} {pictures left : Finset String} {budget : ℕ}
    (hdistinct : Distinct records) (hbare : Bare records)
    (hleft : Pictures left (fitting budget (records.map (restored pictures)))) :
    fitting budget (records.map (restored pictures)) = records.map (restored left) := by
  -- a record keeps its id, whether or not it has lost its picture
  have hids : (fitting budget (records.map (restored pictures))).map (·.id) =
      records.map (·.id) := by
    apply List.ext_getElem
    · rw [List.length_map, length_fitting, List.length_map, List.length_map]
    · intro i hi hi'
      rw [List.length_map] at hi'
      rw [List.getElem_map, List.getElem_map]
      rcases getElem_fitting budget (records.map (restored pictures)) i (by rwa [List.length_map])
        (by rwa [length_fitting, List.length_map]) with heq | heq
      · rw [heq, List.getElem_map, restored_id]
      · rw [heq, List.getElem_map]
        exact restored_id pictures _
  apply List.ext_getElem
  · rw [length_fitting, List.length_map, List.length_map]
  · intro i hi hi'
    have hin : i < records.length := by rwa [List.length_map] at hi'
    have hid : (fitting budget (records.map (restored pictures)))[i].id = records[i].id := by
      have := congrArg (·[i]?) hids
      simpa [List.getElem?_map, hi, hin] using this
    have hmem := hleft.mem_iff (hids ▸ hdistinct.nodup) (List.getElem_mem hi)
    rw [hid] at hmem
    have htoken := hdistinct.tokens _ (List.getElem_mem hin)
    -- the picture is there exactly if the record has kept it
    have hholds : PictureDir.holds left records[i].id =
        (fitting budget (records.map (restored pictures)))[i].hasPicture := by
      rw [Bool.eq_iff_iff, PictureDir.holds, decide_eq_true_iff, hmem]
      exact ⟨And.right, fun hpicture => ⟨htoken, hpicture⟩⟩
    rw [List.getElem_map]
    have hcases := getElem_fitting budget (records.map (restored pictures)) i
      (by rwa [List.length_map]) hi
    rw [List.getElem_map] at hcases
    have hbytes := hbare _ (List.getElem_mem hin)
    generalize (fitting budget (records.map (restored pictures)))[i] = kept at hcases hholds ⊢
    generalize records[i] = record at hcases hholds hbytes ⊢
    -- a record that had a picture
    have hpictured : record.hasPicture = true → kept = restored left record := by
      intro hpicture
      unfold restored at hcases ⊢
      dsimp only at hcases ⊢
      rw [hpicture] at hcases ⊢
      cases hkept : kept.hasPicture with
      | true =>
        -- it has its picture, so it was restored with it and found to fit
        rw [hholds, hkept, if_neg (by simp)]
        split_ifs at hcases with hmissing
        · rcases hcases with rfl | rfl <;> cases hkept
        · rcases hcases with rfl | rfl
          · rfl
          · cases hkept
      | false =>
        rw [hholds, hkept, if_pos (by simp)]
        split_ifs at hcases with hmissing
        · rcases hcases with rfl | rfl <;> rfl
        · rcases hcases with rfl | rfl
          · cases hkept
          · rfl
    -- a record that had none is restored without one
    cases hpicture : record.hasPicture with
    | true => exact hpictured hpicture
    | false =>
      unfold restored at hcases ⊢
      dsimp only at hcases ⊢
      rw [hpicture] at hcases ⊢
      simp only [Bool.false_eq_true, false_and, if_false] at hcases ⊢
      have hsame := @AlarmRecord.bare_eq
        { record with title := sanitizeTitle record.title } hpicture
        (hbytes hpicture)
      rw [hpicture] at hsame
      rcases hcases with rfl | rfl
      · rfl
      · exact hsame

/-- The file holds records that a history could have: of distinct alarms, without a size where there
is no picture. -/
def FileWritten (file : Option HistoryFile) : Prop :=
  ∀ stored ∈ file, Distinct stored.events ∧ Bare stored.events

/-- A history that its own file would be read back as. -/
structure Mirrored (history : CameraHistory) : Prop where
  indexed : history.Indexed
  bare : Bare history.records
  size : history.events.length ≤ history.limit
  budget : sizeOf history.records ≤ history.pictureBudget
  file : FileWritten history.file
  mirrored : history.records.map AlarmRecord.untitled =
    (newest history.file history.binding history.limit).map fun r =>
      (restored (picturedOf history.events) r).untitled

/-- What is read from a written file is distinct and counts no missing picture. -/
theorem storedRecords_ok {file : Option HistoryFile} (binding : String) (h : FileWritten file) :
    Distinct (storedRecords file binding) ∧ Bare (storedRecords file binding) := by
  have hnil : Distinct [] ∧ Bare [] :=
    ⟨⟨fun _ hr => absurd hr List.not_mem_nil, List.nodup_nil⟩,
      fun _ hr => absurd hr List.not_mem_nil⟩
  unfold storedRecords
  split
  · exact hnil
  · split_ifs
    · exact h _ rfl
    · exact hnil

/-- The image of `persist` is read as the records of the history. -/
theorem newest_historyFile (hfile : self.file = some self.historyFile)
    (hsize : self.events.length ≤ self.limit) :
    storedRecords self.file self.binding = self.records ∧
      newest self.file self.binding self.limit = self.records := by
  have hstored : storedRecords self.file self.binding = self.records := by
    rw [hfile]
    exact if_pos ⟨rfl, rfl⟩
  refine ⟨hstored, ?_⟩
  have hskip : self.records.length - self.limit = 0 := by
    rw [records, List.length_map]
    omega
  rw [newest, hstored, hskip]
  rfl

/-- A history whose file is its own image. -/
theorem mirrored_of_image (hindexed : self.Indexed) (hbare : Bare self.records)
    (hsize : self.events.length ≤ self.limit) (hbudget : sizeOf self.records ≤ self.pictureBudget)
    (hfile : self.file = some self.historyFile) : self.Mirrored where
  indexed := hindexed
  bare := hbare
  size := hsize
  budget := hbudget
  file := by
    intro stored hstored
    rw [hfile] at hstored
    obtain rfl := Option.some.inj hstored
    exact ⟨hindexed.distinct_records, hbare⟩
  mirrored := by
    rw [(newest_historyFile hfile hsize).2]
    apply List.map_congr_left
    intro r hr
    exact (restored_own (fun _ => mem_picturedOf_records) hindexed.distinct_records hr).symm

/-- **After a load**, whether or not its rewrite of the file succeeded. -/
theorem mirrored_load {file : Option HistoryFile} {pictures : Finset String} {binding : String}
    {pictureBudget limit : ℕ} {persist : Persist} (h : FileWritten file) :
    (load file pictures binding pictureBudget limit persist).Mirrored := by
  obtain ⟨hdistinct, hbare⟩ := storedRecords_ok binding h
  have hloaded := @load_records file pictures binding pictureBudget limit persist hdistinct hbare
  obtain ⟨hindexed, hsize, -⟩ := indexed_load file pictures binding pictureBudget limit persist
  generalize load file pictures binding pictureBudget limit persist =
    loaded at hloaded hindexed hsize
  obtain ⟨hbinding, hlimit, hbudget⟩ := hloaded.settings
  have hnewest : Bare (newest file binding limit) :=
    fun r hr => hbare r ((newest_sublist file binding limit).subset hr)
  have hrecords : Bare loaded.records := by
    rw [hloaded.records]
    exact bare_fitting (bare_restored hnewest pictures)
  -- the budget was enforced by the load
  have hwithin : sizeOf loaded.records ≤ loaded.pictureBudget := by
    rw [hloaded.records, hbudget]
    exact sizeOf_fitting_le
  rcases hloaded.file with himage | ⟨hsame, -⟩
  · exact mirrored_of_image hindexed hrecords (hlimit ▸ hsize) hwithin himage
  · -- the file has the pictures that did not fit, but they are gone
    refine ⟨hindexed, hrecords, hlimit ▸ hsize, hwithin, hsame ▸ h, ?_⟩
    have hagain := @restored_again (newest file binding limit) pictures (picturedOf loaded.events)
      pictureBudget (hdistinct.sublist (newest_sublist file binding limit)) hnewest
      (hloaded.records ▸ fun _ => mem_picturedOf_records)
    rw [hsame, hbinding, hlimit, hloaded.records, hagain, List.map_map]
    rfl

/-- What is taken in counts no bytes of a picture that it does not have. -/
theorem bare_insertAll {batch : List Incoming} (h : Bare self.records) :
    Bare (self.insertAll batch).1.records := by
  -- on the batch
  induction batch generalizing self with
  | nil => exact h
  | cons incoming batch ih =>
    rw [insertAll]
    split_ifs
    · apply ih
      obtain ⟨pushed, pictures, htake, -, hbare, -⟩ := self.take_cases incoming
      -- what is taken in stands behind what is left
      obtain ⟨hevents, -⟩ := push_events { self with pictures } pushed
      intro r hr
      rw [htake, records, hevents] at hr
      obtain ⟨e, he, rfl⟩ := List.mem_map.mp hr
      rcases List.mem_append.mp (List.mem_of_mem_drop he) with hold | hnew
      · exact h _ (List.mem_map_of_mem hold)
      · rw [List.mem_singleton.mp hnew]
        exact hbare
    · exact ih h

/-- A batch of which nothing is accepted. -/
theorem insertAll_of_appended_nil {batch : List Incoming} (h : self.appended batch = []) :
    (self.insertAll batch).1 = self := by
  induction batch with
  | nil => rfl
  | cons incoming batch ih =>
    rw [appended] at h
    rw [insertAll]
    split_ifs at h ⊢
    exact ih h

/-- **After a successful insert.** -/
theorem Mirrored.insert {batch : List Incoming} {live : Bool} {persist : Persist}
    {outcome : InsertOutcome} (h : self.Mirrored)
    (hok : (self.insert batch live persist).1 = .ok outcome) :
    (self.insert batch live persist).2.Mirrored := by
  obtain ⟨hindexed, -⟩ := @insert_spec self batch live persist h.indexed h.size
  have hsize := @length_le_limit_insert self batch live persist h.indexed h.size
  have hcounts := (self.insertAll_counts batch).2
  -- the outcome is that of a file that was written, or of no write at all
  rw [insert_eq] at hindexed hsize hok ⊢
  by_cases hinserted : 0 < (self.insertAll batch).2.inserted
  · -- the file is written
    rw [if_pos hinserted] at hindexed hsize hok ⊢
    have hpublished : persist.published = true := by
      cases persist with
      | ok => rfl
      | failed renamed detail => cases hok
    have hbare : Bare (if live then (self.insertAll batch).1
        else { (self.insertAll batch).1 with floor := (self.insertAll batch).1.head }).records := by
      split_ifs
      · exact bare_insertAll h.bare
      · exact bare_insertAll h.bare
    have hrecords : (((self.insertAll batch).1.conclude live).persist persist).records =
        fitting ((self.insertAll batch).1.conclude live).pictureBudget
          (if live then (self.insertAll batch).1
            else { (self.insertAll batch).1 with floor := (self.insertAll batch).1.head
              }).records := by
      rw [records, (persist_fields _ persist).1]
      -- the conclusion enforces the budget over the records of before
      exact records_enforce hbare
    have hbudget : (((self.insertAll batch).1.conclude live).persist persist).pictureBudget =
        ((self.insertAll batch).1.conclude live).pictureBudget := by
      rw [CameraHistory.persist, if_pos hpublished]
    apply mirrored_of_image hindexed
    · rw [hrecords]
      exact bare_fitting hbare
    · exact hsize
    · rw [hrecords, hbudget]
      exact sizeOf_fitting_le
    · rw [CameraHistory.persist, if_pos hpublished]
      rfl
  · -- nothing was accepted: only the floor may have moved
    rw [if_neg hinserted] at hindexed hsize ⊢
    have hsame : (self.insertAll batch).1 = self := by
      apply insertAll_of_appended_nil
      rw [hcounts] at hinserted
      exact List.eq_nil_of_length_eq_zero (by omega)
    dsimp only at hindexed hsize ⊢
    rw [hsame] at hindexed hsize ⊢
    have hconclude : self.conclude live = if live then
        self else { self with floor := self.head } := by
      -- the budget holds already
      unfold conclude
      split_ifs
      · exact congrArg Prod.fst (enforce_of_le h.budget)
      · exact congrArg Prod.fst (@enforce_of_le { self with floor := self.head } h.budget)
    rw [hconclude] at hindexed hsize ⊢
    split_ifs at hindexed hsize ⊢
    · exact h
    · exact ⟨hindexed, h.bare, hsize, h.budget, h.file, h.mirrored⟩

/-! ### Walking the pages -/

/-- The records that a client is given that starts at `before` and follows `older` page by page. -/
def pagesFrom (self : CameraHistory) (size : ℕ) : ℕ → Option ℕ → List (List AlarmRecord)
  | 0, _ => []
  | fuel + 1, before =>
    let page := self.page before size
    page.1.map (·.record) ::
      match page.2 with
      | none => []
      | some older => pagesFrom self size fuel (some older)

/-- The same walk, by position. -/
def pagesOf {α : Type} (size : ℕ) : ℕ → List α → List (List α)
  | 0, _ => []
  | fuel + 1, l =>
    l.drop (l.length - size) ::
      if 0 < size ∧ size < l.length then pagesOf size fuel (l.take (l.length - size)) else []

/-- The pages of the image are the images of the pages. -/
theorem pagesOf_map {α β : Type} (f : α → β) (size fuel : ℕ) (l : List α) :
    pagesOf size fuel (l.map f) = (pagesOf size fuel l).map (List.map f) := by
  induction fuel generalizing l with
  | zero => rfl
  | succ fuel ih =>
    rw [pagesOf, pagesOf, List.map_cons, List.length_map, List.map_drop]
    split_ifs
    · rw [← ih, List.map_take]
    · rfl

/-- The cursor behind the first `k` entries. -/
def CursorAt (self : CameraHistory) (k : ℕ) (before : Option ℕ) : Prop :=
  (before = none ∧ k = self.events.length) ∨
    ∃ hk : k < self.events.length, before = some (self.events[k]).sequence

/-- The numbers ascend, so what is below the number of an entry is what lies before it. -/
theorem below_eq_take (h : self.Indexed) {k : ℕ} {before : Option ℕ}
    (hcursor : self.CursorAt k before) : self.below before = self.events.take k := by
  rcases hcursor with ⟨rfl, rfl⟩ | ⟨hk, rfl⟩
  · rw [List.take_length]
    exact List.filter_true self.events
  -- the number of the cursor separates those before it from the others
  · have hsorted := h.window.pairwise
    have hparts := List.take_append_drop k self.events
    have hlater : self.events.drop k = self.events[k] :: self.events.drop (k + 1) :=
      List.drop_eq_getElem_cons hk
    rw [← hparts, List.pairwise_append, hlater] at hsorted
    obtain ⟨-, hdrop, hacross⟩ := hsorted
    have hfront : (self.events.take k).filter
        (fun e => decide (e.sequence < self.events[k].sequence)) =
        self.events.take k := by
      rw [List.filter_eq_self]
      exact fun e he => decide_eq_true (hacross e he _ (List.mem_cons_self ..))
    have hback : (self.events.drop k).filter
        (fun e => decide (e.sequence < self.events[k].sequence)) =
        [] := by
      rw [List.filter_eq_nil_iff, hlater]
      intro e he
      rw [decide_eq_true_iff, Nat.not_lt]
      rcases List.mem_cons.mp he with rfl | he
      · exact Nat.le_refl _
      · exact Nat.le_of_lt ((List.pairwise_cons.mp hdrop).1 e he)
    calc self.below (some self.events[k].sequence)
        = (self.events.take k ++ self.events.drop k).filter
            (fun e => decide (e.sequence < self.events[k].sequence)) := by rw [hparts]; rfl
      _ = self.events.take k := by rw [List.filter_append, hfront, hback, List.append_nil]

/-- The pages below a cursor are those of the records before it. -/
theorem pagesFrom_eq (h : self.Indexed) (size fuel : ℕ) {k : ℕ} {before : Option ℕ}
    (hcursor : self.CursorAt k before) :
    self.pagesFrom size fuel before = pagesOf size fuel (self.records.take k) := by
  have hle : k ≤ self.events.length := by
    rcases hcursor with ⟨-, rfl⟩ | ⟨hk, -⟩
    · exact Nat.le_refl _
    · exact Nat.le_of_lt hk
  -- on the number of pages
  induction fuel generalizing k before with
  | zero => rfl
  | succ fuel ih =>
    have hlength : (self.events.take k).length = k := List.length_take_of_le hle
    have hpage : self.page before size = ((self.events.take k).drop (k - size),
        if 0 < k - size then ((self.events.take k).drop (k - size)).head?.map (·.sequence) else
          none) := by
      have hbelow : self.page before size =
          ((self.below before).drop ((self.below before).length - size),
            if 0 < (self.below before).length - size then
              ((self.below before).drop ((self.below before).length - size)).head?.map (·.sequence)
            else none) := rfl
      rw [hbelow, below_eq_take h hcursor, hlength]
    have hrecords : (self.records.take k).length = k := by
      rw [records, ← List.map_take, List.length_map, hlength]
    rw [pagesFrom, hpage, pagesOf, hrecords]
    dsimp only
    rw [records, ← List.map_take, ← List.map_drop]
    congr 1
    by_cases hmore : 0 < size ∧ size < k
    · -- the first entry of the page is the next cursor
      have hlt : k - size < self.events.length := by omega
      have hhead : ((self.events.take k).drop (k - size)).head? = some self.events[k - size] := by
        rw [List.head?_drop, List.getElem?_take_of_lt (by omega), List.getElem?_eq_getElem hlt]
      rw [if_pos hmore, if_pos (by omega), hhead, Option.map_some]
      dsimp only
      rw [ih (Or.inr ⟨hlt, rfl⟩) (by omega), ← List.map_take, List.take_take,
        Nat.min_eq_left (Nat.sub_le k size), records, List.map_take]
    -- the page reaches the oldest record, so no cursor is given
    · rw [if_neg hmore]
      have hnone : (if 0 < k - size then
          ((self.events.take k).drop (k - size)).head?.map (·.sequence) else none) = none := by
        split_ifs with hskip
        · obtain rfl : size = 0 := by omega
          rw [Nat.sub_zero, List.drop_of_length_le hlength.le]
          rfl
        · rfl
      rw [hnone]

/-! ### The reload -/

/-- The histories that loads and successful inserts lead to, from a first load that finds no file or
one with records that a history could have. A load may find any picture files, other settings or
another camera; `rewrites` is said of how its rewrites of the file end. -/
inductive Reached (rewrites : Persist → Prop) : CameraHistory → Prop
  | first (file : Option HistoryFile) (pictures : Finset String) (binding : String)
      (pictureBudget limit : ℕ) (persist : Persist) (hfile : FileWritten file)
      (hrewrite : rewrites persist) :
      Reached rewrites (load file pictures binding pictureBudget limit persist)
  | insert {self : CameraHistory} (batch : List Incoming) (live : Bool) (persist : Persist)
      (outcome : InsertOutcome) (h : Reached rewrites self)
      (hok : (self.insert batch live persist).1 = .ok outcome) :
      Reached rewrites (self.insert batch live persist).2
  | reload {self : CameraHistory} (pictures : Finset String) (binding : String)
      (pictureBudget limit : ℕ) (persist : Persist) (h : Reached rewrites self)
      (hrewrite : rewrites persist) :
      Reached rewrites (load self.file pictures binding pictureBudget limit persist)

/-- What is reached is mirrored by its file. -/
theorem mirrored_of_reached {rewrites : Persist → Prop} (h : Reached rewrites self) :
    self.Mirrored := by
  induction h with
  | first file pictures binding pictureBudget limit persist hfile => exact mirrored_load hfile
  | insert batch live persist outcome _ hok ih => exact ih.insert hok
  | reload pictures binding pictureBudget limit persist _ _ ih => exact mirrored_load ih.file

/-- The file does not hold more records than the limit allows. -/
def FileFits (self : CameraHistory) : Prop :=
  (storedRecords self.file self.binding).length ≤ self.limit

theorem fileFits_of_image (hfile : self.file = some self.historyFile)
    (hsize : self.events.length ≤ self.limit) : self.FileFits := by
  rw [FileFits, (newest_historyFile hfile hsize).1, records, List.length_map]
  exact hsize

/-- Where the rewrites succeed, the file is within the limit. -/
theorem fileFits_of_reached {rewrites : Persist → Prop}
    (hrewrites : ∀ persist, rewrites persist → persist.published = true)
    (h : Reached rewrites self) : self.FileFits := by
  -- a load, of which only the rewrite matters
  have hload : ∀ {file : Option HistoryFile} (pictures : Finset String) (binding : String)
      (pictureBudget limit : ℕ) (persist : Persist), FileWritten file → rewrites persist →
      (load file pictures binding pictureBudget limit persist).FileFits := by
    intro file pictures binding pictureBudget limit persist hfile hrewrite
    obtain ⟨hdistinct, hbare⟩ := storedRecords_ok binding hfile
    have hloaded := @load_records file pictures binding pictureBudget limit persist hdistinct hbare
    have hmirrored := @mirrored_load file pictures binding pictureBudget limit persist hfile
    rcases hloaded.file with himage | ⟨hsame, hfits | hfailed⟩
    · exact fileFits_of_image himage hmirrored.size
    · rw [FileFits, hsame, hloaded.settings.1, hloaded.settings.2.1]
      exact hfits
    · exact absurd (hfailed.symm.trans (hrewrites persist hrewrite)) (by decide)
  -- on the history: a first load, an insert, or another load
  induction h with
  | first file pictures binding pictureBudget limit persist hfile hrewrite =>
    exact hload _ _ _ _ _ hfile hrewrite
  | @insert self batch live persist outcome h hok ih =>
    have hmirrored := mirrored_of_reached h
    have hsize := (mirrored_of_reached (.insert batch live persist outcome h hok)).size
    rw [insert_eq] at hok hsize ⊢
    -- an insert that has written, or not
    split_ifs at hok hsize ⊢ with hinserted
    · apply fileFits_of_image _ hsize
      cases persist with
      | ok => rfl
      | failed renamed detail => cases hok
    -- without a write the file and the settings are as before
    · obtain ⟨-, -, -, -, hlimit, hfile, hbinding⟩ :=
        @insertAll_spec self batch hmirrored.indexed hmirrored.size
      have hconclude : ((self.insertAll batch).1.conclude live).file =
          (self.insertAll batch).1.file ∧
          ((self.insertAll batch).1.conclude live).binding = (self.insertAll batch).1.binding ∧
          ((self.insertAll batch).1.conclude live).limit = (self.insertAll batch).1.limit := by
        unfold conclude
        split_ifs <;> exact ⟨rfl, rfl, rfl⟩
      rw [FileFits]
      dsimp only
      rw [hconclude.1, hconclude.2.1, hconclude.2.2, hfile, hbinding, hlimit]
      exact ih
  | reload pictures binding pictureBudget limit persist h hrewrite ih =>
    exact hload _ _ _ _ _ (mirrored_of_reached h).file hrewrite

/-- The same records under new numbers, nothing new for any cursor, and the same pages. -/
structure Reproduces (before after : CameraHistory) : Prop where
  records : after.records.map AlarmRecord.untitled = before.records.map AlarmRecord.untitled
  numbers : after.events.map (·.sequence) = List.range' 1 before.events.length
  head : after.head = before.events.length
  floor : after.floor = before.events.length
  silent : ∀ cursor limit, (after.after cursor limit).1 = []
  pages : ∀ size fuel, (after.pagesFrom size fuel none).map (List.map AlarmRecord.untitled) =
    (before.pagesFrom size fuel none).map (List.map AlarmRecord.untitled)

/-- The newest records within the limit, with the newest pictures within the budget, and no other
picture left on disk. -/
structure Trims (before : CameraHistory) (pictureBudget limit : ℕ)
    (after : CameraHistory) : Prop where
  records : after.records.map AlarmRecord.untitled = fitting pictureBudget
    ((before.records.drop (before.records.length - limit)).map AlarmRecord.untitled)
  numbers : after.events.map (·.sequence) = List.range' 1 (min before.records.length limit)
  head : after.head = min before.records.length limit
  floor : after.floor = min before.records.length limit
  pictures : after.pictures = picturedOf after.events

/-- The newest records within a lower limit are among those within the limit. -/
theorem newest_newest (file : Option HistoryFile) (binding : String) {limit lower : ℕ}
    (hlower : lower ≤ limit) :
    newest file binding lower =
      (newest file binding limit).drop ((newest file binding limit).length - lower) := by
  rw [newest, newest, List.drop_drop, List.length_drop]
  congr 1
  omega

/-- **A reload with lower settings** keeps the newest records and pictures that fit. -/
theorem Mirrored.trims (h : self.Mirrored) (hdisk : self.pictures = picturedOf self.events)
    {pictureBudget limit : ℕ} {persist : Persist} (hlimit : limit ≤ self.limit) :
    Trims self pictureBudget limit
      (load self.file self.pictures self.binding pictureBudget limit persist) := by
  -- what is read is what the history has as its image
  obtain ⟨hdistinct, hbare⟩ := storedRecords_ok self.binding h.file
  have hloaded := @load_records self.file self.pictures self.binding pictureBudget limit persist
    hdistinct hbare
  have hfileBare : FileBare self.file := fun stored hstored => (h.file stored hstored).2
  have hsound := (@sound_load self.file self.pictures self.binding pictureBudget limit persist
    hfileBare).1
  generalize load self.file self.pictures self.binding pictureBudget limit persist = loaded
    at hloaded hsound
  have hlength : self.records.length = (newest self.file self.binding self.limit).length := by
    have := congrArg List.length h.mirrored
    rwa [List.length_map, List.length_map] at this
  have hcount : (newest self.file self.binding limit).length = min self.records.length limit := by
    rw [newest_newest self.file self.binding hlimit, List.length_drop, hlength]
    omega
  refine ⟨?_, hcount ▸ hloaded.numbers, hloaded.head.trans hcount, hloaded.floor.trans hcount,
    hsound.pictures⟩
  -- with these pictures the file reads as the records of the history
  have hread : ((newest self.file self.binding limit).map (restored self.pictures)).map
      AlarmRecord.untitled =
        (self.records.map AlarmRecord.untitled).drop (self.records.length - limit) := by
    rw [h.mirrored, newest_newest self.file self.binding hlimit, hlength, List.map_drop,
      List.map_drop, List.map_map, hdisk]
    rfl
  rw [hloaded.records, fitting_untitled, hread, List.map_drop]

/-- **A reload reproduces the history.** Whatever loads and successful inserts have led to it, with
its pictures on disk as recorded, a load with the same settings yields the same records from number
one on, nothing of it is new, and the disk is left alone as far as the rewrites of earlier loads
succeeded; lower settings keep the newest that fits; and a foreign file yields nothing and costs its
pictures. -/
theorem reload_reproduces {rewrites : Persist → Prop} (h : Reached rewrites self)
    (hdisk : self.pictures = picturedOf self.events) (persist : Persist) :
    let reload := fun pictureBudget limit =>
      load self.file self.pictures self.binding pictureBudget limit persist
    let same := reload self.pictureBudget self.limit
    Reproduces self same ∧ same.pictures = self.pictures ∧
      ((∀ rewrite, rewrites rewrite → rewrite.published = true) → same.file = self.file) ∧
      (∀ pictureBudget ≤ self.pictureBudget, ∀ limit ≤ self.limit,
        Trims self pictureBudget limit (reload pictureBudget limit)) ∧
      ∀ (stored : HistoryFile) (pictures : Finset String) (binding : String)
        (pictureBudget limit : ℕ), stored.schemaVersion ≠ schemaVersion ∨ stored.binding ≠ binding →
        load (some stored) pictures binding pictureBudget limit persist =
          empty (some stored) ∅ binding pictureBudget limit := by
  have hmirrored := mirrored_of_reached h
  intro reload same
  have htrims : Trims self self.pictureBudget self.limit same :=
    hmirrored.trims hdisk (Nat.le_refl _)
  have hindexed : same.Indexed := (indexed_load _ _ _ _ _ _).1
  have hlength : self.records.length = self.events.length := List.length_map _
  have hmin : min self.records.length self.limit = self.events.length := by
    rw [hlength]
    exact Nat.min_eq_left hmirrored.size
  have hskip : self.records.length - self.limit = 0 := by
    rw [hlength]
    exact Nat.sub_eq_zero_of_le hmirrored.size
  have hsize : sizeOf (self.records.map AlarmRecord.untitled) = sizeOf self.records := by
    rw [sizeOf, sizeOf, List.map_map]
    rfl
  have hrecords : same.records.map AlarmRecord.untitled =
      self.records.map AlarmRecord.untitled := by
    rw [htrims.records, hskip, List.drop_zero]
    exact fitting_of_le (hsize ▸ hmirrored.budget)
  -- the six parts of the reproduction, then the pictures, the file, the lower settings and foreign
  -- files
  refine ⟨⟨hrecords, hmin ▸ htrims.numbers, htrims.head.trans hmin,
    htrims.floor.trans hmin, ?_, ?_⟩,
    ?_, ?_, ?_, ?_⟩
  · -- the floor is the head, and no number is above it
    intro cursor limit
    unfold after
    split_ifs with hahead
    · rfl
    · have hnone :
          (same.events.filter fun entry => max cursor same.floor < entry.sequence) = [] := by
        rw [List.filter_eq_nil_iff]
        intro e he
        have hle := hindexed.window.number_le he
        rw [htrims.head, ← htrims.floor] at hle
        simp only [decide_eq_true_eq]
        omega
      dsimp only
      rw [hnone, List.take_nil]
  -- the pages depend on the records alone
  · intro size fuel
    have hall : ∀ history : CameraHistory, history.Indexed →
        history.pagesFrom size fuel none = pagesOf size fuel history.records := by
      intro history hhistory
      rw [pagesFrom_eq hhistory size fuel (Or.inl ⟨rfl, rfl⟩), records, ← List.map_take,
        List.take_length]
    rw [hall same hindexed, hall self hmirrored.indexed, ← pagesOf_map, ← pagesOf_map, hrecords]
  · rw [htrims.pictures, hdisk]
    -- the same records have the same pictures
    have hmem : ∀ (history : CameraHistory) (id : String), id ∈ picturedOf history.events ↔
        ∃ r ∈ history.records.map AlarmRecord.untitled, r.hasPicture = true ∧ r.id = id := by
      intro history id
      rw [mem_picturedOf_records]
      constructor
      · rintro ⟨r, hr, hpicture⟩
        exact ⟨r.untitled, List.mem_map_of_mem hr, hpicture⟩
      · rintro ⟨_, huntitled, hpicture⟩
        obtain ⟨r, hr, rfl⟩ := List.mem_map.mp huntitled
        exact ⟨r, hr, hpicture⟩
    ext id
    rw [hmem same, hmem self, hrecords]
  -- the file is touched only where a record or a picture is dropped
  · intro hrewrites
    obtain ⟨hdistinct, hbare⟩ := storedRecords_ok self.binding hmirrored.file
    have hloaded := @load_records self.file self.pictures self.binding self.pictureBudget self.limit
      persist hdistinct hbare
    apply hloaded.untouched (fileFits_of_reached hrewrites h)
    have hread : sizeOf ((newest self.file self.binding self.limit).map (restored self.pictures)) =
        sizeOf (self.records.map AlarmRecord.untitled) := by
      rw [hmirrored.mirrored, hdisk, sizeOf, sizeOf, List.map_map, List.map_map]
      rfl
    rw [hread, hsize]
    exact hmirrored.budget
  · exact fun pictureBudget _ limit hlimit => hmirrored.trims hdisk hlimit
  -- a file of another version or binding has no records
  · intro stored pictures binding pictureBudget limit hforeign
    have hstored : storedRecords (some stored) binding = [] := by
      apply if_neg
      rintro ⟨hversion, hbinding⟩
      exact hforeign.elim (absurd hversion) (absurd hbinding)
    have hnewest : newest (some stored) binding limit = [] := by
      rw [newest, hstored]
      exact List.drop_nil
    rw [load_eq, hnewest, hstored, List.foldl_nil]
    have hempty : (empty (some stored) pictures binding pictureBudget limit).swept =
        empty (some stored) ∅ binding pictureBudget limit := by
      unfold swept
      congr 1
      rw [PictureDir.removeOrphans, Finset.filter_eq_empty_iff]
      exact fun _ _ hmem => absurd hmem (Finset.notMem_empty _)
    rw [hempty, enforce_of_le (Nat.zero_le _)]
    have hnot : ¬ (0 < ([] : List AlarmRecord).length - limit ∨ (false : Bool) = true) := by simp
    exact if_neg hnot

def sampleAlarms : List Incoming :=
  [samplePicture, { record := { id := "a2", occurredAt := 11 } }]

def sampleHistory : CameraHistory :=
  ((load none ∅ "front" 10 2 .ok).insert sampleAlarms true .ok).2

theorem reload_reproduces_sample :
    Reproduces sampleHistory (load sampleHistory.file sampleHistory.pictures sampleHistory.binding
      sampleHistory.pictureBudget sampleHistory.limit .ok) := by
  have hreached : Reached (fun persist => persist.published = true) sampleHistory :=
    .insert sampleAlarms true .ok { inserted := 2, picturesStored := 1 }
      (.first none ∅ "front" 10 2 .ok (fun _ hstored => nomatch hstored) rfl) (by decide +kernel)
  exact (reload_reproduces hreached (by decide +kernel) .ok).1

/-- The limit is lowered, and the load cannot rewrite the file: the next load does it. -/
theorem reload_rewrites :
    ∃ self persist, Reached (fun _ => True) self ∧ self.pictures = picturedOf self.events ∧
      (load self.file self.pictures self.binding self.pictureBudget self.limit persist).file ≠
        self.file := by
  have hreached : Reached (fun _ => True) sampleHistory :=
    .insert sampleAlarms true .ok { inserted := 2, picturesStored := 1 }
      (.first none ∅ "front" 10 2 .ok (fun _ hstored => nomatch hstored) trivial)
        (by decide +kernel)
  exact ⟨load sampleHistory.file sampleHistory.pictures "front" 10 1
    (.failed false "disk full"), .ok,
    .reload sampleHistory.pictures "front" 10 1 (.failed false "disk full") hreached trivial, by
      decide +kernel, by decide +kernel⟩

end CameraHistory

end Alarms

end EzvizBridge
