import Mathlib.Data.Finset.Image
import Mathlib.Algebra.BigOperators.Group.List.Basic
import EzvizBridge.Alarms.Model
import EzvizBridge.Lib.Window

/-!
# The representation of the history

Five things are kept in step by `load`, `push`, `insert` and `enforce_picture_budget`: the queue of
events, the index of their ids, the sequence numbers, the floor, and the picture files. `Kept` is
the part of the invariant that holds at every moment, also between two records of a batch; `Sound`
adds the limit and the picture budget, and holds between the calls.

The history is started again on the file that is there, with another limit, budget or binding, and
with any picture files: what a crash has left of them does not matter (`history_sound`).
-/

namespace EzvizBridge

namespace Alarms

open Recordings (Persist)

/-- The ids of the entries. -/
def idsOf (events : List Entry) : List String := events.map (·.record.id)

/-- The ids of the entries with a picture. -/
def picturedOf (events : List Entry) : Finset String :=
  ((events.filter (·.record.hasPicture)).map (·.record.id)).toFinset

section Entries

variable {events : List Entry} {entry : Entry} {id : String}

/-- The ids of the entries that have a picture. -/
theorem mem_picturedOf :
    id ∈ picturedOf events ↔ ∃ e ∈ events, e.record.hasPicture = true ∧ e.record.id = id := by
  simp [picturedOf, and_assoc]

/-- The first entry counts if it has one. -/
theorem picturedOf_cons :
    picturedOf (entry :: events) =
      if entry.record.hasPicture then insert entry.record.id (picturedOf events)
      else picturedOf events := by
  unfold picturedOf
  rw [List.filter_cons]
  split_ifs with h
  · rw [List.map_cons, List.toFinset_cons]
  · rfl

theorem picturedOf_append (more : List Entry) :
    picturedOf (events ++ more) = picturedOf events ∪ picturedOf more := by
  simp [picturedOf, List.filter_append, List.toFinset_append]

theorem mem_idsOf_of_mem_picturedOf (h : id ∈ picturedOf events) : id ∈ idsOf events := by
  obtain ⟨e, he, -, rfl⟩ := mem_picturedOf.mp h
  exact List.mem_map_of_mem he

theorem AlarmRecord.id_eq_of_bare_eq {r r' : AlarmRecord} (h : r.bare = r'.bare) :
    r.id = r'.id := by
  have hid : r.bare.id = r'.bare.id := congrArg AlarmRecord.id h
  exact hid

theorem AlarmRecord.key_eq_of_bare_eq {r r' : AlarmRecord} (h : r.bare = r'.bare) :
    r.key = r'.key := by
  have hkey : r.bare.key = r'.bare.key := congrArg AlarmRecord.key h
  exact hkey

/-- The picture files, with the one of a record that has a picture. -/
def picturesWith (pictures : Finset String) (record : AlarmRecord) : Finset String :=
  if record.hasPicture then insert record.id pictures else pictures

end Entries

namespace CameraHistory

/-- What holds of the events, their numbers and their ids at every moment, whatever happens to the
pictures. -/
structure Indexed (history : CameraHistory) : Prop where
  window : Window Entry.sequence history.head history.events
  distinct : (idsOf history.events).Nodup
  index : history.index = (idsOf history.events).toFinset
  floor : history.floor ≤ history.head
  tokens : ∀ e ∈ history.events, isToken e.record.id = true

/-- What holds of the history at every moment. -/
structure Kept (history : CameraHistory) : Prop extends Indexed history where
  pictures : history.pictures = picturedOf history.events
  bare : ∀ e ∈ history.events, e.record.hasPicture = false → e.record.pictureBytes = 0

/-- What holds of the history between the calls. -/
structure Sound (history : CameraHistory) : Prop extends Kept history where
  size : history.events.length ≤ history.limit
  budget : (history.events.map (·.record.pictureBytes)).sum ≤ history.pictureBudget

variable {self : CameraHistory} {record : AlarmRecord}

/-- `knows` reads the index, which is the set of the ids. -/
theorem knows_iff (h : self.Indexed) {id : String} :
    self.knows id = true ↔ id ∈ idsOf self.events := by
  rw [knows, decide_eq_true_iff, h.index, List.mem_toFinset]

/-! ### `push` -/

/-- The front leaves with its id. -/
theorem Indexed.popFront (h : self.Indexed) : self.popFront.Indexed := by
  unfold CameraHistory.popFront
  -- an empty queue, or its first entry leaves
  split
  · exact h
  · rename_i evicted events hevents
    have hdistinct := h.distinct
    have htokens := h.tokens
    rw [hevents] at hdistinct htokens
    obtain ⟨hnew, hdistinct⟩ := List.nodup_cons.mp hdistinct
    -- the id is not there twice, so erasing it leaves the ids of the others
    refine { window := ?_, distinct := hdistinct, index := ?_, floor := h.floor, tokens := ?_ }
    · exact (hevents ▸ h.window).tail
    · show self.index.erase evicted.record.id = (idsOf events).toFinset
      rw [h.index, hevents, idsOf, List.map_cons, List.toFinset_cons]
      exact Finset.erase_insert (fun hmem => hnew (List.mem_toFinset.mp hmem))
    · exact fun e he => htokens e (List.mem_cons_of_mem _ he)

/-- The front leaves with its picture. -/
theorem Kept.popFront (h : self.Kept) : self.popFront.Kept := by
  refine { toIndexed := h.toIndexed.popFront, pictures := ?_, bare := ?_ }
  · unfold CameraHistory.popFront
    split
    · exact h.pictures
    · rename_i evicted events hevents
      -- the file of the evicted id is removed, and nobody else has that id
      show PictureDir.remove self.pictures evicted.record.id = picturedOf events
      have hdistinct := h.distinct
      rw [hevents] at hdistinct
      have hnot : evicted.record.id ∉ picturedOf events :=
        fun hmem => (List.nodup_cons.mp hdistinct).1 (mem_idsOf_of_mem_picturedOf hmem)
      have htoken := h.tokens evicted (hevents ▸ List.mem_cons_self ..)
      rw [PictureDir.remove, if_pos htoken, h.pictures, hevents, picturedOf_cons]
      split_ifs
      · exact Finset.erase_insert hnot
      · exact Finset.erase_eq_of_notMem hnot
  · unfold CameraHistory.popFront
    split
    · exact h.bare
    · rename_i hevents
      exact fun e he => h.bare e (hevents ▸ List.mem_cons_of_mem _ he)

/-- The fields that `popFront` leaves alone, and how it shortens the queue. -/
theorem popFront_iterate (self : CameraHistory) (n : ℕ) :
    (CameraHistory.popFront^[n] self).events = self.events.drop n ∧
      (CameraHistory.popFront^[n] self).head = self.head ∧
      (CameraHistory.popFront^[n] self).floor = self.floor ∧
      (CameraHistory.popFront^[n] self).limit = self.limit ∧
      (CameraHistory.popFront^[n] self).pictureBudget = self.pictureBudget ∧
      (CameraHistory.popFront^[n] self).file = self.file ∧
      (CameraHistory.popFront^[n] self).binding = self.binding := by
  -- on the number of entries that leave
  induction n generalizing self with
  | zero => exact ⟨rfl, rfl, rfl, rfl, rfl, rfl, rfl⟩
  | succ n ih =>
    rw [Function.iterate_succ_apply]
    have hpop : self.popFront.events = self.events.drop 1 ∧ self.popFront.head = self.head ∧
        self.popFront.floor = self.floor ∧ self.popFront.limit = self.limit ∧
        self.popFront.pictureBudget = self.pictureBudget ∧ self.popFront.file = self.file ∧
        self.popFront.binding = self.binding := by
      -- by whether there is a first entry
      unfold CameraHistory.popFront
      split
      · rename_i hevents
        rw [hevents]
        exact ⟨rfl, rfl, rfl, rfl, rfl, rfl, rfl⟩
      · rename_i hevents
        rw [hevents]
        exact ⟨rfl, rfl, rfl, rfl, rfl, rfl, rfl⟩
    obtain ⟨h₁, h₂, h₃, h₄, h₅, h₆, h₇⟩ := ih self.popFront
    rw [h₁, h₂, h₃, h₄, h₅, h₆, h₇, hpop.1, List.drop_drop, Nat.add_comm]
    exact ⟨rfl, hpop.2⟩

theorem Indexed.iterate_popFront (h : self.Indexed) (n : ℕ) :
    (CameraHistory.popFront^[n] self).Indexed := by
  induction n generalizing self with
  | zero => exact h
  | succ n ih => exact ih h.popFront

theorem Kept.iterate_popFront (h : self.Kept) (n : ℕ) :
    (CameraHistory.popFront^[n] self).Kept := by
  induction n generalizing self with
  | zero => exact h
  | succ n ih => exact ih h.popFront

/-- What `push` does to the queue and to the numbers. -/
theorem push_events (self : CameraHistory) (record : AlarmRecord) :
    (self.push record).events =
        (self.events ++ [({ sequence := self.head + 1, record } : Entry)]).drop
          (self.events.length + 1 - self.limit) ∧
      (self.push record).head = self.head + 1 ∧ (self.push record).floor = self.floor ∧
      (self.push record).limit = self.limit ∧
      (self.push record).pictureBudget = self.pictureBudget ∧
      (self.push record).file = self.file ∧ (self.push record).binding = self.binding := by
  -- `push` appends and then pops down to the limit
  have hiterate := popFront_iterate (self.append record)
    ((self.append record).events.length - (self.append record).limit)
  have hlength : (self.append record).events.length = self.events.length + 1 :=
    List.length_append
  rw [hlength] at hiterate
  rw [push, hlength]
  exact hiterate

/-- A new record is appended. -/
theorem Indexed.append (h : self.Indexed) (htoken : isToken record.id = true)
    (hnew : self.knows record.id = false) : (self.append record).Indexed := by
  -- the index knows every id, so this one is new
  have hnot : record.id ∉ idsOf self.events := fun hmem => by
    simp [(knows_iff h).mpr hmem] at hnew
  let entry : Entry := { sequence := self.head + 1, record }
  have hids : idsOf (self.events ++ [entry]) = idsOf self.events ++ [record.id] := List.map_append
  refine { window := h.window.concat rfl, distinct := ?_, index := ?_, floor := ?_, tokens := ?_ }
  -- distinct: the new id is none of the old ones
  · show (idsOf (self.events ++ [entry])).Nodup
    rw [hids, List.nodup_append]
    refine ⟨h.distinct, List.nodup_singleton _, ?_⟩
    rintro x hx y hy rfl
    exact hnot (List.mem_singleton.mp hy ▸ hx)
  -- the index gets the id that the queue gets
  · show Insert.insert record.id self.index = (idsOf (self.events ++ [entry])).toFinset
    rw [hids, List.toFinset_append, h.index, Finset.insert_eq, Finset.union_comm]
    rfl
  · exact Nat.le_succ_of_le h.floor
  · intro e he
    rcases List.mem_append.mp he with he | he
    · exact h.tokens e he
    · exact List.mem_singleton.mp he ▸ htoken

theorem Indexed.push (h : self.Indexed) (htoken : isToken record.id = true)
    (hnew : self.knows record.id = false) : (self.push record).Indexed :=
  (h.append htoken hnew).iterate_popFront _

theorem Indexed.withPictures (h : self.Indexed) (pictures : Finset String) :
    { self with pictures }.Indexed :=
  { window := h.window, distinct := h.distinct, index := h.index, floor := h.floor,
    tokens := h.tokens }

/-- A new record is pushed, with its picture file if it has a picture. -/
theorem Kept.push {pictures : Finset String} (h : self.Kept) (htoken : isToken record.id = true)
    (hnew : self.knows record.id = false)
    (hbare : record.hasPicture = false → record.pictureBytes = 0)
    (hpictures : pictures = picturesWith self.pictures record) :
    ({ self with pictures }.push record).Kept := by
  refine Kept.iterate_popFront ?_ _
  let entry : Entry := { sequence := self.head + 1, record }
  refine { toIndexed := (h.toIndexed.withPictures pictures).append htoken hnew, pictures := ?_,
           bare := ?_ }
  -- the files: one more if the record has a picture
  · show pictures = picturedOf (self.events ++ [entry])
    rw [hpictures, picturesWith, picturedOf_append, picturedOf_cons, h.pictures]
    split_ifs
    · rw [Finset.insert_eq, Finset.union_comm]
      rfl
    · exact (Finset.union_empty _).symm
  · intro e he
    rcases List.mem_append.mp he with he | he
    · exact h.bare e he
    · exact List.mem_singleton.mp he ▸ hbare

theorem push_length_le : (self.push record).events.length ≤
    (self.push record).limit := by
  obtain ⟨hevents, -, -, hlimit, -⟩ := push_events self record
  rw [hevents, hlimit, List.length_drop, List.length_append, List.length_singleton]
  omega

/-! ### `insert` -/

/-- The write of the picture succeeds or leaves nothing behind. -/
def Clean (incoming : Incoming) : Prop :=
  ∀ detail, incoming.fault ≠ .failed true detail

theorem accepts_iff :
    self.accepts record = true ↔ isToken record.id = true ∧ self.knows record.id = false ∧
      self.predatesFullHistory record = false := by
  simp [accepts]

/-- A picture is stored, or it is not and nothing is left of it in a clean run. -/
theorem write_cases (pictures : Finset String) (id : String) (jpeg : Bytes) (fault : PictureFault) :
    (∃ bytes, PictureDir.write pictures id jpeg fault = (.ok bytes, Insert.insert id pictures)) ∨
    (∃ error left, PictureDir.write pictures id jpeg fault = (.error error, left) ∧
      ((∀ detail, fault ≠ .failed true detail) → left = pictures)) := by
  unfold PictureDir.write
  -- an id that is no token, a picture that is too large, or the write itself
  split
  · exact .inr ⟨_, _, rfl, fun _ => rfl⟩
  · split
    · exact .inr ⟨_, _, rfl, fun _ => rfl⟩
    · cases fault with
      | none => exact .inl ⟨_, rfl⟩
      | failed renamed detail =>
        cases renamed with
        -- the file was renamed before the error, so it is there in spite of it
        | true => exact .inr ⟨_, _, rfl, fun hclean => absurd rfl (hclean detail)⟩
        | false => exact .inr ⟨_, _, rfl, fun _ => rfl⟩

/-- What becomes of an accepted record: it is pushed with a picture that is stored, or without. -/
theorem take_cases (self : CameraHistory) (incoming : Incoming) :
    ∃ (pushed : AlarmRecord) (pictures : Finset String),
      (self.take incoming).1 = { self with pictures }.push pushed ∧
      pushed.bare = incoming.record.bare ∧
      (pushed.hasPicture = false → pushed.pictureBytes = 0) ∧
      (Clean incoming → pictures = picturesWith self.pictures pushed) ∧
      (self.take incoming).2.inserted = 1 := by
  unfold take
  dsimp only
  -- without a picture the record is pushed bare
  cases hjpeg : incoming.jpeg with
  | none => exact ⟨incoming.record.bare, self.pictures, rfl, rfl, fun _ => rfl, fun _ => rfl, rfl⟩
  | some jpeg =>
    dsimp only
    obtain ⟨bytes, hwrite⟩ | ⟨error, pictures, hwrite, hleft⟩ :=
      write_cases self.pictures incoming.record.bare.id jpeg incoming.fault
    · rw [hwrite]
      exact ⟨{ incoming.record.bare with hasPicture := true, pictureBytes := bytes }, _, rfl, rfl,
        nofun, fun _ => rfl, rfl⟩
    -- the picture could not be stored, and the record is pushed without it
    · rw [hwrite]
      exact ⟨incoming.record.bare, pictures, rfl, rfl, fun _ => rfl, hleft, rfl⟩

/-- A batch keeps the representation and the limit, if its writes are clean. -/
theorem Kept.insertAll {batch : List Incoming} (hclean : ∀ incoming ∈ batch, Clean incoming)
    (h : self.Kept) (hsize : self.events.length ≤ self.limit) :
    (self.insertAll batch).1.Kept ∧
      (self.insertAll batch).1.events.length ≤ (self.insertAll batch).1.limit ∧
      (self.insertAll batch).1.file = self.file := by
  -- on the batch
  induction batch generalizing self with
  | nil => exact ⟨h, hsize, rfl⟩
  | cons incoming batch ih =>
    have hrest : ∀ other ∈ batch, Clean other := fun i hi => hclean i (List.mem_cons_of_mem _ hi)
    rw [CameraHistory.insertAll]
    -- the record is accepted and taken, or it is passed over
    split_ifs with haccepts
    · obtain ⟨htoken, hnew, -⟩ := accepts_iff.mp haccepts
      obtain ⟨pushed, pictures, htake, hsame, hbare, hpictures, -⟩ := self.take_cases incoming
      have hid := AlarmRecord.id_eq_of_bare_eq hsame
      have hkept : (self.take incoming).1.Kept := by
        rw [htake]
        exact h.push (hid ▸ htoken) (hid ▸ hnew) hbare
          (hpictures (hclean incoming (List.mem_cons_self ..)))
      have hlength : (self.take incoming).1.events.length ≤ (self.take incoming).1.limit := by
        rw [htake]
        exact push_length_le
      have hfile : (self.take incoming).1.file = self.file := by
        rw [htake]
        exact (push_events _ _).2.2.2.2.2.1
      obtain ⟨hkept', hsize', hfile'⟩ := ih hrest hkept hlength
      exact ⟨hkept', hsize', hfile'.trans hfile⟩
    · exact ih hrest h hsize

/-! ### The picture budget -/

/-- An entry that has lost its picture, if it had one. -/
def strip (entry : Entry) : Entry :=
  if entry.record.hasPicture then { entry with record := entry.record.bare } else entry

/-- Stripping keeps everything but the picture. -/
theorem strip_fields (entry : Entry) :
    (strip entry).sequence = entry.sequence ∧ (strip entry).record.id = entry.record.id ∧
      (strip entry).record.occurredAt = entry.record.occurredAt ∧
      (strip entry).record.hasPicture = false := by
  unfold strip
  split_ifs with h
  · exact ⟨rfl, rfl, rfl, rfl⟩
  · exact ⟨rfl, rfl, rfl, by simpa using h⟩

/-- The oldest entries lose their pictures; the others stay as they are. -/
theorem dropPictures_events (budget total : ℕ) (events : List Entry) (pictures : Finset String) :
    ∃ n, (dropPictures budget total events pictures).1 =
      (events.take n).map strip ++ events.drop n := by
  -- on the queue, from its oldest entry on
  induction events generalizing total pictures with
  | nil => exact ⟨0, rfl⟩
  | cons entry rest ih =>
    rw [dropPictures]
    -- the budget is kept from here on
    split_ifs with htotal hpicture
    · exact ⟨0, rfl⟩
    -- the picture of this entry is dropped
    · obtain ⟨n, hn⟩ := ih (total - entry.record.pictureBytes)
        (PictureDir.remove pictures entry.record.id)
      refine ⟨n + 1, ?_⟩
      dsimp only
      rw [hn, List.take_succ_cons, List.map_cons, List.drop_succ_cons, List.cons_append, strip,
        if_pos hpicture]
    -- it has none
    · obtain ⟨n, hn⟩ := ih total pictures
      refine ⟨n + 1, ?_⟩
      dsimp only
      rw [hn, List.take_succ_cons, List.map_cons, List.drop_succ_cons, List.cons_append, strip,
        if_neg hpicture]

/-- The files that are removed are those of the pictures that are dropped, and the rest fits into
the budget. `base` are the files of other entries. -/
theorem dropPictures_files {budget : ℕ} {events : List Entry} {pictures base : Finset String}
    (hdistinct : (idsOf events).Nodup) (hbase : ∀ e ∈ events, e.record.id ∉ base)
    (htokens : ∀ e ∈ events, isToken e.record.id = true)
    (hbare : ∀ e ∈ events, e.record.hasPicture = false → e.record.pictureBytes = 0)
    (hpictures : pictures = base ∪ picturedOf events) :
    let result := dropPictures budget (events.map (·.record.pictureBytes)).sum events pictures
    result.2.1 = base ∪ picturedOf result.1 ∧
      (result.1.map (·.record.pictureBytes)).sum ≤ budget := by
  -- on the queue; `base` collects the entries that were passed
  induction events generalizing pictures with
  | nil => exact ⟨hpictures, Nat.zero_le _⟩
  | cons entry rest ih =>
    obtain ⟨hnew, hdistinct⟩ := List.nodup_cons.mp hdistinct
    have hbase' : ∀ e ∈ rest, e.record.id ∉ base := fun e he => hbase e (List.mem_cons_of_mem _ he)
    have htokens' : ∀ e ∈ rest, isToken e.record.id = true :=
      fun e he => htokens e (List.mem_cons_of_mem _ he)
    have hbare' : ∀ e ∈ rest, e.record.hasPicture = false → e.record.pictureBytes = 0 :=
      fun e he => hbare e (List.mem_cons_of_mem _ he)
    have htoken := htokens entry (List.mem_cons_self ..)
    dsimp only
    rw [dropPictures, List.map_cons, List.sum_cons]
    split_ifs with htotal hpicture
    · exact ⟨hpictures, by simpa using htotal⟩
    · -- the file of the entry is the one that goes
      rw [picturedOf_cons, if_pos hpicture] at hpictures
      have hremoved : PictureDir.remove pictures entry.record.id = base ∪ picturedOf rest := by
        rw [PictureDir.remove, if_pos htoken, hpictures, Finset.union_insert, Finset.erase_insert]
        rw [Finset.mem_union, not_or]
        exact ⟨hbase entry (List.mem_cons_self ..),
          fun hmem => hnew (mem_idsOf_of_mem_picturedOf hmem)⟩
      obtain ⟨hfiles, hsum⟩ := ih hdistinct hbase' htokens' hbare' hremoved
      dsimp only
      rw [Nat.add_sub_cancel_left, picturedOf_cons, if_neg (by simp [AlarmRecord.bare]),
        List.map_cons, List.sum_cons]
      refine ⟨hfiles, ?_⟩
      simpa [AlarmRecord.bare] using hsum
    · -- an entry without a picture does not count
      have hzero : entry.record.pictureBytes = 0 :=
        hbare entry (List.mem_cons_self ..) (by simpa using hpicture)
      rw [picturedOf_cons, if_neg hpicture] at hpictures
      obtain ⟨hfiles, hsum⟩ := ih hdistinct hbase' htokens' hbare' hpictures
      dsimp only
      rw [hzero, Nat.zero_add, picturedOf_cons, if_neg hpicture, List.map_cons,
        List.sum_cons, hzero, Nat.zero_add]
      exact ⟨hfiles, hsum⟩

theorem enforce_events (self : CameraHistory) :
    ∃ n, self.enforcePictureBudget.1.events =
      (self.events.take n).map strip ++ self.events.drop n :=
  dropPictures_events _ _ _ _

/-- The budget changes pictures only. -/
theorem enforce_maps {β : Type} (f : Entry → β) (hf : ∀ e, f (strip e) = f e)
    (self : CameraHistory) :
    self.enforcePictureBudget.1.events.map f = self.events.map f := by
  obtain ⟨n, hn⟩ := enforce_events self
  rw [hn, List.map_append, List.map_map, Function.comp_def]
  simp only [hf]
  rw [← List.map_append, List.take_append_drop]

/-- The pictures that are dropped are the oldest ones. -/
def DropsOldest (before after : List Entry) : Prop :=
  ∀ (i : ℕ) (dropped kept : Entry), before[i]? = some dropped → after[i]? = some kept →
    dropped.record.hasPicture = true → kept.record.hasPicture = false →
    ∀ j ≤ i, ∀ e : Entry, after[j]? = some e → e.record.hasPicture = false

/-- The pictures that are dropped are those of the oldest entries. -/
theorem dropsOldest_enforce (self : CameraHistory) :
    DropsOldest self.events self.enforcePictureBudget.1.events := by
  intro i dropped kept hdropped hkept hhad hhas j hj e he
  obtain ⟨n, hn⟩ := enforce_events self
  have hlength : ((self.events.take n).map strip).length = min n self.events.length := by
    rw [List.length_map, List.length_take]
  obtain ⟨hi, -⟩ := List.getElem?_eq_some_iff.mp hdropped
  rw [hn] at hkept he
  by_cases hin : i < n
  · -- everything before the last picture that was dropped is stripped
    rw [List.getElem?_append_left (by omega), List.getElem?_map] at he
    obtain ⟨e', -, rfl⟩ := Option.map_eq_some_iff.mp he
    exact (strip_fields e').2.2.2
  -- a picture behind that point was not dropped
  · rw [List.getElem?_append_right (by omega), hlength, List.getElem?_drop] at hkept
    have hindex : n + (i - min n self.events.length) = i := by omega
    rw [hindex, hdropped] at hkept
    rw [Option.some.inj hkept, hhas] at hhad
    exact nomatch hhad

/-- Enforcing the budget keeps the representation, and brings it within the budget. -/
theorem Kept.enforce (h : self.Kept) :
    self.enforcePictureBudget.1.Kept ∧
      (self.enforcePictureBudget.1.events.map (·.record.pictureBytes)).sum ≤
        self.pictureBudget := by
  have hsequence := enforce_maps Entry.sequence (fun e => (strip_fields e).1) self
  have hids : idsOf self.enforcePictureBudget.1.events = idsOf self.events :=
    enforce_maps _ (fun e => (strip_fields e).2.1) self
  -- no other entries are in front of the queue
  obtain ⟨hfiles, hbudget⟩ := @dropPictures_files self.pictureBudget self.events self.pictures ∅
    h.distinct (fun _ _ => Finset.notMem_empty _) h.tokens h.bare
    (by rw [Finset.empty_union]; exact h.pictures)
  rw [Finset.empty_union] at hfiles
  refine ⟨{ window := h.window.of_map_eq hsequence, distinct := hids ▸ h.distinct,
            index := hids ▸ h.index, floor := h.floor, tokens := ?_, pictures := hfiles,
            bare := ?_ }, hbudget⟩
  -- the ids are those of before
  · have htokens : ∀ id ∈ idsOf self.events, isToken id = true := by
      intro id hid
      obtain ⟨e, he, rfl⟩ := List.mem_map.mp hid
      exact h.tokens e he
    intro e he
    exact htokens _ (hids ▸ List.mem_map_of_mem he)
  · intro e he hpicture
    obtain ⟨n, hn⟩ := enforce_events self
    rw [hn] at he
    -- an entry was stripped, or is as it was
    rcases List.mem_append.mp he with he | he
    · obtain ⟨e', he', rfl⟩ := List.mem_map.mp he
      unfold strip
      split_ifs with hp
      · rfl
      · exact h.bare e' (List.mem_of_mem_take he') (by simpa using hp)
    · exact h.bare e (List.mem_of_mem_drop he) hpicture

/-! ### The calls -/

theorem enforce_length (self : CameraHistory) :
    self.enforcePictureBudget.1.events.length = self.events.length := by
  simpa using congrArg List.length (enforce_maps Entry.sequence (fun e => (strip_fields e).1) self)

/-- The records of the file have no size without a picture. -/
def FileBare (file : Option HistoryFile) : Prop :=
  ∀ stored ∈ file, ∀ r ∈ stored.events, r.hasPicture = false → r.pictureBytes = 0

theorem fileBare_none : FileBare none := by
  intro stored hstored
  exact absurd hstored (by simp)

/-- Nothing but the file is changed by `persist`, and the file is that of the history. -/
theorem Sound.persist {persist : Persist} (h : self.Sound) (hfile : FileBare self.file) :
    (self.persist persist).Sound ∧ FileBare (self.persist persist).file := by
  unfold CameraHistory.persist
  split_ifs
  · refine ⟨{ window := h.window, distinct := h.distinct, index := h.index, floor := h.floor,
              tokens := h.tokens, pictures := h.pictures, bare := h.bare, size := h.size,
              budget := h.budget }, ?_⟩
    intro stored hstored r hr
    obtain rfl := Option.some.inj hstored
    obtain ⟨e, he, rfl⟩ := List.mem_map.mp hr
    exact h.bare e he
  · exact ⟨h, hfile⟩

/-- An insert keeps a history sound, whatever is persisted of it. -/
theorem Sound.insert {batch : List Incoming} {live : Bool} {persist : Persist}
    (hclean : ∀ incoming ∈ batch, Clean incoming) (h : self.Sound) (hfile : FileBare self.file) :
    (self.insert batch live persist).2.Sound ∧
      FileBare (self.insert batch live persist).2.file := by
  -- first the batch
  obtain ⟨hkept, hsize, hfile'⟩ := h.toKept.insertAll hclean h.size
  unfold CameraHistory.insert
  generalize self.insertAll batch = filled at *
  obtain ⟨filled, outcome⟩ := filled
  dsimp only at hkept hsize hfile' ⊢
  -- the floor stays, or it is raised to the head
  have hfloored : (if live then filled else { filled with floor := filled.head }).Kept := by
    split_ifs
    · exact hkept
    · exact { window := hkept.window, distinct := hkept.distinct, index := hkept.index,
              floor := Nat.le_refl _, tokens := hkept.tokens, pictures := hkept.pictures,
              bare := hkept.bare }
  have hsize' : (if live then filled else { filled with floor := filled.head }).events.length ≤
      (if live then filled else { filled with floor := filled.head }).limit := by
    split_ifs <;> exact hsize
  have hfile'' : (if live then filled else { filled with floor := filled.head }).file =
    self.file := by
    split_ifs <;> exact hfile'
  generalize (if live then filled else { filled with floor := filled.head }) = floored at *
  -- then the budget
  obtain ⟨hkept, hbudget⟩ := hfloored.enforce
  have hsound : floored.enforcePictureBudget.1.Sound :=
    { toKept := hkept, size := (enforce_length floored).trans_le hsize', budget := hbudget }
  have hfile : FileBare floored.enforcePictureBudget.1.file := by
    show FileBare floored.file
    exact hfile''.symm ▸ hfile
  -- and then, if something changed, the file
  split_ifs
  · exact hsound.persist hfile
  · exact ⟨hsound, hfile⟩

/-- The records of the file are being restored: nothing is missing but the removal of the files that
no record needs. -/
structure Restoring (pictures : Finset String) (history : CameraHistory) : Prop where
  kept : { history with pictures := picturedOf history.events }.Kept
  files : history.pictures = pictures
  there : picturedOf history.events ⊆ pictures

/-- With room nobody is popped. -/
theorem push_eq_append (hroom : self.events.length < self.limit) :
    self.push record = self.append record := by
  have hlength : (self.append record).events.length - (self.append record).limit = 0 := by
    show (self.events ++ [_]).length - self.limit = 0
    rw [List.length_append, List.length_singleton]
    omega
  rw [push, hlength]
  rfl

/-- A record is restored, with its picture if that is still there. -/
theorem Restoring.restore {pictures : Finset String} (h : self.Restoring pictures)
    (hroom : self.events.length < self.limit)
    (hbare : record.hasPicture = false → record.pictureBytes = 0) :
    (self.restore record).Restoring pictures ∧
      (self.restore record).events.length ≤ self.events.length + 1 := by
  unfold CameraHistory.restore
  -- an id that is no token, or is known already, is skipped
  split_ifs with hskip
  · exact ⟨h, Nat.le_succ _⟩
  · rw [not_or, not_not, Bool.not_eq_true] at hskip
    obtain ⟨htoken, hnew⟩ := hskip
    dsimp only
    -- what is pushed has the id of the record, and its file is there if it has a picture
    generalize hpushed : (if record.hasPicture ∧ ¬ PictureDir.holds self.pictures record.id then
      ({ record with title := sanitizeTitle record.title } : AlarmRecord).bare
      else { record with title := sanitizeTitle record.title }) = pushed
    obtain ⟨hid, hsize, hfile⟩ : pushed.id = record.id ∧
        (pushed.hasPicture = false → pushed.pictureBytes = 0) ∧
        (pushed.hasPicture = true → record.id ∈ pictures) := by
      rw [← hpushed]
      -- the picture is missing and dropped, or it is there
      split_ifs with hmissing
      · exact ⟨rfl, fun _ => rfl, nofun⟩
      · refine ⟨rfl, hbare, fun hpicture => ?_⟩
        rw [not_and, not_not, PictureDir.holds, decide_eq_true_iff, h.files] at hmissing
        exact (hmissing hpicture).2
    rw [push_eq_append hroom]
    have hevents : (self.append pushed).events =
        self.events ++ [{ sequence := self.head + 1, record := pushed }] := rfl
    have hpictured : picturedOf (self.append pushed).events =
        picturesWith (picturedOf self.events) pushed := by
      -- one more picture, if the record has kept it
      rw [hevents, picturedOf_append, picturedOf_cons, picturesWith]
      split_ifs
      · rw [Finset.insert_eq, Finset.union_comm]
        rfl
      · exact Finset.union_empty _
    refine ⟨{ kept := ?_, files := h.files, there := ?_ }, ?_⟩
    · have hkept := h.kept.push (hid ▸ htoken) (hid ▸ hnew) hsize hpictured
      rwa [@push_eq_append { self with pictures := picturedOf (self.append pushed).events } pushed
        hroom] at hkept
    · rw [hpictured, picturesWith]
      split_ifs with hpicture
      · exact Finset.insert_subset (hid ▸ hfile hpicture) h.there
      · exact h.there
    · rw [hevents, List.length_append, List.length_singleton]

/-- Restoring the records of the file one after the other, with room for all of them. -/
theorem Restoring.foldl {pictures : Finset String} {records : List AlarmRecord}
    (h : self.Restoring pictures) (hroom : self.events.length + records.length ≤ self.limit)
    (hbare : ∀ r ∈ records, r.hasPicture = false → r.pictureBytes = 0) :
    (records.foldl CameraHistory.restore self).Restoring pictures ∧
      (records.foldl CameraHistory.restore self).events.length ≤
        (records.foldl CameraHistory.restore self).limit ∧
      (records.foldl CameraHistory.restore self).file = self.file := by
  -- on the records
  induction records generalizing self with
  | nil => exact ⟨h, hroom, rfl⟩
  | cons record records ih =>
    rw [List.length_cons] at hroom
    rw [List.foldl_cons]
    have hlimit : (self.restore record).limit = self.limit ∧
        (self.restore record).file = self.file := by
      unfold CameraHistory.restore
      split_ifs
      · exact ⟨rfl, rfl⟩
      · obtain ⟨-, -, -, hlimit, -, hfile, -⟩ := push_events self
          (if record.hasPicture ∧ ¬ PictureDir.holds self.pictures record.id then
            ({ record with title := sanitizeTitle record.title } : AlarmRecord).bare
            else { record with title := sanitizeTitle record.title })
        exact ⟨hlimit, hfile⟩
    obtain ⟨hrestored, hlength⟩ := h.restore (by omega) (hbare record (List.mem_cons_self ..))
    obtain ⟨hall, hsize, hfile⟩ := ih hrestored (by omega)
      (fun r hr => hbare r (List.mem_cons_of_mem _ hr))
    exact ⟨hall, hsize, hfile.trans hlimit.2⟩

/-- Records without a picture count no bytes. -/
theorem storedRecords_bare {file : Option HistoryFile} (binding : String) (h : FileBare file) :
    ∀ r ∈ storedRecords file binding, r.hasPicture = false → r.pictureBytes = 0 := by
  intro r hr
  unfold storedRecords at hr
  split at hr
  · exact absurd hr List.not_mem_nil
  · split_ifs at hr
    · exact h _ rfl r hr
    · exact absurd hr List.not_mem_nil

/-- Whatever files are there, the loaded history is sound. -/
theorem sound_load {file : Option HistoryFile} {pictures : Finset String} {binding : String}
    {pictureBudget limit : ℕ} {persist : Persist} (h : FileBare file) :
    (load file pictures binding pictureBudget limit persist).Sound ∧
      FileBare (load file pictures binding pictureBudget limit persist).file := by
  -- the history starts empty
  have hempty : (empty file pictures binding pictureBudget limit).Restoring pictures :=
    { kept :=
        { window := Window.nil _ _, distinct := List.nodup_nil, index := rfl,
          floor := Nat.le_refl _, tokens := fun _ he => absurd he List.not_mem_nil, pictures := rfl,
          bare := fun _ he => absurd he List.not_mem_nil }
      files := rfl
      there := Finset.empty_subset _ }
  unfold load
  dsimp only
  -- as many records as fit, the newest ones
  generalize hskip : (storedRecords file binding).length - limit = skip
  have hbare : ∀ r ∈ (storedRecords file binding).drop skip, r.hasPicture = false →
      r.pictureBytes = 0 :=
    fun r hr => storedRecords_bare binding h r (List.mem_of_mem_drop hr)
  have hroom : 0 + ((storedRecords file binding).drop skip).length ≤ limit := by
    rw [List.length_drop]
    omega
  obtain ⟨hrestoring, hsize, hfile⟩ := hempty.foldl hroom hbare
  generalize ((storedRecords file binding).drop skip).foldl restore
    (empty file pictures binding pictureBudget limit) = restored at *
  -- the files that no record needs are removed
  have hswept : PictureDir.removeOrphans restored.pictures (picturedOf restored.events) =
      picturedOf restored.events := by
    rw [PictureDir.removeOrphans, hrestoring.files]
    ext id
    rw [Finset.mem_filter]
    exact ⟨fun hmem => hmem.2, fun hmem => ⟨hrestoring.there hmem, hmem⟩⟩
  let swept := { restored with
    floor := restored.head
    pictures := PictureDir.removeOrphans restored.pictures (picturedOf restored.events) }
  have hkept : swept.Kept :=
    { window := hrestoring.kept.window, distinct := hrestoring.kept.distinct,
      index := hrestoring.kept.index, floor := Nat.le_refl _, tokens := hrestoring.kept.tokens,
      pictures := hswept, bare := hrestoring.kept.bare }
  -- the budget may have shrunk since
  obtain ⟨henforced, hbudget⟩ := hkept.enforce
  have hsound : swept.enforcePictureBudget.1.Sound :=
    { toKept := henforced, size := (enforce_length swept).trans_le hsize, budget := hbudget }
  have hfile' : FileBare swept.enforcePictureBudget.1.file := by
    show FileBare restored.file
    exact hfile.symm ▸ h
  -- the file is written again if something was dropped
  have hresult : ∀ loaded : CameraHistory,
      loaded = (if 0 < skip ∨ swept.enforcePictureBudget.2 = true then
        swept.enforcePictureBudget.1.persist persist else swept.enforcePictureBudget.1) →
      loaded.Sound ∧ FileBare loaded.file := by
    rintro loaded rfl
    split_ifs
    · exact hsound.persist hfile'
    · exact ⟨hsound, hfile'⟩
  exact hresult _ rfl

/-! ### Whole runs -/

end CameraHistory

/-- What happens to the history of a camera: a batch is inserted, or the process is started again.
The picture files may be any by then, as a crash may have left some behind or lost some. -/
inductive StoreEvent
  | insert (batch : List Incoming) (live : Bool) (persist : Persist)
  | reload (pictures : Finset String) (binding : String) (pictureBudget limit : ℕ)
    (persist : Persist)

/-- Picture writes succeed or leave nothing. -/
def StoreEvent.Clean : StoreEvent → Prop
  | .insert batch _ _ => ∀ incoming ∈ batch, CameraHistory.Clean incoming
  | .reload .. => True

namespace CameraHistory

/-- The history after an event. -/
def next (self : CameraHistory) : StoreEvent → CameraHistory
  | .insert batch live persist => (self.insert batch live persist).2
  | .reload pictures binding pictureBudget limit persist =>
    load self.file pictures binding pictureBudget limit persist

variable {self : CameraHistory}

theorem sound_next {e : StoreEvent} (h : self.Sound ∧ FileBare self.file) (hclean : e.Clean) :
    (self.next e).Sound ∧ FileBare (self.next e).file := by
  cases e with
  | insert batch live persist => exact h.1.insert hclean h.2
  | reload pictures binding pictureBudget limit persist => exact sound_load h.2

theorem sound_run {events : List StoreEvent} (h : self.Sound ∧ FileBare self.file)
    (hclean : ∀ e ∈ events, e.Clean) :
    (events.foldl next self).Sound ∧ FileBare (events.foldl next self).file := by
  induction events generalizing self with
  | nil => exact h
  | cons e events ih =>
    rw [List.forall_mem_cons] at hclean
    exact ih (sound_next h hclean.1) hclean.2

/-- The history is sound in every state that is reached from a first start without a file. -/
theorem history_sound {pictures : Finset String} {binding : String} {pictureBudget limit : ℕ}
    {persist : Persist} {events : List StoreEvent} (hclean : ∀ e ∈ events, e.Clean) :
    (events.foldl next (load none pictures binding pictureBudget limit persist)).Sound ∧
      ∀ self : CameraHistory, DropsOldest self.events self.enforcePictureBudget.1.events :=
  ⟨(sound_run (sound_load fileBare_none) hclean).1, dropsOldest_enforce⟩

def samplePicture : Incoming :=
  { record := { id := "a1", occurredAt := 10 }, jpeg := some [0xff, 0xd8, 0xff, 0x00, 0x00] }

def sampleStore : List StoreEvent :=
  [.insert [samplePicture, { record := { id := "a2", occurredAt := 11 } }] true .ok,
    .reload {"a1"} "front" 4 2 .ok]

theorem history_sound_sample :
    (sampleStore.foldl next (load none ∅ "front" 10 2 .ok)).events.length = 2 ∧
      (sampleStore.foldl next (load none ∅ "front" 10 2 .ok)).Sound := by
  refine ⟨by decide +kernel, (history_sound ?_).1⟩
  intro e he
  rcases List.mem_pair.mp he with rfl | rfl
  · intro incoming hmem detail
    rcases List.mem_pair.mp hmem with rfl | rfl <;> nofun
  · trivial

end CameraHistory

end Alarms

end EzvizBridge
