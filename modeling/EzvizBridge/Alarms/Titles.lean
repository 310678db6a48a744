import EzvizBridge.Alarms.Inserts
import EzvizBridge.Lib.Words
import Mathlib.Data.String.Basic

/-!
# Titles

`sanitize_title` joins the words of a title and cuts off what is behind 120 characters. `load` does
it once more with the title of each record of the file (`load_titles`).

A cut inside of a word leaves a title that stays as it is. A cut behind the space between two words
leaves the space, which the next reload takes away; so a title is settled exactly when its cut is
not there (`title_settled_iff`).
-/

namespace EzvizBridge

namespace Alarms

open Recordings (Persist)
open CameraHistory
open Words (words join Proper Tidy CutsAtSpace)

/-- White space and control characters. -/
def separatesTitle (character : Char) : Bool := isWhitespace character || isControl character

/-- The words of a title. -/
def titleWords (raw : String) : List (List Char) := words separatesTitle raw.toList

theorem toList_sanitizeTitle (raw : String) :
    (sanitizeTitle raw).toList = (join ' ' (titleWords raw)).take maxTitleChars :=
  String.toList_ofList

theorem length_sanitizeTitle (raw : String) : (sanitizeTitle raw).length ≤ maxTitleChars := by
  rw [← String.length_toList, toList_sanitizeTitle]
  exact List.length_take_le _ _

/-- A title that is joined from words and not too long stays as it is. -/
theorem sanitizeTitle_of_join {title : String} {list : List (List Char)}
    (h : Proper separatesTitle list) (htitle : title.toList = join ' ' list)
    (hlength : title.length ≤ maxTitleChars) :
    sanitizeTitle title = title := by
  have hwords : titleWords title = list := by
    rw [titleWords, htitle]
    exact Words.words_join (by decide) h
  apply String.toList_inj.mp
  rw [toList_sanitizeTitle, hwords, ← htitle]
  exact List.take_of_length_le (String.length_toList.symm ▸ hlength)

/-! ### Reloads -/

/-- The entry has the id of a record, and its title sanitized. -/
def Retitled (records : List AlarmRecord) (entry : Entry) : Prop :=
  ∃ record ∈ records, record.id = entry.record.id ∧ entry.record.title = sanitizeTitle record.title

variable {self : CameraHistory} {record : AlarmRecord} {records : List AlarmRecord}

theorem retitled_restore (hmem : record ∈ records)
    (h : ∀ entry ∈ self.events, Retitled records entry) :
    ∀ entry ∈ (self.restore record).events, Retitled records entry := by
  unfold CameraHistory.restore
  split_ifs with hskip
  · exact h
  · dsimp only
    rw [(push_events self _).1]
    intro entry hentry
    obtain hold | hnew := List.mem_append.mp (List.mem_of_mem_drop hentry)
    · exact h entry hold
    · -- with or without its picture, the record has its id and its title
      rw [List.mem_singleton.mp hnew]
      refine ⟨record, hmem, ?_⟩
      split_ifs <;> exact ⟨rfl, rfl⟩

theorem retitled_foldl {kept : List AlarmRecord} (hkept : ∀ record ∈ kept, record ∈ records)
    (h : ∀ entry ∈ self.events, Retitled records entry) :
    ∀ entry ∈ (kept.foldl restore self).events, Retitled records entry := by
  induction kept generalizing self with
  | nil => exact h
  | cons record kept ih =>
    rw [List.forall_mem_cons] at hkept
    rw [List.foldl_cons]
    exact ih hkept.2 (retitled_restore hkept.1 h)

/-- Entries that lose their pictures keep their ids and titles. -/
theorem retitled_enforce (h : ∀ entry ∈ self.events, Retitled records entry) :
    ∀ entry ∈ self.enforcePictureBudget.1.events, Retitled records entry := by
  have hstrip : ∀ entry : Entry, ((strip entry).record.id, (strip entry).record.title) =
      (entry.record.id, entry.record.title) := by
    intro entry
    unfold strip
    split_ifs <;> rfl
  have hmap := enforce_maps (fun entry => (entry.record.id, entry.record.title)) hstrip self
  intro entry hentry
  have hthere : (entry.record.id, entry.record.title) ∈
      self.events.map fun entry => (entry.record.id, entry.record.title) :=
    hmap ▸ List.mem_map_of_mem hentry
  obtain ⟨before, hbefore, heq⟩ := List.mem_map.mp hthere
  obtain ⟨record, hmem, hid, htitle⟩ := h before hbefore
  obtain ⟨hsame, hsameTitle⟩ := Prod.mk.inj heq
  exact ⟨record, hmem, hid.trans hsame, hsameTitle.symm.trans htitle⟩

/-- **A load sanitizes every title again.** -/
theorem load_titles (file : Option HistoryFile) (pictures : Finset String) (binding : String)
    (pictureBudget limit : ℕ) (persist : Persist) :
    ∀ entry ∈ (load file pictures binding pictureBudget limit persist).events,
      Retitled (storedRecords file binding) entry := by
  have hrestored := @retitled_foldl (empty file pictures binding pictureBudget limit)
    (storedRecords file binding)
    ((storedRecords file binding).drop ((storedRecords file binding).length - limit))
    (fun _ hmem => List.mem_of_mem_drop hmem) (List.forall_mem_nil _)
  unfold load
  dsimp only
  generalize ((storedRecords file binding).drop ((storedRecords file binding).length - limit)).foldl
    restore (empty file pictures binding pictureBudget limit) = restored at hrestored ⊢
  let swept := { restored with
    floor := restored.head
    pictures := PictureDir.removeOrphans restored.pictures restored.ids }
  have hswept := @retitled_enforce swept (storedRecords file binding) hrestored
  split_ifs
  · -- the file is written, the events stay
    intro entry hentry
    have hwritten : entry ∈ (swept.enforcePictureBudget.1.persist persist).events := hentry
    rw [(swept.enforcePictureBudget.1.persist_fields persist).1] at hwritten
    exact hswept entry hwritten
  · exact hswept

/-! ### Settled titles -/

/-- What is said of a sanitized title. -/
structure Settled (raw : String) : Prop where
  idempotent : sanitizeTitle (sanitizeTitle raw) = sanitizeTitle raw
  short : (sanitizeTitle raw).length ≤ 120
  tidy : Tidy separatesTitle ' ' (sanitizeTitle raw).toList
  /-- a load shows the title that it finds -/
  reloaded : ∀ (file : Option HistoryFile) (pictures : Finset String) (binding : String)
    (pictureBudget limit : ℕ) (persist : Persist),
    ∀ entry ∈ (load file pictures binding pictureBudget limit persist).events,
      ∃ record ∈ storedRecords file binding, record.id = entry.record.id ∧
        (record.title = sanitizeTitle raw → entry.record.title = record.title)

/-- **A title is settled** exactly when it is not cut behind the space between two words. -/
theorem title_settled_iff (raw : String) :
    Settled raw ↔ ¬CutsAtSpace ' ' maxTitleChars (titleWords raw) := by
  have hproper : Proper separatesTitle (titleWords raw) := Words.proper_words _
  constructor
  · intro h hcut
    apply h.tidy.last
    rw [toList_sanitizeTitle]
    exact hcut.getLast?
  · intro h
    obtain ⟨left, hleft, htitle⟩ := (Words.take_join hproper maxTitleChars).resolve_right h
    rw [← toList_sanitizeTitle] at htitle
    have hself := sanitizeTitle_of_join hleft htitle (length_sanitizeTitle raw)
    refine ⟨hself, length_sanitizeTitle raw, ?_, ?_⟩
    · rw [htitle]
      exact Words.tidy_join (by decide) hleft
    · intro file pictures binding pictureBudget limit persist entry hentry
      obtain ⟨record, hmem, hid, hretitled⟩ :=
        load_titles file pictures binding pictureBudget limit persist entry hentry
      refine ⟨record, hmem, hid, fun htitle => ?_⟩
      rw [hretitled, htitle, hself]

/-- A word of 119 characters, and one behind it. -/
def longTitle : String := String.ofList (List.replicate 119 'x' ++ [' ', 'y'])

theorem longTitle_unsettled :
    (sanitizeTitle longTitle).toList.getLast? = some ' ' ∧
      sanitizeTitle (sanitizeTitle longTitle) ≠ sanitizeTitle longTitle := by
  have hlong : longTitle.toList = List.replicate 119 'x' ++ [' ', 'y'] := String.toList_ofList
  have hcut : (sanitizeTitle longTitle).toList = List.replicate 119 'x' ++ [' '] := by
    rw [toList_sanitizeTitle, titleWords, hlong]
    decide +kernel
  -- the second time, the space goes
  have hwords : titleWords (sanitizeTitle longTitle) = [List.replicate 119 'x'] := by
    rw [titleWords, hcut]
    decide +kernel
  constructor
  · rw [hcut, List.getLast?_concat]
  · intro hsame
    have hlengths := congrArg (fun title => title.toList.length) hsame
    rw [toList_sanitizeTitle, hwords, hcut] at hlengths
    exact absurd hlengths (by decide +kernel)

end Alarms

end EzvizBridge
