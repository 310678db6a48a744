import Mathlib.Data.String.Basic
import EzvizBridge.Device.Records
import EzvizBridge.Lib.Continuation

/-!
# A day on the SD card

What the camera has recorded on one day, and what a camera is that answers V2 queries about it
(`Camera`). The camera writes a time as the search does (`localTime`), so that the texts are in the
order of the times (`localTime_lt_iff`).

`cardSource` is such a camera: it compares the texts of the query with those of its records.
-/

namespace EzvizBridge

namespace Device

open Controls (Value trim trim_eq_self)
open Alarms (isWhitespace)

/-! ### Wall clock times -/

def twoDigits (number : ℕ) : List Char := [Nat.digitChar (number / 10), Nat.digitChar (number % 10)]

/-- Hours, minutes and seconds of a second of the day. -/
def clock (second : ℕ) : List Char :=
  twoDigits (second / 3600) ++
    (':' :: (twoDigits (second / 60 % 60) ++ (':' :: twoDigits (second % 60))))

/-- A second of a day that is written `date`, as `LOCAL_FORMAT` has it. -/
def localTime (date : String) (second : ℕ) : String :=
  String.ofList (date.toList ++ 'T' :: clock second)

/-- The last second of a day. -/
def lastSecond : ℕ := 86399

theorem digitChar_lt {a b : ℕ} (h : a < b) (hb : b < 10) : Nat.digitChar a < Nat.digitChar b := by
  have hdigits : ∀ b < 10, ∀ a < b, Nat.digitChar a < Nat.digitChar b := by decide
  exact hdigits b hb a h

theorem twoDigits_lt {a b : ℕ} (h : a < b) (hb : b < 100) (rest rest' : List Char) :
    twoDigits a ++ rest < twoDigits b ++ rest' := by
  show _ :: _ :: rest < _ :: _ :: rest'
  rw [List.cons_lt_cons_iff, List.cons_lt_cons_iff]
  obtain htens | htens := Nat.lt_or_eq_of_le (Nat.div_le_div_right (c := 10) h.le)
  · exact Or.inl (digitChar_lt htens (by omega))
  · exact Or.inr ⟨by rw [htens], Or.inl (digitChar_lt (by omega) (by omega))⟩

theorem twoDigits_append_lt (a : ℕ) {rest rest' : List Char} (h : rest < rest') :
    twoDigits a ++ ':' :: rest < twoDigits a ++ ':' :: rest' := by
  apply List.append_left_lt
  rw [List.cons_lt_cons_iff]
  exact Or.inr ⟨rfl, h⟩

theorem clock_lt {a b : ℕ} (h : a < b) (hb : b ≤ lastSecond) : clock a < clock b := by
  have hb : b ≤ 86399 := hb
  rw [clock, clock]
  obtain hhours | hhours := Nat.lt_or_eq_of_le (Nat.div_le_div_right (c := 3600) h.le)
  · exact twoDigits_lt hhours (by omega) _ _
  rw [hhours]
  apply twoDigits_append_lt
  obtain hminutes | hminutes := Nat.lt_or_ge (a / 60 % 60) (b / 60 % 60)
  · exact twoDigits_lt hminutes (by omega) _ _
  have heq : a / 60 % 60 = b / 60 % 60 := by omega
  rw [heq]
  apply twoDigits_append_lt
  have hseconds : a % 60 < b % 60 := by omega
  simpa using twoDigits_lt hseconds (by omega) [] []

theorem localTime_lt (date : String) {a b : ℕ} (h : a < b) (hb : b ≤ lastSecond) :
    localTime date a < localTime date b := by
  rw [String.lt_iff_toList_lt, localTime, localTime, String.toList_ofList, String.toList_ofList]
  apply List.append_left_lt
  rw [List.cons_lt_cons_iff]
  exact Or.inr ⟨rfl, clock_lt h hb⟩

/-- **The texts are in the order of the times.** -/
theorem localTime_lt_iff (date : String) {a b : ℕ} (ha : a ≤ lastSecond) (hb : b ≤ lastSecond) :
    localTime date a < localTime date b ↔ a < b := by
  constructor
  · intro h
    by_contra hnot
    obtain heq | hlt := Nat.eq_or_lt_of_le (not_lt.mp hnot)
    · exact absurd (heq ▸ h) (lt_irrefl _)
    · exact absurd h (lt_asymm (localTime_lt date hlt ha))
  · intro h
    exact localTime_lt date h hb

theorem localTime_le_iff (date : String) {a b : ℕ} (ha : a ≤ lastSecond) (hb : b ≤ lastSecond) :
    localTime date a ≤ localTime date b ↔ a ≤ b := by
  rw [← not_lt, localTime_lt_iff date hb ha, not_lt]

theorem dayWindow_eq (date : String) :
    dayWindow date = (localTime date 0, localTime date lastSecond) := by
  have hfirst : "T00:00:00".toList = 'T' :: clock 0 := by decide
  have hlast : "T23:59:59".toList = 'T' :: clock lastSecond := by decide
  rw [dayWindow, localTime, localTime, ← hfirst, ← hlast, ← String.toList_append,
    ← String.toList_append, String.ofList_toList, String.ofList_toList]

/-- What `chrono` makes of the texts of the day: the date has no white space in it, and a time of
the day is read as it has been written. -/
structure Calendar (crates : Crates) (date : String) (midnight : ℤ) : Prop where
  compact : ∀ character ∈ date.toList, isWhitespace character = false
  parse : ∀ second ≤ lastSecond, crates.parseDateTime (localTime date second) =
    some (midnight + second)

theorem isWhitespace_digitChar {digit : ℕ} (h : digit < 10) :
    isWhitespace (Nat.digitChar digit) = false := by
  have hdigits : ∀ digit < 10, isWhitespace (Nat.digitChar digit) = false := by decide
  exact hdigits digit h

theorem isWhitespace_clock {second : ℕ} (h : second ≤ lastSecond) :
    ∀ character ∈ clock second, isWhitespace character = false := by
  have h : second ≤ 86399 := h
  intro character hmem
  simp only [clock, twoDigits, List.cons_append, List.nil_append, List.mem_cons,
    List.not_mem_nil, or_false] at hmem
  obtain rfl | rfl | rfl | rfl | rfl | rfl | rfl | rfl := hmem
  all_goals first | exact isWhitespace_digitChar (by omega) | decide

/-- There is nothing to trim. -/
theorem Calendar.trim_localTime {crates : Crates} {date : String} {midnight : ℤ}
    (h : Calendar crates date midnight) {second : ℕ} (hsecond : second ≤ lastSecond) :
    String.ofList (trim (localTime date second)) = localTime date second := by
  rw [trim_eq_self, String.ofList_toList]
  intro character hmem
  rw [localTime, String.toList_ofList, List.mem_append, List.mem_cons] at hmem
  obtain hmem | rfl | hmem := hmem
  · exact h.compact character hmem
  · decide
  · exact isWhitespace_clock hsecond character hmem

/-! ### The camera -/

/-- One recording, in seconds of the day. -/
structure Clip where
  first : ℕ
  last : ℕ
  type : Option Value
  first_le : first ≤ last
  last_le : last ≤ lastSecond

/-- A recording of positive length. -/
def Clip.Long (self : Clip) : Prop := self.first < self.last

instance (self : Clip) : Decidable self.Long := inferInstanceAs (Decidable (self.first < self.last))

/-- The closed interval of the recording meets this one. -/
def Clip.Meets (start stop : ℕ) (self : Clip) : Prop := start ≤ self.last ∧ self.first ≤ stop

instance (start stop : ℕ) (self : Clip) : Decidable (self.Meets start stop) :=
  inferInstanceAs (Decidable (_ ∧ _))

/-- The recordings of a day, in the order of time. One may begin when another one ends. -/
structure Day where
  clips : List Clip
  disjoint : clips.Pairwise fun a b => a.last ≤ b.first
  atMost : clips.length ≤ maxRecords

/-- What a query is about. -/
def Day.meeting (self : Day) (start stop : ℕ) : List Clip :=
  self.clips.filter fun clip => clip.Meets start stop

/-- An item of a V2 response that stands for a recording. -/
structure Shows (date : String) (clip : Clip) (item : Value) : Prop where
  begin_ : item.get "B" = some (.string (localTime date clip.first))
  end_ : item.get "E" = some (.string (localTime date clip.last))
  type : item.get "Type" = clip.type

/-- A response with these recordings, and whether more remain. -/
def Carries (crates : Crates) (date : String) (clips : List Clip) (more : Prop)
    (value : Value) : Prop :=
  ensureMeta value = .ok () ∧
    (∃ items, pageItems crates value = .ok items ∧ List.Forall₂ (Shows date) clips items) ∧
    ((value.get "isFinished").bind Controls.Fields.int = some 0 ↔ more)

/-- A camera that answers a V2 query with the first recordings that meet it. -/
def Camera (crates : Crates) (date : String) (day : Day)
    (source : ℕ → RecordQuery → Except BridgeError Value) : Prop :=
  ∀ number start stop size, start ≤ lastSecond → stop ≤ lastSecond →
    ∃ value,
      source number {
        version := .v2
        start := localTime date start
        stop := localTime date stop
        size := size } = .ok value ∧
      Carries crates date ((day.meeting start stop).take size)
        (size < (day.meeting start stop).length)
        value

/-! ### A camera that compares texts -/

/-- The item of a recording. -/
def Clip.item (date : String) (self : Clip) : Value :=
  let times :=
    [("B", Value.string (localTime date self.first)), ("E", .string (localTime date self.last))]
  .object (times ++ self.type.toList.map fun type => ("Type", type))

def cardSource (date : String) (day : Day) (_ : ℕ) (query : RecordQuery) :
    Except BridgeError Value :=
  let found := day.clips.filter fun clip =>
    query.start ≤ localTime date clip.last ∧ localTime date clip.first ≤ query.stop
  .ok (.object [
    ("isFinished", .int (if query.size < found.length then 0 else 1)),
    ("records", .array ((found.take query.size).map (Clip.item date)))])

theorem shows_item (date : String) (clip : Clip) : Shows date clip (clip.item date) := by
  refine ⟨rfl, rfl, ?_⟩
  rw [Clip.item]
  cases clip.type <;> rfl

theorem camera_cardSource (crates : Crates) (date : String) (day : Day) :
    Camera crates date day (cardSource date day) := by
  intro number start stop size hstart hstop
  have hfound : (day.clips.filter fun clip => localTime date start ≤ localTime date clip.last ∧
      localTime date clip.first ≤ localTime date stop) = day.meeting start stop := by
    apply List.filter_congr
    intro clip _
    rw [decide_eq_decide, localTime_le_iff date hstart clip.last_le,
      localTime_le_iff date (clip.first_le.trans clip.last_le) hstop, Clip.Meets]
  refine ⟨_, rfl, rfl, ⟨_, rfl, ?_⟩, ?_⟩
  · rw [hfound]
    induction (day.meeting start stop).take size with
    | nil => exact List.Forall₂.nil
    | cons clip clips ih => exact List.Forall₂.cons (shows_item date clip) ih
  · show Controls.Fields.int (.int (if _ then 0 else 1)) = some 0 ↔ _
    rw [hfound]
    by_cases hmore : size < (day.meeting start stop).length
    · rw [if_pos hmore]
      exact iff_of_true rfl hmore
    · rw [if_neg hmore]
      exact iff_of_false (by decide) hmore

end Device

end EzvizBridge
