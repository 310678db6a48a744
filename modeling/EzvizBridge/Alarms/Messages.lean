import Mathlib.Data.String.Basic
import EzvizBridge.Alarms.Fetch
import EzvizBridge.Controls.Model

/-!
# The messages of a list answer

`parse_list` and `parse_message` (`alarms/model.rs`). Any message with an id becomes a record, and
one without gets the id that its device, channel, type and time make. An id is a token in any case,
since what is not one is hashed (`isToken_hashedId`).

`now` is the time at which a message is parsed, in seconds, by its place in the answer.
-/

namespace EzvizBridge

namespace Alarms

open Controls (Value trim)
open Controls.Fields (int)

/-- `category`. -/
def category (alarmType subType : ℤ) : String :=
  if alarmType ∈ [10000, 10002, 10013, 10014, 10140] then "motion"
  else if alarmType ∈ [10010, 10015, 10079, 10120, 10121, 10131, 15500] then "person"
  else if alarmType = 10130 then "vehicle"
  else if alarmType ∈ [2701, 10016] then "doorbell"
  else if alarmType ∈ [10003, 10022, 15008] then "sound"
  else if alarmType = 15003 then "pet"
  else if alarmType ∈ [10032, 10071, 30010] then "offline"
  else if alarmType ∈ [10011, 12021, 12027] then "tamper"
  else if subType = 2701 then "doorbell"
  else if subType = 2402 then "motion"
  else if subType = 2403 then "person"
  else if subType = 2404 then "vehicle"
  else if subType = 2405 then "sound"
  else "other"

/-! ### Ids -/

/-- `hex::encode` of a digest. -/
def hexEncode (digest : BitVec 256) : List Char :=
  (List.range 64).map fun place => Nat.digitChar (digest.toNat / 16 ^ (63 - place) % 16)

section

variable (sha256 : Bytes → BitVec 256)

def hashedId (raw : String) : String :=
  String.ofList ('h' :: (hexEncode (sha256 raw.toUTF8.toList)).take 40)

/-- `message_id`. -/
def messageId (item : Value) : Option String := do
  let value ← item.get "msgId"
  let raw ← value.asStr.or (value.asI64.map toString)
  if raw = "" then none else if isToken raw then some raw else some (hashedId sha256 raw)

/-- `fallback_id`. -/
def fallbackId (item : Value) (alarmType : ℤ) : Option String := do
  let serial ← (item.get "deviceSerial").bind Value.asStr
  let channel := ((item.get "channel").bind int).getD 0
  let time ← (item.get "timeStr").bind Value.asStr
  return hashedId sha256
    (serial ++ "|" ++ toString channel ++ "|" ++ toString alarmType ++ "|" ++ time)

theorem isAlphanum_digitChar {digit : ℕ} (h : digit < 16) :
    (Nat.digitChar digit).isAlphanum = true := by
  have hdigits : ∀ digit < 16, (Nat.digitChar digit).isAlphanum = true := by decide
  exact hdigits digit h

theorem isAlphanum_of_mem_hexEncode {digest : BitVec 256} {character : Char}
    (h : character ∈ hexEncode digest) : character.isAlphanum = true := by
  obtain ⟨place, -, rfl⟩ := List.mem_map.mp h
  exact isAlphanum_digitChar (Nat.mod_lt _ (by decide))

/-- Letters and digits have one byte each. -/
theorem utf8Len_of_isAlphanum {text : List Char}
    (h : ∀ character ∈ text, character.isAlphanum = true) :
    String.utf8Len text = text.length := by
  induction text with
  | nil => rfl
  | cons character text ih =>
    obtain ⟨hfirst, hrest⟩ := List.forall_mem_cons.mp h
    have hsize : character.utf8Size = 1 := by
      have hle : character.val ≤ 0x7f := by
        delta Char.isAlphanum Char.isAlpha Char.isUpper Char.isLower Char.isDigit at hfirst
        simp only [Bool.or_eq_true, Bool.and_eq_true, decide_eq_true_eq] at hfirst
        simp only [UInt32.le_iff_toNat_le, ge_iff_le] at hfirst ⊢
        rcases hfirst with (h | h) | h <;> exact h.2.trans (by decide)
      exact if_pos hle
    rw [String.utf8Len_cons, ih hrest, hsize, List.length_cons]

/-- **A hashed id is a token**, whatever has been hashed. -/
theorem isToken_hashedId (raw : String) : isToken (hashedId sha256 raw) = true := by
  have hall : ∀ character ∈ 'h' :: (hexEncode (sha256 raw.toUTF8.toList)).take 40,
      character.isAlphanum = true := by
    rw [List.forall_mem_cons]
    exact ⟨by decide, fun character h => isAlphanum_of_mem_hexEncode (List.mem_of_mem_take h)⟩
  rw [isToken, decide_eq_true_iff]
  refine ⟨fun h => ?_, ?_, ?_⟩
  · have hnil : (hashedId sha256 raw).toList = [] := by rw [h, String.toList_empty]
    rw [hashedId, String.toList_ofList] at hnil
    exact absurd hnil (List.cons_ne_nil _ _)
  · rw [hashedId, String.utf8ByteSize_ofList, utf8Len_of_isAlphanum hall, List.length_cons,
      List.length_take]
    exact (Nat.succ_le_succ (Nat.min_le_left _ _)).trans (by decide)
  · rw [hashedId, String.toList_ofList, List.all_eq_true]
    intro character h
    rw [hall character h, Bool.true_or, Bool.true_or]

theorem isToken_messageId {item : Value} {id : String} (h : messageId sha256 item = some id) :
    isToken id = true := by
  simp only [messageId, Option.bind_eq_bind, Option.bind_eq_some_iff] at h
  obtain ⟨value, -, raw, -, h⟩ := h
  split_ifs at h with hempty htoken
  · exact Option.some.inj h ▸ htoken
  · exact Option.some.inj h ▸ isToken_hashedId sha256 raw

theorem isToken_fallbackId {item : Value} {alarmType : ℤ} {id : String}
    (h : fallbackId sha256 item alarmType = some id) : isToken id = true := by
  simp only [fallbackId, Option.bind_eq_bind, Option.bind_eq_some_iff] at h
  obtain ⟨serial, -, time, -, h⟩ := h
  exact Option.some.inj h ▸ isToken_hashedId sha256 _

/-- The id of a message. -/
def ownId (item : Value) (alarmType : ℤ) : Option { id : String // isToken id = true } :=
  match h : messageId sha256 item with
  | some id => some ⟨id, isToken_messageId sha256 h⟩
  | none =>
    match h : fallbackId sha256 item alarmType with
    | some id => some ⟨id, isToken_fallbackId sha256 h⟩
    | none => none

/-! ### Messages -/

/-- The picture of a message. -/
def picture (item : Value) : Option PictureSource := do
  let url := trim (← (item.get "pic").bind Value.asStr)
  if "https://".toList.isPrefixOf url || "http://".toList.isPrefixOf url then
    return {
      url := String.ofList url
      crypt := ((item.get "picCrypt").bind int).getD 0
      checksum := (item.get "picChecksum").bind Value.asStr }
  else none

/-- `parse_message`. -/
def parseMessage (now : ℤ) (item : Value) : Option ParsedMessage := do
  let ext := item.get "ext"
  let timeMs := (item.get "time").bind int
  let subType := ((item.get "subType").bind int).getD 0
  let alarmType := ((ext.bind fun ext => ext.get "alarmType").bind int).getD 0
  let id ← ownId sha256 item alarmType
  -- the title, else the detail, else the name of the alarm
  let title :=
    (["title", "detail"].findSome? fun key => (item.get key).bind Value.asStr).or
      ((ext.bind fun ext => ext.get "alarmName").bind Value.asStr)
  return {
    record := {
      id := id.1
      occurredAt := timeMs.elim now fun ms => ms.tdiv 1000
      alarmType := alarmType
      category := category alarmType subType
      title := (title.map sanitizeTitle).getD "" }
    channel := ((item.get "channel").bind int).bind fun channel =>
      if 0 ≤ channel ∧ channel < 2 ^ 16 then some channel.toNat else none
    timeMs := timeMs
    picture := picture item
    token := id.2 }

/-- `parse_list`. -/
def parseList (now : ℕ → ℤ) (value : Value) : Page where
  messages :=
    match (value.get "message").bind Value.asArray with
    | some items => items.zipIdx.filterMap fun item => parseMessage sha256 (now item.2) item.1
    | none => []
  hasNext := (value.get "hasNext").any fun flag => flag.asBool = some true || int flag = some 1

end

/-- The list call of a service whose answers are JSON, none of them an error. -/
def answers (sha256 : Bytes → BitVec 256) (now : ℕ → ℕ → ℤ) (vendor : ℕ → ℤ → Option ℤ → Value) :
    ListAnswers :=
  fun number day endTime => .ok (parseList sha256 (now number) (vendor number day endTime))

end Alarms

end EzvizBridge
