import EzvizBridge.Basic
import EzvizBridge.Lib.Keyed
import EzvizBridge.Lib.PrefixCode
import EzvizBridge.Lib.Varint

/-!
# The messages of the video relay

`vtm/protobuf.rs`: the few protobuf messages that the bridge exchanges with the relay. The readers
take the whole input and a position in it. An index or a slice outside the input is a panic of the
code, and ends the reader with `Stop.panicked` here.

`readFields_eq_ok_iff` says what is accepted: the concatenations of the words of fields
(`FieldWord`), and nothing else. The words end themselves, and from that `protobuf_round_trip`
follows.
-/

namespace EzvizBridge

namespace Vtm

/-- How a reader ends that returns no value. -/
inductive Stop
  | failed (error : BridgeError)
  /-- An index or a slice outside the input. -/
  | panicked
  deriving DecidableEq, Repr

/-- `usize::MAX`. -/
def usizeMax : ℕ := 2 ^ 64 - 1

/-! ### The readers -/

/-- The loop of `read_varint`. -/
def readVarintFrom (data : Bytes) (position shift : ℕ) (value : UInt64) :
    Except Stop (UInt64 × ℕ) :=
  if position < data.length ∧ shift < 64 then
    match data[position]? with
    | none => .error .panicked
    | some byte =>
      let value := value ||| (byte &&& 0x7f).toUInt64 <<< UInt64.ofNat shift
      if byte &&& 0x80 = 0 then .ok (value, position + 1)
      else readVarintFrom data (position + 1) (shift + 7) value
  else .error (.failed (.upstream "malformed protobuf varint"))
termination_by 64 - shift

/-- An integer from a position on. -/
def readVarint (data : Bytes) (position : ℕ) : Except Stop (UInt64 × ℕ) :=
  readVarintFrom data position 0 0

def encodeVarint (value : UInt64) : Bytes := Varint.encode value

/-- `ProtoValue`. -/
inductive ProtoValue
  | integer (value : UInt64)
  | bytes (value : Bytes)
  deriving DecidableEq, Repr

/-- `usize::try_from` on a length of the wire. -/
def usizeTryFrom (length : UInt64) : Except Stop ℕ :=
  if length.toNat ≤ usizeMax then .ok length.toNat
  else .error (.failed (.upstream "protobuf field is too large"))

/-- `&data[position..end]`. -/
def slice (data : Bytes) (position stop : ℕ) : Except Stop Bytes :=
  match sliceOf data position stop with
  | none => .error .panicked
  | some value => .ok value

/-- The value of a field of wire type 2, and the next position. -/
def readBytes (data : Bytes) (position : ℕ) : Except Stop (Bytes × ℕ) := do
  let (length, position) ← readVarint data position
  let length ← usizeTryFrom length
  -- `saturating_add`
  let stop := min (position + length) usizeMax
  if stop > data.length then .error (.failed (.upstream "protobuf field exceeds payload"))
  else
    let value ← slice data position stop
    return (value, stop)

/-- One turn of the loop of `read_fields`: the field and its value, and the next position. -/
def readField (data : Bytes) (position : ℕ) : Except Stop ((UInt64 × ProtoValue) × ℕ) := do
  let (key, position) ← readVarint data position
  let field := key >>> 3
  if key &&& 7 = 0 then
    let (value, position) ← readVarint data position
    return ((field, .integer value), position)
  else if key &&& 7 = 2 then
    let (value, position) ← readBytes data position
    return ((field, .bytes value), position)
  else .error (.failed (.upstream "unsupported protobuf wire type"))

/-! ### What the readers accept -/

theorem drop_of_getElem? {data : Bytes} {position : ℕ} {byte : UInt8}
    (h : data[position]? = some byte) :
    data.drop position = byte :: data.drop (position + 1) := by
  obtain ⟨hlt, rfl⟩ := List.getElem?_eq_some_iff.mp h
  exact List.drop_eq_getElem_cons hlt

/-- The first byte of the rest is the one at the position. -/
theorem getElem?_of_drop {data rest : Bytes} {position : ℕ} {byte : UInt8}
    (h : byte :: rest <+: data.drop position) :
    data[position]? = some byte ∧ rest <+: data.drop (position + 1) := by
  obtain ⟨behind, hdrop⟩ := h
  have hget : (data.drop position)[0]? = some byte := by
    rw [← hdrop]
    rfl
  rw [List.getElem?_drop, Nat.add_zero] at hget
  refine ⟨hget, behind, ?_⟩
  rw [drop_of_getElem? hget] at hdrop
  exact (List.cons.inj hdrop).2

variable {data : Bytes} {position shift next : ℕ} {acc value : UInt64}

/-- The loop accepts the words of the integers, from where it stands. -/
theorem readVarintFrom_eq_ok_iff :
    readVarintFrom data position shift acc = .ok (value, next) ↔ ∃ w rest,
      Varint.Word shift w rest ∧ w <+: data.drop position ∧ value = acc ||| rest ∧
      next = position + w.length := by
  constructor
  -- the loop has read a word: the last byte, or one byte more and the rest of the word
  · intro h
    fun_induction readVarintFrom data position shift acc with
    | case1 position shift acc hin hget => cases h
    | case2 position shift acc hin byte hget acc' hlast =>
      obtain ⟨rfl, rfl⟩ := Prod.mk.inj (Except.ok.inj h)
      refine ⟨[byte], _, .last hin.2 hlast, ?_, rfl, rfl⟩
      rw [drop_of_getElem? hget]
      exact ⟨_, rfl⟩
    | case3 position shift acc hin byte hget acc' hmore ih =>
      obtain ⟨w, rest, hword, hpre, rfl, rfl⟩ := ih h
      refine ⟨byte :: w, _, .more hin.2 hmore hword, ?_, UInt64.or_assoc _ _ _, ?_⟩
      · rw [drop_of_getElem? hget]
        exact (List.prefix_cons_inj byte).mpr hpre
      · rw [List.length_cons]
        omega
    | case4 position shift acc hout => cases h
  -- the loop reads the word that is there
  · rintro ⟨w, rest, hword, hpre, rfl, rfl⟩
    induction hword generalizing position acc with
    | @last shift byte hshift hbyte =>
      obtain ⟨hget, -⟩ := getElem?_of_drop hpre
      obtain ⟨hlt, -⟩ := List.getElem?_eq_some_iff.mp hget
      rw [readVarintFrom, if_pos ⟨hlt, hshift⟩, hget]
      exact if_pos hbyte
    | @more shift byte w rest hshift hbyte hrest ih =>
      obtain ⟨hget, hbehind⟩ := getElem?_of_drop hpre
      obtain ⟨hlt, -⟩ := List.getElem?_eq_some_iff.mp hget
      rw [readVarintFrom, if_pos ⟨hlt, hshift⟩, hget]
      refine (if_neg hbyte).trans ((ih hbehind).trans ?_)
      rw [UInt64.or_assoc, List.length_cons, Nat.add_assoc, Nat.add_comm 1]

/-- The integer that stands at a position. -/
theorem readVarint_eq_ok_iff :
    readVarint data position = .ok (value, next) ↔ ∃ w, Varint.Word 0 w value ∧
      w <+: data.drop position ∧ next = position + w.length := by
  rw [readVarint, readVarintFrom_eq_ok_iff]
  constructor
  · rintro ⟨w, rest, hword, hpre, rfl, hnext⟩
    exact ⟨w, by rwa [UInt64.zero_or], hpre, hnext⟩
  · rintro ⟨w, hword, hpre, hnext⟩
    exact ⟨w, value, hword, hpre, UInt64.zero_or.symm, hnext⟩

theorem readVarint_lt (h : readVarint data position = .ok (value, next)) : position < next := by
  obtain ⟨w, hword, -, rfl⟩ := readVarint_eq_ok_iff.mp h
  have hpos := List.length_pos_iff.mpr hword.ne_nil
  omega

/-- The integers of a word are inside the input, and its bytes are read one by one: no panic. -/
theorem readVarintFrom_ne_panicked :
    readVarintFrom data position shift acc ≠ .error .panicked := by
  fun_induction readVarintFrom data position shift acc with
  | case1 position shift acc hin hget =>
    exact absurd (List.getElem?_eq_none_iff.mp hget) (by omega)
  | case2 => simp
  | case3 _ _ _ _ _ _ _ _ ih => exact ih
  | case4 => simp

/-- **The words of a field**: its key, and behind it an integer, or a length and as many bytes. -/
inductive FieldWord : Bytes → UInt64 × ProtoValue → Prop
  | integer {k v : Bytes} {key value : UInt64} (hkey : Varint.Word 0 k key) (htype : key &&& 7 = 0)
    (hvalue : Varint.Word 0 v value) : FieldWord (k ++ v) (key >>> 3, .integer value)
  | bytes {k l body : Bytes} {key length : UInt64} (hkey : Varint.Word 0 k key)
    (htype : key &&& 7 = 2) (hlength : Varint.Word 0 l length)
    (hbody : body.length = length.toNat) : FieldWord (k ++ (l ++ body)) (key >>> 3, .bytes body)

/-- They end themselves. -/
theorem fieldWord_selfDelimiting : PrefixCode.SelfDelimiting FieldWord where
  ne_nil h := by
    cases h with
    | integer hkey => exact List.append_ne_nil_of_left_ne_nil hkey.ne_nil _
    | bytes hkey => exact List.append_ne_nil_of_left_ne_nil hkey.ne_nil _
  unique h h' htext := by
    -- the keys are the same, and so are the types and what is behind them
    cases h with
    | integer hkey htype hvalue =>
      cases h' with
      | integer hkey' htype' hvalue' =>
        simp only [List.append_assoc] at htext
        obtain ⟨rfl, rfl⟩ := hkey.unique hkey' htext
        obtain ⟨rfl, rfl⟩ := hvalue.unique hvalue' (List.append_cancel_left htext)
        exact ⟨rfl, rfl⟩
      | bytes hkey' htype' =>
        simp only [List.append_assoc] at htext
        obtain ⟨-, rfl⟩ := hkey.unique hkey' htext
        rw [htype] at htype'
        exact absurd htype' (by decide)
    | bytes hkey htype hlength hbody =>
      cases h' with
      | integer hkey' htype' =>
        simp only [List.append_assoc] at htext
        obtain ⟨-, rfl⟩ := hkey.unique hkey' htext
        rw [htype] at htype'
        exact absurd htype' (by decide)
      | bytes hkey' htype' hlength' hbody' =>
        simp only [List.append_assoc] at htext
        obtain ⟨rfl, rfl⟩ := hkey.unique hkey' htext
        have hbehind := List.append_cancel_left htext
        obtain ⟨rfl, rfl⟩ := hlength.unique hlength' hbehind
        obtain ⟨rfl, -⟩ := List.append_inj (List.append_cancel_left hbehind)
          (hbody.trans hbody'.symm)
        exact ⟨rfl, rfl⟩

/-- A slice within the data is the part of it. -/
theorem slice_eq_ok_iff {position stop : ℕ} {value : Bytes} :
    slice data position stop = .ok value ↔
      position ≤ stop ∧ stop ≤ data.length ∧ value = (data.take stop).drop position := by
  by_cases hin : position ≤ stop ∧ stop ≤ data.length
  · rw [slice, sliceOf, if_pos hin]
    constructor
    · intro h
      exact ⟨hin.1, hin.2, (Except.ok.inj h).symm⟩
    · rintro ⟨-, -, rfl⟩
      rfl
  · rw [slice, sliceOf, if_neg hin]
    constructor
    · intro h
      cases h
    · rintro ⟨hle, hle', -⟩
      exact absurd ⟨hle, hle'⟩ hin

/-- Two parts, one behind the other. -/
theorem append_prefix_drop_iff {w w' : Bytes} :
    w ++ w' <+: data.drop position ↔
      w <+: data.drop position ∧ w' <+: data.drop (position + w.length) := by
  constructor
  · rintro ⟨behind, hdrop⟩
    rw [List.append_assoc] at hdrop
    refine ⟨⟨_, hdrop⟩, behind, ?_⟩
    rw [← List.drop_drop, ← hdrop, List.drop_left]
  · rintro ⟨⟨rest, hdrop⟩, hpre'⟩
    rw [← List.drop_drop, ← hdrop, List.drop_left] at hpre'
    rw [← hdrop]
    exact (List.prefix_append_right_inj w).mpr hpre'

/-- Both parsers have succeeded. -/
theorem bind_eq_ok_iff {α β : Type} {x : Except Stop α} {f : α → Except Stop β} {b : β} :
    (x >>= f) = .ok b ↔ ∃ a, x = .ok a ∧ f a = .ok b := by
  cases x with
  | error e =>
    constructor
    · intro h
      cases h
    · rintro ⟨a, h, -⟩
      cases h
  | ok a =>
    constructor
    · intro h
      exact ⟨a, rfl, h⟩
    · rintro ⟨a', h, hb⟩
      exact Except.ok.inj h ▸ hb

theorem usizeTryFrom_eq (length : UInt64) : usizeTryFrom length = .ok length.toNat := by
  have hlt := length.toNat_lt
  exact if_pos (by unfold usizeMax; omega)

/-- A length, and behind it as many bytes. No vector of Rust is longer than `isize::MAX`, so that
the sum of a position and a length is not saturated where it stays inside the input. -/
theorem readBytes_eq_ok_iff (hsize : data.length < 2 ^ 63) {body : Bytes} :
    readBytes data position = .ok (body, next) ↔ ∃ l length, Varint.Word 0 l length ∧
      body.length = length.toNat ∧ l ++ body <+: data.drop position ∧
      next = position + (l ++ body).length := by
  unfold readBytes
  rw [bind_eq_ok_iff]
  -- the length, and then as many bytes within the input
  constructor
  · rintro ⟨⟨length, behind⟩, hlength, h⟩
    obtain ⟨l, hword, hpre, rfl⟩ := readVarint_eq_ok_iff.mp hlength
    dsimp only at h
    rw [usizeTryFrom_eq] at h
    change (if min (position + l.length + length.toNat) usizeMax > data.length then _ else _) =
      _ at h
    split at h
    · cases h
    · next hin =>
      obtain ⟨value, hslice, h⟩ := bind_eq_ok_iff.mp h
      obtain ⟨rfl, rfl⟩ := Prod.mk.inj (Except.ok.inj h)
      have hstop : min (position + l.length + length.toNat) usizeMax =
          position + l.length + length.toNat := by
        unfold usizeMax at hin ⊢
        omega
      rw [hstop] at hslice hin ⊢
      obtain ⟨-, hle, rfl⟩ := slice_eq_ok_iff.mp hslice
      have hbody : ((data.take (position + l.length + length.toNat)).drop
          (position + l.length)).length = length.toNat := by
        rw [List.length_drop, List.length_take]
        omega
      refine ⟨l, length, hword, hbody, append_prefix_drop_iff.mpr ⟨hpre, ?_⟩, ?_⟩
      · rw [List.drop_take]
        exact List.take_prefix _ _
      · rw [List.length_append, hbody, Nat.add_assoc]
  -- the sum of position and length is not cut off, as the input ends before
  · rintro ⟨l, length, hword, hbody, hpre, rfl⟩
    obtain ⟨hpre, hpre'⟩ := append_prefix_drop_iff.mp hpre
    have hle : position + l.length + body.length ≤ data.length := by
      have hle := hpre'.length_le
      have hpos := List.length_pos_iff.mpr hword.ne_nil
      have hle' := hpre.length_le
      rw [List.length_drop] at hle hle'
      omega
    have hstop : min (position + l.length + length.toNat) usizeMax =
        position + l.length + body.length := by
      unfold usizeMax
      omega
    refine ⟨(length, position + l.length), readVarint_eq_ok_iff.mpr ⟨l, hword, hpre, rfl⟩, ?_⟩
    dsimp only
    rw [usizeTryFrom_eq]
    change (if min (position + l.length + length.toNat) usizeMax > data.length then _ else _) = _
    rw [hstop, if_neg (by omega), bind_eq_ok_iff]
    refine ⟨body, slice_eq_ok_iff.mpr ⟨by omega, hle, ?_⟩, ?_⟩
    · rw [List.drop_take, Nat.add_sub_cancel_left]
      exact List.prefix_iff_eq_take.mp hpre'
    · rw [List.length_append, Nat.add_assoc]
      rfl

/-- **One turn of the loop** accepts the words of the fields. -/
theorem readField_eq_ok_iff (hsize : data.length < 2 ^ 63) {item : UInt64 × ProtoValue} :
    readField data position = .ok (item, next) ↔ ∃ w, FieldWord w item ∧
      w <+: data.drop position ∧ next = position + w.length := by
  unfold readField
  rw [bind_eq_ok_iff]
  -- the type of the key tells an integer from bytes; all other types are refused
  constructor
  · rintro ⟨⟨key, behind⟩, hkey, h⟩
    obtain ⟨k, hword, hpre, rfl⟩ := readVarint_eq_ok_iff.mp hkey
    dsimp only at h
    split at h
    · next htype =>
      obtain ⟨⟨value, behind⟩, hvalue, h⟩ := bind_eq_ok_iff.mp h
      obtain ⟨v, hword', hpre', rfl⟩ := readVarint_eq_ok_iff.mp hvalue
      obtain ⟨rfl, rfl⟩ := Prod.mk.inj (Except.ok.inj h)
      refine ⟨k ++ v, .integer hword htype hword', append_prefix_drop_iff.mpr ⟨hpre, hpre'⟩, ?_⟩
      rw [List.length_append, Nat.add_assoc]
    · split at h
      · next htype =>
        obtain ⟨⟨body, behind⟩, hbytes, h⟩ := bind_eq_ok_iff.mp h
        obtain ⟨l, length, hword', hbody, hpre', rfl⟩ := (readBytes_eq_ok_iff hsize).mp hbytes
        obtain ⟨rfl, rfl⟩ := Prod.mk.inj (Except.ok.inj h)
        refine ⟨k ++ (l ++ body), .bytes hword htype hword' hbody,
          append_prefix_drop_iff.mpr ⟨hpre, hpre'⟩, ?_⟩
        rw [@List.length_append _ k, Nat.add_assoc]
      · cases h
  -- the field stands there, of one of the two types
  · rintro ⟨w, hfield, hpre, rfl⟩
    cases hfield with
    | @integer k v key value hword htype hword' =>
      obtain ⟨hpre, hpre'⟩ := append_prefix_drop_iff.mp hpre
      refine ⟨(key, position + k.length), readVarint_eq_ok_iff.mpr ⟨k, hword, hpre, rfl⟩, ?_⟩
      dsimp only
      rw [if_pos htype, bind_eq_ok_iff]
      refine ⟨(value, position + k.length + v.length),
        readVarint_eq_ok_iff.mpr ⟨v, hword', hpre', rfl⟩, ?_⟩
      rw [List.length_append, Nat.add_assoc]
      rfl
    | @bytes k l body key length hword htype hword' hbody =>
      obtain ⟨hpre, hpre'⟩ := append_prefix_drop_iff.mp hpre
      have hother : ¬ key &&& 7 = 0 := by
        rw [htype]
        decide
      refine ⟨(key, position + k.length), readVarint_eq_ok_iff.mpr ⟨k, hword, hpre, rfl⟩, ?_⟩
      dsimp only
      rw [if_neg hother, if_pos htype, bind_eq_ok_iff]
      refine ⟨(body, position + k.length + (l ++ body).length),
        (readBytes_eq_ok_iff hsize).mpr ⟨l, length, hword', hbody, hpre', rfl⟩, ?_⟩
      rw [@List.length_append _ k, Nat.add_assoc]
      rfl

/-- Bytes have at least their length. -/
theorem readBytes_lt {body : Bytes} (h : readBytes data position = .ok (body, next)) :
    position < next := by
  obtain ⟨⟨length, behind⟩, hlength, h⟩ := bind_eq_ok_iff.mp h
  have hlt := readVarint_lt hlength
  dsimp only at h
  rw [usizeTryFrom_eq] at h
  change (if min (behind + length.toNat) usizeMax > data.length then _ else _) = _ at h
  split at h
  · cases h
  · obtain ⟨value, hslice, h⟩ := bind_eq_ok_iff.mp h
    obtain ⟨-, rfl⟩ := Prod.mk.inj (Except.ok.inj h)
    exact hlt.trans_le (slice_eq_ok_iff.mp hslice).1

/-- A turn of the loop advances the position. -/
theorem readField_lt {item : UInt64 × ProtoValue} (h : readField data position = .ok (item, next)) :
    position < next := by
  obtain ⟨⟨key, behind⟩, hkey, h⟩ := bind_eq_ok_iff.mp h
  have hlt := readVarint_lt hkey
  dsimp only at h
  -- both kinds of a field go on from the position behind the key
  split at h
  · obtain ⟨⟨value, behind'⟩, hvalue, h⟩ := bind_eq_ok_iff.mp h
    obtain ⟨-, rfl⟩ := Prod.mk.inj (Except.ok.inj h)
    exact hlt.trans (readVarint_lt hvalue)
  · split at h
    · obtain ⟨⟨body, behind'⟩, hbytes, h⟩ := bind_eq_ok_iff.mp h
      obtain ⟨-, rfl⟩ := Prod.mk.inj (Except.ok.inj h)
      exact hlt.trans (readBytes_lt hbytes)
    · cases h

/-! ### No panic -/

/-- A panic of two parsers is one of the first or of the second. -/
theorem bind_ne_panicked {α β : Type} {x : Except Stop α} {f : α → Except Stop β}
    (hx : x ≠ .error .panicked) (hf : ∀ a, x = .ok a → f a ≠ .error .panicked) :
    (x >>= f) ≠ .error .panicked := by
  cases x with
  | error e =>
    intro h
    cases h
    exact hx rfl
  | ok a => exact hf a rfl

theorem readVarint_ne_panicked : readVarint data position ≠ .error .panicked :=
  readVarintFrom_ne_panicked

/-- The slice is checked against the length of the input. -/
theorem readBytes_ne_panicked (hsize : data.length < 2 ^ 63) :
    readBytes data position ≠ .error .panicked := by
  refine bind_ne_panicked readVarint_ne_panicked fun ⟨length, behind⟩ hlength => ?_
  dsimp only
  rw [usizeTryFrom_eq]
  change (if min (behind + length.toNat) usizeMax > data.length then _ else _) ≠ _
  split
  · simp
  · next hin =>
    -- the end of the slice is behind its beginning, and inside the input
    obtain ⟨w, -, hpre, rfl⟩ := readVarint_eq_ok_iff.mp hlength
    rw [slice_eq_ok_iff.mpr ⟨by unfold usizeMax at hin ⊢; omega, not_lt.mp hin, rfl⟩]
    exact fun h => nomatch h

/-- No field panics. -/
theorem readField_ne_panicked (hsize : data.length < 2 ^ 63) :
    readField data position ≠ .error .panicked := by
  refine bind_ne_panicked readVarint_ne_panicked fun ⟨key, behind⟩ _ => ?_
  dsimp only
  split
  · exact bind_ne_panicked readVarint_ne_panicked fun _ _ h => nomatch h
  · split
    · exact bind_ne_panicked (readBytes_ne_panicked hsize) fun _ _ h => nomatch h
    · simp

/-! ### A message -/

/-- `BTreeMap<u64, Vec<ProtoValue>>`. -/
abbrev Fields := List (UInt64 × List ProtoValue)

def Fields.get (self : Fields) (field : UInt64) : Option (List ProtoValue) :=
  (Keyed.lookup Prod.fst self field).map Prod.snd

/-- `entry(field).or_default().push(value)`. -/
def Fields.push (self : Fields) (item : UInt64 × ProtoValue) : Fields :=
  Keyed.insert Prod.fst self (item.1, (self.get item.1).getD [] ++ [item.2])

/-- The loop of `read_fields`. -/
def readFieldsFrom (data : Bytes) (position : ℕ) (fields : Fields) : Except Stop Fields :=
  if position < data.length then
    match _h : readField data position with
    | .error stop => .error stop
    | .ok (item, next) => readFieldsFrom data next (fields.push item)
  else .ok fields
termination_by data.length - position
decreasing_by
  have hlt := readField_lt _h
  omega

/-- The fields of a message. -/
def readFields (data : Bytes) : Except Stop Fields := readFieldsFrom data 0 []

/-- `StreamInfo`. -/
structure StreamInfo where
  result : Option UInt64 := none
  streamSession : Option String := none
  redirectKey : Option String := none
  redirectUrl : Option String := none
  deriving DecidableEq, Repr

def fromUtf8 (value : Bytes) : Option String := String.fromUTF8? ⟨value.toArray⟩

/-- The last integer of a field. -/
def lastInt (fields : Fields) (field : UInt64) : Option UInt64 :=
  match (fields.get field).bind List.getLast? with
  | some (.integer value) => some value
  | _ => none

/-- The last text of a field. -/
def lastString (fields : Fields) (field : UInt64) : Option String :=
  match (fields.get field).bind List.getLast? with
  | some (.bytes value) => fromUtf8 value
  | _ => none

/-- The stream information of a relay, from its fields. -/
def parseStreamInfo (data : Bytes) : Except Stop StreamInfo := do
  let fields ← readFields data
  return {
    result := lastInt fields 1
    streamSession := lastString fields 4
    redirectKey := lastString fields 5
    redirectUrl := lastString fields 7 }

/-! ### The fields of a message -/

/-- The values of a field, in order. -/
def valuesOf (items : List (UInt64 × ProtoValue)) (field : UInt64) : List ProtoValue :=
  (items.filter fun item => item.1 = field).map Prod.snd

/-- What a map of vectors holds for a field: nothing, or its values. -/
def entryOf (items : List (UInt64 × ProtoValue)) (field : UInt64) : Option (List ProtoValue) :=
  if valuesOf items field = [] then none else some (valuesOf items field)

/-- A value is added to its field. -/
theorem Fields.get_push (fields : Fields) (item : UInt64 × ProtoValue) (field : UInt64) :
    (fields.push item).get field =
      if item.1 = field then some ((fields.get field).getD [] ++ [item.2]) else
        fields.get field := by
  unfold Fields.push Fields.get
  -- the field itself, or another one
  split
  · next hfield =>
    subst hfield
    have hself := @Keyed.lookup_insert_self _ _ _ Prod.fst fields
      (item.1, ((Keyed.lookup Prod.fst fields item.1).map Prod.snd).getD [] ++ [item.2])
    rw [hself]
    rfl
  · next hother =>
    exact congrArg (Option.map Prod.snd) (Keyed.lookup_insert_of_ne fun h => hother h.symm)

/-- **Collecting the fields** of a message, one after the other. -/
theorem get_collect (items : List (UInt64 × ProtoValue)) (field : UInt64) :
    Fields.get (items.foldl Fields.push []) field = entryOf items field := by
  -- on the values, from the last one
  induction items using List.reverseRecOn with
  | nil => rfl
  | append_singleton items item ih =>
    rw [List.foldl_append, List.foldl_cons, List.foldl_nil, Fields.get_push, ih]
    have hvalues : valuesOf (items ++ [item]) field =
        valuesOf items field ++ if item.1 = field then [item.2] else [] := by
      unfold valuesOf
      rw [List.filter_append, List.map_append]
      by_cases hfield : item.1 = field <;> simp [hfield]
    -- the last value is of the field, or not
    by_cases hfield : item.1 = field
    · rw [if_pos hfield, entryOf, entryOf, hvalues, if_pos hfield]
      have hne : valuesOf items field ++ [item.2] ≠ [] := by simp
      rw [if_neg hne]
      split
      · next hnil => rw [hnil]; rfl
      · rfl
    · rw [if_neg hfield, entryOf, entryOf, hvalues, if_neg hfield, List.append_nil]

/-! ### Reading a message -/

/-- The loop reads the message that is the rest of the data. -/
theorem readFieldsFrom_eq_ok_iff (hsize : data.length < 2 ^ 63) (hposition : position ≤ data.length)
    {fields result : Fields} :
    readFieldsFrom data position fields = .ok result ↔ ∃ message,
      PrefixCode.Spells FieldWord message ∧ PrefixCode.text message = data.drop position ∧
      result = (message.map Prod.snd).foldl Fields.push fields := by
  constructor
  · intro h
    -- a field that is not one, a field and the rest, or the end of the data
    fun_induction readFieldsFrom data position fields with
    | case1 position fields hin stop hread => cases h
    | case2 position fields hin item next hread ih =>
      obtain ⟨w, hfield, hpre, rfl⟩ := (readField_eq_ok_iff hsize).mp hread
      have hle := hpre.length_le
      rw [List.length_drop] at hle
      obtain ⟨message, hspells, htext, rfl⟩ := ih (by omega) h
      refine ⟨(w, item) :: message, hspells.cons hfield, ?_, rfl⟩
      obtain ⟨rest, hrest⟩ := hpre
      rw [PrefixCode.text_cons, htext, ← List.drop_drop, ← hrest, List.drop_left]
    | case3 position fields hout =>
      obtain rfl := Except.ok.inj h
      refine ⟨[], .nil, ?_, rfl⟩
      exact (List.drop_eq_nil_of_le (not_lt.mp hout)).symm
  · rintro ⟨message, hspells, htext, rfl⟩
    -- on the fields of the message
    induction message generalizing position fields with
    | nil =>
      have hend : data.length ≤ position := List.drop_eq_nil_iff.mp htext.symm
      rw [readFieldsFrom, if_neg (not_lt.mpr hend)]
      rfl
    | cons word message ih =>
      obtain ⟨hfield, hrest⟩ := List.forall_mem_cons.mp hspells
      rw [PrefixCode.text_cons] at htext
      have hpre : word.1 <+: data.drop position := ⟨_, htext⟩
      have hle := hpre.length_le
      have hpos := List.length_pos_iff.mpr (fieldWord_selfDelimiting.ne_nil hfield)
      rw [List.length_drop] at hle
      have hread := (readField_eq_ok_iff hsize).mpr ⟨word.1, hfield, hpre, rfl⟩
      have hbehind : PrefixCode.text message = data.drop (position + word.1.length) := by
        rw [← List.drop_drop, ← htext, List.drop_left]
      have hnext : readFieldsFrom data (position + word.1.length) (fields.push word.2) =
          .ok ((message.map Prod.snd).foldl Fields.push (fields.push word.2)) :=
        ih (by omega) hrest hbehind
      rw [readFieldsFrom, if_pos (by omega)]
      split
      · next stop hstop => rw [hread] at hstop; cases hstop
      · next item next hitem =>
        rw [hread] at hitem
        obtain ⟨rfl, rfl⟩ := Prod.mk.inj (Except.ok.inj hitem)
        exact hnext

/-- **What `read_fields` accepts**: the texts of the messages, and from each it collects the
fields. -/
theorem readFields_eq_ok_iff (hsize : data.length < 2 ^ 63) {fields : Fields} :
    readFields data = .ok fields ↔ ∃ message, PrefixCode.Spells FieldWord message ∧
      PrefixCode.text message = data ∧ fields = (message.map Prod.snd).foldl Fields.push [] :=
  readFieldsFrom_eq_ok_iff hsize (Nat.zero_le _)

/-- No message panics. -/
theorem readFieldsFrom_ne_panicked (hsize : data.length < 2 ^ 63) {fields : Fields} :
    readFieldsFrom data position fields ≠ .error .panicked := by
  fun_induction readFieldsFrom data position fields with
  | case1 position fields hin stop hread =>
    intro h
    cases h
    exact readField_ne_panicked hsize hread
  | case2 position fields hin item next hread ih => exact ih
  | case3 => simp

end Vtm

end EzvizBridge
