import EzvizBridge.Vtm.Protobuf

/-!
# Messages read back

The writers of `vtm/protobuf.rs` against its readers. A field is written as the shortest of its
words (`fieldWord_encodeField`), so a message that is written is read back, field by field
(`ReadsBack`). For any input the readers end in one of two ways: all of it has been taken up by
words, or there is an error (`Settles`). Input that ends inside a word is an error, whatever the
message was.
-/

namespace EzvizBridge

namespace Vtm

open PrefixCode

/-! ### The writers -/

def asBytes (value : String) : Bytes := value.toByteArray.data.toList

/-- A field with a number. -/
def protoVarint (field value : UInt64) : Bytes :=
  encodeVarint (field <<< 3) ++ encodeVarint value

/-- The layout of `proto_string`, for any bytes. -/
def protoBytes (field : UInt64) (value : Bytes) : Bytes :=
  encodeVarint (field <<< 3 ||| 2) ++ (encodeVarint (.ofNat value.length) ++ value)

/-- A field with a text. -/
def protoString (field : UInt64) (value : String) : Bytes := protoBytes field (asBytes value)

/-- One field, written. -/
def encodeField : UInt64 × ProtoValue → Bytes
  | (field, .integer value) => protoVarint field value
  | (field, .bytes value) => protoBytes field value

/-- A list of fields, written one after the other. -/
def encode (items : List (UInt64 × ProtoValue)) : Bytes := items.flatMap encodeField

/-- `stream_info`. -/
def streamInfo (url : String) (key : Option String) (version : String)
    (kind : Option UInt64) : Bytes :=
  protoString 1 url ++ (key.elim [] fun key => protoString 2 key) ++ protoString 3 version ++
    protoVarint 4 0 ++ protoString 6 version ++ kind.elim [] fun kind => protoVarint 8 kind

/-- The request of a live stream. -/
def buildStreamInfo (url : String) (redirectKey : Option String) : Bytes :=
  streamInfo url redirectKey "v3.6.3.20221124" none

/-- The request of a playback. -/
def buildPlaybackStreamInfo (url : String) (redirectKey : Option String) : Bytes :=
  streamInfo url redirectKey "v3.9.0.20251120" (some 10)

/-- The keepalive of a stream session. -/
def buildKeepalive (streamSession : String) : Bytes := protoString 1 streamSession

/-! ### What a message says -/

/-- The last value of a field, if it is an integer. -/
def lastIntOf (items : List (UInt64 × ProtoValue)) (field : UInt64) : Option UInt64 :=
  match (valuesOf items field).getLast? with
  | some (.integer value) => some value
  | _ => none

/-- The last value of a field, if it is a text. -/
def lastTextOf (items : List (UInt64 × ProtoValue)) (field : UInt64) : Option String :=
  match (valuesOf items field).getLast? with
  | some (.bytes value) => fromUtf8 value
  | _ => none

/-- The stream information that the fields hold. -/
def infoOf (items : List (UInt64 × ProtoValue)) : StreamInfo where
  result := lastIntOf items 1
  streamSession := lastTextOf items 4
  redirectKey := lastTextOf items 5
  redirectUrl := lastTextOf items 7

/-- The fields that `parse_stream_info` looks at. -/
def known : List UInt64 := [1, 4, 5, 7]

/-- A field number for which the key fits, and a message that fits a vector. -/
structure Writable (items : List (UInt64 × ProtoValue)) : Prop where
  numbers : ∀ item ∈ items, item.1.toNat < 2 ^ 61
  size : (encode items).length < 2 ^ 63

/-- The message is read back, and none of its heads is taken for another message. -/
structure ReadsBack (items : List (UInt64 × ProtoValue)) : Prop where
  fields : ∃ fields, readFields (encode items) = .ok fields ∧
    ∀ field, fields.get field = entryOf items field
  info : parseStreamInfo (encode items) = .ok (infoOf items)
  cut : ∀ front, front <+: encode items → (∀ k, front ≠ encode (items.take k)) →
    ∃ error, readFields front = .error (.failed error)

/-- The input is taken up by words, or there is an error. In both cases no byte outside has been
read. -/
structure Settles (data : Bytes) : Prop where
  ends : (∃ fields, readFields data = .ok fields) ∨
    ∃ error, readFields data = .error (.failed error)
  consumed : ∀ fields, readFields data = .ok fields → ∃ message, Spells FieldWord message ∧
    text message = data ∧ ∀ field, fields.get field = entryOf (message.map Prod.snd) field
  cut : ∀ message, Spells FieldWord message → text message = data →
    ∀ front, front <+: data → (∀ k, front ≠ text (message.take k)) →
      ∃ error, readFields front = .error (.failed error)

/-! ### Keys -/

theorem toNat_key {field : UInt64} (h : field.toNat < 2 ^ 61) :
    (field <<< 3).toNat = field.toNat * 8 := by
  have hshift : (3 : UInt64).toNat % 64 = 3 := rfl
  rw [UInt64.toNat_shiftLeft, hshift, Nat.shiftLeft_eq]
  omega

/-- The wire type is in the last three bits. -/
theorem toNat_and_seven (key : UInt64) : (key &&& 7).toNat = key.toNat % 8 := by
  have hmask : (7 : UInt64).toNat = 2 ^ 3 - 1 := rfl
  rw [UInt64.toNat_and, hmask, Nat.and_two_pow_sub_one_eq_mod]

/-- The number of the field is in front of them. -/
theorem toNat_shiftRight_three (key : UInt64) : (key >>> 3).toNat = key.toNat / 8 := by
  rw [UInt64.toNat_shiftRight, Nat.shiftRight_eq_div_pow]
  rfl

/-- A key holds the field number and the type. -/
theorem key_eq {field : UInt64} (h : field.toNat < 2 ^ 61) {type : UInt64}
    (htype : type.toNat < 8) :
    (field <<< 3 ||| type) &&& 7 = type ∧ (field <<< 3 ||| type) >>> 3 = field := by
  have hkey : (field <<< 3 ||| type).toNat = field.toNat * 8 + type.toNat := by
    rw [UInt64.toNat_or, toNat_key h, Nat.mul_comm, ← Nat.two_pow_add_eq_or_of_lt (i := 3) htype]
  constructor
  · apply UInt64.toNat_inj.mp
    rw [toNat_and_seven, hkey]
    omega
  · apply UInt64.toNat_inj.mp
    rw [toNat_shiftRight_three, hkey]
    omega

/-- **A field is written as one of its words.** -/
theorem fieldWord_encodeField {item : UInt64 × ProtoValue} (hnumber : item.1.toNat < 2 ^ 61)
    (hsize : (encodeField item).length < 2 ^ 63) : FieldWord (encodeField item) item := by
  obtain ⟨field, value⟩ := item
  -- the two wire types that are written
  cases value with
  | integer value =>
    obtain ⟨htype, hfield⟩ := key_eq hnumber (by decide : (0 : UInt64).toNat < 8)
    rw [UInt64.or_zero] at htype hfield
    have hword := FieldWord.integer (Varint.word_encode (field <<< 3)) htype
      (Varint.word_encode value)
    rwa [hfield] at hword
  | bytes value =>
    obtain ⟨htype, hfield⟩ := key_eq hnumber (by decide : (2 : UInt64).toNat < 8)
    have hlength : value.length = (UInt64.ofNat value.length).toNat := by
      rw [encodeField, protoBytes, List.length_append, List.length_append] at hsize
      rw [UInt64.toNat_ofNat']
      omega
    have hword := FieldWord.bytes (Varint.word_encode (field <<< 3 ||| 2)) htype
      (Varint.word_encode (.ofNat value.length)) hlength
    rwa [hfield] at hword

/-! ### Reading back -/

/-- A list of fields as a message. -/
def written (items : List (UInt64 × ProtoValue)) : List (Bytes × (UInt64 × ProtoValue)) :=
  items.map fun item => (encodeField item, item)

theorem text_written (items : List (UInt64 × ProtoValue)) :
    text (written items) = encode items := by
  rw [text, written, List.flatMap_map]
  rfl

theorem snd_written (items : List (UInt64 × ProtoValue)) :
    (written items).map Prod.snd = items := by
  rw [written, List.map_map]
  exact List.map_id' items

theorem length_encodeField_le {items : List (UInt64 × ProtoValue)} {item : UInt64 × ProtoValue}
    (h : item ∈ items) : (encodeField item).length ≤ (encode items).length := by
  obtain ⟨front, back, rfl⟩ := List.append_of_mem h
  rw [encode, List.flatMap_append, List.flatMap_cons, List.length_append, List.length_append]
  omega

theorem Writable.spells {items : List (UInt64 × ProtoValue)} (h : Writable items) :
    Spells FieldWord (written items) := by
  intro word hword
  obtain ⟨item, hitem, rfl⟩ := List.mem_map.mp hword
  exact fieldWord_encodeField (h.numbers item hitem) ((length_encodeField_le hitem).trans_lt h.size)

theorem Writable.readFields {items : List (UInt64 × ProtoValue)} (h : Writable items) :
    readFields (encode items) = .ok (items.foldl Fields.push []) := by
  rw [readFields_eq_ok_iff h.size]
  exact ⟨written items, h.spells, text_written items, by rw [snd_written]⟩

/-- The last value of a field. -/
theorem getLast?_entryOf (items : List (UInt64 × ProtoValue)) (field : UInt64) :
    (entryOf items field).bind List.getLast? = (valuesOf items field).getLast? := by
  unfold entryOf
  split
  · next hnil => rw [hnil]; rfl
  · rfl

/-- The parser finds the last values. -/
theorem Writable.parseStreamInfo {items : List (UInt64 × ProtoValue)} (h : Writable items) :
    parseStreamInfo (encode items) = .ok (infoOf items) := by
  unfold Vtm.parseStreamInfo
  rw [h.readFields]
  refine congrArg Except.ok ?_
  simp only [lastInt, lastString, get_collect, getLast?_entryOf]
  rfl

/-! ### Any input -/

/-- The reader ends with a value or an error. -/
theorem readFields_ends {data : Bytes} (hsize : data.length < 2 ^ 63) :
    (∃ fields, readFields data = .ok fields) ∨
      ∃ error, readFields data = .error (.failed error) := by
  have hsafe : readFields data ≠ .error .panicked := readFieldsFrom_ne_panicked hsize
  rcases hread : readFields data with stop | fields
  · cases stop with
    | failed error => exact Or.inr ⟨error, rfl⟩
    | panicked => exact absurd hread hsafe
  · exact Or.inl ⟨fields, rfl⟩

/-- Input that ends inside a word is an error. -/
theorem cut_error {message : List (Bytes × (UInt64 × ProtoValue))}
    (hspells : Spells FieldWord message) (hsize : (text message).length < 2 ^ 63) {front : Bytes}
    (hfront : front <+: text message) (hcut : ∀ k, front ≠ text (message.take k)) :
    ∃ error, readFields front = .error (.failed error) := by
  have hshort : front.length < 2 ^ 63 := hfront.length_le.trans_lt hsize
  obtain ⟨fields, hok⟩ | herror := readFields_ends hshort
  · obtain ⟨message', hspells', htext', -⟩ := (readFields_eq_ok_iff hshort).mp hok
    obtain ⟨k, hk⟩ := (fieldWord_selfDelimiting.spelled_prefix_iff hspells hfront).mp
      ⟨message', hspells', htext'⟩
    exact absurd hk (hcut k)
  · exact herror

/-- Every input is read or refused. -/
theorem settles {data : Bytes} (hsize : data.length < 2 ^ 63) : Settles data where
  ends := readFields_ends hsize
  consumed fields hread := by
    obtain ⟨message, hspells, htext, rfl⟩ := (readFields_eq_ok_iff hsize).mp hread
    exact ⟨message, hspells, htext, get_collect _⟩
  cut message hspells htext front hfront hcut := by
    subst htext
    exact cut_error hspells hsize hfront hcut

/-- What can be written reads back, whole or cut. -/
theorem Writable.readsBack {items : List (UInt64 × ProtoValue)} (h : Writable items) :
    ReadsBack items where
  fields := ⟨_, h.readFields, get_collect items⟩
  info := h.parseStreamInfo
  cut front hfront hcut := by
    rw [← text_written] at hfront
    refine cut_error h.spells (text_written items ▸ h.size) hfront fun k hk => hcut k ?_
    rw [hk, written, ← List.map_take]
    exact text_written _

theorem fromUtf8_asBytes (value : String) : fromUtf8 (asBytes value) = some value := by
  have hbytes : (⟨(value.toByteArray.data.toList).toArray⟩ : ByteArray) =
      value.toByteArray := by simp
  rw [fromUtf8, asBytes, hbytes, String.fromUTF8?, dif_pos value.isValidUTF8]
  rfl

/-- A string that is written last for its field comes back. -/
theorem lastTextOf_written {items front back : List (UInt64 × ProtoValue)} {field : UInt64}
    {value : String} (hsplit : items = front ++ (field, .bytes (asBytes value)) :: back)
    (hlast : ∀ item ∈ back, item.1 ≠ field) : lastTextOf items field = some value := by
  have hback : back.filter (fun item => item.1 = field) = [] := by
    rw [List.filter_eq_nil_iff]
    simpa using hlast
  have hvalues : valuesOf items field = valuesOf front field ++ [.bytes (asBytes value)] := by
    simp [valuesOf, hsplit, hback]
  rw [lastTextOf, hvalues, List.getLast?_append]
  exact fromUtf8_asBytes value

/-- A field is no longer than the message that it is read from, when it is written again. -/
theorem length_encodeField_le_of_read {w : Bytes} {field : UInt64} {value : Bytes}
    (hkey : (encodeVarint (field <<< 3 ||| 2)).length = 1)
    (hword : FieldWord w (field, .bytes value)) : (protoBytes field value).length ≤ w.length := by
  generalize hitem : (field, ProtoValue.bytes value) = item at hword
  -- a text is in a word of the second type
  cases hword with
  | integer => cases hitem
  | @bytes k l body key length hkeyword htype hlength hbody =>
    obtain ⟨rfl, rfl⟩ : field = key >>> 3 ∧ value = body := by simpa using hitem
    have hshort := hlength.length_encode_le
    have hpos := List.length_pos_iff.mpr hkeyword.ne_nil
    have hlen : UInt64.ofNat value.length = length := by rw [hbody, UInt64.ofNat_toNat]
    rw [protoBytes, List.length_append, List.length_append, List.length_append, List.length_append,
      hkey, hlen]
    unfold encodeVarint
    omega

/-- The last text of a field that has been read is in one of the words. -/
theorem exists_word_of_lastString {message : List (Bytes × (UInt64 × ProtoValue))} {field : UInt64}
    {name : String}
    (h : lastString ((message.map Prod.snd).foldl Fields.push []) field = some name) :
    ∃ word ∈ message, ∃ value, word.2 = (field, .bytes value) ∧ fromUtf8 value = some name := by
  rw [lastString, get_collect, getLast?_entryOf] at h
  -- the last value of the field is one of the items
  split at h
  · next value hlast =>
    obtain ⟨item, hitem, hvalue⟩ := List.mem_map.mp (List.mem_of_getLast? hlast)
    obtain ⟨hmem, hfield⟩ := List.mem_filter.mp hitem
    obtain ⟨word, hword, rfl⟩ := List.mem_map.mp hmem
    refine ⟨word, hword, value, Prod.ext ?_ hvalue, h⟩
    exact of_decide_eq_true hfield
  · cases h

/-- A text has the bytes that it was read from. -/
theorem asBytes_of_fromUtf8 {value : Bytes} {name : String} (h : fromUtf8 value = some name) :
    asBytes name = value := by
  unfold fromUtf8 String.fromUTF8? at h
  split at h
  · obtain rfl := Option.some.inj h
    exact List.toList_toArray
  · cases h

/-- **A keepalive** is no longer than the message that has named the stream session. -/
theorem length_buildKeepalive_le {data : Bytes} (hsize : data.length < 2 ^ 63) {info : StreamInfo}
    (hparse : parseStreamInfo data = .ok info) {name : String}
    (hname : info.streamSession = some name) :
    (buildKeepalive name).length ≤ data.length := by
  obtain ⟨fields, hread, hinfo⟩ := bind_eq_ok_iff.mp hparse
  obtain ⟨message, hspells, htext, rfl⟩ := (readFields_eq_ok_iff hsize).mp hread
  have hlast : lastString ((message.map Prod.snd).foldl Fields.push []) 4 = some name := by
    rw [← hname, ← Except.ok.inj hinfo]
  obtain ⟨word, hword, value, hitem, hvalue⟩ := exists_word_of_lastString hlast
  have hfield := hspells word hword
  rw [hitem] at hfield
  -- field 4 and field 1 have keys of one byte
  have hkey : (encodeVarint ((4 : UInt64) <<< 3 ||| 2)).length = 1 := by decide +kernel
  have hkey' : (encodeVarint ((1 : UInt64) <<< 3 ||| 2)).length = 1 := by decide +kernel
  have hle := length_encodeField_le_of_read hkey hfield
  have hinside : word.1.length ≤ data.length := by
    rw [← htext, text, List.flatMap_def]
    exact (List.sublist_flatten_of_mem (List.mem_map_of_mem hword)).length_le
  rw [protoBytes, List.length_append, hkey] at hle
  rw [buildKeepalive, protoString, asBytes_of_fromUtf8 hvalue, protoBytes,
    List.length_append, hkey']
  omega

/-- **The round trip.** What is written is read back, whatever stands between the known fields and
in which order they come, and for any input the readers end without leaving it: with all of it read,
or with an error, which is what a message that is cut inside a field gets. -/
theorem protobuf_round_trip :
    (∀ items, Writable items → ReadsBack items) ∧
    (∀ items items', Writable items → Writable items' →
      (∀ field ∈ known, valuesOf items field = valuesOf items' field) →
      parseStreamInfo (encode items) = parseStreamInfo (encode items')) ∧
    ∀ data : Bytes, data.length < 2 ^ 63 → Settles data := by
  refine ⟨fun items h => h.readsBack, fun items items' h h' hknown => ?_, fun data => settles⟩
  rw [h.parseStreamInfo, h'.parseStreamInfo]
  refine congrArg Except.ok ?_
  simp only [infoOf, lastIntOf, lastTextOf]
  rw [hknown 1 (by decide), hknown 4 (by decide), hknown 5 (by decide), hknown 7 (by decide)]

def sampleReply : List (UInt64 × ProtoValue) :=
  [(1, .integer 0), (4, .bytes [0x73, 0x31]), (4, .bytes [0x73, 0x32])]

def sampleReordered : List (UInt64 × ProtoValue) :=
  [(4, .bytes [0x73, 0x31]), (9, .integer 300), (4, .bytes [0x73, 0x32]), (1, .integer 0)]

/-- A reply with its session named twice, in another order, and cut. -/
theorem protobuf_round_trip_sample :
    ReadsBack sampleReply ∧ parseStreamInfo (encode sampleReply) = .ok (infoOf sampleReply) ∧
      (infoOf sampleReply).streamSession = some "s2" ∧
      parseStreamInfo (encode sampleReply) = parseStreamInfo (encode sampleReordered) ∧
      Settles ((encode sampleReply).take 4) ∧
      ∃ error, readFields ((encode sampleReply).take 4) = .error (.failed error) := by
  have hreply : Writable sampleReply := ⟨by decide, by decide +kernel⟩
  have hreordered : Writable sampleReordered := ⟨by decide, by decide +kernel⟩
  obtain ⟨hreads, hsame, hsettles⟩ := protobuf_round_trip
  have hback := hreads sampleReply hreply
  have hsize : ((encode sampleReply).take 4).length < 2 ^ 63 :=
    (List.length_take_le 4 _).trans_lt (by decide)
  refine ⟨hback, hback.info, by decide +kernel, ?_, hsettles _ hsize, ?_⟩
  · refine hsame sampleReply sampleReordered hreply hreordered fun field hfield => ?_
    simp only [known, List.mem_cons, List.not_mem_nil, or_false] at hfield
    obtain rfl | rfl | rfl | rfl := hfield <;> rfl
  · -- the reply is cut inside its second field
    refine hback.cut _ (List.take_prefix 4 _) fun k => ?_
    have hlength : ∀ k < 4, (encode sampleReply).take 4 ≠ encode (sampleReply.take k) := by
      decide +kernel
    by_cases hk : k < 4
    · exact hlength k hk
    · rw [List.take_of_length_le (l := sampleReply) (Nat.le_trans (by decide) (not_lt.mp hk))]
      decide +kernel

/-- The request of a live session. -/
example : buildStreamInfo "ysproto://host/live" none =
    [0x0a, 0x13, 0x79, 0x73, 0x70, 0x72, 0x6f, 0x74, 0x6f, 0x3a, 0x2f, 0x2f, 0x68, 0x6f, 0x73,
      0x74, 0x2f, 0x6c, 0x69, 0x76, 0x65, 0x1a, 0x0f, 0x76, 0x33, 0x2e, 0x36, 0x2e, 0x33, 0x2e,
      0x32, 0x30, 0x32, 0x32, 0x31, 0x31, 0x32, 0x34, 0x20, 0x00, 0x32, 0x0f, 0x76, 0x33, 0x2e,
      0x36, 0x2e, 0x33, 0x2e, 0x32, 0x30, 0x32, 0x32, 0x31, 0x31, 0x32, 0x34] := by
  decide +kernel

end Vtm

end EzvizBridge
