import Mathlib.Data.List.TakeWhile
import EzvizBridge.Lib.Bytes

/-!
# Form encoding

The pairs of a form as one text (`application/x-www-form-urlencoded`), and back: each byte is a
letter or digit, a plus sign or a percent sign with two hex digits, the pairs are separated by
ampersands, and a key and its value by an equals sign. Reading is told for any text; what has been
written is read back (`parse_serialize`).
-/

namespace FormUrlencoded

/-- The bytes of a text. -/
def bytesOf (text : String) : Bytes := text.toByteArray.data.toList

/-- The text of some bytes, and a replacement character where they are not UTF-8. -/
def textOf (bytes : Bytes) : String :=
  (String.fromUTF8? ⟨bytes.toArray⟩).getD (String.singleton (Char.ofNat 0xfffd))

theorem textOf_bytesOf (text : String) : textOf (bytesOf text) = text := by
  have hbytes : (⟨(text.toByteArray.data.toList).toArray⟩ : ByteArray) = text.toByteArray := by simp
  rw [textOf, bytesOf, hbytes, String.fromUTF8?, dif_pos text.isValidUTF8]
  rfl

/-! ### Bytes -/

/-- The bytes that stand for themselves. -/
def unreserved (byte : UInt8) : Bool :=
  (Char.ofNat byte.toNat).isAlphanum || byte ∈ [0x2a, 0x2d, 0x2e, 0x5f]

def hexDigit (digit : ℕ) : Char := (Nat.digitChar digit).toUpper

def encodeByte (byte : UInt8) : List Char :=
  if byte = 0x20 then ['+']
  else if unreserved byte then [Char.ofNat byte.toNat]
  else ['%', hexDigit (byte.toNat / 16), hexDigit (byte.toNat % 16)]

def hexValue (character : Char) : Option ℕ :=
  if '0' ≤ character ∧ character ≤ '9' then some (character.toNat - '0'.toNat)
  else if 'a' ≤ character ∧ character ≤ 'f' then some (character.toNat - 'a'.toNat + 10)
  else if 'A' ≤ character ∧ character ≤ 'F' then some (character.toNat - 'A'.toNat + 10)
  else none

/-- The bytes of a component; a percent sign without two hex digits stands for itself. -/
def decodeBytes : List Char → Bytes
  | [] => []
  | '%' :: a :: b :: rest =>
    match hexValue a, hexValue b with
    | some high, some low => UInt8.ofNat (16 * high + low) :: decodeBytes rest
    | _, _ => 0x25 :: decodeBytes (a :: b :: rest)
  | character :: rest =>
    (if character = '+' then [0x20] else String.utf8EncodeChar character) ++ decodeBytes rest

theorem hexDigit_separator : ∀ digit < 16, hexDigit digit ≠ '&' ∧ hexDigit digit ≠ '=' := by decide

/-- A character that is no letter, no digit and none of the four marks does not stand for itself. -/
theorem ne_of_unreserved {byte : UInt8} (h : unreserved byte = true) {other : Char}
    (hother : other.isAlphanum = false)
    (hplain : other ∉ ['*', '-', '.', '_']) : Char.ofNat byte.toNat ≠ other := by
  intro heq
  rw [unreserved, Bool.or_eq_true, decide_eq_true_eq, heq, hother] at h
  have hmem := h.resolve_left Bool.false_ne_true
  apply hplain
  rw [← heq]
  simp only [List.mem_cons, List.not_mem_nil, or_false] at hmem
  obtain rfl | rfl | rfl | rfl := hmem <;> decide

/-- No byte is written with a separator. -/
theorem encodeByte_separator (byte : UInt8) : '&' ∉ encodeByte byte ∧ '=' ∉ encodeByte byte := by
  have hhigh := hexDigit_separator (byte.toNat / 16) (Nat.div_lt_of_lt_mul byte.toNat_lt)
  have hlow := hexDigit_separator (byte.toNat % 16) (Nat.mod_lt _ (by decide))
  unfold encodeByte
  split_ifs with hspace hunreserved
  · decide
  · have hampersand : Char.ofNat byte.toNat ≠ '&' :=
      ne_of_unreserved hunreserved (by decide) (by decide)
    have hequals : Char.ofNat byte.toNat ≠ '=' :=
      ne_of_unreserved hunreserved (by decide) (by decide)
    rw [List.mem_singleton, List.mem_singleton]
    exact ⟨hampersand.symm, hequals.symm⟩
  · -- the percent sign and two hex digits
    simp only [List.mem_cons, List.not_mem_nil, or_false, not_or]
    exact ⟨⟨by decide, hhigh.1.symm, hlow.1.symm⟩, by decide, hhigh.2.symm, hlow.2.symm⟩

theorem hexValue_hexDigit : ∀ digit < 16, hexValue (hexDigit digit) = some digit := by decide

theorem val_ofNat (byte : UInt8) : (Char.ofNat byte.toNat).val.toNat = byte.toNat := by
  have hvalid : byte.toNat.isValidChar := Or.inl (byte.toNat_lt.trans (by decide))
  rw [Char.ofNat, dif_pos hvalid]
  rfl

/-- The bytes that stand for themselves are ASCII. -/
theorem toNat_lt_of_unreserved {byte : UInt8} (h : unreserved byte = true) : byte.toNat < 128 := by
  rw [unreserved, Bool.or_eq_true, decide_eq_true_eq] at h
  obtain h | h := h
  · have hval := val_ofNat byte
    delta Char.isAlphanum Char.isAlpha Char.isUpper Char.isLower Char.isDigit at h
    simp only [Bool.or_eq_true, Bool.and_eq_true, decide_eq_true_eq, ge_iff_le,
      UInt32.le_iff_toNat_le, hval] at h
    obtain (h | h) | h := h <;> exact h.2.trans_lt (by decide)
  · simp only [List.mem_cons, List.not_mem_nil, or_false] at h
    obtain rfl | rfl | rfl | rfl := h <;> decide

theorem utf8EncodeChar_unreserved {byte : UInt8} (h : unreserved byte = true) :
    String.utf8EncodeChar (Char.ofNat byte.toNat) = [byte] := by
  have hlt := toNat_lt_of_unreserved h
  have hval := val_ofNat byte
  have hascii : (Char.ofNat byte.toNat).val.toNat ≤ 0x7f := by omega
  rw [String.utf8EncodeChar]
  rw [if_pos hascii, hval, UInt8.ofNat_toNat]

theorem decodeBytes_cons {character : Char} (h : character ≠ '%') (rest : List Char) :
    decodeBytes (character :: rest) =
      (if character = '+' then [0x20] else String.utf8EncodeChar character) ++
        decodeBytes rest := by
  rw [decodeBytes]
  exact fun _ _ _ heq => absurd heq h

/-- **A byte is read back**, whatever comes behind it. -/
theorem decodeBytes_encodeByte (byte : UInt8) (rest : List Char) :
    decodeBytes (encodeByte byte ++ rest) = byte :: decodeBytes rest := by
  unfold encodeByte
  split_ifs with hspace hunreserved
  · show decodeBytes ('+' :: rest) = _
    rw [decodeBytes_cons (by decide), if_pos rfl, hspace]
    rfl
  · have hpercent : Char.ofNat byte.toNat ≠ '%' :=
      ne_of_unreserved hunreserved (by decide) (by decide)
    have hplus : Char.ofNat byte.toNat ≠ '+' := ne_of_unreserved hunreserved (by decide) (by decide)
    show decodeBytes (Char.ofNat byte.toNat :: rest) = _
    rw [decodeBytes_cons hpercent, if_neg hplus, utf8EncodeChar_unreserved hunreserved]
    rfl
  · have hlt := byte.toNat_lt
    show decodeBytes ('%' :: hexDigit (byte.toNat / 16) :: hexDigit (byte.toNat % 16) :: rest) = _
    rw [decodeBytes, hexValue_hexDigit _ (by omega), hexValue_hexDigit _ (by omega)]
    dsimp only
    rw [Nat.div_add_mod, UInt8.ofNat_toNat]

/-! ### Components -/

def encode (text : String) : List Char := (bytesOf text).flatMap encodeByte

def decode (text : List Char) : String := textOf (decodeBytes text)

theorem decode_encode (text : String) : decode (encode text) = text := by
  have hgo : ∀ bytes : Bytes, decodeBytes (bytes.flatMap encodeByte) = bytes := by
    intro bytes
    induction bytes with
    | nil => rfl
    | cons byte bytes ih => rw [List.flatMap_cons, decodeBytes_encodeByte, ih]
  rw [decode, encode, hgo, textOf_bytesOf]

theorem encode_separator (text : String) : '&' ∉ encode text ∧ '=' ∉ encode text := by
  constructor
  · intro h
    obtain ⟨byte, -, hbyte⟩ := List.mem_flatMap.mp h
    exact (encodeByte_separator byte).1 hbyte
  · intro h
    obtain ⟨byte, -, hbyte⟩ := List.mem_flatMap.mp h
    exact (encodeByte_separator byte).2 hbyte

/-! ### Forms -/

/-- The part in front of the first separator, and the part behind it. -/
def splitFirst (separator : Char) (text : List Char) : List Char × List Char :=
  (text.takeWhile fun character => character ≠ separator,
    (text.dropWhile fun character => character ≠ separator).drop 1)

theorem splitFirst_append {separator : Char} {front : List Char} (h : separator ∉ front)
    (back : List Char) : splitFirst separator (front ++ separator :: back) = (front, back) := by
  have hfront : ∀ character ∈ front, decide (character ≠ separator) = true :=
    fun character hmem => decide_eq_true fun heq => h (heq ▸ hmem)
  have hstop : ¬decide (separator ≠ separator) = true := by simp
  rw [splitFirst, List.takeWhile_append_of_pos hfront, List.dropWhile_append_of_pos hfront,
    List.takeWhile_cons_of_neg (p := fun character => decide (character ≠ separator)) hstop,
    List.dropWhile_cons_of_neg (p := fun character => decide (character ≠ separator)) hstop,
    List.append_nil]
  rfl

def encodePair (pair : String × String) : List Char := encode pair.1 ++ '=' :: encode pair.2

/-- `form_urlencoded::Serializer`. -/
def serialize (pairs : List (String × String)) : String :=
  String.ofList (['&'].intercalate (pairs.map encodePair))

/-- `form_urlencoded::parse`. -/
def parse (text : String) : List (String × String) :=
  ((text.toList.splitOn '&').filter fun piece => !piece.isEmpty).map fun piece =>
    let (key, value) := splitFirst '=' piece
    (decode key, decode value)

/-- **A form is read back.** -/
theorem parse_serialize (pairs : List (String × String)) : parse (serialize pairs) = pairs := by
  rw [parse, serialize, String.toList_ofList]
  by_cases hnil : pairs = []
  · rw [hnil]
    rfl
  have hpieces : ∀ piece ∈ pairs.map encodePair, '&' ∉ piece := by
    intro piece hpiece
    obtain ⟨pair, -, rfl⟩ := List.mem_map.mp hpiece
    rw [encodePair, List.mem_append, List.mem_cons, not_or, not_or]
    exact ⟨(encode_separator _).1, by decide, (encode_separator _).1⟩
  have hkept : (pairs.map encodePair).filter (fun piece => !piece.isEmpty) =
      pairs.map encodePair := by
    rw [List.filter_eq_self]
    intro piece hpiece
    obtain ⟨pair, -, rfl⟩ := List.mem_map.mp hpiece
    rw [encodePair]
    simp
  rw [List.splitOn_intercalate _ hpieces (by simpa using hnil), hkept, List.map_map]
  conv_rhs => rw [← List.map_id pairs]
  apply List.map_congr_left
  intro pair _
  show (let (key, value) := splitFirst '=' (encodePair pair); (decode key, decode value)) = pair
  rw [encodePair, splitFirst_append (encode_separator _).2]
  show (decode (encode pair.1), decode (encode pair.2)) = pair
  rw [decode_encode, decode_encode]

end FormUrlencoded
