import Mathlib.Data.List.Basic
import Mathlib.Data.List.TakeWhile
import Mathlib.Tactic.Common

/-!
# IPv6 addresses in texts

`Ipv6Addr::from_str` of the Rust standard library, as far as it goes: eight groups of up to four hex
digits, with one `::` for groups that are zero, and an IPv4 address in the place of the last two
groups.

A text that is an address has nothing but hex digits, colons and dots in it
(`isAddressChar_of_fromStr`), and has a colon (`fromStr_eq_none`).
-/

namespace Ipv6

/-- `char::to_digit` for a radix up to 16. -/
def toDigit (radix : ℕ) (character : Char) : Option ℕ :=
  let value :=
    if '0' ≤ character ∧ character ≤ '9' then some (character.toNat - '0'.toNat)
    else if 'a' ≤ character ∧ character ≤ 'f' then some (character.toNat - 'a'.toNat + 10)
    else if 'A' ≤ character ∧ character ≤ 'F' then some (character.toNat - 'A'.toNat + 10)
    else none
  value.filter fun digit => digit < radix

/-- The characters of an address. -/
def isAddressChar (character : Char) : Bool :=
  (toDigit 16 character).isSome || character = ':' || character = '.'

/-- `Parser::read_number`: as many digits as there are, with a bound on their number and on the
value. -/
def readNumber (radix maxDigits limit : ℕ) (allowZeroPrefix : Bool) (text : List Char) :
    Option (ℕ × List Char) :=
  let digits := text.takeWhile fun character => (toDigit radix character).isSome
  let value := digits.foldl (fun value digit => value * radix + (toDigit radix digit).getD 0) 0
  if digits = [] ∨ maxDigits < digits.length then none
  else if ¬allowZeroPrefix ∧ digits.head? = some '0' ∧ 1 < digits.length then none
  else if limit ≤ value then none
  else some (value, text.dropWhile fun character => (toDigit radix character).isSome)

/-- `Parser::read_separator`: no separator in front of the first item. -/
def readSeparator {α : Type} (separator : Char) (index : ℕ)
    (inner : List Char → Option (α × List Char)) (text : List Char) : Option (α × List Char) :=
  if index = 0 then inner text
  else
    match text with
    | character :: rest => if character = separator then inner rest else none
    | [] => none

/-- `Parser::read_ipv4_addr`, as two groups. -/
def readIpv4 (text : List Char) : Option ((ℕ × ℕ) × List Char) := do
  let (a, text) ← readNumber 10 3 256 false text
  let (b, text) ← readSeparator '.' 1 (readNumber 10 3 256 false) text
  let (c, text) ← readSeparator '.' 2 (readNumber 10 3 256 false) text
  let (d, text) ← readSeparator '.' 3 (readNumber 10 3 256 false) text
  return ((256 * a + b, 256 * c + d), text)

/-- `read_groups`: the groups from `index` on, no more than are left, whether the last two are an
IPv4 address, and the rest of the text. -/
def readGroups : ℕ → ℕ → List Char → List ℕ × Bool × List Char
  | 0, _, text => ([], false, text)
  | left + 1, index, text =>
    match if 0 < left then readSeparator ':' index readIpv4 text else none with
    | some ((high, low), rest) => ([high, low], true, rest)
    | none =>
      match readSeparator ':' index (readNumber 16 4 65536 true) text with
      | none => ([], false, text)
      | some (group, rest) =>
        let (groups, ipv4, rest) := readGroups left (index + 1) rest
        (group :: groups, ipv4, rest)

/-- `Parser::read_ipv6_addr`. -/
def readIpv6 (text : List Char) : Option (List ℕ × List Char) :=
  let (head, headIpv4, rest) := readGroups 8 0 text
  if head.length = 8 then some (head, rest)
  else if headIpv4 then none
  else
    match rest with
    | ':' :: ':' :: rest =>
      let (tail, _, rest) := readGroups (8 - (head.length + 1)) 0 rest
      some (head ++ List.replicate (8 - head.length - tail.length) 0 ++ tail, rest)
    | _ => none

/-- `Ipv6Addr::from_str`: the groups of the address. -/
def fromStr (text : List Char) : Option (List ℕ) :=
  match readIpv6 text with
  | some (groups, []) => some groups
  | _ => none

example : fromStr "2001:db8::1".toList = some [0x2001, 0xdb8, 0, 0, 0, 0, 0, 1] := by decide +kernel

/-! ### The characters of an address -/

/-- What has been read in front of the rest has only characters of an address. -/
def Reads (text rest : List Char) : Prop :=
  ∃ front, text = front ++ rest ∧ ∀ character ∈ front, isAddressChar character = true

variable {text rest rest' : List Char}

theorem Reads.refl (text : List Char) : Reads text text :=
  ⟨[], rfl, List.forall_mem_nil _⟩

theorem Reads.trans (h : Reads text rest) (h' : Reads rest rest') : Reads text rest' := by
  obtain ⟨front, rfl, hfront⟩ := h
  obtain ⟨front', rfl, hfront'⟩ := h'
  refine ⟨front ++ front', (List.append_assoc _ _ _).symm, ?_⟩
  rw [List.forall_mem_append]
  exact ⟨hfront, hfront'⟩

theorem Reads.cons {character : Char} (hcharacter : isAddressChar character = true)
    (h : Reads text rest) : Reads (character :: text) rest := by
  obtain ⟨front, rfl, hfront⟩ := h
  refine ⟨character :: front, rfl, ?_⟩
  rw [List.forall_mem_cons]
  exact ⟨hcharacter, hfront⟩

theorem isAddressChar_of_toDigit {radix : ℕ} (hradix : radix ≤ 16) {character : Char}
    (h : (toDigit radix character).isSome = true) : isAddressChar character = true := by
  obtain ⟨digit, hdigit⟩ := Option.isSome_iff_exists.mp h
  rw [toDigit, Option.filter_eq_some_iff] at hdigit
  have hsome : (toDigit 16 character).isSome = true := by
    rw [toDigit, hdigit.1]
    have hlt : digit < 16 := Nat.lt_of_lt_of_le (of_decide_eq_true hdigit.2) hradix
    rw [Option.filter_some, if_pos (decide_eq_true hlt)]
    rfl
  rw [isAddressChar, hsome]
  rfl

theorem reads_readNumber {radix maxDigits limit value : ℕ} {allowZeroPrefix : Bool}
    (hradix : radix ≤ 16)
    (h : readNumber radix maxDigits limit allowZeroPrefix text = some (value, rest)) :
    Reads text rest := by
  unfold readNumber at h
  dsimp only at h
  split_ifs at h
  cases h
  refine ⟨text.takeWhile fun character => (toDigit radix character).isSome,
    List.takeWhile_append_dropWhile.symm, fun character hmem => ?_⟩
  have hdigit : (toDigit radix character).isSome = true :=
    List.mem_takeWhile_imp (p := fun character => (toDigit radix character).isSome) hmem
  exact isAddressChar_of_toDigit hradix hdigit

theorem reads_readSeparator {α : Type} {separator : Char} {index : ℕ} {value : α}
    {inner : List Char → Option (α × List Char)} (hseparator : isAddressChar separator = true)
    (hinner : ∀ {text value rest}, inner text = some (value, rest) → Reads text rest)
    (h : readSeparator separator index inner text = some (value, rest)) : Reads text rest := by
  unfold readSeparator at h
  split_ifs at h with hindex
  · exact hinner h
  · cases text with
    | nil => exact nomatch h
    | cons character text =>
      dsimp only at h
      split_ifs at h with heq
      exact (hinner h).cons (heq ▸ hseparator)

theorem reads_readIpv4 {value : ℕ × ℕ} (h : readIpv4 text = some (value, rest)) :
    Reads text rest := by
  have hnumber : ∀ {text value rest}, readNumber 10 3 256 false text = some (value, rest) →
      Reads text rest := fun h => reads_readNumber (by decide) h
  simp only [readIpv4, Option.bind_eq_bind, Option.bind_eq_some_iff] at h
  obtain ⟨⟨a, text₁⟩, ha, ⟨b, text₂⟩, hb, ⟨c, text₃⟩, hc, ⟨d, text₄⟩, hd, h⟩ := h
  cases h
  have hdot : isAddressChar '.' = true := by decide
  exact (hnumber ha).trans ((reads_readSeparator hdot hnumber hb).trans
    ((reads_readSeparator hdot hnumber hc).trans (reads_readSeparator hdot hnumber hd)))

theorem reads_readGroups (left index : ℕ) (text : List Char) :
    Reads text (readGroups left index text).2.2 := by
  have hcolon : isAddressChar ':' = true := by decide
  induction left generalizing index text with
  | zero => exact Reads.refl text
  | succ left ih =>
    rw [readGroups]
    cases hipv4 : if 0 < left then readSeparator ':' index readIpv4 text else none with
    | some read =>
      obtain ⟨⟨high, low⟩, rest⟩ := read
      split_ifs at hipv4
      exact reads_readSeparator hcolon reads_readIpv4 hipv4
    | none =>
      dsimp only
      cases hgroup : readSeparator ':' index (readNumber 16 4 65536 true) text with
      | none => exact Reads.refl text
      | some read =>
        obtain ⟨group, rest⟩ := read
        have hread : Reads text rest :=
          reads_readSeparator hcolon (fun h => reads_readNumber (le_refl _) h) hgroup
        exact hread.trans (ih (index + 1) rest)

theorem reads_readIpv6 {groups : List ℕ} (h : readIpv6 text = some (groups, rest)) :
    Reads text rest := by
  have hhead := reads_readGroups 8 0 text
  unfold readIpv6 at h
  generalize readGroups 8 0 text = read at h hhead
  obtain ⟨head, headIpv4, middle⟩ := read
  dsimp only at h hhead
  split_ifs at h
  · cases h
    exact hhead
  · split at h
    · next tail =>
      have htail := reads_readGroups (8 - (head.length + 1)) 0 tail
      generalize readGroups (8 - (head.length + 1)) 0 tail = read at h htail
      cases h
      exact hhead.trans ((htail.cons (by decide)).cons (by decide))
    · exact nomatch h

/-- **An address is made of the characters of addresses.** -/
theorem isAddressChar_of_fromStr {groups : List ℕ} (h : fromStr text = some groups) :
    ∀ character ∈ text, isAddressChar character = true := by
  unfold fromStr at h
  split at h
  · next read hread =>
    obtain ⟨front, rfl, hfront⟩ := reads_readIpv6 hread
    rwa [List.append_nil]
  · exact nomatch h

theorem readSeparator_colon {α : Type} {index : ℕ} {inner : List Char → Option (α × List Char)}
    (hindex : index ≠ 0) (h : ':' ∉ text) : readSeparator ':' index inner text = none := by
  cases text with
  | nil => exact if_neg hindex
  | cons character text =>
    have hne : character ≠ ':' := fun heq => h (heq ▸ List.mem_cons_self)
    show (if index = 0 then _ else if character = ':' then _ else _) = none
    rw [if_neg hindex, if_neg hne]

/-- Without a colon, no group is read behind another one. -/
theorem readGroups_colon {left index : ℕ} (hindex : index ≠ 0) (h : ':' ∉ text) :
    readGroups left index text = ([], false, text) := by
  cases left with
  | zero => rfl
  | succ left =>
    rw [readGroups, readSeparator_colon hindex h, readSeparator_colon hindex h, ite_self]

/-- **An address has a colon.** -/
theorem fromStr_eq_none (h : ':' ∉ text) : fromStr text = none := by
  have hgroups := reads_readGroups 8 0 text
  have hrest : ':' ∉ (readGroups 8 0 text).2.2 := by
    obtain ⟨front, htext, -⟩ := hgroups
    exact fun hmem => h (htext ▸ List.mem_append_right front hmem)
  have hhead : (readGroups 8 0 text).1.length < 8 := by
    rw [readGroups]
    cases if 0 < 7 then readSeparator ':' 0 readIpv4 text else none with
    | some read => exact (by decide : 2 < 8)
    | none =>
      dsimp only
      cases hgroup : readSeparator ':' 0 (readNumber 16 4 65536 true) text with
      | none => exact (by decide : 0 < 8)
      | some read =>
        obtain ⟨group, rest⟩ := read
        obtain ⟨front, rfl, -⟩ : Reads text rest :=
          reads_readSeparator (by decide) (fun h => reads_readNumber (le_refl _) h) hgroup
        dsimp only
        rw [readGroups_colon (by decide) fun hmem => h (List.mem_append_right front hmem)]
        exact (by decide : 1 < 8)
  unfold fromStr readIpv6
  generalize readGroups 8 0 text = read at hrest hhead
  obtain ⟨head, headIpv4, rest⟩ := read
  dsimp only at hrest hhead ⊢
  rw [if_neg (by omega)]
  cases headIpv4 with
  | true => rfl
  | false =>
    rw [if_neg Bool.false_ne_true]
    split
    · next heq =>
      -- the rest would have to go on with two colons
      split at heq
      · exact absurd List.mem_cons_self hrest
      · exact nomatch heq
    · rfl

end Ipv6
