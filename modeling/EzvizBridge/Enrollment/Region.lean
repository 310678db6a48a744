import EzvizBridge.Controls.Model
import Mathlib.Data.List.Infix
import Mathlib.Data.String.Basic

/-!
# Regions

`normalize_region` of `transport/enroll_api.rs`: a region code or a domain becomes the host that
requests go to. What it accepts is an EZVIZ host (`isEzvizHost_of_normalizeRegion`), which it leaves
as it is (`normalizeRegion_idempotent`); a URL that has such a host in front of its path goes to
that host and to no other (`authority_of_isEzvizHost`).
-/

namespace EzvizBridge

namespace EnrollApi

open Controls (trim trim_eq_self)
open Alarms (isWhitespace)

def ezvizDomain : String := ".ezvizlife.com"

def ezvizDomains : List String := [ezvizDomain, ".ezvizru.com"]

/-- `trim_start_matches("https://")`. -/
def trimScheme : List Char → List Char
  | 'h' :: 't' :: 't' :: 'p' :: 's' :: ':' :: '/' :: '/' :: rest => trimScheme rest
  | text => text

/-- `trim_end_matches('/')`. -/
def trimSlashes (text : List Char) : List Char :=
  (text.reverse.dropWhile fun character => character = '/').reverse

def stripSuffix (text suffix : List Char) : Option (List Char) :=
  if suffix <:+ text then some (text.take (text.length - suffix.length)) else none

/-- The characters of a host; of other characters no byte is one of these. -/
def isPlain (character : Char) : Bool :=
  ('a' ≤ character ∧ character ≤ 'z') ∨ ('0' ≤ character ∧ character ≤ '9') ∨
    character = '-' ∨ character = '.'

/-- `label` in `normalize_region`. -/
def labelOf (host : List Char) : List Char :=
  (ezvizDomains.findSome? fun domain => stripSuffix host domain.toList).getD []

/-- `host` in `normalize_region`. -/
def regionHost (value : List Char) : List Char :=
  if '.' ∈ value then (trimSlashes (trimScheme value)).map Char.toLower
  else "apii".toList ++ value.map Char.toLower ++ ezvizDomain.toList

/-- `normalize_region`. -/
def normalizeRegion (value : String) : Except BridgeError String :=
  let host := regionHost (trim value)
  if host.all isPlain ∧ labelOf host ≠ [] ∧ (labelOf host).head? ≠ some '.' ∧
      ¬['.', '.'] <:+: labelOf host then
    .ok (String.ofList host)
  else .error (.upstream "EZVIZ API domain is not an EZVIZ host")

example : (["eu", " https://apiiSA.ezvizlife.com/", "apiirus.ezvizru.com"].map normalizeRegion) =
    [.ok "apiieu.ezvizlife.com", .ok "apiisa.ezvizlife.com", .ok "apiirus.ezvizru.com"] := by
  decide +kernel

/-! ### EZVIZ hosts -/

/-- A host of EZVIZ: plain characters, with something in front of an EZVIZ domain that does not
start with a dot. -/
structure IsEzvizHost (host : String) : Prop where
  plain : ∀ character ∈ host.toList, isPlain character = true
  domain : ∃ domain ∈ ezvizDomains, ∃ label : List Char, host.toList = label ++ domain.toList ∧
    label ≠ [] ∧ label.head? ≠ some '.'

variable {value host : String} {text : List Char}

/-- What is in front of an EZVIZ domain. -/
theorem exists_domain_of_labelOf (h : labelOf text ≠ []) :
    ∃ domain ∈ ezvizDomains, text = labelOf text ++ domain.toList := by
  rw [labelOf] at h ⊢
  cases hfound : ezvizDomains.findSome? fun domain => stripSuffix text domain.toList with
  | none =>
    rw [hfound] at h
    exact absurd rfl h
  | some label =>
    obtain ⟨domain, hdomain, hstrip⟩ := List.exists_of_findSome?_eq_some hfound
    refine ⟨domain, hdomain, ?_⟩
    unfold stripSuffix at hstrip
    split_ifs at hstrip with hsuffix
    cases hstrip
    rw [Option.getD_some]
    obtain ⟨front, rfl⟩ := hsuffix
    rw [List.length_append, Nat.add_sub_cancel, List.take_left]

/-- What is accepted, and when. -/
theorem normalizeRegion_eq_ok : normalizeRegion value = .ok host ↔
    host.toList = regionHost (trim value) ∧ host.toList.all isPlain = true ∧
      labelOf host.toList ≠ [] ∧
      (labelOf host.toList).head? ≠ some '.' ∧ ¬['.', '.'] <:+: labelOf host.toList := by
  unfold normalizeRegion
  constructor
  · intro h
    dsimp only at h
    split_ifs at h with hchecks
    obtain rfl := Except.ok.inj h
    rw [String.toList_ofList]
    exact ⟨rfl, hchecks⟩
  · rintro ⟨hhost, hchecks⟩
    rw [hhost] at hchecks
    dsimp only
    rw [if_pos hchecks, ← hhost, String.ofList_toList]

theorem isEzvizHost_of_normalizeRegion (h : normalizeRegion value = .ok host) :
    IsEzvizHost host := by
  obtain ⟨-, hplain, hlabel, hdot, -⟩ := normalizeRegion_eq_ok.mp h
  obtain ⟨domain, hdomain, htext⟩ := exists_domain_of_labelOf hlabel
  exact ⟨List.all_eq_true.mp hplain, domain, hdomain, labelOf host.toList, htext, hlabel, hdot⟩

/-! ### Plain texts stay as they are -/

theorem ne_of_isPlain {character other : Char} (h : isPlain character = true)
    (hother : isPlain other = false) : character ≠ other := by
  rintro rfl
  exact nomatch h.symm.trans hother

/-- Plain characters are ASCII, so that a property of them can be looked up. -/
theorem forall_isPlain {p : Char → Prop}
    (h : ∀ code < 128, isPlain (Char.ofNat code) = true → p (Char.ofNat code)) {character : Char}
    (hplain : isPlain character = true) : p character := by
  have hcode : character.toNat < 128 := by
    rw [isPlain, decide_eq_true_eq] at hplain
    obtain ⟨-, hle⟩ | ⟨-, hle⟩ | rfl | rfl := hplain
    · exact Nat.lt_of_le_of_lt (UInt32.le_iff_toNat_le.mp hle) (by decide)
    · exact Nat.lt_of_le_of_lt (UInt32.le_iff_toNat_le.mp hle) (by decide)
    · decide
    · decide
  have hchar : Char.ofNat character.toNat = character := Char.ofNat_toNat character
  exact hchar ▸ h character.toNat hcode (hchar.symm ▸ hplain)

theorem isWhitespace_of_isPlain {character : Char} (h : isPlain character = true) :
    isWhitespace character = false :=
  forall_isPlain (p := fun character => isWhitespace character = false) (by decide) h

theorem toLower_of_isPlain {character : Char} (h : isPlain character = true) :
    character.toLower = character :=
  forall_isPlain (p := fun character => character.toLower = character) (by decide) h

theorem trimScheme_of_notMem (h : ':' ∉ text) : trimScheme text = text := by
  unfold trimScheme
  split
  · exact absurd (by simp) h
  · rfl

theorem trimSlashes_of_notMem (h : '/' ∉ text) : trimSlashes text = text := by
  have hlast : ∀ character ∈ text.reverse, decide (character = '/') = false := by
    intro character hmem
    exact decide_eq_false fun heq => h (heq ▸ List.mem_reverse.mp hmem)
  have hdrop : (text.reverse.dropWhile fun character => decide (character = '/')) =
      text.reverse := by
    cases hreverse : text.reverse with
    | nil => rfl
    | cons character rest =>
      rw [List.dropWhile_cons, hlast character (hreverse ▸ List.mem_cons_self),
        if_neg Bool.false_ne_true]
  rw [trimSlashes, hdrop, List.reverse_reverse]

/-- An EZVIZ host is taken as it is. -/
theorem regionHost_of_isEzvizHost (h : IsEzvizHost host) :
    regionHost (trim host) = host.toList := by
  have hcolon : ':' ∉ host.toList := fun hmem => ne_of_isPlain (h.plain _ hmem) (by decide) rfl
  have hslash : '/' ∉ host.toList := fun hmem => ne_of_isPlain (h.plain _ hmem) (by decide) rfl
  have hdot : '.' ∈ host.toList := by
    obtain ⟨domain, hdomain, label, htext, -⟩ := h.domain
    rw [htext]
    refine List.mem_append_right label ?_
    have hdots : ∀ domain ∈ ezvizDomains, '.' ∈ domain.toList := by decide
    exact hdots domain hdomain
  have htrim : trim host = host.toList :=
    trim_eq_self fun character hmem => isWhitespace_of_isPlain (h.plain character hmem)
  rw [htrim, regionHost, if_pos hdot, trimScheme_of_notMem hcolon, trimSlashes_of_notMem hslash]
  calc host.toList.map Char.toLower = host.toList.map id :=
        List.map_congr_left fun character hmem => toLower_of_isPlain (h.plain character hmem)
    _ = host.toList := List.map_id _

theorem bind_eq_self {ε α : Type} {result : Except ε α} {next : α → Except ε α}
    (h : ∀ a, result = .ok a → next a = .ok a) : result.bind next = result := by
  cases result with
  | error error => rfl
  | ok a => exact h a rfl

/-- **What has been accepted is accepted as it is.** -/
theorem normalizeRegion_of_ok (h : normalizeRegion value = .ok host) :
    normalizeRegion host = .ok host := by
  obtain ⟨-, hchecks⟩ := normalizeRegion_eq_ok.mp h
  rw [normalizeRegion_eq_ok, regionHost_of_isEzvizHost (isEzvizHost_of_normalizeRegion h)]
  exact ⟨rfl, hchecks⟩

theorem normalizeRegion_idempotent (value : String) :
    (normalizeRegion value).bind normalizeRegion = normalizeRegion value := by
  apply bind_eq_self
  intro host h
  exact normalizeRegion_of_ok h

/-! ### Where a URL goes -/

/-- The characters that end the authority of a URL. -/
def endsAuthority (character : Char) : Bool :=
  character ∈ ['/', '?', '#', Char.ofNat 0x5c]

/-- The authority of an `https` URL: all between the slashes, a user part and a port included. -/
def authority (url : String) : Option String :=
  if "https://".toList <+: url.toList then
    some (String.ofList ((url.toList.drop "https://".length).takeWhile fun character =>
      !endsAuthority character))
  else none

theorem authority_of_isEzvizHost (h : IsEzvizHost host) {path : String}
    (hpath : path.toList.head? = some '/') :
    authority ("https://" ++ host ++ path) = some host := by
  have htext : ("https://" ++ host ++ path).toList =
      "https://".toList ++ (host.toList ++ path.toList) := by
    rw [String.toList_append, String.toList_append, List.append_assoc]
  obtain ⟨rest, hrest⟩ : ∃ rest, path.toList = '/' :: rest := by
    cases hcase : path.toList with
    | nil => exact nomatch hcase ▸ hpath
    | cons first rest =>
      rw [hcase] at hpath
      exact ⟨rest, congrArg (· :: rest) (Option.some.inj hpath)⟩
  have hinside : ∀ character ∈ host.toList, (!endsAuthority character) = true := by
    intro character hmem
    exact forall_isPlain (p := fun character => (!endsAuthority character) = true) (by decide)
      (h.plain character hmem)
  have hdrop : ("https://".toList ++ (host.toList ++ path.toList)).drop "https://".length =
      host.toList ++ path.toList := List.drop_left
  rw [authority, htext, if_pos (List.prefix_append _ _), hdrop, hrest,
    List.takeWhile_append_of_pos hinside,
    List.takeWhile_cons_of_neg (p := fun character => !endsAuthority character) (by decide),
    List.append_nil, String.ofList_toList]

end EnrollApi

end EzvizBridge
