import EzvizBridge.Alarms.Model
import EzvizBridge.Lib.Words
import Mathlib.Data.String.Basic

/-!
# What is logged of an error

`redact_detail` and `diagnostic_detail` of `error.rs`. The words of a detail are joined by single
spaces, those with `://` in them are replaced, and what is longer than 160 bytes is cut off at the
last boundary between two characters, with three dots behind it.

What `reqwest::Error` tells about itself is the parameter `kind`.
-/

namespace EzvizBridge

namespace Errors

open Alarms (isWhitespace)
open Words
  (words join Proper Tidy proper_words proper_of_all free_of_any tidy_join words_join infix_join
    infix_append_cons)

def maxLoggedDetail : ℕ := 160

/-- The mark of a URL. -/
def urlMark : List Char := [':', '/', '/']

/-- What stands for the rest of a text. -/
def dots : List Char := ['.', '.', '.']

def isCharBoundary (text : List Char) (index : ℕ) : Bool :=
  text.inits.any fun front => String.utf8Len front = index

/-- The loop that moves the end down to a boundary. -/
def boundaryBelow (text : List Char) : ℕ → ℕ
  | 0 => 0
  | index + 1 => if isCharBoundary text (index + 1) then index + 1 else boundaryBelow text index

/-- `String::truncate`, at a boundary. -/
def truncate : ℕ → List Char → List Char
  | _, [] => []
  | index, character :: text =>
    if character.utf8Size ≤ index then
      character :: truncate (index - character.utf8Size) text else []

/-- A word with a URL in it is not shown. -/
def redactWord (word : List Char) : List Char := if urlMark <:+: word then "[url]".toList else word

/-- The words of a detail, without URLs. -/
def redacted (detail : String) : List (List Char) :=
  (words isWhitespace detail.toList).map redactWord

/-- `redact_detail`. -/
def redactDetail (detail : String) : String :=
  let text := join ' ' (redacted detail)
  String.ofList
    (if String.utf8Len text > maxLoggedDetail then
      truncate (boundaryBelow text maxLoggedDetail) text ++ dots
      else text)

/-- What a `reqwest::Error` is about. -/
inductive HttpKind
  | timeout
  | connect
  | redirect
  | body
  | other
  deriving DecidableEq, Repr

/-- `BridgeError::diagnostic_detail`. -/
def diagnosticDetail (kind : String → HttpKind) : BridgeError → String
  | .configuration detail | .capacity detail | .recording detail | .upstream detail => detail
  | .keyRejected => "verification code rejected"
  | .reauthRequired => "EZVIZ session must be renewed"
  | .sessionExpired => "EZVIZ refused a freshly refreshed session"
  | .timeout => "upstream deadline exceeded"
  | .invalidCredentials => "vendor credentials were rejected"
  | .invalidOtp => "verification code was rejected"
  | .enrollmentBusy => "another enrollment is active"
  | .enrollmentExpired => "enrollment expired or was consumed"
  | .cameraNotFound => "camera not found"
  | .cameraOffline => "camera offline"
  | .sdNoRecording => "no microSD recording in the requested interval"
  | .unsupportedMedia => "requested media representation is unavailable"
  | .recordingActive => "recording active"
  | .upstreamUnavailable => "upstream media unavailable"
  | .io _ => "I/O failure"
  | .http error =>
    match kind error with
    | .timeout => "HTTP timeout"
    | .connect => "HTTP connection failure"
    | .redirect => "HTTP redirect failure"
    | .body => "HTTP body failure"
    | .other => "HTTP transport failure"
  | .json _ => "JSON decoding failure"
  | .task _ => "task failure"

def loggedDetail (kind : String → HttpKind) (error : BridgeError) : String :=
  redactDetail (diagnosticDetail kind error)

/-! ### The cut -/

section Cut

variable {text front rest : List Char} {index : ℕ}

/-- A boundary is where some characters end. -/
theorem isCharBoundary_iff :
    isCharBoundary text index = true ↔ ∃ front rest, text = front ++ rest ∧
      String.utf8Len front = index := by
  rw [isCharBoundary, List.any_eq_true]
  constructor
  · rintro ⟨front, hfront, hlength⟩
    obtain ⟨rest, rfl⟩ := (List.mem_inits _ _).mp hfront
    exact ⟨front, rest, rfl, of_decide_eq_true hlength⟩
  · rintro ⟨front, rest, rfl, hlength⟩
    exact ⟨front, (List.mem_inits _ _).mpr (List.prefix_append _ _), decide_eq_true hlength⟩

/-- The end is a boundary, and none is between it and the limit. -/
theorem boundaryBelow_spec (text : List Char) (limit : ℕ) :
    boundaryBelow text limit ≤ limit ∧ isCharBoundary text (boundaryBelow text limit) = true ∧
      ∀ index, boundaryBelow text limit < index → index ≤ limit →
        isCharBoundary text index = false := by
  -- on the limit
  induction limit with
  | zero =>
    refine ⟨Nat.le_refl _, isCharBoundary_iff.mpr ⟨[], text, rfl, rfl⟩, fun index hlt hle => ?_⟩
    exact absurd hlt (Nat.not_lt.mpr hle)
  | succ limit ih =>
    obtain ⟨hle, hboundary, hnone⟩ := ih
    rw [boundaryBelow]
    split
    · next hself =>
        exact ⟨Nat.le_refl _, hself, fun index hlt hle => absurd hlt (Nat.not_lt.mpr hle)⟩
    · next hself =>
      refine ⟨Nat.le_succ_of_le hle, hboundary, fun index hlt hindex => ?_⟩
      -- an index below, or the limit itself
      rcases Nat.le_succ_iff.mp hindex with hbelow | rfl
      · exact hnone index hlt hbelow
      · exact Bool.eq_false_of_not_eq_true hself

/-- A text that is cut at a boundary. -/
theorem truncate_append (front rest : List Char) :
    truncate (String.utf8Len front) (front ++ rest) = front := by
  induction front with
  | nil =>
    cases rest with
    | nil => rfl
    | cons character rest => exact if_neg (Nat.not_le.mpr character.utf8Size_pos)
  | cons character front ih =>
    rw [List.cons_append, truncate, String.utf8Len_cons, if_pos (Nat.le_add_left _ _),
      Nat.add_sub_cancel, ih]

/-- `front` is all of `text` that fits. -/
structure Fits (text front : List Char) : Prop where
  isPrefix : front <+: text
  size_le : String.utf8Len front ≤ maxLoggedDetail
  most : ∀ longer, longer <+: text → front.length < longer.length →
    maxLoggedDetail < String.utf8Len longer

/-- As much of the text as fits. -/
theorem fits_truncate (text : List Char) :
    Fits text (truncate (boundaryBelow text maxLoggedDetail) text) := by
  obtain ⟨hle, hboundary, hnone⟩ := boundaryBelow_spec text maxLoggedDetail
  obtain ⟨front, rest, htext, hlength⟩ := isCharBoundary_iff.mp hboundary
  rw [← hlength] at hle hnone ⊢
  rw [htext, truncate_append]
  refine ⟨List.prefix_append _ _, hle, fun longer hlonger hlt => ?_⟩
  obtain ⟨behind, hbehind⟩ := hlonger
  by_contra hfits
  -- a longer part that fits would end at a boundary
  obtain ⟨more, rfl⟩ : front <+: longer :=
    List.prefix_of_prefix_length_le (List.prefix_append front rest) ⟨behind, hbehind⟩ hlt.le
  have hmore : 0 < String.utf8Len more := by
    cases more with
    | nil => simp at hlt
    | cons character more =>
      rw [String.utf8Len_cons]
      exact Nat.lt_of_lt_of_le character.utf8Size_pos (Nat.le_add_left _ _)
  have hsum : String.utf8Len (front ++ more) = String.utf8Len front + String.utf8Len more :=
    String.utf8Len_append _ _
  have habove := hnone (String.utf8Len (front ++ more)) (by omega) (Nat.le_of_not_lt hfits)
  rw [Bool.eq_false_iff] at habove
  exact habove (isCharBoundary_iff.mpr ⟨_, behind, by rw [htext, hbehind], rfl⟩)

end Cut

/-! ### What is left -/

/-- The words are words after the redaction. -/
theorem proper_redacted (detail : String) : Proper isWhitespace (redacted detail) := by
  intro word hword
  obtain ⟨original, horiginal, rfl⟩ := List.mem_map.mp hword
  unfold redactWord
  split
  · exact ⟨by decide, free_of_any rfl⟩
  · exact proper_words detail.toList original horiginal

/-- No word has a URL in it. -/
theorem unmarked_redacted (detail : String) : ∀ word ∈ redacted detail, ¬urlMark <:+: word := by
  intro word hword
  obtain ⟨original, -, rfl⟩ := List.mem_map.mp hword
  unfold redactWord
  split
  · decide
  · next hplain => exact hplain

theorem unmarked_join (detail : String) : ¬urlMark <:+: join ' ' (redacted detail) := by
  intro h
  obtain ⟨word, hword, hmark⟩ := infix_join (by decide) (by decide) h
  exact unmarked_redacted detail word hword hmark

/-- What does not contain a dot is not made by the dots. -/
theorem infix_of_dots {part front : List Char} (hdot : '.' ∉ part) (hpart : part ≠ [])
    (h : part <:+: front ++ dots) : part <:+: front := by
  rcases infix_append_cons hdot h with hfront | hdots
  · exact hfront
  · obtain ⟨first, rest, rfl⟩ := List.exists_cons_of_ne_nil hpart
    have hmem : first ∈ ['.', '.'] := hdots.subset List.mem_cons_self
    have hfirst : first = '.' := by simpa using hmem
    exact absurd (hfirst ▸ List.mem_cons_self) hdot

/-- The dots behind a part of a tidy text. -/
theorem tidy_dots {text front : List Char} (h : Tidy isWhitespace ' ' text)
    (hfront : front <+: text) :
    Tidy isWhitespace ' ' (front ++ dots) where
  only := by
    rw [List.forall_mem_append]
    refine ⟨fun a ha => h.only a (hfront.subset ha), fun a ha hspace => ?_⟩
    have hfree : ∀ a ∈ dots, isWhitespace a = false := free_of_any rfl
    rw [hfree a ha] at hspace
    cases hspace
  single hspaces := h.single ((infix_of_dots (by decide) (by decide) hspaces).trans hfront.isInfix)
  head hhead := by
    cases front with
    | nil => exact absurd hhead (by decide)
    | cons first front =>
      obtain ⟨rest, rfl⟩ := hfront
      exact h.head hhead
  last hlast := by
    rw [List.getLast?_append] at hlast
    have hdot : some '.' = some ' ' := hlast
    exact absurd hdot (by decide)

/-- The two details have the same words, but for words with a URL in them. -/
def SameButUrls (detail detail' : String) : Prop :=
  List.Forall₂ (fun word word' => word = word' ∨ urlMark <:+: word ∧ urlMark <:+: word')
    (words isWhitespace detail.toList) (words isWhitespace detail'.toList)

/-- Details that differ in their URLs only leave the same text. -/
theorem SameButUrls.redactDetail_eq {detail detail' : String} (h : SameButUrls detail detail') :
    redactDetail detail = redactDetail detail' := by
  have hredacted : redacted detail = redacted detail' := by
    rw [redacted, redacted]
    rw [SameButUrls] at h
    generalize words isWhitespace detail.toList = list at h ⊢
    generalize words isWhitespace detail'.toList = list' at h ⊢
    -- word by word
    induction h with
    | nil => rfl
    | cons hword _ ih =>
      rw [List.map_cons, List.map_cons, ih]
      rcases hword with rfl | ⟨hurl, hurl'⟩
      · rfl
      · rw [redactWord, redactWord, if_pos hurl, if_pos hurl']
  rw [redactDetail, redactDetail, hredacted]

/-- What is logged: all of the redacted text, or as much of it as fits, with dots. -/
def Logged (detail : String) (logged : List Char) : Prop :=
  (String.utf8Len (join ' ' (redacted detail)) ≤ maxLoggedDetail ∧
    logged = join ' ' (redacted detail)) ∨
    maxLoggedDetail < String.utf8Len (join ' ' (redacted detail)) ∧
      ∃ front, Fits (join ' ' (redacted detail)) front ∧ logged = front ++ dots

theorem logged_redactDetail (detail : String) : Logged detail (redactDetail detail).toList := by
  rw [redactDetail, String.toList_ofList]
  split
  · next hlong => exact .inr ⟨hlong, _, fits_truncate _, rfl⟩
  · next hshort => exact .inl ⟨Nat.le_of_not_lt hshort, rfl⟩

/-- What is logged has no URL in it. -/
theorem Logged.unmarked {detail : String} {logged : List Char} (h : Logged detail logged) :
    ¬urlMark <:+: logged := by
  rcases h with ⟨-, rfl⟩ | ⟨-, front, hfits, rfl⟩
  · exact unmarked_join detail
  · intro hmark
    exact unmarked_join detail
      ((infix_of_dots (by decide) (by decide) hmark).trans hfits.isPrefix.isInfix)

/-- What is logged is tidy. -/
theorem Logged.tidy {detail : String} {logged : List Char} (h : Logged detail logged) :
    Tidy isWhitespace ' ' logged := by
  have htidy : Tidy isWhitespace ' ' (join ' ' (redacted detail)) :=
    tidy_join (by decide) (proper_redacted detail)
  rcases h with ⟨-, rfl⟩ | ⟨-, front, hfits, rfl⟩
  · exact htidy
  · exact tidy_dots htidy hfits.isPrefix

/-- What is logged is within the bound. -/
theorem Logged.size_le {detail : String} {logged : List Char} (h : Logged detail logged) :
    String.utf8Len logged ≤ maxLoggedDetail + 3 := by
  rcases h with ⟨hsize, rfl⟩ | ⟨-, front, hfits, rfl⟩
  · exact Nat.le_add_right_of_le hsize
  · have hdots : String.utf8Len dots = 3 := by decide
    rw [String.utf8Len_append, hdots]
    exact Nat.add_le_add_right hfits.size_le 3

/-- **What is logged of an error**: words with single spaces between them, 163 bytes at most, no
URL, and nothing that depends on a URL. As much is logged as fits, and a text without URLs that fits
stays as it is. -/
theorem logged_details (kind : String → HttpKind) :
    (∀ error, Logged (diagnosticDetail kind error) (loggedDetail kind error).toList ∧
      ¬urlMark <:+: (loggedDetail kind error).toList ∧
        (loggedDetail kind error).utf8ByteSize ≤ 163 ∧
      Tidy isWhitespace ' ' (loggedDetail kind error).toList) ∧
    (∀ error error', SameButUrls (diagnosticDetail kind error) (diagnosticDetail kind error') →
      loggedDetail kind error = loggedDetail kind error') ∧
    ∀ list, Proper isWhitespace list → (∀ word ∈ list, ¬urlMark <:+: word) →
      String.utf8Len (join ' ' list) ≤ maxLoggedDetail →
        loggedDetail kind (.upstream (String.ofList (join ' ' list))) =
          String.ofList (join ' ' list) := by
  refine ⟨fun error => ?_, fun error error' h => h.redactDetail_eq,
    fun list hproper hplain hsize => ?_⟩
  -- every error, and then a detail that is logged as it is
  · have h := logged_redactDetail (diagnosticDetail kind error)
    have hsize := h.size_le
    rw [← String.utf8ByteSize_ofList, String.ofList_toList] at hsize
    exact ⟨h, h.unmarked, hsize, h.tidy⟩
  · have hwords : redacted (String.ofList (join ' ' list)) = list := by
      rw [redacted, String.toList_ofList, words_join (by decide) hproper]
      refine (List.map_congr_left fun word hword => ?_).trans list.map_id
      exact if_neg (hplain word hword)
    show redactDetail (String.ofList (join ' ' list)) = _
    rw [redactDetail]
    simp only [hwords]
    rw [if_neg (Nat.not_lt.mpr hsize)]

/-- A URL with a signature, and a detail without a URL. -/
theorem logged_details_sample :
    let kind : String → HttpKind := fun _ => .other
    loggedDetail kind (.upstream "at https://a/p?Signature=secret now") =
        loggedDetail kind (.upstream "at\thttps://b now") ∧
      loggedDetail kind (.upstream "EZVIZ API returned HTTP 502") =
        "EZVIZ API returned HTTP 502" := by
  intro kind
  obtain ⟨-, hsame, hplain⟩ := logged_details kind
  have hwords : SameButUrls "at https://a/p?Signature=secret now" "at\thttps://b now" := by
    unfold SameButUrls
    decide +kernel
  refine ⟨hsame _ _ hwords, ?_⟩
  exact hplain ["EZVIZ".toList, "API".toList, "returned".toList, "HTTP".toList, "502".toList]
    (proper_of_all rfl) (by decide) (by decide)

end Errors

end EzvizBridge
