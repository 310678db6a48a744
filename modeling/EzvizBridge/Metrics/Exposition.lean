import EzvizBridge.Lib.Decimal
import EzvizBridge.Lib.Escaping
import EzvizBridge.Lib.SortedMap
import EzvizBridge.Lib.Words
import Mathlib.Data.Prod.Lex
import Mathlib.Data.String.Basic

/-!
# The metrics and their text

`metrics.rs`: counters and gauges of the cameras, and counters with labels of their own, which are
kept under their rendered labels. `render` writes a line for each of them.

The names of metrics and of labels are static in the source. A gauge is a floating-point number; its
text is the parameter `display`.
-/

namespace EzvizBridge

namespace Metrics

open Escaping (Scheme split_where escape_split)
open SortedMap (upsert Sorted get_upsert sorted_nil)

/-- The largest counter. -/
def u64Max : ℕ := 2 ^ 64 - 1

/-- A metric and a camera, or a metric and its rendered labels. -/
abbrev Key := String ×ₗ String

/-- `MetricValues`. -/
structure MetricValues (φ : Type) where
  counters : List (Key × ℕ) := []
  gauges : List (Key × φ) := []
  labeled : List (Key × ℕ) := []

/-- `str::replace` of one character. -/
def replace (old : Char) (new text : List Char) : List Char :=
  text.flatMap fun character => if character = old then new else [character]

def escapeLabel (value : List Char) : List Char :=
  replace '\n' ['\\', 'n'] (replace '"' ['\\', '"'] (replace '\\' ['\\', '\\'] value))

/-- `key="value"`. -/
def renderLabel (label : String × String) : List Char :=
  label.1.toList ++ '=' :: '"' :: (escapeLabel label.2.toList ++ ['"'])

/-- The labels of `increment_labeled`. -/
def renderLabels (labels : List (String × String)) :
    List Char := Words.join ',' (labels.map renderLabel)

variable {φ : Type}

namespace MetricValues

variable (self : MetricValues φ)

/-- `Metrics::add`. -/
def add (name camera : String) (amount : ℕ) : MetricValues φ :=
  { self with
    counters := upsert (toLex (name, camera))
      (fun old => min (old.getD 0 + amount) u64Max) self.counters }

def increment (name camera : String) : MetricValues φ := self.add name camera 1

/-- `Metrics::increment_labeled`. -/
def incrementLabeled (name : String) (labels : List (String × String)) : MetricValues φ :=
  let rendered := String.ofList (renderLabels labels)
  { self with
    labeled := upsert (toLex (name, rendered))
      (fun old => min (old.getD 0 + 1) u64Max) self.labeled }

def gauge (name camera : String) (value : φ) : MetricValues φ :=
  { self with gauges := upsert (toLex (name, camera)) (fun _ => value) self.gauges }

end MetricValues

/-- What the names of the metrics begin with. -/
def namespacePrefix : List Char := "ezviz_bridge_".toList

/-- A line: the name, what is between the braces, and the value. -/
def renderLine (name labels value : List Char) : List Char :=
  namespacePrefix ++ name ++ (if labels = [] then [] else '{' :: (labels ++ ['}'])) ++
    ' ' :: (value ++ ['\n'])

/-- `camera="…"`. -/
def cameraLabel (camera : String) : List Char := renderLabel ("camera", camera)

/-- `Metrics::render`. -/
def render (display : φ → String) (self : MetricValues φ) : List Char :=
  (self.counters.flatMap fun entry =>
    renderLine (ofLex entry.1).1.toList (cameraLabel (ofLex entry.1).2)
      (toString entry.2).toList) ++
  (self.labeled.flatMap fun entry =>
    renderLine (ofLex entry.1).1.toList (ofLex entry.1).2.toList (toString entry.2).toList) ++
  self.gauges.flatMap fun entry =>
    renderLine (ofLex entry.1).1.toList (cameraLabel (ofLex entry.1).2) (display entry.2).toList

/-! ### Samples -/

/-- What a line says. -/
structure Sample where
  name : String
  labels : List (String × String)
  value : String
  deriving DecidableEq, Repr

def Sample.line (self : Sample) : List Char :=
  renderLine self.name.toList (renderLabels self.labels) self.value.toList

/-- A character of a name. -/
def isNameChar (character : Char) : Bool := character.isAlphanum || character = '_'

def PlainName (name : String) : Prop := ∀ character ∈ name.toList, isNameChar character = true

/-- Names are plain, and a value is on one line. -/
structure Sample.WellFormed (sample : Sample) : Prop where
  name : PlainName sample.name
  labels : ∀ label ∈ sample.labels, PlainName label.1
  value : '\n' ∉ sample.value.toList

/-- The text format of the labels. -/
def labelScheme : Scheme Char where
  mark := '\\'
  code
    | '\\' => some '\\'
    | '"' => some '"'
    | '\n' => some 'n'
    | _ => none
  decode
    | '\\' => some '\\'
    | '"' => some '"'
    | 'n' => some '\n'
    | _ => none

section Format

theorem lawful_labelScheme : labelScheme.Lawful where
  decode_code a b h := by
    simp only [labelScheme] at h
    split at h <;> cases h <;> rfl
  code_mark := by decide

theorem escapeLabel_eq (value : List Char) :
    escapeLabel value = Escaping.escape labelScheme value := by
  rw [escapeLabel, replace, replace, replace, List.flatMap_assoc, List.flatMap_assoc,
    Escaping.escape]
  congr 1
  funext character
  by_cases hmark : character = '\\'
  · subst hmark
    rfl
  · by_cases hquote : character = '"'
    · subst hquote
      rfl
    · by_cases hline : character = '\n'
      · subst hline
        rfl
      · have hcode : labelScheme.code character = none := by
          simp only [labelScheme]
        simp [hmark, hquote, hline, Escaping.escapeOne, hcode]

variable {label label' : String × String} {labels labels' : List (String × String)}
  {rest rest' : List Char}

/-- A label ends itself. -/
theorem renderLabel_split (h : PlainName label.1) (h' : PlainName label'.1)
    (heq : renderLabel label ++ rest = renderLabel label' ++ rest') :
    label = label' ∧ rest = rest' := by
  simp only [renderLabel, escapeLabel_eq, List.append_assoc, List.cons_append,
    List.nil_append] at heq
  obtain ⟨hkey, -, hbehind⟩ := split_where h h' (by decide) (by decide) heq
  have hquoted := (List.cons.inj hbehind).2
  obtain ⟨hvalue, hrest⟩ := escape_split lawful_labelScheme (by decide) (by decide) hquoted
  exact ⟨Prod.ext (String.toList_inj.mp hkey) (String.toList_inj.mp hvalue), hrest⟩

theorem renderLabels_ne_nil (h : labels ≠ []) : renderLabels labels ≠ [] := by
  obtain ⟨label, labels, rfl⟩ := List.exists_cons_of_ne_nil h
  have hlabel : renderLabel label ≠ [] :=
    List.append_ne_nil_of_right_ne_nil _ (List.cons_ne_nil _ _)
  by_cases hnil : labels = []
  · subst hnil
    rw [renderLabels, List.map_singleton, Words.join_singleton]
    exact hlabel
  · rw [renderLabels, List.map_cons, Words.join_cons (by simpa using hnil)]
    exact List.append_ne_nil_of_left_ne_nil hlabel _

/-- The labels end at the brace. -/
theorem renderLabels_split (h : ∀ label ∈ labels, PlainName label.1)
    (h' : ∀ label ∈ labels', PlainName label.1) (hne : labels ≠ []) (hne' : labels' ≠ [])
    (heq : renderLabels labels ++ '}' :: rest = renderLabels labels' ++ '}' :: rest') :
    labels = labels' ∧ rest = rest' := by
  induction labels generalizing labels' with
  | nil => exact absurd rfl hne
  | cons label labels ih =>
    obtain ⟨label', labels', rfl⟩ := List.exists_cons_of_ne_nil hne'
    obtain ⟨hlabel, hlabels⟩ := List.forall_mem_cons.mp h
    obtain ⟨hlabel', hlabels'⟩ := List.forall_mem_cons.mp h'
    -- what stands behind the first label
    have hfirst : ∀ (label : String × String) (labels : List (String × String)) (rest : List Char),
        renderLabels (label :: labels) ++ '}' :: rest = renderLabel label ++
          if labels = [] then '}' :: rest else ',' :: (renderLabels labels ++ '}' :: rest) := by
      intro label labels rest
      by_cases hnil : labels = []
      · subst hnil
        rw [renderLabels, List.map_singleton, Words.join_singleton, if_pos rfl]
      · rw [renderLabels, List.map_cons, Words.join_cons (by simpa using hnil), if_neg hnil,
          List.append_assoc]
        rfl
    rw [hfirst, hfirst] at heq
    obtain ⟨rfl, hbehind⟩ := renderLabel_split hlabel hlabel' heq
    by_cases hnil : labels = []
    · by_cases hnil' : labels' = []
      · rw [if_pos hnil, if_pos hnil'] at hbehind
        exact ⟨by rw [hnil, hnil'], (List.cons.inj hbehind).2⟩
      · rw [if_pos hnil, if_neg hnil'] at hbehind
        exact absurd (List.cons.inj hbehind).1 (by decide)
    · by_cases hnil' : labels' = []
      · rw [if_neg hnil, if_pos hnil'] at hbehind
        exact absurd (List.cons.inj hbehind).1 (by decide)
      · rw [if_neg hnil, if_neg hnil'] at hbehind
        obtain ⟨rfl, hrest⟩ := ih hlabels hlabels' hnil hnil' (List.cons.inj hbehind).2
        exact ⟨rfl, hrest⟩

/-- Two lists of labels are told apart by their texts. -/
theorem renderLabels_injective (h : ∀ label ∈ labels, PlainName label.1)
    (h' : ∀ label ∈ labels', PlainName label.1) (heq : renderLabels labels = renderLabels labels') :
    labels = labels' := by
  by_cases hnil : labels = []
  · by_contra hne
    rw [hnil] at heq hne
    exact renderLabels_ne_nil (Ne.symm hne) heq.symm
  · by_cases hnil' : labels' = []
    · rw [hnil'] at heq
      exact absurd heq (renderLabels_ne_nil hnil)
    · have hbrace : renderLabels labels ++ '}' :: [] = renderLabels labels' ++ '}' :: [] :=
        by rw [heq]
      exact (renderLabels_split h h' hnil hnil' hbrace).1

/-- **A line ends itself.** -/
theorem Sample.line_split {sample sample' : Sample} (h : sample.WellFormed)
    (h' : sample'.WellFormed) (heq : sample.line ++ rest = sample'.line ++ rest') :
    sample = sample' ∧ rest = rest' := by
  obtain ⟨name, labels, value⟩ := sample
  obtain ⟨name', labels', value'⟩ := sample'
  -- behind the name
  have hline : ∀ (name value : String) (labels : List (String × String)) (rest : List Char),
      (⟨name, labels, value⟩ : Sample).line ++ rest = namespacePrefix ++ (name.toList ++
        if labels = [] then ' ' :: (value.toList ++ '\n' :: rest)
        else '{' :: (renderLabels labels ++ '}' :: ' ' :: (value.toList ++ '\n' :: rest))) := by
    intro name value labels rest
    by_cases hnil : labels = []
    · subst hnil
      rw [if_pos rfl]
      show namespacePrefix ++ name.toList ++ [] ++ ' ' :: (value.toList ++ ['\n']) ++ rest = _
      simp only [List.append_assoc, List.cons_append, List.nil_append]
    · rw [Sample.line, renderLine, if_neg (renderLabels_ne_nil hnil), if_neg hnil]
      simp only [List.append_assoc, List.cons_append, List.nil_append]
  have hvalues : ∀ {rest rest' : List Char}, value.toList ++ '\n' :: rest =
      value'.toList ++ '\n' :: rest' →
      value = value' ∧ rest = rest' := by
    intro rest rest' hsame
    obtain ⟨hvalue, hrest⟩ := Decimal.split_at h.value h'.value hsame
    exact ⟨String.toList_inj.mp hvalue, hrest⟩
  rw [hline, hline] at heq
  have hnames := List.append_cancel_left heq
  by_cases hnil : labels = []
  · by_cases hnil' : labels' = []
    · rw [if_pos hnil, if_pos hnil'] at hnames
      obtain ⟨hname, -, hbehind⟩ := split_where h.name h'.name (by decide) (by decide) hnames
      obtain rfl : name = name' := String.toList_inj.mp hname
      obtain ⟨rfl, hrest⟩ := hvalues hbehind
      exact ⟨by rw [hnil, hnil'], hrest⟩
    · rw [if_pos hnil, if_neg hnil'] at hnames
      exact absurd (split_where h.name h'.name (by decide) (by decide) hnames).2.1 (by decide)
  · by_cases hnil' : labels' = []
    · rw [if_neg hnil, if_pos hnil'] at hnames
      exact absurd (split_where h.name h'.name (by decide) (by decide) hnames).2.1 (by decide)
    · rw [if_neg hnil, if_neg hnil'] at hnames
      obtain ⟨hname, -, hbehind⟩ := split_where h.name h'.name (by decide) (by decide) hnames
      obtain rfl : name = name' := String.toList_inj.mp hname
      obtain ⟨rfl, hspace⟩ := renderLabels_split h.labels h'.labels hnil hnil' hbehind
      obtain ⟨rfl, hrest⟩ := hvalues (List.cons.inj hspace).2
      exact ⟨rfl, hrest⟩

/-- A text is that of one list of samples. -/
theorem lines_injective {samples samples' : List Sample} (h : ∀ sample ∈ samples, sample.WellFormed)
    (h' : ∀ sample ∈ samples', sample.WellFormed)
    (heq : samples.flatMap Sample.line = samples'.flatMap Sample.line) : samples = samples' := by
  have hline : ∀ sample : Sample, sample.line ≠ [] := fun sample =>
    List.append_ne_nil_of_right_ne_nil _ (List.cons_ne_nil _ _)
  induction samples generalizing samples' with
  | nil =>
    cases samples' with
    | nil => rfl
    | cons sample' samples' =>
      rw [List.flatMap_nil, List.flatMap_cons] at heq
      exact absurd (List.append_eq_nil_iff.mp heq.symm).1 (hline sample')
  | cons sample samples ih =>
    cases samples' with
    | nil =>
      rw [List.flatMap_nil, List.flatMap_cons] at heq
      exact absurd (List.append_eq_nil_iff.mp heq).1 (hline sample)
    | cons sample' samples' =>
      obtain ⟨hsample, hsamples⟩ := List.forall_mem_cons.mp h
      obtain ⟨hsample', hsamples'⟩ := List.forall_mem_cons.mp h'
      rw [List.flatMap_cons, List.flatMap_cons] at heq
      obtain ⟨rfl, hrest⟩ := Sample.line_split hsample hsample' heq
      rw [ih hsamples hsamples' hrest]

end Format

end Metrics

end EzvizBridge
