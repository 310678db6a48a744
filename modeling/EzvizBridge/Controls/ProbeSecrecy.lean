import EzvizBridge.Controls.PowerProbe
import Mathlib.Data.List.Forall2

/-!
# Secrets and the field probe

Two documents are alike when they differ only in what is stored under hidden keys, at any depth,
also in an object that is sent as a JSON-encoded text (`Alike`).

The probe filters by the outermost key. A string that it logs may be a JSON-encoded object with a
hidden key in it (`Hides`), and then what is under this key is logged (`supportExt_logged`). Where
no string that is logged is such a text, alike snapshots leave the same lines (`fieldLines_alike`):
every scalar that the probe keeps is the same on both sides, so both sides go through the same
states.
-/

namespace EzvizBridge

namespace Controls

namespace PowerProbe

/-! ### Alike documents -/

/-- The key looks secret or identifying. -/
def isHidden (key : String) : Bool := isSecret key || hasHint privateHints key

section

variable {Layout : Type*} (fromStr : String → Option Value) (print : Layout → Value → String)
  (hidden : String → Bool)

/-- **Equal except for the values under hidden keys.** `print` writes a value in some layout. -/
inductive Alike : Value → Value → Prop
  | same (value : Value) : Alike value value
  | array {values values' : List Value} (length : values.length = values'.length)
      (alike : ∀ pair ∈ values.zip values', Alike pair.1 pair.2) :
        Alike (.array values) (.array values')
  | object {entries entries' : List (String × Value)}
    (keys : entries.map Prod.fst = entries'.map Prod.fst)
      (alike : ∀ pair ∈ entries.zip entries', hidden pair.1.1 = false → Alike pair.1.2 pair.2.2) :
      Alike (.object entries) (.object entries')
  | text (layout : Layout) {entries entries' : List (String × Value)}
      (read : fromStr (print layout (.object entries)) = some (.object entries))
      (read' : fromStr (print layout (.object entries')) = some (.object entries'))
      (alike : Alike (.object entries) (.object entries')) :
      Alike (.string (print layout (.object entries))) (.string (print layout (.object entries')))

/-- **A hidden key at some depth**, through encoded objects as well. -/
inductive Hides : Value → Prop
  | key {entries : List (String × Value)} {entry : String × Value} (mem : entry ∈ entries)
      (hides : hidden entry.1 = true) : Hides (.object entries)
  | entry {entries : List (String × Value)} {entry : String × Value} (mem : entry ∈ entries)
      (hides : Hides entry.2) : Hides (.object entries)
  | array {values : List Value} {value : Value} (mem : value ∈ values) (hides : Hides value) :
      Hides (.array values)
  | text {text : String} {entries : List (String × Value)}
    (read : fromStr text = some (.object entries))
      (hides : Hides (.object entries)) : Hides (.string text)

/-- The entries of two objects that are alike. -/
def Matched : List (String × Value) → List (String × Value) → Prop :=
  List.Forall₂ fun entry entry' =>
    entry.1 = entry'.1 ∧ (hidden entry.1 = false → Alike fromStr print hidden entry.2 entry'.2)

variable {fromStr print hidden} {value value' : Value} {entries entries' : List (String × Value)}

/-- Lists with the same keys, compared entry by entry. -/
theorem forall₂_of_keys {R : String × Value → String × Value → Prop}
    (hkeys : entries.map Prod.fst = entries'.map Prod.fst)
    (h : ∀ pair ∈ entries.zip entries', R pair.1 pair.2) :
    List.Forall₂ (fun entry entry' => entry.1 = entry'.1 ∧ R entry entry') entries entries' := by
  -- on the entries
  induction entries generalizing entries' with
  | nil =>
    rw [List.map_eq_nil_iff.mp hkeys.symm]
    exact .nil
  | cons entry entries ih =>
    cases entries' with
    | nil => cases hkeys
    | cons entry' entries' =>
      rw [List.map_cons, List.map_cons, List.cons.injEq] at hkeys
      rw [List.zip_cons_cons, List.forall_mem_cons] at h
      exact .cons ⟨hkeys.1, h.1⟩ (ih hkeys.2 h.2)

theorem matched_refl (entries : List (String × Value)) :
    Matched fromStr print hidden entries entries := by
  apply List.forall₂_same.mpr
  intro entry _
  exact ⟨rfl, fun _ => .same _⟩

theorem rel_refl (map : Option (List (String × Value))) :
    Option.Rel (Matched fromStr print hidden) map map := by
  cases map with
  | none => exact .none
  | some entries => exact .some (matched_refl entries)

theorem matched_of_alike (h : Alike fromStr print hidden (.object entries) (.object entries')) :
    Matched fromStr print hidden entries entries' := by
  cases h with
  | same => exact matched_refl entries
  | object hkeys halike => exact forall₂_of_keys hkeys halike

/-- Without a hidden key, nothing can differ. -/
theorem eq_of_alike (h : Alike fromStr print hidden value value')
    (hclear : ¬Hides fromStr hidden value) :
    value = value' := by
  -- on the derivation of the likeness
  induction h with
  | same => rfl
  | @array values values' hlength _ ih =>
    have heq : values = values' := by
      rw [← List.forall₂_eq_eq_eq, List.forall₂_iff_zip]
      refine ⟨hlength, fun {a b} hmem => ih _ hmem fun hhides => hclear (.array ?_ hhides)⟩
      exact (List.of_mem_zip hmem).1
    rw [heq]
  | @object entries entries' hkeys _ ih =>
    -- each key is not hidden, and what is under it hides no key either
    have hentries : List.Forall₂ (fun entry entry' => entry.1 = entry'.1 ∧ entry.2 = entry'.2)
        entries entries' := by
      apply forall₂_of_keys hkeys
      intro pair hmem
      have hentry := (List.of_mem_zip hmem).1
      have hkey : hidden pair.1.1 = false := by
        rw [← Bool.not_eq_true]
        exact fun hkey => hclear (.key hentry hkey)
      exact ih pair hmem hkey fun hhides => hclear (.entry hentry hhides)
    have heq : entries = entries' := by
      rw [← List.forall₂_eq_eq_eq]
      exact hentries.imp fun _ _ h => Prod.ext h.1 h.2
    rw [heq]
  | text layout hread _ _ ih =>
    have hobjects := ih fun hhides => hclear (.text hread hhides)
    rw [hobjects]

/-- Values that are alike and no objects or arrays are the same, unless they are encoded objects. -/
theorem asScalar_alike (h : Alike fromStr print hidden value value')
    (hclear : ∀ text, value = .string text → ¬Hides fromStr hidden value) :
    asScalar value = asScalar value' := by
  cases h with
  | same => rfl
  | array => rfl
  | object => rfl
  | text layout hread hread' halike =>
    rw [eq_of_alike (.text layout hread hread' halike) (hclear _ rfl)]

/-! ### Scopes -/

/-- What is alike is an object on both sides or on none. -/
theorem asObject_alike (h : Alike fromStr print hidden value value') :
    Option.Rel (Matched fromStr print hidden) value.asObject value'.asObject := by
  cases h with
  | same => exact rel_refl _
  | array => exact .none
  | object hkeys halike => exact .some (matched_of_alike (.object hkeys halike))
  | text => exact .none

/-- A key that is not hidden leads to values that are alike. -/
theorem lookup_matched (h : Matched fromStr print hidden entries entries') {key : String}
    (hkey : hidden key = false) :
    Option.Rel (Alike fromStr print hidden) (entries.lookup key) (entries'.lookup key) := by
  -- on the entries, as far as the first with the key
  induction h with
  | nil => exact .none
  | @cons entry entry' entries entries' hentry _ ih =>
    obtain ⟨name, value⟩ := entry
    obtain ⟨name', value'⟩ := entry'
    obtain ⟨hname, halike⟩ := hentry
    dsimp only at hname halike
    subst hname
    rw [List.lookup_cons, List.lookup_cons]
    by_cases hfound : key = name
    · rw [beq_iff_eq.mpr hfound]
      exact .some (halike (hfound ▸ hkey))
    · rw [beq_eq_false_iff_ne.mpr hfound]
      exact ih

/-- A field that is not hidden is alike. -/
theorem get_alike (h : Alike fromStr print hidden value value') {key : String}
    (hkey : hidden key = false) :
    Option.Rel (Alike fromStr print hidden) (value.get key) (value'.get key) := by
  cases h with
  | same =>
    cases hget : value.get key with
    | none => exact .none
    | some found => exact .some (.same found)
  | array => exact .none
  | object hkeys halike => exact lookup_matched (matched_of_alike (.object hkeys halike)) hkey
  | text => exact .none

/-- Encoded or not, the optionals of statuses that are alike have the same keys. -/
theorem optionals_alike (h : Alike fromStr print hidden value value')
    (hkey : hidden "optionals" = false) :
    Option.Rel (Matched fromStr print hidden) (optionals fromStr value)
      (optionals fromStr value') := by
  have hget := get_alike h hkey
  unfold optionals
  generalize value.get "optionals" = raw at hget ⊢
  generalize value'.get "optionals" = raw' at hget ⊢
  -- there is no such field, or the two are alike
  cases hget with
  | none => exact .none
  | @some raw raw' hraw =>
    cases hraw with
    | same => exact rel_refl _
    | array => exact .none
    | object hkeys halike => exact .some (matched_of_alike (.object hkeys halike))
    | text layout hread hread' halike =>
      dsimp only [Option.bind_eq_bind, Option.bind_some]
      rw [hread, hread']
      exact .some (matched_of_alike halike)

/-- Sections that are alike, where the probe reads. -/
structure AlikeData (fromStr : String → Option Value) (print : Layout → Value → String)
    (hidden : String → Bool) (data data' : CameraData) : Prop where
  device : Alike fromStr print hidden data.device data'.device
  status : Alike fromStr print hidden data.status data'.status

variable {data data' : CameraData}

/-- A scope that is there on both sides. -/
theorem forall₂_toList {map map' : Option (List (String × Value))} (scope : String)
    (h : Option.Rel (Matched fromStr print hidden) map map') :
    List.Forall₂
      (fun scope scope' => scope.1 = scope'.1 ∧ Matched fromStr print hidden scope.2 scope'.2)
      (map.map fun entries => (scope, entries)).toList
        (map'.map fun entries => (scope, entries)).toList := by
  cases h with
  | none => exact .nil
  | some h => exact .cons ⟨rfl, h⟩ .nil

/-- The scopes are the same, and their entries are matched. -/
theorem scopes_alike (h : AlikeData fromStr print hidden data data')
    (hkey : hidden "optionals" = false) :
    List.Forall₂
      (fun scope scope' => scope.1 = scope'.1 ∧ Matched fromStr print hidden scope.2 scope'.2)
      (scopes fromStr data) (scopes fromStr data') := by
  apply List.rel_append
  · apply List.rel_append
    · exact forall₂_toList "deviceInfos" (asObject_alike h.device)
    · exact forall₂_toList "STATUS" (asObject_alike h.status)
  · exact forall₂_toList "STATUS.optionals" (optionals_alike h.status hkey)

/-- The value is stored under the key in a scope that is inspected. -/
inductive Stored (fromStr : String → Option Value) (data : CameraData) :
    String → String → Value → Prop
  | device {entries : List (String × Value)} {entry : String × Value}
    (device : data.device = .object entries)
      (mem : entry ∈ entries) : Stored fromStr data "deviceInfos" entry.1 entry.2
  | status {entries : List (String × Value)} {entry : String × Value}
    (status : data.status = .object entries)
      (mem : entry ∈ entries) : Stored fromStr data "STATUS" entry.1 entry.2
  | optionals {entries : List (String × Value)} {entry : String × Value}
      (get : data.status.get "optionals" = some (.object entries)) (mem : entry ∈ entries) :
      Stored fromStr data "STATUS.optionals" entry.1 entry.2
  | encoded {text : String} {entries : List (String × Value)} {entry : String × Value}
      (get : data.status.get "optionals" = some (.string text))
        (read : fromStr text = some (.object entries))
      (mem : entry ∈ entries) : Stored fromStr data "STATUS.optionals" entry.1 entry.2

theorem asObject_eq_some : value.asObject = some entries ↔ value = .object entries := by
  cases value <;> simp [Value.asObject]

/-- The optionals are an object, or the text of one. -/
theorem optionals_eq_some (h : optionals fromStr value = some entries) :
    value.get "optionals" = some (.object entries) ∨
      ∃ text, value.get "optionals" = some (.string text) ∧
        fromStr text = some (.object entries) := by
  unfold optionals at h
  cases hget : value.get "optionals" with
  | none =>
    rw [hget] at h
    cases h
  | some raw =>
    rw [hget] at h
    cases raw with
    | object entries' =>
      cases h
      exact Or.inl rfl
    | string text =>
      change (fromStr text).bind Value.asObject = some entries at h
      obtain ⟨read, hread, hobject⟩ := Option.bind_eq_some_iff.mp h
      exact Or.inr ⟨text, rfl, hread.trans (congrArg some (asObject_eq_some.mp hobject))⟩
    | _ => cases h

/-- What is under a scope is stored in the data. -/
theorem stored_of_mem {scope : String × List (String × Value)} {entry : String × Value}
    (h : scope ∈ scopes fromStr data) (hmem : entry ∈ scope.2) :
    Stored fromStr data scope.1 entry.1 entry.2 := by
  simp only [scopes, List.mem_append, Option.mem_toList, Option.map_eq_some_iff] at h
  obtain (⟨device, hdevice, rfl⟩ | ⟨status, hstatus, rfl⟩) | ⟨map, hmap, rfl⟩ := h
  · exact .device (asObject_eq_some.mp hdevice) hmem
  · exact .status (asObject_eq_some.mp hstatus) hmem
  · obtain hget | ⟨text, hget, hread⟩ := optionals_eq_some hmap
    · exact .optionals hget hmem
    · exact .encoded hget hread hmem

/-! ### What is kept -/

/-- **No string that is kept hides a key.** -/
def Clear (fromStr : String → Option Value) (hidden : String → Bool)
    (keeps : String → String → Bool) (data : CameraData) : Prop :=
  ∀ scope key text, Stored fromStr data scope key (.string text) → keeps scope key = true →
    ¬Hides fromStr hidden (.string text)

/-- Folds over related lists, whose steps agree. -/
theorem foldl_eq {α β γ : Type*} {f : γ → α → γ} {g : γ → β → γ} {R : α → β → Prop} {l : List α}
    {l' : List β} (hstep : ∀ acc a b, R a b → f acc a = g acc b) (h : List.Forall₂ R l l')
    (init : γ) :
    l.foldl f init = l'.foldl g init := by
  induction h generalizing init with
  | nil => rfl
  | cons hhead _ ih =>
    rw [List.foldl_cons, List.foldl_cons, hstep _ _ _ hhead]
    exact ih _

variable {keeps : String → String → Bool}

/-- **The kept scalars agree.** -/
theorem collect_alike (h : AlikeData fromStr print hidden data data')
    (hkey : hidden "optionals" = false)
    (hkeeps : ∀ scope key, keeps scope key = true → hidden key = false)
    (hclear : Clear fromStr hidden keeps data) :
    collect fromStr keeps data = collect fromStr keeps data' := by
  -- scope by scope, and in each of them entry by entry
  have hscopes := (List.forall₂_and_left _ _).mpr ⟨fun scope hmem => hmem, scopes_alike h hkey⟩
  refine foldl_eq ?_ hscopes []
  rintro fields ⟨scope, entries⟩ ⟨scope', entries'⟩ ⟨hscope, hname, hmatched⟩
  dsimp only at hname hmatched ⊢
  subst hname
  have hentries := (List.forall₂_and_left _ _).mpr ⟨fun entry hmem => hmem, hmatched⟩
  refine foldl_eq ?_ hentries fields
  rintro fields ⟨key, value⟩ ⟨key', value'⟩ ⟨hentry, hname, halike⟩
  dsimp only at hname halike ⊢
  subst hname
  cases hkept : keeps scope key with
  | false =>
    -- neither side is kept
    have hnone (scalar : Option Scalar) : (scalar.filter fun _ => false) = none :=
      Option.filter_eq_none_iff.mpr fun _ _ => Bool.false_ne_true
    rw [hnone, hnone]
  -- the value is kept, so its key is not hidden
  | true =>
    have hstored := stored_of_mem hscope hentry
    rw [asScalar_alike (halike (hkeeps scope key hkept)) ?_]
    rintro text rfl
    exact hclear scope key text hstored hkept

/-- The inventory has the keys only. -/
theorem keyInventory_alike (h : AlikeData fromStr print hidden data data')
    (hkey : hidden "optionals" = false) :
    keyInventory fromStr data = keyInventory fromStr data' := by
  refine foldl_eq ?_ (scopes_alike h hkey) []
  rintro inventory ⟨scope, entries⟩ ⟨scope', entries'⟩ ⟨hname, hmatched⟩
  dsimp only at hname hmatched ⊢
  have hkeys : entries.map Prod.fst = entries'.map Prod.fst := by
    rw [← List.forall₂_eq_eq_eq, List.forall₂_map_left_iff, List.forall₂_map_right_iff]
    exact hmatched.imp fun _ _ hentry => hentry.1
  rw [hname, hkeys]

/-- Snapshots of the same cameras, each of them alike. -/
def AlikeSnapshots (fromStr : String → Option Value) (print : Layout → Value → String)
    (hidden : String → Bool) : List (String × CameraData) → List (String × CameraData) → Prop :=
  List.Forall₂ fun entry entry' => entry.1 = entry'.1 ∧
    AlikeData fromStr print hidden entry.2 entry'.2

end

/-! ### Which keys are kept -/

theorem isHidden_of_keepsObservable (scope key : String) (h : keepsObservable scope key = true) :
    isHidden key = false := by
  simp only [keepsObservable, isObservable, decide_eq_true_eq, Bool.and_eq_true,
    Bool.not_eq_true'] at h
  rw [isHidden, h.2.1.1, h.2.1.2, Bool.or_false]

theorem isSecret_of_isHidden {key : String} (h : isHidden key = false) : isSecret key = false :=
  (Bool.or_eq_false_iff.mp h).1

theorem isSecret_of_keepsPower (scope key : String) (h : keepsPower scope key = true) :
    isSecret key = false := by
  rw [keepsPower, isPower, Bool.and_eq_true, Bool.not_eq_true'] at h
  exact h.1

/-- The optionals themselves are not hidden. -/
theorem isHidden_optionals : isHidden "optionals" = false := by decide +kernel

section

variable {Layout : Type*} {fromStr : String → Option Value} {print : Layout → Value → String}
  {toText : Value → String} {self self' : Probe} {serial device : String} {data data' : CameraData}
  {snapshot snapshot' : List (String × CameraData)}

/-- What hides a secret key hides a hidden one. -/
theorem hides_isHidden {value : Value} (h : Hides fromStr isSecret value) :
    Hides fromStr isHidden value := by
  induction h with
  | key hmem hkey =>
    refine .key hmem ?_
    rw [isHidden, hkey, Bool.true_or]
  | entry hmem _ ih => exact .entry hmem ih
  | array hmem _ ih => exact .array hmem ih
  | text hread _ ih => exact .text hread ih

/-- Where nothing is hidden there is no secret. -/
theorem clear_isSecret {keeps : String → String → Bool} (h : Clear fromStr isHidden keeps data) :
    Clear fromStr isSecret keeps data :=
  fun scope key text hstored hkept hhides => h scope key text hstored hkept (hides_isHidden hhides)

/-! ### Steps -/

/-- The lines of the field probe. -/
def Probe.fieldLines (self : Probe) : List Line := self.log.filter Line.isField

/-- The field probe has seen the same and logged the same. -/
structure Agree (probe probe' : Probe) : Prop where
  observed : probe.seen.observed = probe'.seen.observed
  fieldLines : probe.fieldLines = probe'.fieldLines

/-- Lines of the other probes are no field lines. -/
theorem filter_append_of_not_isField {log lines : List Line}
    (h : ∀ line ∈ lines, line.isField = false) :
    (log ++ lines).filter Line.isField = log.filter Line.isField := by
  have hnone : lines.filter Line.isField = [] := by
    rw [List.filter_eq_nil_iff]
    intro line hline
    rw [h line hline]
    exact Bool.false_ne_true
  rw [List.filter_append, hnone, List.append_nil]

/-- The names are no field lines. -/
theorem agree_logNames (h : Agree self self') :
    Agree (logNames fromStr self serial device data) self' := by
  unfold logNames
  split_ifs with hseen
  · exact h
  · refine ⟨h.observed, Eq.trans (filter_append_of_not_isField ?_) h.fieldLines⟩
    intro line hline
    obtain ⟨names, -, rfl⟩ := List.mem_map.mp hline
    rfl

/-- What is logged of the power is not a line of the field probe. -/
theorem agree_logPower (h : Agree self self') :
    Agree (logPower fromStr toText self serial device data) self' := by
  have hnames : Agree (logNames fromStr self serial device data) self' := agree_logNames h
  unfold logPower
  dsimp only
  split_ifs with hchanged
  · refine ⟨hnames.observed, Eq.trans (filter_append_of_not_isField ?_) hnames.fieldLines⟩
    intro line hline
    rw [List.mem_singleton.mp hline]
    rfl
  · exact hnames

theorem Agree.symm (h : Agree self self') : Agree self' self := ⟨h.observed.symm, h.fieldLines.symm⟩

/-- The same fields give the same field lines. -/
theorem agree_logFieldChanges (h : Agree self self')
    (hfields : observableFields fromStr data = observableFields fromStr data') :
    Agree (logFieldChanges fromStr toText self serial device data)
      (logFieldChanges fromStr toText self' serial device data') := by
  have hlines (line : Line) :
      (self.log ++ [line]).filter Line.isField = (self'.log ++ [line]).filter Line.isField := by
    rw [List.filter_append, List.filter_append]
    exact congrArg (· ++ _) h.fieldLines
  unfold logFieldChanges
  rw [← h.observed, hfields]
  -- the camera was seen before, or not
  cases hseen : self.seen.observed serial with
  | none => exact ⟨rfl, hlines _⟩
  | some previous =>
    dsimp only
    split_ifs with hchanged
    · exact ⟨rfl, hlines _⟩
    · exact h

/-- **One snapshot.** What the field probe has seen and logged stays the same on both sides. -/
theorem agree_observe (h : Agree self self')
    (hsnapshot : List.Forall₂ (fun entry entry' => entry.1 = entry'.1 ∧
      observableFields fromStr entry.2 = observableFields fromStr entry'.2) snapshot snapshot') :
    Agree (observe fromStr toText self snapshot) (observe fromStr toText self' snapshot') := by
  unfold observe
  induction hsnapshot generalizing self self' with
  | nil => exact h
  | @cons entry entry' _ _ hentry _ ih =>
    rw [List.foldl_cons, List.foldl_cons]
    apply ih
    rw [hentry.1]
    exact agree_logFieldChanges (agree_logPower (agree_logPower h.symm).symm) hentry.2

theorem observableFields_alike (h : AlikeData fromStr print isHidden data data')
    (hclear : Clear fromStr isHidden keepsObservable data) :
    observableFields fromStr data = observableFields fromStr data' :=
  collect_alike h isHidden_optionals isHidden_of_keepsObservable hclear

/-- Where only the secrets differ, one camera leaves the same state and the same lines. -/
theorem observe_alike_secret (h : AlikeSnapshots fromStr print isSecret snapshot snapshot')
    (hobservable : ∀ entry ∈ snapshot, Clear fromStr isSecret keepsObservable entry.2)
    (hpower : ∀ entry ∈ snapshot, Clear fromStr isSecret keepsPower entry.2) (self : Probe) :
    observe fromStr toText self snapshot = observe fromStr toText self snapshot' := by
  have hoptionals : isSecret "optionals" = false := isSecret_of_isHidden isHidden_optionals
  have hentries := (List.forall₂_and_left _ _).mpr ⟨fun entry hmem => hmem, h⟩
  refine foldl_eq ?_ hentries self
  rintro self ⟨serial, data⟩ ⟨serial', data'⟩ ⟨hmem, hserial, halike⟩
  dsimp only at hserial halike ⊢
  subst hserial
  -- the three readings of the data are the same on both sides
  have hnames : keyInventory fromStr data = keyInventory fromStr data' :=
    keyInventory_alike halike hoptionals
  have hfields : powerFields fromStr data = powerFields fromStr data' :=
    collect_alike halike hoptionals isSecret_of_keepsPower (hpower _ hmem)
  have hobserved : observableFields fromStr data = observableFields fromStr data' :=
    collect_alike halike hoptionals
      (fun scope key hkept => isSecret_of_isHidden (isHidden_of_keepsObservable scope key hkept))
      (hobservable _ hmem)
  unfold logFieldChanges logPower logNames
  rw [hnames, hfields, hobserved]

/-! ### Runs -/

variable {pairs : List (List (String × CameraData) × List (String × CameraData))}

/-- The snapshots, one after the other. -/
theorem agree_observeAll (h : Agree self self')
    (hpairs : ∀ pair ∈ pairs, List.Forall₂ (fun entry entry' => entry.1 = entry'.1 ∧
      observableFields fromStr entry.2 = observableFields fromStr entry'.2) pair.1 pair.2) :
    Agree (observeAll fromStr toText self (pairs.map Prod.fst))
      (observeAll fromStr toText self' (pairs.map Prod.snd)) := by
  induction pairs generalizing self self' with
  | nil => exact h
  | cons pair pairs ih =>
    rw [List.forall_mem_cons] at hpairs
    exact ih (agree_observe h hpairs.1) hpairs.2

/-- Where only the secrets differ, the snapshots leave the same. -/
theorem observeAll_alike_secret
    (halike : ∀ pair ∈ pairs, AlikeSnapshots fromStr print isSecret pair.1 pair.2)
    (hobservable : ∀ pair ∈ pairs, ∀ entry ∈ pair.1, Clear fromStr isSecret keepsObservable entry.2)
    (hpower : ∀ pair ∈ pairs, ∀ entry ∈ pair.1, Clear fromStr isSecret keepsPower entry.2)
    (self : Probe) :
    observeAll fromStr toText self (pairs.map Prod.fst) =
      observeAll fromStr toText self (pairs.map Prod.snd) := by
  -- on the snapshots
  induction pairs generalizing self with
  | nil => rfl
  | cons pair pairs ih =>
    rw [List.forall_mem_cons] at halike hobservable hpower
    rw [observeAll, observeAll, List.map_cons, List.map_cons, List.foldl_cons, List.foldl_cons,
      observe_alike_secret halike.1 hobservable.1 hpower.1]
    exact ih halike.2 hobservable.2 hpower.2 _

/-- **The field probe logs no secret, where no string that it logs is an encoded object with
one.** -/
theorem fieldLines_alike (fromStr : String → Option Value) (print : Layout → Value → String)
    (toText : Value → String) (probe : Probe)
    (pairs : List (List (String × CameraData) × List (String × CameraData)))
    (halike : ∀ pair ∈ pairs, AlikeSnapshots fromStr print isHidden pair.1 pair.2)
    (hclear : ∀ pair ∈ pairs, ∀ entry ∈ pair.1, Clear fromStr isHidden keepsObservable entry.2) :
    let left := observeAll fromStr toText probe (pairs.map Prod.fst)
    let right := observeAll fromStr toText probe (pairs.map Prod.snd)
    left.fieldLines = right.fieldLines ∧ left.seen.observed = right.seen.observed ∧
      (∀ pair ∈ pairs, pair.1.map (fun entry => observableFields fromStr entry.2) =
        pair.2.map fun entry => observableFields fromStr entry.2) ∧
      -- where only secrets differ, and no power field is an encoded object with one, no line
      -- differs
      ((∀ pair ∈ pairs, AlikeSnapshots fromStr print isSecret pair.1 pair.2) →
        (∀ pair ∈ pairs, ∀ entry ∈ pair.1, Clear fromStr isSecret keepsPower entry.2) →
          left.log = right.log) := by
  -- camera by camera, the observable fields agree
  have hpairs : ∀ pair ∈ pairs, List.Forall₂ (fun entry entry' => entry.1 = entry'.1 ∧
      observableFields fromStr entry.2 = observableFields fromStr entry'.2) pair.1 pair.2 := by
    intro pair hpair
    refine ((List.forall₂_and_left _ _).mpr ⟨hclear pair hpair, halike pair hpair⟩).imp ?_
    rintro entry entry' ⟨hentry, hserial, hdata⟩
    exact ⟨hserial, observableFields_alike hdata hentry⟩
  have hagree : Agree (observeAll fromStr toText probe (pairs.map Prod.fst))
      (observeAll fromStr toText probe (pairs.map Prod.snd)) := agree_observeAll ⟨rfl, rfl⟩ hpairs
  refine ⟨hagree.fieldLines, hagree.observed, ?_, ?_⟩
  -- the fields themselves, and then all lines
  · intro pair hpair
    rw [← List.forall₂_eq_eq_eq, List.forall₂_map_left_iff, List.forall₂_map_right_iff]
    exact (hpairs pair hpair).imp fun _ _ h => h.2
  · intro hsecret hpower
    exact congrArg Probe.log (observeAll_alike_secret hsecret
      (fun pair hpair entry hentry => clear_isSecret (hclear pair hpair entry hentry)) hpower probe)

/-! ### Encoded objects -/

/-- A JSON text in quotes. -/
def quote (text : String) : String :=
  let escaped := text.toList.flatMap fun character =>
    if character = '"' ∨ character = '\\' then ['\\', character] else [character]
  "\"" ++ String.ofList escaped ++ "\""

/-- The JSON text of a flat object of numbers and texts. -/
def sampleText : Value → String
  | .int value => toString value
  | .string text => quote text
  | .object entries =>
    let fields := entries.map fun entry =>
      match entry.2 with
      | .int value => quote entry.1 ++ ":" ++ toString value
      | .string text => quote entry.1 ++ ":" ++ quote text
      | _ => quote entry.1 ++ ":null"
    "\x7b" ++ ",".intercalate fields ++ "\x7d"
  | _ => "null"

/-- An object with a secret. -/
def secretObject (pwd : ℤ) : Value := .object [("pwd", .int pwd)]

def sampleRead (text : String) : Option Value :=
  [secretObject 1, secretObject 2].find? fun value => sampleText value = text

/-- `supportExt` is an encoded object with a secret. -/
def supportExtWith (pwd : ℤ) : CameraData where
  device := .object [("supportExt", .string (sampleText (secretObject pwd)))]

/-- `optionals` is an encoded object with a secret. -/
def optionalsWith (pwd : ℤ) : CameraData where
  device := .object [("status", .int 1), ("supportExt", .string "unsupported")]
  status := .object [("optionals", .string (sampleText (secretObject pwd)))]

/-- The two texts are read as two objects. -/
theorem sampleRead_secretObject :
    sampleRead (sampleText (secretObject 1)) = some (secretObject 1) ∧
      sampleRead (sampleText (secretObject 2)) = some (secretObject 2) := by
  have hne : sampleText (secretObject 1) ≠ sampleText (secretObject 2) := by decide +kernel
  constructor
  · exact List.find?_cons_of_pos (decide_eq_true rfl)
  · -- the first of the two texts is another one
    refine Eq.trans (List.find?_cons_of_neg ?_) (List.find?_cons_of_pos (decide_eq_true rfl))
    exact fun h => hne (of_decide_eq_true h)

/-- The two texts differ in the secret only. -/
theorem alike_text :
    Alike sampleRead (fun _ : Unit => sampleText) isHidden (.string (sampleText (secretObject 1)))
      (.string (sampleText (secretObject 2))) := by
  refine .text () sampleRead_secretObject.1 sampleRead_secretObject.2 (.object rfl ?_)
  intro pair hpair hkey
  rw [List.zip_cons_cons, List.zip_nil_left, List.mem_singleton] at hpair
  rw [hpair] at hkey
  exact absurd hkey (by decide +kernel)

/-- **The leak.** What is under `pwd` in an encoded `supportExt` is logged. -/
theorem supportExt_logged :
    AlikeSnapshots sampleRead (fun _ : Unit => sampleText) isHidden
    [("BA2595538", supportExtWith 1)]
        [("BA2595538", supportExtWith 2)] ∧
      (observeAll sampleRead sampleText {} [[("BA2595538", supportExtWith 1)]]).fieldLines ≠
        (observeAll sampleRead sampleText {} [[("BA2595538", supportExtWith 2)]]).fieldLines := by
  constructor
  -- only the value under `pwd` differs
  · refine .cons ⟨rfl, ⟨.object rfl ?_, .same _⟩⟩ .nil
    intro pair hpair _
    rw [List.zip_cons_cons, List.zip_nil_left, List.mem_singleton] at hpair
    rw [hpair]
    exact alike_text
  · decide +kernel

/-- Snapshots that differ in the secret of an encoded `optionals`. -/
def optionalsPair (serial : String) :
    List (String × CameraData) × List (String × CameraData) :=
  ([(serial, optionalsWith 1)], [(serial, optionalsWith 2)])

/-- The two snapshots differ in the secret only. -/
theorem alike_optionalsPair (serial : String) :
    AlikeSnapshots sampleRead (fun _ : Unit => sampleText) isHidden (optionalsPair serial).1
      (optionalsPair serial).2 := by
  refine .cons ⟨rfl, ⟨.same _, .object rfl ?_⟩⟩ .nil
  intro pair hpair _
  rw [List.zip_cons_cons, List.zip_nil_left, List.mem_singleton] at hpair
  rw [hpair]
  exact alike_text

/-- Nothing that is logged of the snapshot is an encoded object. -/
theorem clear_optionalsWith :
    Clear sampleRead isHidden keepsObservable (optionalsWith 1) := by
  intro scope key text hstored hkept hhides
  generalize hvalue : Value.string text = value at hstored
  cases hstored with
  | @device entries entry hdevice hmem =>
    cases hdevice
    simp only [List.mem_cons, List.not_mem_nil, or_false] at hmem
    obtain rfl | rfl := hmem
    · cases hvalue
    · -- this text is no encoded object
      cases hvalue
      have hread : sampleRead "unsupported" = none := by decide +kernel
      cases hhides with
      | text h =>
        rw [hread] at h
        cases h
  | @status entries entry hstatus hmem =>
    -- `optionals` itself is one of the keys that the probe passes over
    cases hstatus
    rw [List.mem_singleton] at hmem
    rw [hmem] at hkept
    exact absurd hkept (by decide +kernel)
  | @optionals entries entry hget hmem => cases hget
  | @encoded read entries entry hget hread hmem =>
    -- what is encoded in it is an entry of the snapshot, a number and no text
    cases hget
    rw [sampleRead_secretObject.1] at hread
    cases hread
    rw [List.mem_singleton] at hmem
    rw [hmem] at hvalue
    cases hvalue

/-- The secrets of an encoded `optionals` are not logged, of two cameras in three snapshots. -/
theorem fieldLines_alike_sample :
    let pairs := [optionalsPair "BA2595538", optionalsPair "BC7731204", optionalsPair "BA2595538"]
    pairs.map Prod.fst ≠ pairs.map Prod.snd ∧
      (observeAll sampleRead sampleText {} (pairs.map Prod.fst)).fieldLines =
        (observeAll sampleRead sampleText {} (pairs.map Prod.snd)).fieldLines := by
  intro pairs
  have hserial : ∀ pair ∈ pairs, ∃ serial, pair = optionalsPair serial := by
    intro pair hpair
    simp only [pairs, List.mem_cons, List.not_mem_nil, or_false] at hpair
    obtain rfl | rfl | rfl := hpair <;> exact ⟨_, rfl⟩
  refine ⟨?_,
    (fieldLines_alike sampleRead (fun _ : Unit => sampleText) sampleText {} pairs ?_ ?_).1⟩
  · -- the two sides have different texts under `optionals`
    intro hsame
    have htexts : Value.string (sampleText (secretObject 1)) =
        Value.string (sampleText (secretObject 2)) := by
      simpa [pairs, optionalsPair, optionalsWith] using hsame
    exact absurd (Value.string.inj htexts) (by decide +kernel)
  · intro pair hpair
    obtain ⟨serial, rfl⟩ := hserial pair hpair
    exact alike_optionalsPair serial
  · intro pair hpair entry hentry
    obtain ⟨serial, rfl⟩ := hserial pair hpair
    rw [List.mem_singleton.mp hentry]
    exact clear_optionalsWith

end

end PowerProbe

end Controls

end EzvizBridge
