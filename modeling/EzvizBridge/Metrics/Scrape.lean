import EzvizBridge.Metrics.Exposition
import Mathlib.Algebra.GroupWithZero.Nat
import Mathlib.Data.List.Nodup

/-!
# What a scrape reads

A run of the metrics is a sequence of updates. Whatever they are, the text of `render` is that of
exactly one list of samples (`scrape`): for each counter that was ever changed its sum, for each
gauge its last value.
-/

namespace EzvizBridge

namespace Metrics

open SortedMap (upsert Sorted get get_upsert get_eq_some sorted_nil)

variable {φ : Type}

/-- A change of the metrics. -/
inductive Update (φ : Type)
  | add (name camera : String) (amount : ℕ)
  | labeled (name : String) (labels : List (String × String))
  | gauge (name camera : String) (value : φ)

/-- One update. -/
def MetricValues.apply (self : MetricValues φ) : Update φ → MetricValues φ
  | .add name camera amount => self.add name camera amount
  | .labeled name labels => self.incrementLabeled name labels
  | .gauge name camera value => self.gauge name camera value

/-- The metrics after some updates. -/
def updated (updates : List (Update φ)) : MetricValues φ := updates.foldl MetricValues.apply {}

/-- The names are plain. -/
def Update.Plain : Update φ → Prop
  | .add name _ _ | .gauge name _ _ => PlainName name
  | .labeled name labels => PlainName name ∧ ∀ label ∈ labels, PlainName label.1

/-! ### The totals -/

/-- The sum of some amounts, if there are any. -/
def total (amounts : List ℕ) :
    Option ℕ := if amounts = [] then none else some (min amounts.sum u64Max)

/-- What an update adds to a counter of a camera. -/
def amount? (name camera : String) : Update φ → Option ℕ
  | .add name' camera' amount => if name' = name ∧ camera' = camera then some amount else none
  | .labeled _ _ | .gauge _ _ _ => none

/-- What an update adds to a counter with these labels. -/
def labeled? (name : String) (labels : List (String × String)) : Update φ → Option ℕ
  | .labeled name' labels' => if name' = name ∧ labels' = labels then some 1 else none
  | .add _ _ _ | .gauge _ _ _ => none

/-- What an update sets a gauge of a camera to. -/
def gauge? (name camera : String) : Update φ → Option φ
  | .gauge name' camera' value => if name' = name ∧ camera' = camera then some value else none
  | .add _ _ _ | .labeled _ _ => none

/-- The three kinds of metrics. -/
inductive Kind
  | counter
  | labeled
  | gauge

/-- The kind that an update changes. -/
def Update.kind : Update φ → Kind
  | .add _ _ _ => .counter
  | .labeled _ _ => .labeled
  | .gauge _ _ _ => .gauge

/-- What an update is about. -/
def Update.series : Update φ → String × List (String × String)
  | .add name camera _ | .gauge name camera _ => (name, [("camera", camera)])
  | .labeled name labels => (name, labels)

/-- The series that a sample is of. -/
def Sample.series (self : Sample) : String × List (String × String) := (self.name, self.labels)

/-- What the samples of each kind say after some updates. -/
inductive Told (display : φ → String) (updates : List (Update φ)) : Kind → Sample → Prop
  | counter {name camera : String} {n : ℕ}
    (h : total (updates.filterMap (amount? name camera)) = some n) :
    Told display updates .counter ⟨name, [("camera", camera)], toString n⟩
  | labeled {name : String} {labels : List (String × String)} {n : ℕ}
    (h : total (updates.filterMap (labeled? name labels)) = some n) :
    Told display updates .labeled ⟨name, labels, toString n⟩
  | gauge {name camera : String} {value : φ}
    (h : (updates.filterMap (gauge? name camera)).getLast? = some value) :
    Told display updates .gauge ⟨name, [("camera", camera)], display value⟩

section Totals

variable {updates : List (Update φ)} {update : Update φ}

/-- One more amount. -/
theorem total_concat (amounts : List ℕ) (amount : ℕ) :
    total (amounts ++ [amount]) = some (min ((total amounts).getD 0 + amount) u64Max) := by
  rw [total, if_neg (List.append_ne_nil_of_right_ne_nil _ (List.cons_ne_nil _ _)), List.sum_append,
    List.sum_singleton, total]
  by_cases hnil : amounts = []
  · rw [if_pos hnil, hnil]
    rfl
  · rw [if_neg hnil, Option.getD_some]
    congr 1
    omega

/-- The labels under which a counter is kept. -/
def labelKey (name : String) (labels : List (String × String)) : Key :=
  toLex (name, String.ofList (renderLabels labels))

theorem labelKey_inj {name name' : String} {labels labels' : List (String × String)}
    (h : ∀ label ∈ labels, PlainName label.1) (h' : ∀ label ∈ labels', PlainName label.1)
    (heq : labelKey name labels = labelKey name' labels') : name = name' ∧ labels = labels' := by
  obtain ⟨hname, hrendered⟩ := Prod.mk.inj (toLex.injective heq)
  exact ⟨hname, renderLabels_injective h h' (String.ofList_injective hrendered)⟩

/-- The maps have the totals. -/
structure Counts (updates : List (Update φ)) (m : MetricValues φ) : Prop where
  sorted : Sorted m.counters ∧ Sorted m.labeled ∧ Sorted m.gauges
  counters : ∀ name camera,
    get m.counters (toLex (name, camera)) = total (updates.filterMap (amount? name camera))
  labeled : ∀ name labels, (∀ label ∈ labels, PlainName label.1) →
    get m.labeled (labelKey name labels) = total (updates.filterMap (labeled? name labels))
  keys : ∀ entry ∈ m.labeled, ∃ name labels, (∀ label ∈ labels, PlainName label.1) ∧
    entry.1 = labelKey name labels
  gauges : ∀ name camera,
    get m.gauges (toLex (name, camera)) = (updates.filterMap (gauge? name camera)).getLast?
  plain : (∀ entry ∈ m.counters, PlainName (ofLex entry.1).1) ∧
    (∀ entry ∈ m.labeled, PlainName (ofLex entry.1).1) ∧
      ∀ entry ∈ m.gauges, PlainName (ofLex entry.1).1

theorem key_inj {name name' camera camera' : String} :
    (toLex (name, camera) : Key) = toLex (name', camera') ↔ name = name' ∧ camera = camera' :=
  ⟨fun h => Prod.mk.inj (toLex.injective h), fun h => by rw [h.1, h.2]⟩

theorem filterMap_concat {β : Type} (f : Update φ → Option β) (updates : List (Update φ))
    (update : Update φ) :
    (updates ++ [update]).filterMap f = updates.filterMap f ++ (f update).toList := by
  rw [List.filterMap_append]
  cases h : f update <;> simp [h]

/-- An update is counted. -/
theorem Counts.apply {m : MetricValues φ} (h : Counts updates m) (hplain : update.Plain) :
    Counts (updates ++ [update]) (m.apply update) := by
  obtain ⟨hcounters, hlabeled, hgauges⟩ := h.sorted
  obtain ⟨hplainCounters, hplainLabeled, hplainGauges⟩ := h.plain
  -- on the update: its own series changes, and no other
  cases update with
  | add name camera amount =>
    refine ⟨⟨hcounters.upsert _ _, hlabeled, hgauges⟩, fun name' camera' => ?_,
      fun name' labels hlabels => ?_, h.keys, fun name' camera' => ?_, fun entry hentry => ?_,
      hplainLabeled, hplainGauges⟩
    · rw [filterMap_concat, amount?]
      show get (upsert _ _ m.counters) _ = _
      rw [get_upsert hcounters, h.counters]
      by_cases hsame : name = name' ∧ camera = camera'
      · obtain ⟨rfl, rfl⟩ := hsame
        rw [if_pos rfl, if_pos ⟨rfl, rfl⟩, Option.toList_some, total_concat]
      · rw [if_neg (fun heq => hsame (key_inj.mp heq)), if_neg hsame, Option.toList_none,
          List.append_nil, h.counters]
    · rw [filterMap_concat, labeled?, Option.toList_none, List.append_nil]
      exact h.labeled name' labels hlabels
    · rw [filterMap_concat, gauge?, Option.toList_none, List.append_nil]
      exact h.gauges name' camera'
    · rcases SortedMap.key_of_mem_upsert hentry with hkey | hold
      · rw [hkey]
        exact hplain
      · exact hplainCounters entry hold
  | labeled name labels =>
    refine ⟨⟨hcounters, hlabeled.upsert _ _, hgauges⟩, fun name' camera' => ?_,
      fun name' labels' hlabels => ?_, fun entry hentry => ?_, fun name' camera' => ?_,
      hplainCounters, fun entry hentry => ?_, hplainGauges⟩
    · rw [filterMap_concat, amount?, Option.toList_none, List.append_nil]
      exact h.counters name' camera'
    · rw [filterMap_concat, labeled?]
      show get (upsert (labelKey name labels) _ m.labeled) _ = _
      rw [get_upsert hlabeled, h.labeled name labels hplain.2]
      by_cases hsame : name = name' ∧ labels = labels'
      · obtain ⟨rfl, rfl⟩ := hsame
        rw [if_pos rfl, if_pos ⟨rfl, rfl⟩, Option.toList_some, total_concat]
      · rw [if_neg (fun heq => hsame (labelKey_inj hplain.2 hlabels heq)), if_neg hsame,
          Option.toList_none, List.append_nil, h.labeled name' labels' hlabels]
    · rcases SortedMap.key_of_mem_upsert hentry with hkey | hold
      · exact ⟨name, labels, hplain.2, hkey⟩
      · exact h.keys entry hold
    · rw [filterMap_concat, gauge?, Option.toList_none, List.append_nil]
      exact h.gauges name' camera'
    · rcases SortedMap.key_of_mem_upsert hentry with hkey | hold
      · rw [hkey]
        exact hplain.1
      · exact hplainLabeled entry hold
  | gauge name camera value =>
    refine ⟨⟨hcounters, hlabeled, hgauges.upsert _ _⟩, fun name' camera' => ?_,
      fun name' labels hlabels => ?_, h.keys, fun name' camera' => ?_, hplainCounters,
      hplainLabeled, fun entry hentry => ?_⟩
    · rw [filterMap_concat, amount?, Option.toList_none, List.append_nil]
      exact h.counters name' camera'
    · rw [filterMap_concat, labeled?, Option.toList_none, List.append_nil]
      exact h.labeled name' labels hlabels
    · rw [filterMap_concat, gauge?]
      show get (upsert _ _ m.gauges) _ = _
      rw [get_upsert hgauges]
      by_cases hsame : name = name' ∧ camera = camera'
      · obtain ⟨rfl, rfl⟩ := hsame
        rw [if_pos rfl, if_pos ⟨rfl, rfl⟩, Option.toList_some, List.getLast?_concat]
      · rw [if_neg (fun heq => hsame (key_inj.mp heq)), if_neg hsame, Option.toList_none,
          List.append_nil, h.gauges]
    · rcases SortedMap.key_of_mem_upsert hentry with hkey | hold
      · rw [hkey]
        exact hplain
      · exact hplainGauges entry hold

/-- All updates are counted. -/
theorem counts_updated (h : ∀ update ∈ updates, update.Plain) :
    Counts updates (updated updates) := by
  induction updates using List.reverseRecOn with
  | nil =>
    refine ⟨⟨sorted_nil, sorted_nil, sorted_nil⟩, fun _ _ => rfl, fun _ _ _ => rfl, ?_,
      fun _ _ => rfl, ?_, ?_, ?_⟩
    all_goals exact fun entry hentry => absurd hentry List.not_mem_nil
  | append_singleton updates update ih =>
    obtain ⟨hold, hnew⟩ := List.forall_mem_append.mp h
    rw [updated, List.foldl_append, List.foldl_cons, List.foldl_nil, ← updated]
    exact (ih hold).apply (hnew update (List.mem_singleton_self _))

end Totals

/-! ### The samples of the text -/

/-- The sample of a counter. -/
def counterSample (entry : Key × ℕ) : Sample :=
  ⟨(ofLex entry.1).1, [("camera", (ofLex entry.1).2)], toString entry.2⟩

/-- The sample of a gauge. -/
def gaugeSample (display : φ → String) (entry : Key × φ) : Sample :=
  ⟨(ofLex entry.1).1, [("camera", (ofLex entry.1).2)], display entry.2⟩

/-- The samples of one kind. -/
structure Listed (display : φ → String) (updates : List (Update φ)) (kind : Kind)
    (samples : List Sample) :
    Prop where
  wellFormed : ∀ sample ∈ samples, sample.WellFormed
  told : ∀ sample, sample ∈ samples ↔ Told display updates kind sample
  once : (samples.map Sample.series).Nodup

section Samples

variable {display : φ → String} {updates : List (Update φ)} {m : MetricValues φ} {kind : Kind}
  {sample : Sample}

/-- The images of elements are the image of a list. -/
theorem exists_map {α β : Type} {p : α → Prop} {f : α → β} {l : List β}
    (h : ∀ b ∈ l, ∃ a, p a ∧ f a = b) : ∃ as : List α, (∀ a ∈ as, p a) ∧ as.map f = l := by
  induction l with
  | nil => exact ⟨[], fun a ha => absurd ha List.not_mem_nil, rfl⟩
  | cons b l ih =>
    obtain ⟨hb, hl⟩ := List.forall_mem_cons.mp h
    obtain ⟨a, ha, rfl⟩ := hb
    obtain ⟨as, has, rfl⟩ := ih hl
    exact ⟨a :: as, List.forall_mem_cons.mpr ⟨ha, has⟩, rfl⟩

theorem newline_notMem (n : ℕ) : '\n' ∉ (toString n).toList := by
  intro hmem
  have hdigit := Decimal.isDigit_of_mem hmem
  revert hdigit
  decide

theorem plainName_of_all {name : String} (h : name.toList.all isNameChar = true) : PlainName name :=
  List.all_eq_true.mp h

theorem plainName_camera : PlainName "camera" := plainName_of_all (by decide)

theorem plain_cameraLabel (camera : String) :
    ∀ label ∈ [("camera", camera)], PlainName label.1 := by
  intro label hlabel
  rw [List.mem_singleton.mp hlabel]
  exact plainName_camera

theorem line_camera (name camera value : String) :
    (⟨name, [("camera", camera)], value⟩ : Sample).line =
    renderLine name.toList (cameraLabel camera) value.toList := by
  rw [Sample.line, renderLabels, List.map_singleton, Words.join_singleton, cameraLabel]

/-- Different keys of cameras are different series. -/
theorem camera_series_once {ν : Type} {entries : List (Key × ν)} (h : Sorted entries)
    {f : Key × ν → Sample}
    (hf : ∀ entry, (f entry).series = ((ofLex entry.1).1, [("camera", (ofLex entry.1).2)])) :
    ((entries.map f).map Sample.series).Nodup := by
  rw [List.map_map]
  refine List.pairwise_map.mpr (h.imp fun {entry entry'} hlt heq => ?_)
  rw [Function.comp_apply, Function.comp_apply, hf, hf] at heq
  obtain ⟨hname, hlabels⟩ := Prod.mk.inj heq
  have hcamera : (ofLex entry.1).2 = (ofLex entry'.1).2 := (Prod.mk.inj (List.cons.inj hlabels).1).2
  have hkey : entry.1 = entry'.1 := ofLex.injective (Prod.ext hname hcamera)
  exact hlt.ne hkey

/-- The counters are told, each once. -/
theorem counters_listed (h : Counts updates m) :
    Listed display updates .counter (m.counters.map counterSample) := by
  refine ⟨fun sample hsample => ?_, fun sample => ⟨fun hsample => ?_, fun htold => ?_⟩,
    camera_series_once h.sorted.1 fun entry => rfl⟩
  · obtain ⟨entry, hentry, rfl⟩ := List.mem_map.mp hsample
    exact ⟨h.plain.1 entry hentry, plain_cameraLabel _, newline_notMem _⟩
  · obtain ⟨⟨key, n⟩, hentry, rfl⟩ := List.mem_map.mp hsample
    have hget := (get_eq_some h.sorted.1).mpr hentry
    exact .counter ((h.counters _ _).symm.trans hget)
  · cases htold with
    | @counter name camera n htotal =>
      have hget := (h.counters name camera).trans htotal
      exact List.mem_map.mpr ⟨_, (get_eq_some h.sorted.1).mp hget, rfl⟩

/-- The gauges are told, each once. -/
theorem gauges_listed (hdisplay : ∀ value, '\n' ∉ (display value).toList) (h : Counts updates m) :
    Listed display updates .gauge (m.gauges.map (gaugeSample display)) := by
  refine ⟨fun sample hsample => ?_, fun sample => ⟨fun hsample => ?_, fun htold => ?_⟩,
    camera_series_once h.sorted.2.2 fun entry => rfl⟩
  · obtain ⟨entry, hentry, rfl⟩ := List.mem_map.mp hsample
    exact ⟨h.plain.2.2 entry hentry, plain_cameraLabel _, hdisplay _⟩
  · obtain ⟨⟨key, value⟩, hentry, rfl⟩ := List.mem_map.mp hsample
    have hget := (get_eq_some h.sorted.2.2).mpr hentry
    exact .gauge ((h.gauges _ _).symm.trans hget)
  · cases htold with
    | @gauge name camera value hlast =>
      have hget := (h.gauges name camera).trans hlast
      exact List.mem_map.mpr ⟨_, (get_eq_some h.sorted.2.2).mp hget, rfl⟩

/-- What was counted is an update. -/
theorem mem_of_total {f : Update φ → Option ℕ} {n : ℕ} (h : total (updates.filterMap f) = some n) :
    ∃ update ∈ updates, f update ≠ none := by
  rw [total] at h
  split at h
  · cases h
  · next hne =>
    obtain ⟨amount, hamount⟩ := List.exists_mem_of_ne_nil _ hne
    obtain ⟨update, hupdate, hsome⟩ := List.mem_filterMap.mp hamount
    exact ⟨update, hupdate, by rw [hsome]; exact Option.some_ne_none _⟩

/-- The text of the labels, back to the labels. -/
theorem labeled_listed (hplain : ∀ update ∈ updates, update.Plain) (h : Counts updates m) :
    ∃ samples : List Sample, Listed display updates .labeled samples ∧
      (m.labeled.flatMap fun entry => renderLine (ofLex entry.1).1.toList (ofLex entry.1).2.toList
        (toString entry.2).toList) = samples.flatMap Sample.line := by
  -- each entry has the labels of some update
  obtain ⟨named, hnamed, hmap⟩ : ∃ named : List ((String × List (String × String)) × ℕ),
      (∀ x ∈ named, ∀ label ∈ x.1.2, PlainName label.1) ∧
        named.map (fun x => (labelKey x.1.1 x.1.2, x.2)) = m.labeled := by
    refine exists_map fun entry hentry => ?_
    obtain ⟨name, labels, hlabels, hkey⟩ := h.keys entry hentry
    exact ⟨((name, labels), entry.2), hlabels, Prod.ext hkey.symm rfl⟩
  have hmem : ∀ x ∈ named, (labelKey x.1.1 x.1.2, x.2) ∈ m.labeled := by
    intro x hx
    rw [← hmap]
    exact List.mem_map.mpr ⟨x, hx, rfl⟩
  refine ⟨named.map fun x => ⟨x.1.1, x.1.2, toString x.2⟩, ⟨fun sample hsample => ?_,
    fun sample => ⟨fun hsample => ?_, fun htold => ?_⟩, ?_⟩, ?_⟩
  -- the lines are well formed, tell what was counted, and are there once
  · obtain ⟨x, hx, rfl⟩ := List.mem_map.mp hsample
    exact ⟨h.plain.2.1 _ (hmem x hx), hnamed x hx, newline_notMem _⟩
  · obtain ⟨x, hx, rfl⟩ := List.mem_map.mp hsample
    have hget := (get_eq_some h.sorted.2.1).mpr (hmem x hx)
    exact .labeled ((h.labeled _ _ (hnamed x hx)).symm.trans hget)
  · cases htold with
    | @labeled name labels n htotal =>
      -- these labels are those of an update
      have hlabels : ∀ label ∈ labels, PlainName label.1 := by
        obtain ⟨update, hupdate, hsome⟩ := mem_of_total htotal
        cases update with
        | add _ _ _ => exact absurd rfl hsome
        | gauge _ _ _ => exact absurd rfl hsome
        | labeled name' labels' =>
          rw [labeled?] at hsome
          split at hsome
          · next hsame =>
            rw [← hsame.2]
            exact (hplain _ hupdate).2
          · exact absurd rfl hsome
      have hget := (h.labeled name labels hlabels).trans htotal
      have hentry := (get_eq_some h.sorted.2.1).mp hget
      rw [← hmap] at hentry
      obtain ⟨x, hx, hsame⟩ := List.mem_map.mp hentry
      obtain ⟨hkey, hn⟩ := Prod.mk.inj hsame
      obtain ⟨hname, hsame⟩ := labelKey_inj (hnamed x hx) hlabels hkey
      refine List.mem_map.mpr ⟨x, hx, ?_⟩
      rw [hname, hsame, hn]
  · have hsorted := h.sorted.2.1
    rw [← hmap, Sorted, List.pairwise_map] at hsorted
    rw [List.map_map]
    refine List.pairwise_map.mpr (hsorted.imp fun {x x'} hlt heq => ?_)
    obtain ⟨hname, hlabels⟩ := Prod.mk.inj heq
    refine hlt.ne ?_
    show labelKey x.1.1 x.1.2 = labelKey x'.1.1 x'.1.2
    rw [show x.1.1 = x'.1.1 from hname, show x.1.2 = x'.1.2 from hlabels]
  -- the text is that of the samples
  · rw [← hmap, List.flatMap_map, List.flatMap_map]
    congr 1
    funext x
    show renderLine x.1.1.toList (String.ofList (renderLabels x.1.2)).toList _ = _
    rw [String.toList_ofList]
    rfl

/-- A sample is about what an update was about. -/
theorem Told.update (h : Told display updates kind sample) :
    ∃ update ∈ updates, update.kind = kind ∧ update.series = sample.series := by
  -- on what the sample tells
  cases h with
  | counter htotal =>
    obtain ⟨update, hupdate, hsome⟩ := mem_of_total htotal
    refine ⟨update, hupdate, ?_⟩
    cases update with
    | add name camera amount =>
      rw [amount?] at hsome
      split at hsome
      · next hsame => exact ⟨rfl, by rw [Update.series, Sample.series, hsame.1, hsame.2]⟩
      · exact absurd rfl hsome
    | labeled _ _ => exact absurd rfl hsome
    | gauge _ _ _ => exact absurd rfl hsome
  | labeled htotal =>
    obtain ⟨update, hupdate, hsome⟩ := mem_of_total htotal
    refine ⟨update, hupdate, ?_⟩
    cases update with
    | add _ _ _ => exact absurd rfl hsome
    | labeled name labels =>
      rw [labeled?] at hsome
      split at hsome
      · next hsame => exact ⟨rfl, by rw [Update.series, Sample.series, hsame.1, hsame.2]⟩
      · exact absurd rfl hsome
    | gauge _ _ _ => exact absurd rfl hsome
  | gauge hlast =>
    obtain ⟨update, hupdate, hsome⟩ := List.mem_filterMap.mp (List.mem_of_getLast? hlast)
    refine ⟨update, hupdate, ?_⟩
    cases update with
    | add _ _ _ => cases hsome
    | labeled _ _ => cases hsome
    | gauge name camera value =>
      rw [gauge?] at hsome
      split at hsome
      · next hsame => exact ⟨rfl, by rw [Update.series, Sample.series, hsame.1, hsame.2]⟩
      · cases hsome

/-- No series of one kind is one of another kind. -/
def Apart (updates : List (Update φ)) : Prop :=
  ∀ update ∈ updates, ∀ update' ∈ updates, update.series = update'.series →
    update.kind = update'.kind

/-- Samples of two kinds have no series in common, where the updates have none. -/
theorem Listed.disjoint {kind' : Kind} {samples samples' : List Sample}
    (h : Listed display updates kind samples) (h' : Listed display updates kind' samples')
    (hne : kind ≠ kind') (hapart : Apart updates) :
    (samples.map Sample.series).Disjoint (samples'.map Sample.series) := by
  intro series hseries hseries'
  obtain ⟨sample, hsample, rfl⟩ := List.mem_map.mp hseries
  obtain ⟨sample', hsample', hsame⟩ := List.mem_map.mp hseries'
  obtain ⟨update, hupdate, rfl, hfirst⟩ := ((h.told sample).mp hsample).update
  obtain ⟨update', hupdate', rfl, hsecond⟩ := ((h'.told sample').mp hsample').update
  exact hne (hapart _ hupdate _ hupdate' (hfirst.trans (hsame.symm.trans hsecond.symm)))

/-- **After any updates, the text is that of exactly one list of samples.** It has a sample for each
counter that was ever changed, with its sum or the largest number, and one for each gauge, with its
last value; and it has no others. If no two kinds share a series, then each series is there once. -/
theorem scrape (hdisplay : ∀ value, '\n' ∉ (display value).toList)
    (hplain : ∀ update ∈ updates, update.Plain) :
    ∃ samples : List Sample, (∀ sample ∈ samples, sample.WellFormed) ∧
      render display (updated updates) = samples.flatMap Sample.line ∧
      (∀ samples' : List Sample, (∀ sample ∈ samples', sample.WellFormed) →
        render display (updated updates) = samples'.flatMap Sample.line → samples' = samples) ∧
      (∀ sample, sample ∈ samples ↔ ∃ kind, Told display updates kind sample) ∧
      (Apart updates → (samples.map Sample.series).Nodup) := by
  -- the three kinds of metrics, one after the other in the text
  have hcounts := counts_updated hplain
  have hcounters : Listed display updates .counter _ := counters_listed hcounts
  have hgauges : Listed display updates .gauge _ := gauges_listed hdisplay hcounts
  obtain ⟨labeled, hlabeled, hlines⟩ := @labeled_listed φ display updates _ hplain hcounts
  have hrender : render display (updated updates) =
      ((updated updates).counters.map counterSample ++ labeled ++
        (updated updates).gauges.map (gaugeSample display)).flatMap Sample.line := by
    rw [render, hlines, List.flatMap_append, List.flatMap_append, List.flatMap_map,
      List.flatMap_map]
    simp only [counterSample, gaugeSample, line_camera]
  have hwellFormed := List.forall_mem_append.mpr
    ⟨List.forall_mem_append.mpr ⟨hcounters.wellFormed, hlabeled.wellFormed⟩, hgauges.wellFormed⟩
  refine ⟨_, hwellFormed, hrender, fun samples' hsamples' hsame => ?_, fun sample => ?_,
    fun hapart => ?_⟩
  · exact lines_injective hsamples' hwellFormed (hsame.symm.trans hrender)
  · rw [List.mem_append, List.mem_append, hcounters.told, hlabeled.told, hgauges.told]
    constructor
    · rintro ((h | h) | h)
      · exact ⟨_, h⟩
      · exact ⟨_, h⟩
      · exact ⟨_, h⟩
    · rintro ⟨kind, h⟩
      cases kind with
      | counter => exact .inl (.inl h)
      | labeled => exact .inl (.inr h)
      | gauge => exact .inr h
  · have hcounted := List.Nodup.append hcounters.once hlabeled.once
      (hcounters.disjoint hlabeled Kind.noConfusion hapart)
    have hdisjoint := List.disjoint_append_left.mpr
      ⟨hcounters.disjoint hgauges Kind.noConfusion hapart,
        hlabeled.disjoint hgauges Kind.noConfusion hapart⟩
    rw [List.map_append, List.map_append]
    exact List.Nodup.append hcounted hgauges.once hdisjoint

/-- Two cameras, one with a quote in its name, and a failed read. -/
theorem scrape_sample : ∃ samples : List Sample, (∀ sample ∈ samples, sample.WellFormed) ∧
    render (fun value : ℕ => toString value) (updated [.add "frames_total" "d\"or" 2,
      .labeled "failures_total" [("read", "snapshot")], .gauge "online" "hall" 1]) =
        samples.flatMap Sample.line := by
  have hplain :
      ∀ update ∈ ([.add "frames_total" "d\"or" 2, .labeled "failures_total" [("read", "snapshot")],
        .gauge "online" "hall" 1] : List (Update ℕ)), update.Plain := by
    intro update hupdate
    rcases List.mem_cons.mp hupdate with rfl | hupdate
    · exact plainName_of_all (by decide)
    rcases List.mem_cons.mp hupdate with rfl | hupdate
    · refine ⟨plainName_of_all (by decide), fun label hlabel => ?_⟩
      rw [List.mem_singleton.mp hlabel]
      exact plainName_of_all (by decide)
    · rw [List.mem_singleton.mp hupdate]
      exact plainName_of_all (by decide)
  obtain ⟨samples, hwellFormed, hrender, -⟩ :=
    @scrape ℕ (fun value => toString value) _ newline_notMem hplain
  exact ⟨samples, hwellFormed, hrender⟩

end Samples

end Metrics

end EzvizBridge
