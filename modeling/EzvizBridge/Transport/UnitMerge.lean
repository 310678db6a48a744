import EzvizBridge.Transport.Depacketize
import EzvizBridge.Transport.RtpTsUnits

/-!
# Cutting a queue that is released late

A start-up queue hands over its NALs later than they arrived, all at once and without the marker
bits between them. What does the cutter make of it? It cuts where the timestamp changes, so two
units of one timestamp that a marker or an empty item used to separate come out as one; everything
else is cut as before. `Merges` is this relation between the units of the prompt items and those of
the late ones.

* `Waiting` — while the queue fills: what the prompt items have been cut into, against what the
  queue would be cut into;
* `Released` — after the release, when both sides are given the same items;
* `waiting_data`, `waiting_empty`, `released_item` — the steps.
-/

namespace EzvizBridge

/-- A run of units with one timestamp: the timestamp, and the bytes of each unit. -/
abbrev UnitGroup := UInt32 × List Bytes

/-- The units of the groups, one by one. -/
def expandGroups (groups : List UnitGroup) : List AccessUnit :=
  groups.flatMap fun group => group.2.map fun data => (group.1, data)

/-- The groups as one unit each. -/
def mergeGroups (groups : List UnitGroup) : List AccessUnit :=
  groups.map fun group => (group.1, group.2.flatten)

/-- `late` is `prompt` with some adjacent units of equal timestamps put together. -/
def Merges (prompt late : List AccessUnit) : Prop :=
  ∃ groups : List UnitGroup, (∀ group ∈ groups, group.2 ≠ []) ∧
    prompt = expandGroups groups ∧ late = mergeGroups groups

theorem expandGroups_concat (groups : List UnitGroup) (t : UInt32) (parts : List Bytes) :
    expandGroups (groups ++ [(t, parts)]) = expandGroups groups ++ parts.map fun d => (t, d) := by
  simp only [expandGroups, List.flatMap_append, List.flatMap_cons, List.flatMap_nil,
    List.append_nil]

theorem mergeGroups_concat (groups : List UnitGroup) (t : UInt32) (parts : List Bytes) :
    mergeGroups (groups ++ [(t, parts)]) = mergeGroups groups ++ [(t, parts.flatten)] := by
  simp only [mergeGroups, List.map_append, List.map_cons, List.map_nil]

/-- The groups but the last are nonempty, and so is the last. -/
theorem ne_nil_concat {groups : List UnitGroup} {t : UInt32} {parts : List Bytes}
    (h : ∀ group ∈ groups, group.2 ≠ []) (hparts : parts ≠ []) :
    ∀ group ∈ groups ++ [(t, parts)], group.2 ≠ [] := by
  intro group hgroup
  rcases List.mem_append.1 hgroup with hmem | hmem
  · exact h group hmem
  · rw [List.mem_singleton.1 hmem]
    exact hparts

/-! ### While the queue fills -/

/-- The state of a cutter: the units it has closed, and the open one. -/
abbrev CutState := List AccessUnit × Option AccessUnit

/-- The cutter after one more item. -/
def CutState.next (state : CutState) (item : RtpOutput) : CutState :=
  (state.1 ++ (cutItem state.2 item).1, (cutItem state.2 item).2)

/-- `prompt` has cut the items as they came, `queue` the contents of the queue so far. The queue has
no markers, so its last group of one timestamp is its open unit. -/
def Waiting (prompt queue : CutState) : Prop :=
  (prompt = ([], none) ∧ queue = ([], none)) ∨
  ∃ (groups : List UnitGroup) (t : UInt32) (parts : List Bytes),
    (∀ group ∈ groups, group.2 ≠ []) ∧ parts ≠ [] ∧
    prompt.1 ++ prompt.2.toList = expandGroups groups ++ parts.map (fun d => (t, d)) ∧
    queue = (mergeGroups groups, some (t, parts.flatten))

/-- An empty item closes a unit or none; the units in order stay the same. -/
theorem cutItem_empty (current : Option AccessUnit) (t : UInt32) (marker : Bool) :
    (cutItem current (.video t marker [])).1 ++ (cutItem current (.video t marker [])).2.toList =
      current.toList := by
  cases current with
  | none => cases marker <;> rfl
  | some unit =>
    by_cases h : unit.1 = t <;> cases marker <;> simp [cutItem, h]

/-- An item without data changes neither cutter. -/
theorem waiting_empty {prompt queue : CutState} (h : Waiting prompt queue) (t : UInt32)
    (marker : Bool) : Waiting (prompt.next (.video t marker [])) queue := by
  rcases h with ⟨rfl, rfl⟩ | ⟨groups, t', parts, hgroups, hparts, hprompt, hqueue⟩
  · refine Or.inl ⟨?_, rfl⟩
    cases marker <;> rfl
  · refine Or.inr ⟨groups, t', parts, hgroups, hparts, ?_, hqueue⟩
    rw [CutState.next, List.append_assoc, cutItem_empty, hprompt]

/-- What a data item does to the open unit: it extends one of its own timestamp, and otherwise
opens a new unit behind it. -/
theorem cutItem_data (current : Option AccessUnit) (t : UInt32) (marker : Bool) {data : Bytes}
    (hdata : data ≠ []) :
    (∃ bytes, current = some (t, bytes) ∧
      cutItem current (.video t marker data) =
        if marker then ([(t, bytes ++ data)], none) else ([], some (t, bytes ++ data))) ∨
    ((∀ unit ∈ current, unit.1 ≠ t) ∧
      cutItem current (.video t marker data) =
        if marker then (current.toList ++ [(t, data)], none)
        else (current.toList, some (t, data))) := by
  -- there is no open unit, or it has this timestamp, or another one
  cases current with
  | none =>
    refine Or.inr ⟨fun _ h => (nomatch h), ?_⟩
    cases marker <;> simp [cutItem, hdata]
  | some unit =>
    obtain ⟨t', bytes⟩ := unit
    by_cases ht : t' = t
    · subst ht
      refine Or.inl ⟨bytes, rfl, ?_⟩
      cases marker <;> simp [cutItem, hdata]
    · refine Or.inr ⟨?_, ?_⟩
      · intro unit hunit
        obtain rfl := Option.some.inj hunit
        exact ht
      · cases marker <;> simp [cutItem, hdata, ht]

/-- The units in order, after a data item. -/
theorem total_data (prompt : CutState) (t : UInt32) (marker : Bool) {data : Bytes}
    (hdata : data ≠ []) :
    let total := (prompt.next (.video t marker data)).1 ++
      (prompt.next (.video t marker data)).2.toList
    (∃ bytes, prompt.2 = some (t, bytes) ∧ total = prompt.1 ++ [(t, bytes ++ data)]) ∨
    ((∀ unit ∈ prompt.2, unit.1 ≠ t) ∧
      total = prompt.1 ++ prompt.2.toList ++ [(t, data)]) := by
  intro total
  -- the open unit goes on, or it is closed
  rcases cutItem_data prompt.2 t marker hdata with ⟨bytes, hcur, hcut⟩ | ⟨hcur, hcut⟩
  · refine Or.inl ⟨bytes, hcur, ?_⟩
    simp only [total, CutState.next, hcut]
    cases marker <;> simp
  · refine Or.inr ⟨hcur, ?_⟩
    simp only [total, CutState.next, hcut]
    cases marker <;> simp

/-- The last unit of a group, taken off. -/
theorem concat_eq_group {front back : List AccessUnit} {t t' : UInt32} {bytes : Bytes}
    {parts : List Bytes} (hparts : parts ≠ [])
    (h : front ++ [(t, bytes)] = back ++ parts.map fun d => (t', d)) :
    t = t' ∧ ∃ init, parts = init ++ [bytes] ∧ front = back ++ init.map fun d => (t', d) := by
  obtain ⟨init, last, rfl⟩ := (List.eq_nil_or_concat parts).resolve_left hparts
  rw [List.concat_eq_append] at h ⊢
  rw [List.map_append, List.map_singleton, ← List.append_assoc] at h
  obtain ⟨hfront, hlast⟩ := List.append_inj' h rfl
  obtain ⟨rfl, rfl⟩ := Prod.mk.inj (List.singleton_inj.1 hlast)
  exact ⟨rfl, init, rfl, hfront⟩

/-- **One more NAL while the queue fills.** The prompt cutter may see a marker with it, the queue
never does. -/
theorem waiting_data {prompt queue : CutState} (h : Waiting prompt queue) (t : UInt32)
    (marker : Bool) {data : Bytes} (hdata : data ≠ []) :
    Waiting (prompt.next (.video t marker data)) (queue.next (.video t false data)) := by
  have htotal := total_data prompt t marker hdata
  dsimp only at htotal
  -- nothing is open yet, or a group is
  rcases h with ⟨rfl, rfl⟩ | ⟨groups, t', parts, hgroups, hparts, hprompt, rfl⟩
  · refine Or.inr ⟨[], t, [data], fun _ h => absurd h List.not_mem_nil,
      List.cons_ne_nil _ _, ?_, ?_⟩
    · rcases htotal with ⟨bytes, hcur, -⟩ | ⟨-, htotal⟩
      · exact nomatch hcur
      · exact htotal
    · simp [CutState.next, cutItem, hdata, mergeGroups]
  · rcases htotal with ⟨bytes, hcur, htotal⟩ | ⟨hcur, htotal⟩
    · -- the open unit of the prompt cutter goes on, and so does the last group
      rw [hcur, Option.toList_some] at hprompt
      obtain ⟨rfl, init, rfl, hfront⟩ := concat_eq_group hparts hprompt
      refine Or.inr ⟨groups, t, init ++ [bytes ++ data], hgroups, by simp, ?_, ?_⟩
      · rw [htotal, hfront]
        simp
      · simp [CutState.next, cutItem, hdata]
    · rw [hprompt] at htotal
      by_cases ht : t' = t
      · -- the prompt cutter opens a unit of the same timestamp, the queue goes on
        subst ht
        refine Or.inr ⟨groups, t', parts ++ [data], hgroups, by simp, ?_, ?_⟩
        · rw [htotal]
          simp
        · simp [CutState.next, cutItem, hdata]
      · refine Or.inr ⟨groups ++ [(t', parts)], t, [data], ne_nil_concat hgroups hparts,
          List.cons_ne_nil _ _, ?_, ?_⟩
        · rw [htotal, expandGroups_concat]
          simp
        · rw [mergeGroups_concat]
          simp [CutState.next, cutItem, hdata, ht]

/-! ### After the release -/

/-- `prompt` and `late` are given the same items from now on: both have no open unit, or the open
unit of `late` is that of `prompt` behind some closed units of the same timestamp. -/
def Released (prompt late : CutState) : Prop :=
  (prompt.2 = none ∧ late.2 = none ∧ Merges prompt.1 late.1) ∨
  ∃ (groups : List UnitGroup) (t : UInt32) (parts : List Bytes) (bytes : Bytes),
    (∀ group ∈ groups, group.2 ≠ []) ∧
    prompt = (expandGroups groups ++ parts.map (fun d => (t, d)), some (t, bytes)) ∧
    late = (mergeGroups groups, some (t, parts.flatten ++ bytes))

/-- The units in order are merged, the open ones included. -/
theorem Released.merges {prompt late : CutState} (h : Released prompt late) :
    Merges (prompt.1 ++ prompt.2.toList) (late.1 ++ late.2.toList) := by
  rcases h with ⟨hprompt, hlate, h⟩ | ⟨groups, t, parts, bytes, hgroups, rfl, rfl⟩
  · rwa [hprompt, hlate, Option.toList_none, List.append_nil, List.append_nil]
  · refine ⟨groups ++ [(t, parts ++ [bytes])], ne_nil_concat hgroups (by simp), ?_, ?_⟩
    · rw [expandGroups_concat]
      simp
    · rw [mergeGroups_concat]
      simp

theorem next_marker (state : CutState) (t : UInt32) (data : Bytes) :
    state.next (.video t true data) =
      ((state.next (.video t false data)).1 ++ (state.next (.video t false data)).2.toList,
        none) := by
  simp only [CutState.next, cutItem, if_true, Bool.false_eq_true, if_false, List.append_assoc]

/-- Two items of one timestamp, the first without a marker, are cut like one item. -/
theorem next_next (state : CutState) (t : UInt32) (marker : Bool) (data data' : Bytes) :
    (state.next (.video t false data)).next (.video t marker data') =
      state.next (.video t marker (data ++ data')) := by
  have hopen : (state.next (.video t false data)).next (.video t false data') =
      state.next (.video t false (data ++ data')) := by
    -- with or without an open unit, and with or without data
    obtain ⟨closed, current⟩ := state
    cases current with
    | none =>
      by_cases hdata : data = [] <;> by_cases hdata' : data' = [] <;>
        simp [CutState.next, cutItem, hdata, hdata']
    | some unit =>
      by_cases ht : unit.1 = t <;> by_cases hdata : data = [] <;> by_cases hdata' : data' = [] <;>
        simp [CutState.next, cutItem, hdata, hdata', ht]
  cases marker with
  | false => exact hopen
  | true => rw [next_marker, next_marker, hopen]

theorem Released.close {prompt late : CutState} (h : Released prompt late) :
    Released (prompt.1 ++ prompt.2.toList, none) (late.1 ++ late.2.toList, none) :=
  Or.inl ⟨rfl, rfl, h.merges⟩

/-- **The last NAL of the release.** Its packet's marker closes both. -/
theorem released_data {prompt queue : CutState} (h : Waiting prompt queue) (t : UInt32)
    (marker : Bool) {data : Bytes} (hdata : data ≠ []) :
    Released (prompt.next (.video t marker data)) (queue.next (.video t marker data)) := by
  -- without the marker first
  have hopen : Released (prompt.next (.video t false data)) (queue.next (.video t false data)) := by
    have hcur : ∃ bytes, (prompt.next (.video t false data)).2 = some (t, bytes) := by
      rcases cutItem_data prompt.2 t false hdata with ⟨bytes, -, hcut⟩ | ⟨-, hcut⟩
      · exact ⟨bytes ++ data, by rw [CutState.next, hcut]; rfl⟩
      · exact ⟨data, by rw [CutState.next, hcut]; rfl⟩
    obtain ⟨bytes, hcur⟩ := hcur
    rcases waiting_data h t false hdata with ⟨hnone, -⟩ |
      ⟨groups, t', parts, hgroups, hparts, hprompt, hqueue⟩
    · rw [hnone] at hcur
      exact nomatch hcur
    · rw [hcur, Option.toList_some] at hprompt
      obtain ⟨rfl, init, rfl, hfront⟩ := concat_eq_group hparts hprompt
      refine Or.inr ⟨groups, t, init, bytes, hgroups, Prod.ext hfront hcur, ?_⟩
      rw [hqueue, List.flatten_append, List.flatten_singleton]
  cases marker with
  | false => exact hopen
  | true =>
    rw [next_marker, next_marker]
    exact hopen.close

/-- **One item after the release**, the same on both sides. -/
theorem released_item {prompt late : CutState} (h : Released prompt late) (item : RtpOutput) :
    Released (prompt.next item) (late.next item) := by
  -- it is enough to open a unit behind what is closed, or to leave the open one
  have hfresh : ∀ {p l : CutState}, p.2 = none → l.2 = none → Merges p.1 l.1 →
      ∀ (t : UInt32) (data : Bytes),
        Released (p.next (.video t false data)) (l.next (.video t false data)) := by
    rintro ⟨p, -⟩ ⟨l, -⟩ rfl rfl ⟨groups, hgroups, rfl, rfl⟩ t data
    by_cases hdata : data = []
    · subst hdata
      exact Or.inl ⟨rfl, rfl, groups, hgroups, by simp [CutState.next, cutItem], by
        simp [CutState.next, cutItem]⟩
    · refine Or.inr ⟨groups, t, [], data, hgroups, ?_, ?_⟩ <;>
        simp [CutState.next, cutItem, hdata]
  cases item with
  | other type t payload =>
    have hsame : ∀ state : CutState, state.next (.other type t payload) = state := by
      intro state
      simp only [CutState.next, cutItem, List.append_nil]
    rw [hsame, hsame]
    exact h
  | video t marker data =>
    have hopen : Released (prompt.next (.video t false data))
        (late.next (.video t false data)) := by
      rcases h with ⟨hprompt, hlate, h⟩ | ⟨groups, t', parts, bytes, hgroups, rfl, rfl⟩
      · exact hfresh hprompt hlate h t data
      · by_cases ht : t' = t
        · subst ht
          refine Or.inr ⟨groups, t', parts, bytes ++ data, hgroups, ?_, ?_⟩ <;>
            by_cases hdata : data = [] <;> simp [CutState.next, cutItem, hdata]
        · -- the open units are closed first
          have hclosed : ∀ (closed : List AccessUnit) (b : Bytes),
              CutState.next (closed, some (t', b)) (.video t false data) =
                CutState.next (closed ++ [(t', b)], none) (.video t false data) := by
            intro closed b
            by_cases hdata : data = [] <;> simp [CutState.next, cutItem, ht, hdata]
          rw [hclosed, hclosed]
          refine hfresh rfl rfl ?_ t data
          refine ⟨groups ++ [(t', parts ++ [bytes])], ne_nil_concat hgroups (by simp), ?_, ?_⟩
          · rw [expandGroups_concat]
            simp
          · rw [mergeGroups_concat]
            simp
    cases marker with
    | false => exact hopen
    | true =>
      rw [next_marker, next_marker]
      exact hopen.close

/-- The items after the release. -/
theorem released_items {prompt late : CutState} (h : Released prompt late)
    (items : List RtpOutput) :
    Released (items.foldl CutState.next prompt) (items.foldl CutState.next late) := by
  induction items generalizing prompt late with
  | nil => exact h
  | cons item items ih => exact ih (released_item h item)

/-! ### Whole sessions -/

/-- The cutter, item by item. -/
theorem foldl_next (state : CutState) (items : List RtpOutput) :
    items.foldl CutState.next state =
      (state.1 ++ (cut state.2 items).1, (cut state.2 items).2) := by
  induction items generalizing state with
  | nil => simp only [List.foldl_nil, cut, List.append_nil]
  | cons item items ih =>
    rw [List.foldl_cons, ih]
    simp only [CutState.next, cut, List.append_assoc]

theorem cut_eq_foldl (items : List RtpOutput) :
    cut none items = items.foldl CutState.next ([], none) := by
  rw [foldl_next, List.nil_append]

theorem unitsOf_eq_foldl (items : List RtpOutput) :
    unitsOf items = (items.foldl CutState.next ([], none)).1 ++
      (items.foldl CutState.next ([], none)).2.toList := by
  rw [unitsOf, cut_eq_foldl]

/-- Packets of other types have no part in the cutting. -/
theorem cut_filter_isVideo (current : Option AccessUnit) (items : List RtpOutput) :
    cut current (items.filter RtpOutput.isVideo) = cut current items := by
  induction items generalizing current with
  | nil => rfl
  | cons item items ih =>
    cases item with
    | video t marker data =>
      rw [List.filter_cons_of_pos rfl, cut, cut]
      simp only [ih]
    | other type t payload =>
      rw [List.filter_cons_of_neg Bool.false_ne_true, ih, cut]
      simp only [cutItem, List.nil_append]

theorem unitsOf_filter_isVideo (items : List RtpOutput) :
    unitsOf (items.filter RtpOutput.isVideo) = unitsOf items := by
  rw [unitsOf, unitsOf, cut_filter_isVideo]

/-- When no two neighbours have the same timestamp, nothing is merged. -/
theorem Merges.eq_of_isChain {prompt late : List AccessUnit} (h : Merges prompt late)
    (hchain : (prompt.map Prod.fst).IsChain (· ≠ ·)) : late = prompt := by
  obtain ⟨groups, hgroups, rfl, rfl⟩ := h
  -- on the groups
  induction groups with
  | nil => rfl
  | cons group groups ih =>
    obtain ⟨t, parts⟩ := group
    have hexpand : expandGroups ((t, parts) :: groups) =
        parts.map (fun d => (t, d)) ++ expandGroups groups := rfl
    rw [hexpand, List.map_append] at hchain
    have hrest := ih (fun g hg => hgroups g (List.mem_cons_of_mem _ hg))
      hchain.right_of_append
    -- a group of two units would be two neighbours with one timestamp
    match parts, hgroups (t, parts) List.mem_cons_self with
    | [data], _ =>
      rw [hexpand, ← hrest]
      simp [mergeGroups]
    | a :: b :: parts, _ =>
      have hpair := hchain.left_of_append
      simp only [List.map_cons, List.isChain_cons_cons, ne_eq, not_true_eq_false,
        false_and] at hpair

end EzvizBridge
