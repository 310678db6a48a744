import EzvizBridge.Alarms.Feed

/-!
# Browsing the history

A client reads the newest page and then follows `older`, page by page, while alarms are published
and evicted. The numbers make this safe: a page lies below the cursor, the cursor is the lowest
number of the page before, and what is new has higher numbers than anything that was there at the
first read. What is evicted in the meantime is missed, and nothing else (`walk_spec`).
-/

namespace EzvizBridge

namespace Alarms

open Recordings (Persist)

/-! ### One page -/

namespace CameraHistory

variable {self : CameraHistory} {before : Option ℕ} {limit : ℕ}

/-- The entry is below the cursor, if there is one. -/
def Below (before : Option ℕ) (e : Entry) : Prop := ∀ cursor ∈ before, e.sequence < cursor

/-- The entries below the cursor. -/
def below (self : CameraHistory) (before : Option ℕ) : List Entry :=
  self.events.filter fun entry =>
    match before with
    | none => true
    | some before => entry.sequence < before

theorem mem_below {e : Entry} : e ∈ self.below before ↔ e ∈ self.events ∧ Below before e := by
  rw [below, List.mem_filter]
  cases before with
  | none => simp [Below]
  | some cursor => simp [Below]

/-- A page: the last entries below the cursor, and the cursor of the next page if there are more. -/
theorem page_spec (h : self.Indexed) (hlimit : 0 < limit) :
    (self.page before limit).1.Sublist self.events ∧
      (∀ e ∈ (self.page before limit).1, Below before e) ∧
      (∀ s, (self.page before limit).2 = some s →
        (self.page before limit).1.length = limit ∧
        (∀ e ∈ (self.page before limit).1, s ≤ e.sequence) ∧
        (∃ e ∈ (self.page before limit).1, e.sequence = s) ∧
        ∃ e ∈ self.events, e.sequence < s) ∧
      (∀ e ∈ self.events, Below before e → (∀ s ∈ (self.page before limit).2, s ≤ e.sequence) →
        e ∈ (self.page before limit).1) := by
  have hsub : ((self.below before).drop ((self.below before).length - limit)).Sublist self.events :=
    (List.drop_sublist _ _).trans List.filter_sublist
  have hsorted : (self.below before).Pairwise fun a b => a.sequence < b.sequence :=
    h.window.pairwise.sublist List.filter_sublist
  have hpage : self.page before limit =
      ((self.below before).drop ((self.below before).length - limit),
        if 0 < (self.below before).length - limit then
          ((self.below before).drop ((self.below before).length - limit)).head?.map (·.sequence)
        else none) := rfl
  rw [hpage]
  refine ⟨hsub, fun e he => (mem_below.mp (List.mem_of_mem_drop he)).2, ?_, ?_⟩
  · intro s hs
    dsimp only at hs ⊢
    split_ifs at hs with hskip
    obtain ⟨first, hfirst, rfl⟩ := Option.map_eq_some_iff.mp hs
    obtain ⟨rest, hrest⟩ := List.head?_eq_some_iff.mp hfirst
    have hparts := List.take_append_drop ((self.below before).length - limit) (self.below before)
    rw [← hparts, List.pairwise_append] at hsorted
    obtain ⟨-, hpage, hacross⟩ := hsorted
    refine ⟨by rw [List.length_drop]; omega, ?_, ?_, ?_⟩
    · intro e he
      rw [hrest] at he hpage
      rcases List.mem_cons.mp he with rfl | he
      · exact Nat.le_refl _
      · exact Nat.le_of_lt ((List.pairwise_cons.mp hpage).1 e he)
    · exact ⟨first, hrest ▸ List.mem_cons_self .., rfl⟩
    · -- something was skipped, and it is older
      have hpos : 0 < ((self.below before).take ((self.below before).length - limit)).length := by
        rw [List.length_take]
        omega
      obtain ⟨e, he⟩ := List.exists_mem_of_length_pos hpos
      have hlt := hacross e he first (hrest ▸ List.mem_cons_self ..)
      exact ⟨e, (mem_below.mp (List.mem_of_mem_take he)).1, hlt⟩
  · intro e he hbelow hbound
    have hmem : e ∈ self.below before := mem_below.mpr ⟨he, hbelow⟩
    dsimp only at hbound ⊢
    rw [← List.take_append_drop ((self.below before).length - limit)
      (self.below before)] at hmem hsorted
    rcases List.mem_append.mp hmem with hmem | hmem
    · -- it was not skipped, as it is not below the first entry of the page
      exfalso
      have hskip : 0 < (self.below before).length - limit := by
        have := List.length_pos_of_mem hmem
        rw [List.length_take] at this
        omega
      have hpos : 0 < ((self.below before).drop ((self.below before).length - limit)).length := by
        rw [List.length_drop]
        omega
      obtain ⟨first, rest, hrest⟩ := List.exists_cons_of_length_pos hpos
      rw [if_pos hskip, hrest] at hbound
      have hle := hbound first.sequence rfl
      have hlt := (List.pairwise_append.mp hsorted).2.2 e hmem first (hrest ▸ List.mem_cons_self ..)
      omega
    · exact hmem

/-- The alarms that are kept, by number and id. -/
def pairs (self : CameraHistory) : List (ℕ × String) :=
  self.events.map fun e => (e.sequence, e.record.id)

theorem mem_pairs {q : ℕ × String} :
    q ∈ self.pairs ↔ ∃ e ∈ self.events, e.sequence = q.1 ∧ e.record.id = q.2 := by
  rw [pairs, List.mem_map]
  constructor
  · rintro ⟨e, he, rfl⟩
    exact ⟨e, he, rfl, rfl⟩
  · rintro ⟨e, he, h₁, h₂⟩
    exact ⟨e, he, Prod.ext h₁ h₂⟩

/-- What is there later had been there before, unless it is new. -/
theorem Grows.mem_pairs {later : CameraHistory} {q : ℕ × String} (h : Grows self later)
    (hq : q ∈ later.pairs) (hle : q.1 ≤ self.head) : q ∈ self.pairs := by
  obtain ⟨e, he, h₁, h₂⟩ := CameraHistory.mem_pairs.mp hq
  have hold := h.old e.bare (mem_alarms_of_mem he) (by show e.sequence ≤ _; omega)
  obtain ⟨e', he', heq⟩ := List.mem_map.mp hold
  have hid : e'.bare.record.id = e.bare.record.id := congrArg (fun e : Entry => e.record.id) heq
  have hsequence : e'.bare.sequence = e.bare.sequence := congrArg Entry.sequence heq
  exact CameraHistory.mem_pairs.mpr ⟨e', he', hsequence.trans h₁, hid.trans h₂⟩

theorem le_head_of_mem_pairs {q : ℕ × String} (h : self.Indexed) (hq : q ∈ self.pairs) :
    q.1 ≤ self.head := by
  obtain ⟨e, he, h₁, -⟩ := CameraHistory.mem_pairs.mp hq
  exact h₁ ▸ h.window.number_le he

end CameraHistory

/-! ### Page after page -/

/-- The number and the id of an event. -/
def AlarmEvent.pair (self : AlarmEvent) : ℕ × String := (self.sequence, self.id)

/-- All events of the page are below the cursor. -/
def AlarmBatch.Under (cursor : Option ℕ) (batch : AlarmBatch) : Prop :=
  ∀ e ∈ batch.events, ∀ before ∈ cursor, e.sequence < before

/-- A client reads the newest page and then follows `older`, with anything published in between: the
pages it has got, and the slot at its last request. -/
inductive Walk (first : CameraSlot) : List AlarmBatch → CameraSlot → Prop
  | read : Walk first [first.recentBatch] first
  | follow {batches : List AlarmBatch} {batch : AlarmBatch} {slot later : CameraSlot} {before : ℕ} :
      Walk first (batches ++ [batch]) slot → batch.older = some before →
      CameraSlot.Evolves slot later →
      Walk first (batches ++ [batch] ++ [later.historyBatch before]) later

/-- A page of 50 alarms, as it is answered. -/
theorem batch_spec {slot : CameraSlot} {before : Option ℕ} {batch : AlarmBatch} (h : slot.Ordered)
    (hevents : batch.events = (slot.history.page before maxBatch).1.map Entry.event)
    (holder : batch.older = (slot.history.page before maxBatch).2) :
    (batch.events.Pairwise fun a b => a.sequence < b.sequence) ∧ batch.Under before ∧
      (∀ e ∈ batch.events, e.pair ∈ slot.history.pairs) ∧
      (∀ s, batch.older = some s →
        batch.events.length = maxBatch ∧ (∀ e ∈ batch.events, s ≤ e.sequence) ∧
        (∃ e ∈ batch.events, e.sequence = s) ∧ ∃ q ∈ slot.history.pairs, q.1 < s) ∧
      (∀ q ∈ slot.history.pairs, (∀ cursor ∈ before, q.1 < cursor) →
        (∀ s ∈ batch.older, s ≤ q.1) → ∃ e ∈ batch.events, e.pair = q) := by
  obtain ⟨hsub, hbelow, holder', hcomplete⟩ :=
    @CameraHistory.page_spec slot.history before maxBatch h.indexed (by decide)
  rw [hevents, holder]
  refine ⟨?_, ?_, ?_, ?_, ?_⟩
  · rw [List.pairwise_map]
    exact h.indexed.window.pairwise.sublist hsub
  · intro e he cursor hcursor
    rw [hevents] at he
    obtain ⟨entry, hentry, rfl⟩ := List.mem_map.mp he
    exact hbelow entry hentry cursor hcursor
  · intro e he
    obtain ⟨entry, hentry, rfl⟩ := List.mem_map.mp he
    exact CameraHistory.mem_pairs.mpr ⟨entry, hsub.subset hentry, rfl, rfl⟩
  -- a cursor is the lowest sequence of a full page
  · intro s hs
    obtain ⟨hlength, hle, ⟨lowest, hlowest, hs'⟩, older, holder, hlt⟩ := holder' s hs
    refine ⟨(List.length_map _).trans hlength, ?_,
      ⟨lowest.event, List.mem_map_of_mem hlowest, hs'⟩, (older.sequence, older.record.id), ?_, hlt⟩
    · intro e he
      obtain ⟨entry, hentry, rfl⟩ := List.mem_map.mp he
      exact hle entry hentry
    · exact CameraHistory.mem_pairs.mpr ⟨older, holder, rfl, rfl⟩
  -- nothing between the two cursors is left out
  · intro q hq hcursor hbound
    obtain ⟨entry, hentry, h₁, h₂⟩ := CameraHistory.mem_pairs.mp hq
    have hmem := hcomplete entry hentry (fun cursor hc => h₁.symm ▸ hcursor cursor hc)
      (fun s hs => h₁.symm ▸ hbound s hs)
    exact ⟨entry.event, List.mem_map_of_mem hmem, Prod.ext h₁ h₂⟩

/-- What holds after every page. The last page is `last`. -/
structure Walked (first : CameraSlot) (batches : List AlarmBatch) (last : AlarmBatch)
    (slot : CameraSlot) : Prop where
  ordered : slot.Ordered
  grows : CameraHistory.Grows first.history slot.history
  ascending : ∀ b ∈ batches ++ [last], b.events.Pairwise fun a b => a.sequence < b.sequence
  descending : (batches ++ [last]).Pairwise fun b b' =>
    ∀ e ∈ b.events, ∀ e' ∈ b'.events, e'.sequence < e.sequence
  known : ∀ b ∈ batches ++ [last], ∀ e ∈ b.events, e.pair ∈ first.history.pairs
  whole : ∀ b ∈ batches, b.events.length = maxBatch
  older : ∀ s, last.older = some s →
    last.events.length = maxBatch ∧ (∀ b ∈ batches ++ [last], ∀ e ∈ b.events, s ≤ e.sequence) ∧
      (∃ e ∈ last.events, e.sequence = s) ∧ ∃ q ∈ first.history.pairs, q.1 < s
  complete : ∀ q ∈ first.history.pairs, q ∈ slot.history.pairs → (∀ s ∈ last.older, s ≤ q.1) →
    ∃ b ∈ batches ++ [last], ∃ e ∈ b.events, e.pair = q
  count : batches = [] ∨ maxBatch * batches.length < first.history.events.length

section Walked

variable {first slot later : CameraSlot} {batches : List AlarmBatch} {last : AlarmBatch}

/-- No number is answered twice. -/
theorem Walked.nodup (h : Walked first batches last slot) :
    (((batches ++ [last]).map (·.events)).flatten.map AlarmEvent.pair).Nodup := by
  rw [List.map_flatten, List.nodup_flatten]
  constructor
  -- within one page
  · intro page hpage
    obtain ⟨events, hevents, rfl⟩ := List.mem_map.mp hpage
    obtain ⟨b, hb, rfl⟩ := List.mem_map.mp hevents
    have hascending := h.ascending b hb
    rw [List.Nodup, List.pairwise_map]
    refine hascending.imp fun hlt heq => ?_
    have := congrArg Prod.fst heq
    unfold AlarmEvent.pair at this
    dsimp only at this
    omega
  -- across two pages
  · rw [List.pairwise_map, List.pairwise_map]
    refine h.descending.imp fun hbelow => ?_
    intro q hq hq'
    obtain ⟨e, he, rfl⟩ := List.mem_map.mp hq
    obtain ⟨e', he', heq⟩ := List.mem_map.mp hq'
    have hlt := hbelow e he e' he'
    have := congrArg Prod.fst heq
    unfold AlarmEvent.pair at this
    dsimp only at this
    omega

/-- As long as there is an older page, the pages are full, and an alarm is left that was there at
the first read. -/
theorem Walked.count_lt {s : ℕ} (h : Walked first batches last slot) (hs : last.older = some s) :
    maxBatch * (batches.length + 1) < first.history.events.length := by
  obtain ⟨hlength, hbound, -, q, hq, hlt⟩ := h.older s hs
  have htotal : ((batches ++ [last]).map (·.events)).flatten.length =
      maxBatch * (batches.length + 1) := by
    have hsizes : ∀ b ∈ batches ++ [last], b.events.length = maxBatch := by
      intro b hb
      rcases List.mem_append.mp hb with hb | hb
      · exact h.whole b hb
      · exact List.mem_singleton.mp hb ▸ hlength
    rw [List.length_flatten, List.map_map, Function.comp_def,
      List.map_congr_left (g := fun _ => maxBatch) hsizes]
    simp [Nat.mul_comm, Nat.mul_succ]
  -- that alarm and those of the pages are different alarms of the first state
  have hnodup : (q :: ((batches ++ [last]).map (·.events)).flatten.map AlarmEvent.pair).Nodup := by
    refine List.nodup_cons.mpr ⟨fun hmem => ?_, h.nodup⟩
    obtain ⟨e, he, rfl⟩ := List.mem_map.mp hmem
    obtain ⟨events, hevents, he⟩ := List.mem_flatten.mp he
    obtain ⟨b, hb, rfl⟩ := List.mem_map.mp hevents
    have hle := hbound b hb e he
    have hlt' : e.sequence < s := hlt
    omega
  have hsubset : q :: ((batches ++ [last]).map (·.events)).flatten.map AlarmEvent.pair ⊆
      first.history.pairs := by
    intro p hp
    rcases List.mem_cons.mp hp with rfl | hp
    · exact hq
    · obtain ⟨e, he, rfl⟩ := List.mem_map.mp hp
      obtain ⟨events, hevents, he⟩ := List.mem_flatten.mp he
      obtain ⟨b, hb, rfl⟩ := List.mem_map.mp hevents
      exact h.known b hb e he
  have hle := (List.subperm_of_subset hnodup hsubset).length_le
  rw [List.length_cons, List.length_map, htotal, CameraHistory.pairs, List.length_map] at hle
  omega

theorem walked_read (h : first.Ordered) : Walked first [] first.recentBatch first := by
  obtain ⟨hascending, -, hknown, holder, hcomplete⟩ :=
    @batch_spec first none first.recentBatch h rfl rfl
  refine { ordered := h, grows := CameraHistory.Grows.refl _, ascending := ?_,
           descending := List.pairwise_singleton _ _, known := ?_,
           whole := fun b hb => absurd hb List.not_mem_nil, older := ?_, complete := ?_,
           count := .inl rfl }
  · exact fun b hb => List.mem_singleton.mp hb ▸ hascending
  · exact fun b hb => List.mem_singleton.mp hb ▸ hknown
  · intro s hs
    obtain ⟨hlength, hle, hlowest, hleft⟩ := holder s hs
    exact ⟨hlength, fun b hb => List.mem_singleton.mp hb ▸ hle, hlowest, hleft⟩
  · intro q hq _ hbound
    obtain ⟨e, he, heq⟩ := hcomplete q hq (fun _ hc => nomatch hc) hbound
    exact ⟨_, List.mem_singleton.mpr rfl, e, he, heq⟩

theorem Walked.follow {before : ℕ} (hfirst : first.Ordered) (h : Walked first batches last slot)
    (holder : last.older = some before) (hevolves : CameraSlot.Evolves slot later) :
    Walked first (batches ++ [last]) (later.historyBatch before) later := by
  obtain ⟨hordered, hgrows⟩ := hevolves.spec h.ordered
  have hgrows' := h.grows.trans hgrows
  obtain ⟨hascending, hunder, hthere, hnext, hcomplete⟩ :=
    @batch_spec later (some before) (later.historyBatch before) hordered rfl rfl
  obtain ⟨hlength, hbound, ⟨lowest, hlowest, hlowest'⟩, -⟩ := h.older before holder
  -- everything below the cursor was there at the first read
  have hhead : before ≤ first.history.head := by
    have hmem := h.known last (List.mem_append_right _ (List.mem_singleton.mpr rfl)) lowest hlowest
    have := CameraHistory.le_head_of_mem_pairs hfirst.indexed hmem
    unfold AlarmEvent.pair at this
    dsimp only at this
    omega
  have hold : ∀ q ∈ later.history.pairs, q.1 < before → q ∈ first.history.pairs :=
    fun q hq hlt => hgrows'.mem_pairs hq (by omega)
  have hlt : ∀ e ∈ (later.historyBatch before).events, e.sequence < before :=
    fun e he => hunder e he before rfl
  refine { ordered := hordered, grows := hgrows', ascending := ?_, descending := ?_, known := ?_,
           whole := ?_, older := ?_, complete := ?_, count := .inr ?_ }
  · intro b hb
    rcases List.mem_append.mp hb with hb | hb
    · exact h.ascending b hb
    · exact List.mem_singleton.mp hb ▸ hascending
  · rw [List.pairwise_append]
    refine ⟨h.descending, List.pairwise_singleton _ _, ?_⟩
    intro b hb b' hb' e he e' he'
    obtain rfl := List.mem_singleton.mp hb'
    exact Nat.lt_of_lt_of_le (hlt e' he') (hbound b hb e he)
  · intro b hb e he
    rcases List.mem_append.mp hb with hb | hb
    · exact h.known b hb e he
    · obtain rfl := List.mem_singleton.mp hb
      exact hold _ (hthere e he) (hlt e he)
  · intro b hb
    rcases List.mem_append.mp hb with hb | hb
    · exact h.whole b hb
    · exact List.mem_singleton.mp hb ▸ hlength
  · intro s hs
    obtain ⟨hlength', hle, ⟨e, he, hes⟩, q, hq, hqs⟩ := hnext s hs
    have hsb : s < before := hes ▸ hlt e he
    refine ⟨hlength', fun b hb e' he' => ?_, ⟨e, he, hes⟩, q, hold q hq (by omega), hqs⟩
    rcases List.mem_append.mp hb with hb | hb
    · have := hbound b hb e' he'
      omega
    · exact hle e' (List.mem_singleton.mp hb ▸ he')
  · intro q hq hq' hs
    by_cases hcursor : before ≤ q.1
    · -- it is on an earlier page
      have hqs : q ∈ slot.history.pairs :=
        hgrows.mem_pairs hq'
          ((CameraHistory.le_head_of_mem_pairs hfirst.indexed hq).trans h.grows.head)
      obtain ⟨b, hb, e, he, heq⟩ := h.complete q hq hqs (fun s hs => by
        obtain rfl := Option.some.inj (holder.symm.trans hs)
        exact hcursor)
      exact ⟨b, List.mem_append_left _ hb, e, he, heq⟩
    · obtain ⟨e, he, heq⟩ := hcomplete q hq' (fun c hc => by
        obtain rfl := Option.some.inj hc
        omega) hs
      exact ⟨_, List.mem_append_right _ (List.mem_singleton.mpr rfl), e, he, heq⟩
  · rw [List.length_append, List.length_singleton]
    exact h.count_lt holder

theorem walked_of_walk {pages : List AlarmBatch} (hfirst : first.Ordered)
    (h : Walk first pages slot) :
    ∃ batches last, pages = batches ++ [last] ∧ Walked first batches last slot := by
  induction h with
  | read => exact ⟨[], _, rfl, walked_read hfirst⟩
  | follow _ holder hevolves ih =>
    obtain ⟨batches, last, heq, hwalked⟩ := ih
    obtain ⟨rfl, hlast⟩ := List.append_inj' heq rfl
    obtain rfl := List.singleton_inj.mp hlast
    exact ⟨_, _, rfl, hwalked.follow hfirst holder hevolves⟩

/-- No alarm is answered twice. -/
theorem Walked.ids_nodup (hfirst : first.Ordered) (h : Walked first batches last slot) :
    (((batches ++ [last]).map (·.events)).flatten.map AlarmEvent.id).Nodup := by
  have hids : ((batches ++ [last]).map (·.events)).flatten.map AlarmEvent.id =
      (((batches ++ [last]).map (·.events)).flatten.map AlarmEvent.pair).map Prod.snd := by
    rw [List.map_map]
    rfl
  rw [hids]
  refine h.nodup.map_on fun q hq q' hq' heq => ?_
  have hpairs : ∀ p ∈ ((batches ++ [last]).map (·.events)).flatten.map AlarmEvent.pair,
      p ∈ first.history.pairs := by
    intro p hp
    obtain ⟨e, he, rfl⟩ := List.mem_map.mp hp
    obtain ⟨events, hevents, he⟩ := List.mem_flatten.mp he
    obtain ⟨b, hb, rfl⟩ := List.mem_map.mp hevents
    exact h.known b hb e he
  -- the ids of the first state are different
  obtain ⟨e, he, h₁, h₂⟩ := CameraHistory.mem_pairs.mp (hpairs q hq)
  obtain ⟨e', he', h₁', h₂'⟩ := CameraHistory.mem_pairs.mp (hpairs q' hq')
  have hsame : e = e' :=
    List.inj_on_of_nodup_map hfirst.indexed.distinct he he' ((h₂.trans heq).trans h₂'.symm)
  subst hsame
  exact Prod.ext (h₁.symm.trans h₁') heq

end Walked

/-- **Browsing under concurrent inserts.** Whatever is published and evicted while a client goes
from page to page, the pages are in order and below each other, no alarm is answered twice, and
there are at most `⌈limit / 50⌉` of them. Every alarm that was there at the first read and is still
there at the last one is answered exactly once. -/
theorem walk_spec {file : Option HistoryFile} {pictures : Finset String} {binding : String}
    {pictureBudget limit : ℕ} {persist : Persist} {first slot : CameraSlot}
    {pages : List AlarmBatch} (hlimit : 1 ≤ limit)
    (hfirst : CameraSlot.Evolves
      (CameraSlot.start file pictures binding pictureBudget limit persist) first)
    (hwalk : Walk first pages slot) :
    (∀ b ∈ pages, b.events.Pairwise fun e e' => e.sequence < e'.sequence) ∧
      (pages.Pairwise fun b b' => ∀ e ∈ b.events, ∀ e' ∈ b'.events, e'.sequence < e.sequence) ∧
      ((pages.map (·.events)).flatten.map AlarmEvent.id).Nodup ∧
      pages.length ≤ (limit + 49) / 50 ∧
      (∀ last ∈ pages.getLast?, last.older = none →
        ∀ q ∈ first.history.pairs, q ∈ slot.history.pairs →
          ((pages.map (·.events)).flatten.map AlarmEvent.pair).count q = 1) := by
  have hstart := CameraSlot.ordered_start file pictures binding pictureBudget limit persist
  obtain ⟨hordered, hgrows⟩ := hfirst.spec hstart
  have hlimit' : first.history.limit = limit :=
    hgrows.limit.trans
      (CameraHistory.indexed_load file pictures binding pictureBudget limit persist).2.2.1
  obtain ⟨batches, last, rfl, h⟩ := walked_of_walk hordered hwalk
  refine ⟨h.ascending, h.descending, h.ids_nodup hordered, ?_, ?_⟩
  · rw [List.length_append, List.length_singleton]
    rcases h.count with rfl | hcount
    · rw [List.length_nil]
      omega
    · have hsize := hordered.size
      rw [maxBatch] at hcount
      omega
  -- without a further cursor the walk is complete
  · intro last' hlast hend q hq hq'
    rw [List.getLast?_append, List.getLast?_singleton] at hlast
    obtain rfl := Option.some.inj hlast
    obtain ⟨b, hb, e, he, rfl⟩ := h.complete q hq hq' (fun s hs => nomatch hend.symm.trans hs)
    refine List.count_eq_one_of_mem h.nodup (List.mem_map_of_mem ?_)
    exact List.mem_flatten.mpr ⟨b.events, List.mem_map_of_mem hb, he⟩

def sampleSlot : CameraSlot :=
  ((CameraSlot.start none ∅ "front" 0 52 .ok).publish
    ((List.range 52).map fun n => { record := { id := toString n, occurredAt := n } }) true .ok).2

def sampleLater : CameraSlot :=
  (sampleSlot.publish [{ record := { id := "new", occurredAt := 60 } }] true .ok).2

/-- Two pages: the first one ends above number 2, then the first alarm is evicted, and the second
page has what is left below. -/
theorem walk_spec_sample :
    Walk sampleSlot [sampleSlot.recentBatch, sampleLater.historyBatch 3] sampleLater ∧
      (1, "0") ∈ sampleSlot.history.pairs ∧ (1, "0") ∉ sampleLater.history.pairs ∧
      (53, "new") ∈ sampleLater.history.pairs ∧
      ([sampleSlot.recentBatch, sampleLater.historyBatch 3].map fun b => b.events.length) =
        [50, 1] ∧
      (([sampleSlot.recentBatch, sampleLater.historyBatch 3].map (·.events)).flatten.map
        AlarmEvent.pair).count (2, "1") = 1 := by
  have hfirst : CameraSlot.Evolves (CameraSlot.start none ∅ "front" 0 52 .ok) sampleSlot :=
    Relation.ReflTransGen.single ⟨_, _, _, rfl⟩
  have hlater : CameraSlot.Evolves sampleSlot sampleLater :=
    Relation.ReflTransGen.single ⟨_, _, _, rfl⟩
  have hsample : sampleSlot.recentBatch.older = some 3 ∧ (sampleLater.historyBatch 3).older = none ∧
      ((1, "0") ∈ sampleSlot.history.pairs ∧ (2, "1") ∈ sampleSlot.history.pairs) ∧
      ((1, "0") ∉ sampleLater.history.pairs ∧ (2, "1") ∈ sampleLater.history.pairs) ∧
      (53, "new") ∈ sampleLater.history.pairs ∧
      ([sampleSlot.recentBatch, sampleLater.historyBatch 3].map fun b => b.events.length) =
        [50, 1] := by decide +kernel
  obtain ⟨holder, hend, ⟨hold, hkept⟩, ⟨hevicted, hkept'⟩, hnew, hsizes⟩ := hsample
  have hwalk : Walk sampleSlot [sampleSlot.recentBatch, sampleLater.historyBatch 3] sampleLater :=
    @Walk.follow sampleSlot [] _ _ _ _ Walk.read holder hlater
  obtain ⟨-, -, -, -, hcomplete⟩ := walk_spec (by decide) hfirst hwalk
  exact ⟨hwalk, hold, hevicted, hnew, hsizes,
    hcomplete (sampleLater.historyBatch 3) rfl hend (2, "1") hkept hkept'⟩

end Alarms

end EzvizBridge
