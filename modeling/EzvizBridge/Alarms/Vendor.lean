import EzvizBridge.Alarms.Fetch
import EzvizBridge.Lib.Paging

/-!
# The list of a device at EZVIZ

The alarms of one device are a log that only grows. Their times ascend, and the list call hands out
those of one camera-local day, newest first and below `endTime`, page by page.

`readDay_spec` is what the loop of `fetch_unknown` makes of such a list: it meets a known alarm and
has collected everything newer, it comes to the end and has collected everything, or the pages run
out. From it `fetch_covers` says when all new alarms of the last two days are collected, or the
result is marked as truncated.
-/

namespace EzvizBridge

namespace Alarms

/-- An alarm in the log of a device, as `parse_message` reads it; `time` is in milliseconds. -/
@[ext] structure VendorAlarm where
  time : ℤ
  record : AlarmRecord
  channel : Option ℕ := none
  picture : Option PictureSource := none
  token : isToken record.id = true
  occurred : record.occurredAt = time.tdiv 1000

namespace VendorAlarm

instance : DecidableEq VendorAlarm := fun _ _ => decidable_of_iff _ VendorAlarm.ext_iff.symm

/-- The message of the alarm. -/
def message (self : VendorAlarm) : ParsedMessage :=
  { record := self.record, channel := self.channel, timeMs := some self.time,
    picture := self.picture, token := self.token }

/-- The id of the alarm. -/
def id (self : VendorAlarm) : String := self.record.id

/-- The camera-local day of the alarm. -/
def day (self : VendorAlarm) (offset : ℤ) : ℤ := (self.time / 1000 + offset) / daySeconds

end VendorAlarm

/-- The log of a device: the times ascend and are distinct, and so are the ids. -/
structure VendorLog (log : List VendorAlarm) : Prop where
  ascending : log.Pairwise fun a b => a.time < b.time
  distinct : (log.map (·.id)).Nodup

/-- The alarms of a day below `endTime`, newest first. -/
def listed (log : List VendorAlarm) (offset day : ℤ) (endTime : Option ℤ) : List VendorAlarm :=
  (log.filter fun a => a.day offset = day ∧ endTime.all fun time => a.time < time).reverse

/-- The list call; `size` is how many alarms a page holds. -/
def vendorList (log : List VendorAlarm) (offset : ℤ) (size : ℤ → Option ℤ → ℕ) : ListAnswers :=
  fun _ day endTime =>
    let older := listed log offset day endTime
    .ok
      { messages := (older.take (size day endTime)).map (·.message)
        hasNext := size day endTime < older.length }

section Listed

variable {log : List VendorAlarm} {offset day : ℤ} {endTime : Option ℤ} {a : VendorAlarm}

theorem mem_listed : a ∈ listed log offset day endTime ↔
    a ∈ log ∧ a.day offset = day ∧ ∀ time ∈ endTime, a.time < time := by
  rw [listed, List.mem_reverse, List.mem_filter, decide_eq_true_iff]
  cases endTime <;> simp

theorem descending_listed (h : VendorLog log) :
    Paging.Descending VendorAlarm.time (listed log offset day endTime) := by
  rw [Paging.Descending, listed, List.pairwise_reverse]
  exact h.ascending.sublist List.filter_sublist

theorem distinct_listed (h : VendorLog log) :
    ((listed log offset day endTime).map (·.id)).Nodup := by
  rw [listed, List.map_reverse, List.nodup_reverse]
  exact h.distinct.sublist (List.filter_sublist.map _)

/-- The request with the time of the last alarm of a page finds what the page has left. -/
theorem listed_next {n : ℕ} {z : VendorAlarm} (h : VendorLog log)
    (hz : ((listed log offset day endTime).take n).getLast? = some z) :
    listed log offset day (some z.time) = (listed log offset day endTime).drop n := by
  -- filtering what was filtered, from the newest on
  rw [← Paging.filter_lt_getLast (descending_listed h) hz, listed, listed, List.filter_reverse,
    List.filter_filter]
  congr 1
  refine List.filter_congr fun a _ => ?_
  -- whatever is below the last time is below `endTime`
  obtain ⟨-, -, hend⟩ := mem_listed.mp (List.mem_of_mem_take (List.mem_of_getLast? hz))
  rw [← Bool.decide_and, decide_eq_decide]
  constructor
  · rintro ⟨hday, hlt⟩
    have hlt : a.time < z.time := by simpa using hlt
    refine ⟨hlt, hday, ?_⟩
    cases endTime with
    | none => rfl
    | some time =>
      have := hend time rfl
      exact decide_eq_true (by omega)
  · rintro ⟨hlt, hday, -⟩
    exact ⟨hday, decide_eq_true hlt⟩

end Listed

/-! ### What the loop makes of it -/

namespace Fetch

variable {known : String → Bool} {self last : Fetch}

/-- The ids in `seen` are those of the collected messages, which are distinct. -/
structure Tidy (fetch : Fetch) : Prop where
  seen : fetch.seen = (fetch.collected.map (·.id)).toFinset
  distinct : (fetch.collected.map (·.id)).Nodup

/-- A page of messages that were not collected before. -/
theorem foldl_note (self : Fetch) {messages : List ParsedMessage} (progressed : Bool)
    (htidy : self.Tidy) (hdistinct : (messages.map (·.id)).Nodup)
    (hnew : ∀ m ∈ messages, m.id ∉ self.collected.map (·.id)) :
    let out := messages.foldl (note known) (self, progressed)
    out.1.Tidy ∧ out.1.collected = self.collected ++ messages.filter (fun m => !known m.id) ∧
      out.1.pages = self.pages ∧ out.1.exhaustedDay = self.exhaustedDay ∧
      out.1.reached = (self.reached || messages.any fun m => known m.id) ∧
      out.2 = (progressed || messages.any fun m => !known m.id) := by
  -- on the messages of the page
  induction messages generalizing self progressed with
  | nil =>
    exact ⟨htidy, (List.append_nil _).symm, rfl, rfl, (Bool.or_false _).symm,
      (Bool.or_false _).symm⟩
  | cons m messages ih =>
    obtain ⟨hm, hdistinct⟩ := List.nodup_cons.mp hdistinct
    obtain ⟨hnew, hrest⟩ := List.forall_mem_cons.mp hnew
    rw [List.foldl_cons]
    by_cases hknown : known m.id = true
    · -- it is known
      have hnote : note known (self, progressed) m =
          ({ self with reached := true }, progressed) := by
        rw [note, if_pos hknown]
      rw [hnote]
      obtain ⟨htidy', hcollected, hpages, hexhausted, hreached, hprogressed⟩ :=
        ih { self with reached := true } progressed ⟨htidy.seen, htidy.distinct⟩ hdistinct hrest
      -- a known message is not collected
      refine ⟨htidy', ?_, hpages, hexhausted, ?_, ?_⟩
      · rw [hcollected, List.filter_cons_of_neg (by simp [hknown])]
      · rw [hreached, List.any_cons, hknown]
        simp
      · rw [hprogressed, List.any_cons, hknown]
        simp
    · -- it is new
      rw [Bool.not_eq_true] at hknown
      have hunseen : m.id ∉ self.seen := by
        rw [htidy.seen, List.mem_toFinset]
        exact hnew
      have hnote : note known (self, progressed) m =
          ({ self with
              seen := insert m.id self.seen
              collected := self.collected ++ [m] }, true) := by
        rw [note, if_neg (by simp [hknown]), if_neg hunseen]
      rw [hnote]
      have htidy₁ : Tidy { self with
          seen := insert m.id self.seen
          collected := self.collected ++ [m] } := by
        -- it is collected, and seen from now on
        refine ⟨?_, ?_⟩
        · dsimp only
          rw [htidy.seen, List.map_append, List.toFinset_append, List.map_singleton]
          ext id
          simp
        · rw [List.map_append, List.map_singleton]
          refine List.Nodup.append htidy.distinct (List.nodup_singleton _) ?_
          exact List.disjoint_singleton.mpr hnew
      have hnew₁ : ∀ m' ∈ messages, m'.id ∉ (self.collected ++ [m]).map (·.id) := by
        intro m' hm' hmem
        rw [List.map_append, List.mem_append, List.map_singleton, List.mem_singleton] at hmem
        rcases hmem with hmem | heq
        · exact hrest m' hm' hmem
        · have hmem : m.id ∈ messages.map (·.id) := heq ▸ List.mem_map_of_mem hm'
          exact hm hmem
      obtain ⟨htidy', hcollected, hpages, hexhausted, hreached, hprogressed⟩ :=
        ih _ true htidy₁ hdistinct hnew₁
      refine ⟨htidy', ?_, hpages, hexhausted, ?_, ?_⟩
      · rw [hcollected, List.filter_cons_of_pos (by simp [hknown]), List.append_assoc,
          List.singleton_append]
      · rw [hreached, List.any_cons, hknown]
        simp
      · rw [hprogressed, List.any_cons, hknown]
        simp

/-- A page of alarms that were not collected before. -/
theorem readPage_spec (known : String → Bool) {page : List VendorAlarm} (hasNext : Bool)
    (htidy : self.Tidy) (hdistinct : (page.map (·.id)).Nodup)
    (hnew : ∀ a ∈ page, a.id ∉ self.collected.map (·.id)) :
    let out := self.readPage known { messages := page.map (·.message), hasNext }
    out.1.Tidy ∧
      (∀ m, m ∈ out.1.collected ↔
        m ∈ self.collected ∨ ∃ a ∈ page, known a.id = false ∧ m = a.message) ∧
      out.1.pages = self.pages + 1 ∧ out.1.exhaustedDay = self.exhaustedDay ∧
      out.1.reached = (self.reached || page.any fun a => known a.id) ∧
      out.2 = page.any fun a => !known a.id := by
  -- the ids of the messages are those of the alarms
  have hids : (page.map (·.message)).map (·.id) = page.map (·.id) := by
    rw [List.map_map]
    rfl
  have hmessages : ∀ m ∈ page.map (·.message), m.id ∉ self.collected.map (·.id) := by
    intro m hm
    obtain ⟨a, ha, rfl⟩ := List.mem_map.mp hm
    exact hnew a ha
  obtain ⟨htidy', hcollected, hpages, hexhausted, hreached, hprogressed⟩ :=
    @foldl_note known { self with pages := self.pages + 1 } _ false ⟨htidy.seen, htidy.distinct⟩
      (hids ▸ hdistinct) hmessages
  refine ⟨htidy', fun m => ?_, hpages, hexhausted, ?_, ?_⟩
  · rw [readPage, hcollected, List.mem_append]
    refine or_congr Iff.rfl ?_
    rw [List.mem_filter, List.mem_map, Bool.not_eq_true']
    constructor
    · rintro ⟨⟨a, ha, rfl⟩, hunknown⟩
      exact ⟨a, ha, hunknown, rfl⟩
    · rintro ⟨a, ha, hunknown, rfl⟩
      exact ⟨⟨a, ha, rfl⟩, hunknown⟩
  · rw [readPage, hreached, List.any_map]
    rfl
  · rw [readPage, hprogressed, List.any_map]
    rfl

/-- How the loop over the pages of a day ends, for the alarms that were there to be read. -/
inductive Ends (known : String → Bool) (alarms : List VendorAlarm) (size : Option ℤ → ℕ)
    (endTime : Option ℤ) (pages : ℕ) (self last : Fetch) : Prop
  /-- a known alarm was met, and everything newer has been collected -/
  | reached (h : last.reached = true) (met : ∃ b ∈ alarms, known b.id = true)
      (collected : ∀ a ∈ alarms, (∀ b ∈ alarms, known b.id = true → b.time < a.time) →
        a.message ∈ last.collected)
  /-- the last page was read, and everything has been collected -/
  | exhausted (h : last.reached = false) (exhausted : last.exhaustedDay = true)
      (collected : ∀ a ∈ alarms, a.message ∈ last.collected) (before : ℕ) (room : before < pages)
      (read : last.pages = self.pages + before + 1)
      (rest : Paging.restAfter VendorAlarm.time size (before + 1) endTime alarms = [])
      (sooner : before = 0 ∨ Paging.restAfter VendorAlarm.time size before endTime alarms ≠ [])
  /-- the pages ran out -/
  | budget (h : last.reached = false) (exhausted : last.exhaustedDay = false)
      (read : last.pages = self.pages + pages)

/-- A page without known alarms, and what the loop makes of the rest. -/
theorem Ends.behind {alarms : List VendorAlarm} {size : Option ℤ → ℕ} {endTime : Option ℤ}
    {pages : ℕ} {next : Fetch} {z : VendorAlarm}
    (hz : (alarms.take (size endTime)).getLast? = some z) (hmore : size endTime < alarms.length)
    (hread : next.pages = self.pages + 1)
    (hpage : ∀ a ∈ alarms.take (size endTime), a.message ∈ last.collected)
    (h : Ends known (alarms.drop (size endTime)) size (some z.time) pages next last) :
    Ends known alarms size endTime (pages + 1) self last := by
  -- an alarm is on the page or behind it
  have hsplit : ∀ a ∈ alarms, a ∈ alarms.take (size endTime) ∨ a ∈ alarms.drop (size endTime) := by
    intro a ha
    rwa [← List.take_append_drop (size endTime) alarms, List.mem_append] at ha
  have hrest : ∀ k, Paging.restAfter VendorAlarm.time size (k + 1) endTime alarms =
      Paging.restAfter VendorAlarm.time size k (some z.time) (alarms.drop (size endTime)) := by
    intro k
    rw [Paging.restAfter, hz, Option.map_some]
  cases h with
  -- a known alarm is met on a later page
  | reached hreached hmet hcollected =>
    obtain ⟨b, hb, hknown⟩ := hmet
    refine .reached hreached ⟨b, List.mem_of_mem_drop hb, hknown⟩ fun a ha hnewer => ?_
    rcases hsplit a ha with ha | ha
    · exact hpage a ha
    · exact hcollected a ha fun b hb => hnewer b (List.mem_of_mem_drop hb)
  -- the list ends on a later page
  | exhausted hreached hexhausted hcollected before hroom hlast hnone hsooner =>
    refine .exhausted hreached hexhausted (fun a ha => ?_) (before + 1) (by omega) (by omega) ?_ ?_
    · exact (hsplit a ha).elim (hpage a) (hcollected a)
    · rw [hrest]
      exact hnone
    · right
      rw [hrest]
      rcases hsooner with rfl | hsooner
      · -- there was another page
        rw [Paging.restAfter, Ne, List.drop_eq_nil_iff]
        omega
      · exact hsooner
  -- the pages run out behind this one
  | budget hreached hexhausted hlast => exact .budget hreached hexhausted (by omega)

/-- The loop over the pages of a day. -/
theorem readDay_spec {log : List VendorAlarm} {offset day : ℤ} {size : ℤ → Option ℤ → ℕ}
    (hlog : VendorLog log) (hsize : ∀ day endTime, 0 < size day endTime) (pages : ℕ)
    (endTime : Option ℤ) (htidy : self.Tidy) (hreached : self.reached = false)
    (hexhausted : self.exhaustedDay = false)
    (hnew : ∀ a ∈ listed log offset day endTime, a.id ∉ self.collected.map (·.id)) :
    ∃ last, readDay (vendorList log offset size) known day pages endTime self = .ok last ∧
      last.Tidy ∧ (∀ m ∈ self.collected, m ∈ last.collected) ∧
      (∀ m ∈ last.collected, m ∈ self.collected ∨
        ∃ a ∈ listed log offset day endTime, m = a.message) ∧
      Ends known (listed log offset day endTime) (size day) endTime pages self last := by
  -- on the pages that may still be read
  induction pages generalizing self endTime with
  | zero =>
    -- no page is left, so nothing is known of the rest
    exact ⟨self, rfl, htidy, fun _ hm => hm, fun _ hm => .inl hm, .budget hreached hexhausted rfl⟩
  | succ pages ih =>
    have hdescending := @descending_listed log offset day endTime hlog
    have hdistinct := @distinct_listed log offset day endTime hlog
    have hnext := fun z => @listed_next log offset day endTime (size day endTime) z hlog
    have hpositive := hsize day endTime
    rw [readDay, vendorList]
    dsimp only
    generalize listed log offset day endTime = alarms at *
    have hsublist : (alarms.take (size day endTime)).Sublist alarms := List.take_sublist _ _
    obtain ⟨htidy', hcollected, hpages, hexhausted', hreached', hprogressed⟩ :=
      readPage_spec known (decide (size day endTime < alarms.length)) htidy
        (hdistinct.sublist (hsublist.map _)) (fun a ha => hnew a (hsublist.mem ha))
    rw [hreached, Bool.false_or] at hreached'
    generalize self.readPage known _ = out at *
    obtain ⟨next, progressed⟩ := out
    dsimp only at htidy' hcollected hpages hexhausted' hreached' hprogressed ⊢
    -- what was collected stays, and comes from the list
    have hkept : ∀ m ∈ self.collected, m ∈ next.collected :=
      fun m hm => (hcollected m).mpr (.inl hm)
    have horigin : ∀ m ∈ next.collected, m ∈ self.collected ∨ ∃ a ∈ alarms, m = a.message := by
      intro m hm
      refine ((hcollected m).mp hm).imp id ?_
      rintro ⟨a, ha, -, rfl⟩
      exact ⟨a, hsublist.mem ha, rfl⟩
    by_cases hmet : (alarms.take (size day endTime)).any (fun a => known a.id) = true
    · -- a known alarm is on the page, and everything newer as well
      rw [if_pos (hreached'.trans hmet)]
      obtain ⟨b, hb, hknown⟩ := List.any_eq_true.mp hmet
      refine ⟨next, rfl, htidy', hkept, horigin,
        .reached (hreached'.trans hmet) ⟨b, hsublist.mem hb, hknown⟩ fun a ha hnewer => ?_⟩
      have hpage := Paging.mem_take_of_lt hdescending ha hb (hnewer b (hsublist.mem hb) hknown)
      refine (hcollected _).mpr (.inr ⟨a, hpage, ?_, rfl⟩)
      by_contra hknown'
      exact absurd (hnewer a ha (by simpa using hknown')) (lt_irrefl _)
    -- all alarms of the page are new
    · rw [Bool.not_eq_true] at hmet
      have hunknown : ∀ a ∈ alarms.take (size day endTime), known a.id = false := by
        intro a ha
        by_contra hknown
        rw [Bool.not_eq_false] at hknown
        rw [List.any_eq_true.mpr ⟨a, ha, hknown⟩] at hmet
        cases hmet
      have hpage : ∀ a ∈ alarms.take (size day endTime), a.message ∈ next.collected :=
        fun a ha => (hcollected _).mpr (.inr ⟨a, ha, hunknown a ha, rfl⟩)
      rw [hmet] at hreached'
      rw [if_neg (by rw [hreached']; exact Bool.false_ne_true)]
      by_cases hmore : size day endTime < alarms.length
      · -- the page is full of new alarms, and there are more
        have hnonempty : alarms.take (size day endTime) ≠ [] := by
          rw [Ne, List.take_eq_nil_iff, not_or]
          exact ⟨by omega, List.ne_nil_of_length_pos (by omega)⟩
        obtain ⟨z, hz⟩ := Option.ne_none_iff_exists'.mp (mt List.getLast?_eq_none_iff.mp hnonempty)
        have hprogress : progressed = true := by
          rw [hprogressed, List.any_eq_true]
          exact ⟨z, List.mem_of_getLast? hz, by rw [hunknown z (List.mem_of_getLast? hz)]; rfl⟩
        rw [List.getLast?_map, hz, Option.map_some, Option.bind_some]
        dsimp only [VendorAlarm.message]
        rw [decide_eq_true hmore, hprogress, Bool.true_and, if_pos rfl]
        -- the next pages have no alarm that was collected
        have hfresh : ∀ a ∈ listed log offset day (some z.time),
            a.id ∉ next.collected.map (·.id) := by
          intro a ha hmem
          rw [hnext z hz] at ha
          obtain ⟨m, hm, hid⟩ := List.mem_map.mp hmem
          rcases (hcollected m).mp hm with hm | ⟨b, hb, -, rfl⟩
          · exact hnew a (List.mem_of_mem_drop ha) (hid ▸ List.mem_map_of_mem hm)
          · -- the page and the rest have no id in common
            have hpair := List.nodup_append.mp (by
              rw [← List.map_append, List.take_append_drop]
              exact hdistinct : ((alarms.take (size day endTime)).map (·.id) ++
                (alarms.drop (size day endTime)).map (·.id)).Nodup)
            exact hpair.2.2 b.id (List.mem_map_of_mem hb) a.id (List.mem_map_of_mem ha) hid
        -- the rest of the list by induction
        obtain ⟨last, hlast, htidy'', hkept', horigin', hends⟩ := ih (some z.time) htidy' hreached'
          (hexhausted'.trans hexhausted) hfresh
        rw [hnext z hz] at horigin' hends
        refine ⟨last, hlast, htidy'', fun m hm => hkept' m (hkept m hm), fun m hm => ?_,
          hends.behind hz hmore hpages fun a ha => hkept' _ (hpage a ha)⟩
        rcases horigin' m hm with hm | ⟨a, ha, rfl⟩
        · exact horigin m hm
        · exact .inr ⟨a, List.mem_of_mem_drop ha, rfl⟩
      · -- it was the last page
        have hall : alarms.take (size day endTime) = alarms := List.take_of_length_le (by omega)
        refine ⟨{ next with exhaustedDay := true }, ?_, ⟨htidy'.seen, htidy'.distinct⟩, hkept,
          horigin, ?_⟩
        · rw [decide_eq_false hmore]
          split <;> rfl
        · refine .exhausted hreached' rfl (fun a ha => hpage a (hall.symm ▸ ha)) 0
            (by omega) hpages ?_
            (.inl rfl)
          rw [Paging.restAfter, List.drop_of_length_le (by omega)]
          rfl

end Fetch

/-! ### Both days -/

/-- If one of the new alarms is of the day before: the newest stored alarm is older than midnight,
and the list of today fits on fewer pages than may be read, or does not fit on them. -/
def ReadsBack (log more : List VendorAlarm) (offset : ℤ) (size : ℤ → Option ℤ → ℕ) (clock : Clock)
    (newestKnown : Option ℤ) : Prop :=
  let today := localDay (some offset) clock
  let rest := fun pages =>
    Paging.restAfter VendorAlarm.time (size today) pages none
      (listed (log ++ more) offset today none)
  (∃ a ∈ more, a.day offset = today - 1) →
    (∃ known ∈ newestKnown, known < localMidnight today (some offset) clock) ∧
      (rest livePages = [] → rest (livePages - 1) = [])

/-- The alarm is of this day or the one before. -/
def VendorAlarm.Recent (self : VendorAlarm) (offset today : ℤ) : Prop :=
  self.day offset = today ∨ self.day offset = today - 1

instance (a : VendorAlarm) (offset today : ℤ) : Decidable (a.Recent offset today) :=
  inferInstanceAs (Decidable (_ ∨ _))

section Covers

variable {log more : List VendorAlarm} {offset today : ℤ} {size : ℤ → Option ℤ → ℕ} {clock : Clock}
  {newestKnown : Option ℤ} {known : String → Bool}

/-- A later alarm is of a later day or the same. -/
theorem day_mono {a b : VendorAlarm} (h : a.time ≤ b.time) : a.day offset ≤ b.day offset := by
  unfold VendorAlarm.day daySeconds
  omega

/-- A known alarm is older than every new one. -/
theorem known_older {a b : VendorAlarm} (hlog : VendorLog (log ++ more))
    (hunknown : ∀ a ∈ more, known a.id = false) (ha : a ∈ more) (hb : b ∈ log ++ more)
    (hknown : known b.id = true) : b.time < a.time := by
  rcases List.mem_append.mp hb with hb | hb
  · exact (List.pairwise_append.mp hlog.ascending).2.2 b hb a ha
  · rw [hunknown b hb] at hknown
    exact nomatch hknown

/-- What the loop over a day leaves to the new alarms of that day, unless the pages run out. -/
theorem Fetch.Ends.new_collected {day : ℤ} {pages : ℕ} {self last : Fetch}
    (hlog : VendorLog (log ++ more)) (hunknown : ∀ a ∈ more, known a.id = false)
    (h : Fetch.Ends known (listed (log ++ more) offset day none) (size day) none pages self last) :
    (last.reached = false ∧ last.exhaustedDay = false ∧ last.pages = self.pages + pages) ∨
      ∀ a ∈ more, a.day offset = day → a.message ∈ last.collected := by
  have hlisted : ∀ a ∈ more, a.day offset = day → a ∈ listed (log ++ more) offset day none :=
    fun a ha hday => mem_listed.mpr ⟨List.mem_append_right _ ha, hday, fun _ ht => nomatch ht⟩
  cases h with
  -- what is known is older than the new alarms
  | reached _ _ hcollected =>
    refine .inr fun a ha hday => hcollected a (hlisted a ha hday) fun b hb hknown => ?_
    exact known_older hlog hunknown ha (mem_listed.mp hb).1 hknown
  | exhausted _ _ hcollected => exact .inr fun a ha hday => hcollected a (hlisted a ha hday)
  | budget hreached hexhausted hread => exact .inl ⟨hreached, hexhausted, hread⟩

theorem mem_sorted {self : Fetch} {m : ParsedMessage} : m ∈ self.sorted ↔ m ∈ self.collected :=
  (List.perm_insertionSort _ _).mem_iff

/-- A result is in order: its messages are sorted, and distinct alarms of the two days. -/
structure FetchResult.Ordered (log : List VendorAlarm) (offset today : ℤ) (result : FetchResult) :
    Prop where
  sorted : result.messages.Pairwise fun m m' => m.record.key ≤ m'.record.key
  distinct : (result.messages.map (·.id)).Nodup
  origin : ∀ m ∈ result.messages, ∃ a ∈ log, a.Recent offset today ∧ m = a.message

/-- The result has the recent alarms once each, from the oldest on. -/
theorem ordered_sorted {self : Fetch} {truncated : Bool} (htidy : self.Tidy)
    (horigin : ∀ m ∈ self.collected, ∃ a ∈ log, a.Recent offset today ∧ m = a.message) :
    FetchResult.Ordered log offset today { messages := self.sorted, truncated } := by
  refine ⟨?_, ?_, fun m hm => horigin m (mem_sorted.mp hm)⟩
  · have htotal : Std.Total fun left right : ParsedMessage => left.record.key ≤ right.record.key :=
      ⟨fun _ _ => le_total _ _⟩
    have htrans : IsTrans ParsedMessage fun left right => left.record.key ≤ right.record.key :=
      ⟨fun _ _ _ => le_trans⟩
    exact List.pairwise_insertionSort _ _
  · exact ((List.perm_insertionSort _ _).map _).nodup_iff.mpr htidy.distinct

theorem truncated_of_budget {self : Fetch} (h : self.reached = false)
    (h' : self.exhaustedDay = false) (hpages : self.pages = livePages) :
    self.truncated livePages = true := by
  rw [Fetch.truncated, h, h', hpages]
  rfl

/-- The day before, after the end of today's list. -/
theorem readDay_before {first : Fetch} {pages : ℕ} (hlog : VendorLog (log ++ more))
    (hsize : ∀ day endTime, 0 < size day endTime) (htidy : first.Tidy)
    (hreached : first.reached = false)
    (horigin : ∀ m ∈ first.collected, ∃ a ∈ log ++ more, a.day offset = today ∧ m = a.message) :
    ∃ last, Fetch.readDay (vendorList (log ++ more) offset size) known (today - 1) pages none
        { first with exhaustedDay := false } = .ok last ∧
      last.Tidy ∧ (∀ m ∈ first.collected, m ∈ last.collected) ∧
      (∀ m ∈ last.collected, ∃ a ∈ log ++ more, a.Recent offset today ∧ m = a.message) ∧
      Fetch.Ends known (listed (log ++ more) offset (today - 1) none) (size (today - 1)) none pages
        { first with exhaustedDay := false } last := by
  have hnew : ∀ a ∈ listed (log ++ more) offset (today - 1) none,
      a.id ∉ first.collected.map (·.id) := by
    -- the two days have no alarm in common, and so no id
    intro a ha hmem
    obtain ⟨hmem', hday, -⟩ := mem_listed.mp ha
    obtain ⟨m, hm, hid⟩ := List.mem_map.mp hmem
    obtain ⟨b, hb, hday', rfl⟩ := horigin m hm
    obtain rfl := List.inj_on_of_nodup_map hlog.distinct hb hmem' hid
    omega
  obtain ⟨last, hlast, htidy', hkept, horigin', hends⟩ :=
    @Fetch.readDay_spec known { first with exhaustedDay := false } _ _
      (today - 1) _ hlog hsize pages
      none ⟨htidy.seen, htidy.distinct⟩ hreached rfl hnew
  refine ⟨last, hlast, htidy', hkept, fun m hm => ?_, hends⟩
  -- an alarm of today, or one of the day before
  rcases horigin' m hm with hm | ⟨a, ha, rfl⟩
  · obtain ⟨a, ha, hday, rfl⟩ := horigin m hm
    exact ⟨a, ha, .inl hday, rfl⟩
  · obtain ⟨ha, hday, -⟩ := mem_listed.mp ha
    exact ⟨a, ha, .inr hday, rfl⟩

/-- **The fetch covers the new alarms.** Those of the last two days are all in the result, or the
result is marked as truncated. -/
theorem fetch_covers (hlog : VendorLog (log ++ more)) (hsize : ∀ day endTime, 0 < size day endTime)
    (hunknown : ∀ a ∈ more, known a.id = false)
    (hback : ReadsBack log more offset size clock newestKnown) :
    ∃ result, fetchUnknown (vendorList (log ++ more) offset size) clock
      (some offset) newestKnown known
        livePages = .ok result ∧
      result.Ordered (log ++ more) offset (localDay (some offset) clock) ∧
      (result.truncated = true ∨
        ∀ a ∈ more, a.Recent offset (localDay (some offset) clock) →
          a.message ∈ result.messages) := by
  unfold ReadsBack at hback
  unfold fetchUnknown
  dsimp only at hback ⊢
  generalize htoday : localDay (some offset) clock = today at *
  generalize localMidnight today (some offset) clock = midnight at *
  -- today's list, from the newest page on
  obtain ⟨first, hfirst, htidy, -, horigin, hends⟩ :=
    @Fetch.readDay_spec known {} _ offset today _ hlog hsize livePages none
      ⟨rfl, List.nodup_nil⟩ rfl rfl
      (fun _ _ => List.not_mem_nil)
  have horigin : ∀ m ∈ first.collected, ∃ a ∈ log ++ more, a.day offset = today ∧
      m = a.message := by
    intro m hm
    obtain ⟨a, ha, rfl⟩ := (horigin m hm).resolve_left List.not_mem_nil
    obtain ⟨ha, hday, -⟩ := mem_listed.mp ha
    exact ⟨a, ha, hday, rfl⟩
  have hrecent : ∀ m ∈ first.collected, ∃ a ∈ log ++ more, a.Recent offset today ∧
      m = a.message := by
    intro m hm
    obtain ⟨a, ha, hday, rfl⟩ := horigin m hm
    exact ⟨a, ha, .inl hday, rfl⟩
  rw [hfirst]
  have hcollected := hends.new_collected hlog hunknown
  by_cases hreads : first.readsDayBefore newestKnown midnight livePages = true
  · -- today's list has come to its end
    -- the four conditions under which the source reads the day before
    have hreads' := hreads
    simp only [Fetch.readsDayBefore, Bool.not_eq_true', Bool.or_eq_false_iff, Bool.not_eq_false',
      decide_eq_false_iff_not, not_le] at hreads'
    obtain ⟨⟨⟨hreached, hpages⟩, hexhausted⟩, -⟩ := hreads'
    obtain ⟨last, hlast, htidy', hkept, horigin', hends'⟩ :=
      @readDay_before log more offset today size known first
        (livePages - first.pages) hlog hsize htidy
        hreached horigin
    have htoday : ∀ a ∈ more, a.day offset = today → a.message ∈ first.collected := by
      refine hcollected.resolve_left fun hbudget => ?_
      rw [hexhausted] at hbudget
      exact nomatch hbudget.2.1
    refine ⟨{ messages := last.sorted, truncated := last.truncated livePages }, ?_,
      ordered_sorted htidy' horigin', ?_⟩
    · show (if first.readsDayBefore newestKnown midnight livePages = true then _ else _) = _
      rw [if_pos hreads, hlast]
      rfl
    -- the pages run out on the day before, or its new alarms are collected
    · rcases hends'.new_collected hlog hunknown with ⟨hreached', hexhausted', hread⟩ | hbefore
      · exact .inl (truncated_of_budget hreached' hexhausted' (by dsimp only at hread; omega))
      · refine .inr fun a ha hday => mem_sorted.mpr ?_
        rcases hday with hday | hday
        · exact hkept _ (htoday a ha hday)
        · exact hbefore a ha hday
  -- the day before is not read
  · refine ⟨{ messages := first.sorted, truncated := first.truncated livePages }, ?_,
      ordered_sorted htidy hrecent, ?_⟩
    · show (if first.readsDayBefore newestKnown midnight livePages = true then _ else _) = _
      rw [if_neg hreads]
      rfl
    -- the pages have run out on today's list, or its new alarms are collected
    · rcases hcollected with ⟨hreached, hexhausted, hread⟩ | htoday
      · exact .inl (truncated_of_budget hreached hexhausted (hread.trans (Nat.zero_add _)))
      -- if there are new alarms of the day before, the result is truncated
      · by_cases hbefore : ∃ a ∈ more, a.day offset = today - 1
        · refine .inl ?_
          obtain ⟨⟨newest, hnewest, hgap⟩, hrest⟩ := hback hbefore
          obtain ⟨a, ha, hday⟩ := hbefore
          cases hends with
          | budget hreached hexhausted hread =>
            exact truncated_of_budget hreached hexhausted (hread.trans (Nat.zero_add _))
          | reached hreached hmet hcollected =>
            -- an alarm of today would be known, but it is newer
            obtain ⟨b, hb, hknown⟩ := hmet
            obtain ⟨hb, hday', -⟩ := mem_listed.mp hb
            have hlt := known_older hlog hunknown ha hb hknown
            have hle := @day_mono offset b a (le_of_lt hlt)
            omega
          | exhausted hreached hexhausted hcollected before hroom hread hnone hsooner =>
            -- there are pages left, so the day before would be read
            refine absurd ?_ hreads
            have hpages : before < 2 := by
              by_contra hge
              obtain rfl : before = 2 := by
                unfold livePages at hroom
                omega
              exact hsooner.elim (by omega) fun hne => hne (hrest hnone)
            have hpages' : ¬ livePages ≤ first.pages := by
              unfold livePages
              dsimp only at hread
              omega
            simp [Fetch.readsDayBefore, hreached, hexhausted, hpages',
              Option.mem_def.mp hnewest, hgap]
        · refine .inr fun a ha hday => mem_sorted.mpr ?_
          rcases hday with hday | hday
          · exact htoday a ha hday
          · exact absurd ⟨a, ha, hday⟩ hbefore

end Covers

end Alarms

end EzvizBridge
