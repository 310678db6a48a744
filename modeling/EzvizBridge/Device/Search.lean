import EzvizBridge.Device.Day

/-!
# The search of a day

Whatever the requests are answered with, a search sends at most five, each from a later start than
the one before, and its result is sorted without repetition (`search_bounded`).

On a camera with at most `maxRecords` recordings a search reads five pages of `v2PageSize`
recordings. A page begins with the last recording of the page before it, so that five pages have
fewer than `maxRecords` recordings: the result is complete exactly when nothing of positive length
lies behind them (`Reaches`, `day_search`). Without two recordings of equal end, these are the first
496 (`reaches_iff`).
-/

namespace EzvizBridge

namespace Device

open Controls (Value trim)
open Continuation (skipped page nextCursor cursorAfter)

variable {crates : Crates} {source : ℕ → RecordQuery → Except BridgeError Value}
  {status : DeviceStatus} {localOffset midnight : ℤ} {date : String} {day : Day}

/-! ### Any answers -/

/-- No more records than allowed, sorted by start and end, and none of them twice. -/
structure Tidy (records : List SdRecord) : Prop where
  length_le : records.length ≤ maxRecords
  sorted : records.Pairwise fun a b => a.key < b.key

/-- `normalize` cuts at the maximum and leaves out what is there twice. -/
theorem tidy_normalize (records : List SdRecord) : Tidy (normalize records) where
  length_le := List.length_take_le _ _
  sorted := (List.pairwise_sortDedup SdRecord.key records).sublist (List.take_sublist _ _)

/-- At most `pages` queries, each from a later start than the one before, and a tidy result. -/
structure Bounded (pages : ℕ)
    (search : Except BridgeError (List SdRecord) × List RecordQuery) : Prop where
  length_le : search.2.length ≤ pages
  ascending : search.2.Pairwise fun a b => a.start < b.start
  tidy : ∀ records, search.1 = .ok records → Tidy records

/-- One query alone is within any budget that is not empty. -/
theorem bounded_one {result : Except BridgeError (List SdRecord)} {query : RecordQuery} {pages : ℕ}
    (hpages : 0 < pages) (h : ∀ records, result = .ok records → Tidy records) :
    Bounded pages (result, [query]) where
  length_le := hpages
  ascending := List.pairwise_singleton _ _
  tidy := h

/-- Nothing to show where the search fails. -/
theorem tidy_of_error {error : BridgeError} (records : List SdRecord)
    (h : (.error error : Except BridgeError (List SdRecord)) = .ok records) : Tidy records :=
  nomatch h

theorem tidy_of_ok {collected : List SdRecord} (records : List SdRecord)
    (h : (.ok (normalize collected) : Except BridgeError (List SdRecord)) = .ok records) :
    Tidy records := by
  cases h
  exact tidy_normalize collected

/-- The search goes on from `next`. -/
structure Continues (answer : V2Page) (query : RecordQuery) (records : List SdRecord)
    (next : String) :
    Prop where
  lastEnd : answer.lastEnd = some next
  more : answer.finished = false
  later : query.start < next
  within : next < query.stop
  room : (records ++ answer.records).length < maxRecords

section Step

variable {pages number : ℕ} {query : RecordQuery} {records : List SdRecord} {value : Value}
  {answer : V2Page}

/-- One page of the search that goes on. -/
theorem searchPages_continue (hsource : source number query = .ok value)
    (hanswer : parseV2Page crates status localOffset value = .ok answer) {next : String}
    (h : Continues answer query records next) :
    searchPages crates source status localOffset (pages + 1) number query records =
      let rest := searchPages crates source status localOffset pages (number + 1)
        { query with start := next } (records ++ answer.records)
      (rest.1, query :: rest.2) := by
  simp only [searchPages, hsource, hanswer, h.lastEnd]
  rw [if_pos ⟨by rw [h.more]; rfl, h.later, h.within, h.room⟩]

/-- The page at which the search stops, with everything it has. -/
theorem searchPages_stop (hsource : source number query = .ok value)
    (hanswer : parseV2Page crates status localOffset value = .ok answer)
    (h : ∀ next, ¬Continues answer query records next) :
    searchPages crates source status localOffset (pages + 1) number query records =
      (.ok (normalize (records ++ answer.records)), [query]) := by
  simp only [searchPages, hsource, hanswer]
  cases hlast : answer.lastEnd with
  | none => rfl
  | some next =>
    apply if_neg
    rintro ⟨hmore, hlater, hwithin, hroom⟩
    exact h next ⟨hlast, by simpa using hmore, hlater, hwithin, hroom⟩

/-- The last page that may be asked for. -/
theorem searchPages_one (hsource : source number query = .ok value)
    (hanswer : parseV2Page crates status localOffset value = .ok answer) :
    (searchPages crates source status localOffset 1 number query records).1 =
      .ok (normalize (records ++ answer.records)) := by
  by_cases hgoes : ∃ next, Continues answer query records next
  · obtain ⟨next, hnext⟩ := hgoes
    rw [searchPages_continue hsource hanswer hnext]
    rfl
  · rw [searchPages_stop hsource hanswer (not_exists.mp hgoes)]

end Step

/-- The queries of the pages that are left, none of them from before the query itself. -/
theorem searchPages_bounded (crates : Crates) (source : ℕ → RecordQuery → Except BridgeError Value)
    (status : DeviceStatus) (localOffset : ℤ) (pages number : ℕ) (query : RecordQuery)
    (records : List SdRecord) :
    Bounded pages (searchPages crates source status localOffset pages number query records) ∧
      ∀ sent ∈ (searchPages crates source status localOffset pages number query records).2,
        query.start ≤ sent.start := by
  -- on the pages that are left, for any query and any records so far
  induction pages generalizing number query records with
  -- no page left: no query, and the records so far are tidied
  | zero => exact ⟨⟨le_refl _, List.Pairwise.nil, tidy_of_ok⟩, fun sent h => nomatch h⟩
  | succ pages ih =>
    have hone : ∀ sent ∈ [query], query.start ≤ sent.start := by
      -- a search that ends with this page has sent this query only
      intro sent h
      rw [List.mem_singleton.mp h]
    cases hsource : source number query with
    | error error =>
      simp only [searchPages, hsource]
      exact ⟨bounded_one pages.succ_pos tidy_of_error, hone⟩
    | ok value =>
      cases hanswer : parseV2Page crates status localOffset value with
      | error error =>
        simp only [searchPages, hsource, hanswer]
        exact ⟨bounded_one pages.succ_pos tidy_of_error, hone⟩
      | ok answer =>
        by_cases hgoes : ∃ next, Continues answer query records next
        -- another page follows, or this one was the last, for whichever reason
        · obtain ⟨next, hnext⟩ := hgoes
          obtain ⟨hbounded, hstart⟩ :=
            ih (number + 1) { query with start := next } (records ++ answer.records)
          rw [searchPages_continue hsource hanswer hnext]
          -- the later queries start from `next` or behind it
          have hlater := fun sent hsent => lt_of_lt_of_le hnext.later (hstart sent hsent)
          -- this query is in front of the later ones
          refine ⟨⟨Nat.succ_le_succ hbounded.length_le, ?_, hbounded.tidy⟩, ?_⟩
          · exact List.pairwise_cons.mpr ⟨hlater, hbounded.ascending⟩
          · exact List.forall_mem_cons.mpr ⟨le_refl _, fun sent hsent => (hlater sent hsent).le⟩
        · rw [searchPages_stop hsource hanswer (not_exists.mp hgoes)]
          exact ⟨bounded_one pages.succ_pos tidy_of_ok, hone⟩

/-- **Whatever the answers are.** -/
theorem search_bounded (crates : Crates) (source : ℕ → RecordQuery → Except BridgeError Value)
    (status : DeviceStatus) (localOffset : ℤ) (date : String) (version : RecordSearchVersion) :
    Bounded maxV2Pages (search crates source status localOffset date version) := by
  cases version with
  | v2 => exact (searchPages_bounded crates source status localOffset _ _ _ _).1
  | common =>
    simp only [search, dayWindow]
    split
    · exact bounded_one (by decide) tidy_of_error
    · split
      · exact bounded_one (by decide) tidy_of_error
      · exact bounded_one (by decide) tidy_of_ok

/-! ### A camera -/

/-- What the bridge makes of a recording. -/
def Clip.record (status : DeviceStatus) (localOffset midnight : ℤ) (self : Clip) : SdRecord where
  start := status.epoch localOffset (midnight + self.first)
  end_ := status.epoch localOffset (midnight + self.last)
  kind := v2Kind self.type

/-- The records of what is on the card. -/
def recordsOf (status : DeviceStatus) (localOffset midnight : ℤ) (clips : List Clip) :
    List SdRecord :=
  (clips.filter fun clip => clip.Long).map (Clip.record status localOffset midnight)

/-- An item that shows a clip is read as its record, unless the clip has no length; its end is read
in either case. -/
theorem parseItem_shows (hcalendar : Calendar crates date midnight) {clip : Clip} {item : Value}
    (h : Shows date clip item) :
    parseItem crates status localOffset item =
      some (if clip.Long then some (clip.record status localOffset midnight) else none,
        localTime date clip.last) := by
  have hfirst : clip.first ≤ lastSecond := clip.first_le.trans clip.last_le
  -- both times are valid times of the day, so `parse_datetime` brings the seconds back
  simp only [parseItem, h.begin_, h.end_, h.type, Option.bind_some, Value.asStr,
    Option.bind_eq_bind, hcalendar.trim_localTime hfirst, hcalendar.trim_localTime clip.last_le,
    hcalendar.parse _ hfirst, hcalendar.parse _ clip.last_le]
  by_cases hlong : clip.Long
  -- the guard of the source on the two times is the one on the seconds
  · have hlt : ¬(midnight + clip.first ≥ midnight + (clip.last : ℤ)) := by
      have : clip.first < clip.last := hlong
      omega
    rw [if_neg hlt, if_pos hlong]
    rfl
  · have hge : midnight + clip.first ≥ midnight + (clip.last : ℤ) := by
      have : ¬clip.first < clip.last := hlong
      omega
    rw [if_pos hge, if_neg hlong]
    rfl

/-- The items of a response, one by one. -/
theorem filterMap_shows (hcalendar : Calendar crates date midnight) {clips : List Clip}
    {items : List Value} (h : List.Forall₂ (Shows date) clips items) :
    items.filterMap (parseItem crates status localOffset) =
      clips.map fun clip =>
        (if clip.Long then some (clip.record status localOffset midnight) else none,
          localTime date clip.last) := by
  induction h with
  | nil => rfl
  | cons hshows _ ih =>
    rw [List.filterMap_cons_some (parseItem_shows hcalendar hshows), List.map_cons, ih]

/-- A page that carries clips is read as their records, as the last end, and as what it says about
more. -/
theorem parseV2Page_carries (hcalendar : Calendar crates date midnight) {clips : List Clip}
    {more : Prop} [Decidable more] {value : Value} (hlength : clips.length ≤ maxRecords)
    (h : Carries crates date clips more value) :
    parseV2Page crates status localOffset value = .ok {
      records := recordsOf status localOffset midnight clips
      finished := ¬more
      lastEnd := clips.getLast?.map fun clip => localTime date clip.last } := by
  obtain ⟨hmeta, ⟨items, hitems, hshows⟩, hmore⟩ := h
  -- no page is longer than the cut of the source
  have hall : items.take maxRecords = items := by
    apply List.take_of_length_le
    rwa [← hshows.length_eq]
  -- a page without `isFinished` counts as finished
  have hfinished : ((value.get "isFinished").bind Controls.Fields.int).getD 1 = 0 ↔ more := by
    rw [← hmore]
    cases (value.get "isFinished").bind Controls.Fields.int <;> simp
  simp only [parseV2Page, hmeta, hitems, hall, filterMap_shows hcalendar hshows]
  congr 2
  -- filtering before or after reading the items is the same
  · rw [recordsOf, List.filterMap_map, ← List.filterMap_eq_map', List.filterMap_filter]
    apply List.filterMap_congr
    intro clip _
    simp only [Function.comp_apply, decide_eq_true_eq]
  · simp [hfinished]
  · rw [List.getLast?_map, Option.map_map]
    rfl

/-- The records collected so far are those of the recordings that have been read, in any order and
more than once. -/
def Collected (status : DeviceStatus) (localOffset midnight : ℤ) (clips : List Clip)
    (records : List SdRecord) : Prop :=
  ∀ record, record ∈ records ↔ record ∈ recordsOf status localOffset midnight clips

theorem mem_recordsOf {clips : List Clip} {record : SdRecord} :
    record ∈ recordsOf status localOffset midnight clips ↔
      ∃ clip ∈ clips, clip.Long ∧ clip.record status localOffset midnight = record := by
  simp only [recordsOf, List.mem_map, List.mem_filter, decide_eq_true_eq, and_assoc]

/-- Another page adds its clips to what is collected. -/
theorem Collected.append {clips clips' all : List Clip} {records : List SdRecord}
    (h : Collected status localOffset midnight clips records)
    (hall : ∀ clip, clip ∈ clips ∨ clip ∈ clips' ↔ clip ∈ all) :
    Collected status localOffset midnight all
      (records ++ recordsOf status localOffset midnight clips') := by
  intro record
  rw [List.mem_append, h record, mem_recordsOf, mem_recordsOf, mem_recordsOf]
  simp only [← hall, or_and_right, exists_or]

/-- Recordings of positive length begin one behind the other. -/
theorem pairwise_recordsOf {clips : List Clip} (h : clips.Pairwise fun a b => a.last ≤ b.first) :
    (recordsOf status localOffset midnight clips).Pairwise fun a b => a.key < b.key := by
  rw [recordsOf, List.pairwise_map]
  refine (h.filter _).imp_of_mem fun {a b} ha _ hle => ?_
  have hlong : a.first < a.last := of_decide_eq_true (List.mem_filter.mp ha).2
  apply Prod.Lex.toLex_lt_toLex.mpr
  left
  show status.epoch localOffset _ < status.epoch localOffset _
  rw [DeviceStatus.epoch, DeviceStatus.epoch]
  omega

/-- What has been collected becomes what has been read. -/
theorem Collected.normalize_eq {clips : List Clip} {records : List SdRecord}
    (h : Collected status localOffset midnight clips records)
    (hdisjoint : clips.Pairwise fun a b => a.last ≤ b.first) (hlength : clips.length ≤ maxRecords) :
    normalize records = recordsOf status localOffset midnight clips := by
  rw [normalize, List.sortDedup_eq (pairwise_recordsOf hdisjoint) h]
  apply List.take_of_length_le
  rw [recordsOf, List.length_map]
  exact (List.length_filter_le _ _).trans hlength

/-- The ends of a day's recordings ascend, since the recordings are disjoint. -/
theorem ascending_last (day : Day) : Continuation.Ascending Clip.last day.clips :=
  day.disjoint.imp_of_mem fun {_ b} _ _ h => h.trans b.first_le

/-- What a query is about that goes to the end of the day. -/
theorem meeting_eq (day : Day) (start : ℕ) :
    day.meeting start lastSecond = day.clips.filter fun clip => start ≤ clip.last := by
  apply List.filter_congr
  intro clip _
  have : clip.first ≤ lastSecond := clip.first_le.trans clip.last_le
  simp only [Clip.Meets, this, and_true]

/-- What lies behind the recordings that have been read does not count when nothing there is
long. -/
theorem recordsOf_take {m n : ℕ} (hmn : m ≤ n) (h : ∀ clip ∈ day.clips.drop m, ¬clip.Long) :
    recordsOf status localOffset midnight (day.clips.take n) =
      recordsOf status localOffset midnight (day.clips.take m) := by
  obtain ⟨k, rfl⟩ := Nat.exists_eq_add_of_le hmn
  have hnone : ((day.clips.drop m).take k).filter (fun clip => clip.Long) = [] := by
    rw [List.filter_eq_nil_iff]
    intro clip hclip
    rw [decide_eq_true_iff]
    exact h clip (List.mem_of_mem_take hclip)
  rw [List.take_add, recordsOf, List.filter_append, hnone, List.append_nil, recordsOf]

/-- How many recordings of the day the pages have brought, so many pages behind the one at
`start`. -/
def reach (day : Day) (pages start : ℕ) : ℕ :=
  skipped Clip.last day.clips (cursorAfter Clip.last day.clips v2PageSize pages start) + v2PageSize

/-- The query at a second of the day. -/
def queryAt (date : String) (start : ℕ) : RecordQuery where
  version := .v2
  start := localTime date start
  stop := localTime date lastSecond
  size := v2PageSize

/-- The answer at a second of the day, as the bridge reads it. -/
def answerAt (status : DeviceStatus) (localOffset midnight : ℤ) (date : String) (day : Day)
    (start : ℕ) :
    V2Page where
  records := recordsOf status localOffset midnight (page Clip.last day.clips v2PageSize start)
  finished := day.clips.length ≤ skipped Clip.last day.clips start + v2PageSize
  lastEnd := (page Clip.last day.clips v2PageSize start).getLast?.map fun clip =>
    localTime date clip.last

/-- What the camera answers to a query for the rest of the day. -/
theorem exists_answer (status : DeviceStatus) (localOffset : ℤ)
    (hcalendar : Calendar crates date midnight) (hcamera : Camera crates date day source)
    {start : ℕ} (hstart : start ≤ lastSecond) (number : ℕ) :
    ∃ value, source number (queryAt date start) = .ok value ∧
      parseV2Page crates status localOffset value =
        .ok (answerAt status localOffset midnight date day start) := by
  obtain ⟨value, hsource, hcarries⟩ := hcamera number start lastSecond v2PageSize hstart (le_refl _)
  -- a page of the camera is shorter than the cut
  have hlength : ((day.meeting start lastSecond).take v2PageSize).length ≤ maxRecords :=
    (List.length_take_le _ _).trans (by decide)
  refine ⟨value, hsource, ?_⟩
  rw [parseV2Page_carries hcalendar hlength hcarries, meeting_eq, answerAt]
  congr 2
  -- more is announced exactly when a whole page is not enough
  rw [decide_eq_decide, not_lt, Continuation.length_filter_le_iff (ascending_last day)]

/-- **Where the search stops, nothing is left that it could still bring.** -/
theorem recordsOf_stop {pages start : ℕ} {records : List SdRecord}
    (hroom : records.length + v2PageSize * (pages + 1) ≤ maxRecords)
    (h : ∀ next, ¬Continues (answerAt status localOffset midnight date day start)
      (queryAt date start)
      records next) :
    recordsOf status localOffset midnight (day.clips.take (reach day pages start)) =
      recordsOf status localOffset midnight (day.clips.take (reach day 0 start)) := by
  have hmono : reach day 0 start ≤ reach day pages start :=
    Nat.add_le_add_right (Continuation.skipped_mono _ _ (Continuation.le_cursorAfter _ _ _ _ _)) _
  -- three reasons to stop: everything has been read, the cursor does not advance, or the room is
  -- used up
  by_cases hfinished : day.clips.length ≤ reach day 0 start
  · apply recordsOf_take hmono
    rw [List.drop_of_length_le hfinished]
    exact fun clip hclip => nomatch hclip
  -- otherwise the page is not empty, and has a last recording
  obtain ⟨front, clip, hpage⟩ : ∃ front clip, page Clip.last day.clips v2PageSize start =
      front ++ [clip] := by
    refine (List.eq_nil_or_concat' _).resolve_left fun hnil => hfinished ?_
    rw [Continuation.page_eq (ascending_last day), List.take_eq_nil_iff,
      List.drop_eq_nil_iff] at hnil
    exact (hnil.resolve_left (by decide)).trans (Nat.le_add_right _ _)
  have hlast : (page Clip.last day.clips v2PageSize start).getLast? = some clip := by
    rw [hpage, List.getLast?_concat]
  by_cases hlater : start < clip.last
  · by_cases hwithin : clip.last < lastSecond
    · cases pages with
      | zero => rfl
      | succ pages =>
        -- nothing stands in the way of the next page
        have hrecords : (answerAt status localOffset midnight date day start).records.length ≤
            v2PageSize := by
          rw [answerAt, recordsOf, List.length_map]
          exact (List.length_filter_le _ _).trans (List.length_take_le _ _)
        refine absurd ?_ (h (localTime date clip.last))
        refine ⟨?_, ?_, localTime_lt date hlater clip.last_le,
          localTime_lt date hwithin (le_refl _), ?_⟩
        · rw [answerAt, hlast, Option.map_some]
        · exact decide_eq_false hfinished
        · have hsize : v2PageSize = 100 := rfl
          have hmax : maxRecords = 500 := rfl
          rw [hsize] at hroom hrecords
          rw [List.length_append, hmax]
          omega
    · -- what comes after it begins with the last second, and so ends with it
      apply recordsOf_take hmono
      intro later hbehind hlong
      have hle : clip.last ≤ later.first := by
        have hpairs := day.disjoint
        rw [← List.take_append_drop (reach day 0 start) day.clips, List.pairwise_append] at hpairs
        refine hpairs.2.2 clip ?_ later hbehind
        apply (Continuation.mem_take_or_page (ascending_last day) (le_refl _)
          (Nat.le_add_right _ _) clip).mp
        exact Or.inr (hpage ▸ List.mem_concat_self)
      have := later.last_le
      have : later.first < later.last := hlong
      omega
  · -- the cursor does not advance
    have hsame : nextCursor Clip.last day.clips v2PageSize start = start := by
      apply le_antisymm _ (Continuation.le_nextCursor _ _ _ _)
      rw [nextCursor, hlast, Option.elim_some]
      exact not_lt.mp hlater
    rw [reach, Continuation.cursorAfter_of_eq hsame]
    rfl

/-- The next cursor is still within the day. -/
theorem nextCursor_le (day : Day) {start : ℕ} (hstart : start ≤ lastSecond) :
    nextCursor Clip.last day.clips v2PageSize start ≤ lastSecond := by
  rw [nextCursor]
  cases (page Clip.last day.clips v2PageSize start).getLast? with
  | none => exact hstart
  | some clip => exact clip.last_le

/-- What has been collected after the page. -/
theorem Collected.page (date : String) {start read : ℕ} {records : List SdRecord}
    (h : Collected status localOffset midnight (day.clips.take read) records)
    (hle : skipped Clip.last day.clips start ≤ read) (hread : read ≤ reach day 0 start) :
    Collected status localOffset midnight (day.clips.take (reach day 0 start))
      (records ++ (answerAt status localOffset midnight date day start).records) :=
  h.append (Continuation.mem_take_or_page (ascending_last day) hle hread)

/-- What has been collected of the first recordings is tidied to their records, in their order. -/
theorem Collected.normalize_take {read : ℕ} {records : List SdRecord}
    (h : Collected status localOffset midnight (day.clips.take read) records) :
    normalize records = recordsOf status localOffset midnight (day.clips.take read) :=
  h.normalize_eq (day.disjoint.sublist (List.take_sublist _ _))
    ((List.length_take_le' _ _).trans day.atMost)

/-- **The pages that are left bring what they reach.** The result is that of the recordings up to
there. -/
theorem searchPages_camera (hcalendar : Calendar crates date midnight)
    (hcamera : Camera crates date day source) {pages number start read : ℕ}
    {records : List SdRecord} (hstart : start ≤ lastSecond)
    (hle : skipped Clip.last day.clips start ≤ read) (hread : read ≤ reach day 0 start)
    (hcollected : Collected status localOffset midnight (day.clips.take read) records)
    (hroom : records.length + v2PageSize * (pages + 1) ≤ maxRecords) :
    (searchPages crates source status localOffset (pages + 1) number
      (queryAt date start) records).1 =
      .ok (recordsOf status localOffset midnight (day.clips.take (reach day pages start))) := by
  -- on the pages that are left; `read` recordings have been collected when the query is sent
  induction pages generalizing number start read records with
  | zero =>
    obtain ⟨value, hsource, hanswer⟩ :=
      exists_answer status localOffset hcalendar hcamera hstart number
    -- the last page of the budget
    rw [searchPages_one hsource hanswer, (hcollected.page date hle hread).normalize_take]
  | succ pages ih =>
    obtain ⟨value, hsource, hanswer⟩ :=
      exists_answer status localOffset hcalendar hcamera hstart number
    have hcollected' := hcollected.page date hle hread
    by_cases hgoes : ∃ next, Continues (answerAt status localOffset midnight date day start)
        (queryAt date start) records next
    · obtain ⟨next, hnext⟩ := hgoes
      rw [searchPages_continue hsource hanswer hnext]
      -- the next query is at the end of the last recording of this page
      have hquery : { queryAt date start with start := next } =
          queryAt date (nextCursor Clip.last day.clips v2PageSize start) := by
        obtain ⟨clip, hlast, rfl⟩ := Option.map_eq_some_iff.mp hnext.lastEnd
        rw [nextCursor, hlast]
        rfl
      -- a page brings at most a page size of records, so the room stays enough
      have hlength : (answerAt status localOffset midnight date day start).records.length ≤
          v2PageSize := by
        rw [answerAt, recordsOf, List.length_map]
        exact (List.length_filter_le _ _).trans (List.length_take_le _ _)
      rw [hquery]
      refine ih (nextCursor_le day hstart)
        -- what is skipped by the next cursor has been read by this page
        (Continuation.skipped_nextCursor_le (ascending_last day) _ _)
        (Nat.add_le_add_right ?_ _) hcollected' ?_
      · exact Continuation.skipped_mono _ _ (Continuation.le_nextCursor _ _ _ _)
      · rw [List.length_append]
        rw [Nat.mul_succ] at hroom
        omega
    -- the search stops here, and nothing behind it could still be brought
    · rw [searchPages_stop hsource hanswer (not_exists.mp hgoes)]
      show Except.ok (normalize _) = _
      rw [hcollected'.normalize_take, recordsOf_stop hroom (not_exists.mp hgoes)]

/-- Nothing of the day is skipped from its first second on. -/
theorem skipped_zero (day : Day) : skipped Clip.last day.clips 0 = 0 := by
  rw [skipped, List.countP_eq_zero]
  intro clip _
  simp

/-- What a search brings: the first pages of the day. -/
theorem search_camera (status : DeviceStatus) (localOffset : ℤ)
    (hcalendar : Calendar crates date midnight) (hcamera : Camera crates date day source) :
    (search crates source status localOffset date .v2).1 =
      .ok (recordsOf status localOffset midnight (day.clips.take (reach day 4 0))) := by
  have hfirst : (search crates source status localOffset date .v2) =
      searchPages crates source status localOffset (4 + 1) 0 (queryAt date 0) [] := by
    simp only [search, dayWindow_eq]
    rfl
  rw [hfirst]
  apply searchPages_camera hcalendar hcamera (Nat.zero_le _) (skipped_zero day).le (Nat.zero_le _)
  · exact fun record => Iff.rfl
  · decide

/-! ### Complete days -/

/-- Nothing of positive length lies behind the fifth page. -/
def Reaches (day : Day) : Prop := ∀ clip ∈ day.clips.drop (reach day 4 0), ¬clip.Long

/-- Five pages of recordings with different ends. -/
theorem reach_eq (h : day.clips.Pairwise fun a b => a.last < b.last)
    (hlength : 496 < day.clips.length) :
    reach day 4 0 = 496 := by
  obtain heq | ⟨-, hle⟩ := Continuation.skipped_cursorAfter h (by decide : 0 < v2PageSize) 4 0
  · rw [reach, heq, skipped_zero, v2PageSize]
  · rw [skipped_zero, v2PageSize] at hle
    omega

/-- **Without two equal ends, five pages are the first 496 recordings.** -/
theorem reaches_iff (h : day.clips.Pairwise fun a b => a.last < b.last) :
    Reaches day ↔ ∀ clip ∈ day.clips.drop 496, ¬clip.Long := by
  obtain heq | ⟨hle, hle'⟩ := Continuation.skipped_cursorAfter h (by decide : 0 < v2PageSize) 4 0
  · have hreach : reach day 4 0 = 496 := by rw [reach, heq, skipped_zero, v2PageSize]
    rw [Reaches, hreach]
  · rw [skipped_zero] at hle'
    have hend : day.clips.drop (reach day 4 0) = [] := List.drop_of_length_le hle
    have hend' : day.clips.drop 496 = [] := List.drop_of_length_le hle'
    rw [Reaches, hend, hend']

/-- The records of the day, and no others. -/
structure Complete (status : DeviceStatus) (localOffset midnight : ℤ) (day : Day)
    (search : Except BridgeError (List SdRecord) × List RecordQuery) : Prop where
  bounded : Bounded maxV2Pages search
  records : search.1 = .ok (recordsOf status localOffset midnight day.clips)

/-- The first `n` recordings bring everything exactly when no later one has a length. -/
theorem recordsOf_eq_iff (status : DeviceStatus) (localOffset midnight : ℤ) (day : Day) (n : ℕ) :
    recordsOf status localOffset midnight (day.clips.take n) =
        recordsOf status localOffset midnight day.clips ↔
      ∀ clip ∈ day.clips.drop n, ¬clip.Long := by
  have hsplit : recordsOf status localOffset midnight day.clips =
      recordsOf status localOffset midnight (day.clips.take n) ++
        recordsOf status localOffset midnight (day.clips.drop n) := by
    rw [recordsOf, recordsOf, recordsOf, ← List.map_append, ← List.filter_append,
      List.take_append_drop]
  rw [hsplit, List.self_eq_append_right, recordsOf, List.map_eq_nil_iff, List.filter_eq_nil_iff]
  simp only [decide_eq_true_eq]

/-! ### A day with more clips than five pages have -/

def sampleMidnight : ℤ := 1782864000

/-- A text of that day. -/
def parseSample (text : String) : Option ℤ :=
  ((List.range (lastSecond + 1)).find? fun second => localTime "2026-07-01" second = text).map
    fun second : ℕ => sampleMidnight + (second : ℤ)

/-- The sample parser reads the times of the sample day back. -/
theorem parseSample_eq {second : ℕ} (h : second ≤ lastSecond) :
    parseSample (localTime "2026-07-01" second) = some (sampleMidnight + (second : ℤ)) := by
  have hfind : ((List.range (lastSecond + 1)).find? fun other => localTime "2026-07-01" other =
      localTime "2026-07-01" second) = some second := by
    rw [List.find?_range_eq_some]
    refine ⟨decide_eq_true rfl, List.mem_range.mpr (Nat.lt_succ_of_le h), fun other hother => ?_⟩
    have hne := (localTime_lt "2026-07-01" hother h).ne
    simpa using hne
  rw [parseSample, hfind, Option.map_some]

/-- A calendar that knows one day. -/
def sampleCrates : Crates where
  base64 _ := none
  inflate _ := none
  fromStr _ := none
  parseDateTime := parseSample
  parseDate _ := none

/-- The sample crates agree with the calendar of the sample day. -/
theorem calendar_sample : Calendar sampleCrates "2026-07-01" sampleMidnight where
  compact := by
    have hall : "2026-07-01".toList.all
        (fun character => Alarms.isWhitespace character = false) = true := by
      decide
    intro character hmem
    exact of_decide_eq_true (List.all_eq_true.mp hall character hmem)
  parse := by
    intro second h
    simp only [sampleCrates]
    exact parseSample_eq h

/-- A clip of one second in every other second. -/
def sampleClip (number : Fin maxRecords) : Clip where
  first := 2 * number
  last := 2 * number + 1
  type := none
  first_le := Nat.le_succ _
  last_le := by
    have hlt : (number : ℕ) < 500 := number.isLt
    rw [lastSecond]
    omega

def sampleDay (count : ℕ) (hcount : count ≤ maxRecords) : Day where
  clips := List.ofFn fun number : Fin count => sampleClip (number.castLE hcount)
  disjoint := by
    rw [List.pairwise_ofFn]
    intro i j hij
    show 2 * (i : ℕ) + 1 ≤ 2 * j
    omega
  atMost := by rwa [List.length_ofFn]

section Sample

variable {count : ℕ} (hcount : count ≤ maxRecords)

/-- The sample day has as many clips as asked for. -/
theorem length_sampleDay : (sampleDay count hcount).clips.length = count := List.length_ofFn

/-- The clips of the sample day end one after the other. -/
theorem strict_sampleDay : (sampleDay count hcount).clips.Pairwise fun a b => a.last < b.last := by
  rw [sampleDay, List.pairwise_ofFn]
  intro i j hij
  show 2 * (i : ℕ) + 1 < 2 * j + 1
  omega

theorem long_sampleDay {clip : Clip} (h : clip ∈ (sampleDay count hcount).clips) : clip.Long := by
  rw [sampleDay, List.mem_ofFn] at h
  obtain ⟨number, rfl⟩ := h
  exact Nat.lt_succ_self _

end Sample

/-- On a day of more than 496 long clips, the clips behind the first 496 are missed. -/
theorem search_of_long_day {crates : Crates} {source : ℕ → RecordQuery → Except BridgeError Value}
    (status : DeviceStatus) (localOffset : ℤ) {midnight : ℤ} {date : String} {day : Day}
    (hcalendar : Calendar crates date midnight) (hcamera : Camera crates date day source)
    (hstrict : day.clips.Pairwise fun a b => a.last < b.last)
    (hlong : ∀ clip ∈ day.clips, clip.Long) (hlength : day.clips.length = 497) :
    (search crates source status localOffset date .v2).1 =
        .ok (recordsOf status localOffset midnight (day.clips.take 496)) ∧
      ¬Complete status localOffset midnight day
        (search crates source status localOffset date .v2) := by
  -- each of the four continuations repeats the clip at the boundary
  have hreach : reach day 4 0 = 496 := reach_eq hstrict (by omega)
  have hresult := search_camera status localOffset hcalendar hcamera
  rw [hreach] at hresult
  refine ⟨hresult, fun hcomplete => ?_⟩
  have hnone := (recordsOf_eq_iff status localOffset midnight day 496).mp
    (Except.ok.inj (hresult.symm.trans hcomplete.records))
  -- something lies behind the first 496 clips, and every clip is long
  obtain ⟨clip, hclip⟩ : ∃ clip, clip ∈ day.clips.drop 496 := by
    apply List.exists_mem_of_length_pos
    rw [List.length_drop]
    omega
  exact hnone clip hclip (hlong clip (List.mem_of_mem_drop hclip))

/-- **A day of 497 clips comes back without the last of them.** -/
theorem last_clip_is_missed :
    let day := sampleDay 497 (by decide)
    let source := cardSource "2026-07-01" day
    let result := search sampleCrates source {} 0 "2026-07-01" .v2
    Calendar sampleCrates "2026-07-01" sampleMidnight ∧
      Camera sampleCrates "2026-07-01" day source ∧
      result.1 = .ok (recordsOf {} 0 sampleMidnight (day.clips.take 496)) ∧
      ¬Complete {} 0 sampleMidnight day result := by
  have hcamera := camera_cardSource sampleCrates "2026-07-01" (sampleDay 497 (by decide))
  exact ⟨calendar_sample, hcamera,
    search_of_long_day {} 0 calendar_sample hcamera (strict_sampleDay _)
    (fun _ => long_sampleDay _) (length_sampleDay _)⟩

/-- **The search of a day is complete exactly when five pages reach its end**, and bounded whatever
the answers are. -/
theorem day_search (crates : Crates) (source : ℕ → RecordQuery → Except BridgeError Value)
    (status : DeviceStatus) (localOffset : ℤ) (date : String) :
    (∀ version, Bounded maxV2Pages (search crates source status localOffset date version)) ∧
    ∀ (midnight : ℤ) (day : Day), Calendar crates date midnight → Camera crates date day source →
      (Complete status localOffset midnight day
        (search crates source status localOffset date .v2) ↔ Reaches day) := by
  refine ⟨search_bounded crates source status localOffset date, ?_⟩
  intro midnight day hcalendar hcamera
  -- both sides are the same equation between what five pages reach and the whole day
  have hresult := search_camera status localOffset hcalendar hcamera
  rw [Reaches, ← recordsOf_eq_iff status localOffset midnight]
  constructor
  · intro h
    exact Except.ok.inj (hresult.symm.trans h.records)
  · intro h
    exact ⟨search_bounded _ _ _ _ _ _, hresult.trans (congrArg Except.ok h)⟩

/-- **A day of 496 clips comes back whole**, its last clip from the fifth page. -/
theorem day_search_sample :
    let day := sampleDay 496 (by decide)
    Complete {} 0 sampleMidnight day
      (search sampleCrates (cardSource "2026-07-01" day) {} 0 "2026-07-01" .v2) := by
  intro day
  apply ((day_search _ _ _ _ _).2 _ _ calendar_sample (camera_cardSource _ _ _)).mpr
  rw [reaches_iff (strict_sampleDay _), List.drop_of_length_le]
  · exact fun clip hclip => nomatch hclip
  · rw [length_sampleDay]

end Device

end EzvizBridge
