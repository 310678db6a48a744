import EzvizBridge.Device.Service
import EzvizBridge.Device.Search
import Mathlib.Data.List.Sort

/-!
# The days of a card

`DeviceService::sd_records` (`device/service.rs`) and `lookup_day` (`device/search.rs`): the records
of one day, with the protocol that the camera prefers first and the other one after it. The cell of
a camera (`Lib.Guarded`) has the last days that were looked up, in the order of the calendar, and
two searches run at once over all cameras.

A day is its number; `dateText` writes it. A request tells its day, and whether `attach` has been
called.
-/

namespace EzvizBridge

namespace Device

open Controls (Value)
open Guarded (Answer State about about_concat_self about_concat_other)

def maxRecordLookups : ℕ := 2

def maxCachedDays : ℕ := 8

def recordsRecentTtl : ℕ := 60000

def recordsPastTtl : ℕ := 600000

def recordTtl (day utcToday : ℤ) : ℕ :=
  if day < utcToday - 1 then recordsPastTtl else recordsRecentTtl

/-! ### A lookup -/

/-- What is found during one lookup: the status of the camera, the answers to the requests of a
search, the offset of the bridge, and the day in UTC at the end. -/
structure Lookup where
  status : Except BridgeError CloudStatus
  page : RecordSearchVersion → ℕ → RecordQuery → Except BridgeError Value
  localOffset : ℤ
  utcToday : ℤ

/-- The order of the protocols. -/
def searchOrder (status : CloudStatus) : List RecordSearchVersion :=
  match status.recordSearch with
  | some .common => [.common, .v2]
  | _ => [.v2, .common]

/-- `lookup_day`, from a protocol on, with the queries that are sent. -/
def lookupVersions (crates : Crates) (lookup : Lookup) (status : CloudStatus) (date : String) :
    List RecordSearchVersion → Except BridgeError (List SdRecord) × List RecordQuery
  | [] => (.error .upstreamUnavailable, [])
  | version :: versions =>
    match search crates (lookup.page version) status.toDeviceStatus lookup.localOffset date
      version with
    | (.ok records, queries) => (.ok records, queries)
    | (.error _, queries) =>
      let (result, more) := lookupVersions crates lookup status date versions
      (result, queries ++ more)

/-- `lookup_day`. -/
def lookupDay (crates : Crates) (lookup : Lookup) (date : String) :
    Except BridgeError (List SdRecord) × List RecordQuery :=
  let status := lookup.status.toOption.getD {}
  lookupVersions crates lookup status date (searchOrder status)

section Lookups

variable {crates : Crates} {lookup : Lookup} {status : CloudStatus} {date : String}
  {versions : List RecordSearchVersion}

/-- A search with one protocol. -/
def Lookup.search (crates : Crates) (lookup : Lookup) (status : CloudStatus) (date : String)
    (version : RecordSearchVersion) : Except BridgeError (List SdRecord) × List RecordQuery :=
  Device.search crates (lookup.page version) status.toDeviceStatus lookup.localOffset date version

/-- The result is the one of the first protocol that succeeds, and only if none does, it is an
error. -/
theorem lookupVersions_result (crates : Crates) (lookup : Lookup) (status : CloudStatus)
    (date : String) (versions : List RecordSearchVersion) :
    (∃ records, (lookupVersions crates lookup status date versions).1 = .ok records ∧ Tidy records ∧
      ∃ front version back, versions = front ++ version :: back ∧
        (lookup.search crates status date version).1 = .ok records ∧
        ∀ failed ∈ front, ∃ error, (lookup.search crates status date failed).1 = .error error) ∨
    (lookupVersions crates lookup status date versions).1 = .error .upstreamUnavailable ∧
      ∀ failed ∈ versions, ∃ error, (lookup.search crates status date failed).1 = .error error := by
  -- on the versions of the protocol
  induction versions with
  | nil => exact .inr ⟨rfl, fun _ h => absurd h List.not_mem_nil⟩
  | cons version versions ih =>
    have hbounded : Bounded maxV2Pages (lookup.search crates status date version) :=
      search_bounded ..
    rw [lookupVersions, ← Lookup.search]
    cases hsearch : lookup.search crates status date version with
    | mk result queries =>
      have hone : (lookup.search crates status date version).1 = result := by rw [hsearch]
      cases result with
      | ok records =>
        exact .inl ⟨records, rfl, hbounded.tidy records hone, [], version, versions, rfl, hone,
          fun _ h => absurd h List.not_mem_nil⟩
      | error error =>
        have hfailed : ∃ error, (lookup.search crates status date version).1 = .error error :=
          ⟨error, hone⟩
        -- a later version has answered, or none has
        rcases ih with ⟨records, hok, htidy, front, chosen, back, rfl, hchosen, hfront⟩ |
          ⟨hnone, hall⟩
        · exact .inl ⟨records, hok, htidy, version :: front, chosen, back, rfl, hchosen,
            List.forall_mem_cons.mpr ⟨hfailed, hfront⟩⟩
        · exact .inr ⟨hnone, List.forall_mem_cons.mpr ⟨hfailed, hall⟩⟩

/-- The requests that a search with one protocol may send. -/
def maxRequests : RecordSearchVersion → ℕ
  | .v2 => maxV2Pages
  | .common => 1

/-- A search sends what its protocol allows. -/
theorem length_search_le (crates : Crates) (lookup : Lookup) (status : CloudStatus) (date : String)
    (version : RecordSearchVersion) :
    (lookup.search crates status date version).2.length ≤ maxRequests version := by
  cases version with
  | v2 =>
    have hbounded : Bounded maxV2Pages (lookup.search crates status date .v2) := search_bounded ..
    exact hbounded.length_le
  | common =>
    simp only [Lookup.search, search]
    split
    · exact Nat.le_refl _
    · split <;> exact Nat.le_refl _

/-- No more requests than the protocols may send. -/
theorem length_lookupVersions_le :
    (lookupVersions crates lookup status date versions).2.length ≤
      (versions.map maxRequests).sum := by
  -- on the versions of the protocol
  induction versions with
  | nil => exact Nat.zero_le _
  | cons version versions ih =>
    have hlength := length_search_le crates lookup status date version
    rw [lookupVersions, ← Lookup.search, List.map_cons, List.sum_cons]
    cases hsearch : lookup.search crates status date version with
    | mk result queries =>
      have hqueries : queries.length ≤ maxRequests version := by
        rw [hsearch] at hlength; exact hlength
      cases result with
      | ok records => exact Nat.le_trans hqueries (Nat.le_add_right _ _)
      | error error =>
        simp only [List.length_append]
        omega

/-- A failed lookup has one error only. -/
theorem lookupDay_error {error : BridgeError}
    (h : (lookupDay crates lookup date).1 = .error error) :
    error = .upstreamUnavailable := by
  rcases lookupVersions_result crates lookup (lookup.status.toOption.getD {}) date _ with
    ⟨records, hok, -⟩ | ⟨hnone, -⟩
  · rw [lookupDay, hok] at h
    cases h
  · rw [lookupDay, hnone] at h
    exact (Except.error.inj h).symm

/-- A successful lookup brings a tidy list. -/
theorem lookupDay_tidy (crates : Crates) (lookup : Lookup) (date : String) {records : List SdRecord}
    (h : (lookupDay crates lookup date).1 = .ok records) :
    Tidy records := by
  rcases lookupVersions_result crates lookup (lookup.status.toOption.getD {}) date _ with
    ⟨found, hok, htidy, -⟩ | ⟨hnone, -⟩
  · rw [lookupDay, hok] at h
    exact Except.ok.inj h ▸ htidy
  · rw [lookupDay, hnone] at h
    cases h

theorem length_lookupDay_le : (lookupDay crates lookup date).2.length ≤ maxV2Pages + 1 := by
  refine Nat.le_trans length_lookupVersions_le ?_
  unfold searchOrder
  split <;> decide

end Lookups

/-! ### The service -/

/-- The cached days of a camera. -/
abbrev Days := List (ℤ × Cached (List SdRecord))

/-- The loop of `sd_records` that makes room for a day. -/
def makeRoom : Days → Days
  | [] => []
  | first :: days => if (first :: days).length ≥ maxCachedDays then makeRoom days else first :: days

/-- `BTreeMap::insert`. -/
def insertDay (entry : ℤ × Cached (List SdRecord)) (days : Days) : Days :=
  (days.filter fun other => other.1 < entry.1) ++ entry :: days.filter fun other =>
    entry.1 < other.1

/-- `DeviceService::sd_records`. -/
def recordService (crates : Crates) (dateText : ℤ → String) (cameras : List String) :
    Guarded.Service String (ℤ × Bool) Days Lookup (Except BridgeError (List SdRecord)) where
  look camera request now cache :=
    if camera ∉ cameras then (cache, some (.error .cameraNotFound))
    else
      let cache := cache.filter fun entry => now < entry.2.expires
      match cache.lookup request.1 with
      | some entry => (cache, some (.ok entry.value))
      | none => if request.2 then (cache, none) else (cache, some (.error .upstreamUnavailable))
  keep _ request now lookup cache :=
    match (lookupDay crates lookup (dateText request.1)).1 with
    | .error error => (cache, .error error)
    | .ok list =>
      (insertDay (request.1, ⟨list, now + recordTtl request.1 lookup.utcToday⟩)
        (makeRoom cache), .ok list)

/-! ### What is served -/

section Rules

variable {crates : Crates} {dateText : ℤ → String} {cameras : List String}
  {camera : String} {day : ℤ}
  {log : List (Answer String (ℤ × Bool) Lookup)} {now : ℕ} {days : Days}

/-- The lookups of a day of a camera. -/
def ofDay (log : List (Answer String (ℤ × Bool) Lookup)) (camera : String) (day : ℤ) :
    List (Answer String (ℤ × Bool) Lookup) :=
  (about log camera).filter fun a => a.request.1 = day

/-- What a lookup of `day` brings, if it succeeds, and for how long it is kept. -/
def found (crates : Crates) (dateText : ℤ → String) (day : ℤ) (lookup : Lookup) :
    Option (List SdRecord × ℕ) :=
  (lookupDay crates lookup (dateText day)).1.toOption.map fun list =>
    (list, recordTtl day lookup.utcToday)

/-- `list` was found at `time`, by the last lookup of the day that succeeded, and is kept for
`ttl`. -/
def LastList (crates : Crates) (dateText : ℤ → String)
    (log : List (Answer String (ℤ × Bool) Lookup)) (camera : String) (day : ℤ)
    (list : List SdRecord) (ttl time : ℕ) : Prop :=
  Guarded.Last (found crates dateText day) (ofDay log camera day) (list, ttl) time

/-- The cell of a camera: not too many days, in order, each with the list that was found last. -/
structure DaysKept (crates : Crates) (dateText : ℤ → String)
    (log : List (Answer String (ℤ × Bool) Lookup)) (camera : String) (_ : ℕ)
    (days : Days) : Prop where
  length_le : days.length ≤ maxCachedDays
  sorted : days.Pairwise fun a b => a.1 < b.1
  last : ∀ entry ∈ days, ∃ ttl time,
    LastList crates dateText log camera entry.1 entry.2.value ttl time ∧
    entry.2.expires = time + ttl

/-- What a reply says. -/
def RecordsServed (crates : Crates) (dateText : ℤ → String) (cameras : List String)
    (log : List (Answer String (ℤ × Bool) Lookup)) (camera : String) (request : ℤ × Bool)
    (now : ℕ) :
    Except BridgeError (List SdRecord) → Prop
  | .ok list => camera ∈ cameras ∧ Tidy list ∧
      ∃ ttl time, LastList crates dateText log camera request.1 list ttl time ∧ now < time + ttl
  | .error error => (camera ∉ cameras ∧ error = .cameraNotFound) ∨
      camera ∈ cameras ∧ error = .upstreamUnavailable ∧
        (request.2 = false ∨ ∃ a, (ofDay log camera request.1).getLast? = some a ∧ a.time = now ∧
          found crates dateText request.1 a.answer = none)

/-- An answer for another day changes nothing here. -/
theorem ofDay_concat_other {a : Answer String (ℤ × Bool) Lookup}
    (h : a.key ≠ camera ∨ a.request.1 ≠ day) :
    ofDay (log ++ [a]) camera day = ofDay log camera day := by
  by_cases hkey : a.key = camera
  · have hday := h.resolve_left (not_not.mpr hkey)
    rw [ofDay, about_concat_self hkey, List.filter_append, List.filter_singleton, ofDay]
    simp [hday]
  · rw [ofDay, about_concat_other log hkey, ofDay]

theorem ofDay_concat_self {a : Answer String (ℤ × Bool) Lookup} (hkey : a.key = camera)
    (hday : a.request.1 = day) : ofDay (log ++ [a]) camera day = ofDay log camera day ++ [a] := by
  rw [ofDay, about_concat_self hkey, List.filter_append, List.filter_singleton, ofDay]
  simp [hday]

/-- The last list is tidy. -/
theorem LastList.tidy {list : List SdRecord} {ttl time : ℕ}
    (h : LastList crates dateText log camera day list ttl time) : Tidy list := by
  obtain ⟨a, -, hfound, -⟩ := h.mem
  obtain ⟨found, hok, heq⟩ := Option.map_eq_some_iff.mp hfound
  obtain ⟨rfl, -⟩ := Prod.mk.inj heq
  refine lookupDay_tidy crates a.answer (dateText day) ?_
  cases hresult : (lookupDay crates a.answer (dateText day)).1 with
  | ok records =>
    rw [hresult] at hok
    exact congrArg Except.ok (Option.some.inj hok)
  | error error =>
    rw [hresult] at hok
    cases hok

theorem recordTtl_pos (day utcToday : ℤ) : 0 < recordTtl day utcToday := by
  unfold recordTtl
  split <;> decide

/-- The cell keeps its promise when something happens that is not about it. -/
theorem DaysKept.mono {more : List (Answer String (ℤ × Bool) Lookup)} {later : ℕ}
    (h : DaysKept crates dateText log camera now days)
    (hsame : ∀ entry ∈ days, ofDay more camera entry.1 = ofDay log camera entry.1) :
    DaysKept crates dateText more camera later days := by
  refine ⟨h.length_le, h.sorted, fun entry hentry => ?_⟩
  obtain ⟨ttl, time, hlast, hexpires⟩ := h.last entry hentry
  refine ⟨ttl, time, ?_, hexpires⟩
  rw [LastList, hsame entry hentry]
  exact hlast

theorem DaysKept.sublist {fewer : Days} (h : DaysKept crates dateText log camera now days)
    (hsub : List.Sublist fewer days) : DaysKept crates dateText log camera now fewer where
  length_le := hsub.length_le.trans h.length_le
  sorted := h.sorted.sublist hsub
  last entry hentry := h.last entry (hsub.subset hentry)

/-- Room is made at the front. -/
theorem makeRoom_suffix (days : Days) : makeRoom days <:+ days := by
  induction days with
  | nil => exact List.suffix_refl _
  | cons first days ih =>
    rw [makeRoom]
    split
    · exact ih.trans (List.suffix_cons _ _)
    · exact List.suffix_refl _

/-- There is room for one more day. -/
theorem length_makeRoom_lt (days : Days) : (makeRoom days).length < maxCachedDays := by
  induction days with
  | nil => decide
  | cons first days ih =>
    rw [makeRoom]
    split
    · exact ih
    · next hroom => exact Nat.lt_of_not_le hroom

/-- What is kept is the new day or an older one. -/
theorem mem_insertDay {entry other : ℤ × Cached (List SdRecord)}
    (h : other ∈ insertDay entry days) :
    other = entry ∨ other ∈ days ∧ other.1 ≠ entry.1 := by
  rcases List.mem_append.mp h with hbefore | hafter
  · obtain ⟨hmem, hlt⟩ := List.mem_filter.mp hbefore
    exact .inr ⟨hmem, (of_decide_eq_true hlt).ne⟩
  · rcases List.mem_cons.mp hafter with rfl | hafter
    · exact .inl rfl
    · obtain ⟨hmem, hlt⟩ := List.mem_filter.mp hafter
      exact .inr ⟨hmem, (of_decide_eq_true hlt).ne'⟩

/-- The days stay in order. -/
theorem sorted_insertDay {entry : ℤ × Cached (List SdRecord)}
    (h : days.Pairwise fun a b => a.1 < b.1) :
    (insertDay entry days).Pairwise fun a b => a.1 < b.1 := by
  have hafter : ∀ other ∈ days.filter fun other => entry.1 < other.1, entry.1 < other.1 :=
    fun other hother => of_decide_eq_true (List.mem_filter.mp hother).2
  refine List.pairwise_append.mpr ⟨h.filter _, List.pairwise_cons.mpr ⟨hafter, h.filter _⟩, ?_⟩
  intro before hbefore other hother
  have hlt : before.1 < entry.1 := of_decide_eq_true (List.mem_filter.mp hbefore).2
  rcases List.mem_cons.mp hother with rfl | hother
  · exact hlt
  · exact hlt.trans (hafter other hother)

/-- There is one more day at most. -/
theorem length_insertDay_le {entry : ℤ × Cached (List SdRecord)} :
    (insertDay entry days).length ≤ days.length + 1 := by
  induction days with
  | nil => exact Nat.le_refl _
  | cons first days ih =>
    simp only [insertDay, List.filter_cons, List.length_append, List.length_cons] at ih ⊢
    split
    -- the new day comes in front of this one
    · next hbefore =>
      rw [if_neg (by simpa using (of_decide_eq_true hbefore).le)]
      simp only [List.length_cons]
      omega
    · split
      · simp only [List.length_cons]
        omega
      · omega

/-- A lookup that finds nothing leaves the last list. -/
theorem LastList.concat {list : List SdRecord} {ttl time : ℕ} {a : Answer String (ℤ × Bool) Lookup}
    (h : LastList crates dateText log camera day list ttl time)
    (hfound : a.key = camera → a.request.1 = day → found crates dateText day a.answer = none) :
    LastList crates dateText (log ++ [a]) camera day list ttl time := by
  by_cases hself : a.key = camera ∧ a.request.1 = day
  · rw [LastList, ofDay_concat_self hself.1 hself.2]
    exact Guarded.Last.concat h (hfound hself.1 hself.2)
  · rw [LastList, ofDay_concat_other (not_and_or.mp hself)]
    exact h

/-- Looking into a cell: what is too old goes. -/
theorem look_sublist (request : ℤ × Bool) (now : ℕ) :
    List.Sublist ((recordService crates dateText cameras).look camera request now days).1 days := by
  simp only [recordService]
  split
  · exact List.Sublist.refl _
  · split
    · exact List.filter_sublist
    · split <;> exact List.filter_sublist

/-- A lookup is made for a camera of the configuration. -/
theorem look_none {request : ℤ × Bool}
    (h : ((recordService crates dateText cameras).look camera request now days).2 = none) :
    camera ∈ cameras := by
  simp only [recordService] at h
  split at h
  · cases h
  · next hknown => exact not_not.mp hknown

/-- The rules of the guarded cell hold for the days of a card. -/
theorem record_rules : Guarded.Rules (recordService crates dateText cameras)
    (DaysKept crates dateText) (RecordsServed crates dateText cameras) where
  later log camera now time days h _ := h.mono fun _ _ => rfl
  other log camera now days a h hne := h.mono fun _ _ => ofDay_concat_other (.inl hne)
  look log camera request now days h := h.sublist (look_sublist request now)
  hit log camera request now days reply h hreply := by
    -- the camera is unknown, the day is kept, or the lookup is detached
    simp only [recordService] at hreply
    split at hreply
    · next hunknown =>
      obtain rfl := Option.some.inj hreply
      exact .inl ⟨hunknown, rfl⟩
    · next hknown =>
      split at hreply
      · next entry hentry =>
        obtain rfl := Option.some.inj hreply
        obtain ⟨before, after, hdays, -⟩ := List.lookup_eq_some_iff.mp hentry
        have hmem : (request.1, entry) ∈ days.filter fun entry => now < entry.2.expires := by
          rw [hdays]
          exact List.mem_append_right _ List.mem_cons_self
        obtain ⟨hcached, hfresh⟩ := List.mem_filter.mp hmem
        obtain ⟨ttl, time, hlast, hexpires⟩ := h.last _ hcached
        refine ⟨not_not.mp hknown, hlast.tidy, ttl, time, hlast, ?_⟩
        rw [← hexpires]
        exact of_decide_eq_true hfresh
      · split at hreply
        · cases hreply
        · next hdetached =>
          obtain rfl := Option.some.inj hreply
          exact .inr ⟨not_not.mp hknown, rfl, .inl (by simpa using hdetached)⟩
  keep log camera request asked now days lookup h hnone hle := by
    have hknown := look_none hnone
    have hsub : List.Sublist
        ((recordService crates dateText cameras).look camera request asked days).1 days :=
      look_sublist request asked
    have hlooked := h.sublist hsub
    have hself : ofDay (log ++ [⟨camera, request, asked, now, lookup⟩]) camera request.1 =
        ofDay log camera request.1 ++ [⟨camera, request, asked, now, lookup⟩] :=
          ofDay_concat_self rfl rfl
    simp only [recordService]
    cases hresult : (lookupDay crates lookup (dateText request.1)).1 with
    -- a failed lookup leaves the last list as it is
    | error error =>
      have hfound : found crates dateText request.1 lookup = none := by
        rw [found, hresult]
        rfl
      refine ⟨⟨hlooked.length_le, hlooked.sorted, fun entry hentry => ?_⟩, .inr ⟨hknown,
        lookupDay_error hresult, .inr ⟨_, by rw [hself, List.getLast?_concat], rfl, hfound⟩⟩⟩
      obtain ⟨ttl, time, hlast, hexpires⟩ := hlooked.last entry hentry
      refine ⟨ttl, time, hlast.concat (fun _ hday => ?_), hexpires⟩
      rw [← hday]
      exact hfound
    | ok list =>
      have hfound : found crates dateText request.1 lookup =
          some (list, recordTtl request.1 lookup.utcToday) := by
        rw [found, hresult]
        rfl
      have hlast : LastList crates dateText
          (log ++ [⟨camera, request, asked, now, lookup⟩]) camera request.1
          list (recordTtl request.1 lookup.utcToday) now := by
        rw [LastList, hself]
        -- the list that was brought is the last one now
        exact ⟨_, _, [], rfl, hfound, rfl, fun _ hb => absurd hb List.not_mem_nil⟩
      have hroom := hlooked.sublist (makeRoom_suffix _).sublist
      refine ⟨⟨?_, sorted_insertDay hroom.sorted, fun entry hentry => ?_⟩, hknown, hlast.tidy, _,
        now, hlast, Nat.lt_add_of_pos_right (recordTtl_pos _ _)⟩
      · exact length_insertDay_le.trans (length_makeRoom_lt _)
      -- the new day, or one that is still there
      · rcases mem_insertDay hentry with rfl | ⟨hold, hday⟩
        · exact ⟨_, now, hlast, rfl⟩
        · obtain ⟨ttl, time, hkept, hexpires⟩ := hroom.last entry hold
          exact ⟨ttl, time, hkept.concat fun _ hsame => absurd hsame.symm hday, hexpires⟩

/-- **The days of a card.** Whatever calls are made, dropped and answered: a list is what the last
successful lookup of that day of that camera has brought, sorted and without doubles, and not too
old; an error is `UpstreamUnavailable`, and the lookup of this very call has failed. At most two
lookups run, at most one for each camera, with at most six requests each, and of each camera at most
eight days are kept. -/
theorem records_served {events : List (Guarded.Event String (ℤ × Bool) Lookup)}
    {s : State String (ℤ × Bool) Days Lookup (Except BridgeError (List SdRecord))}
    (hrun : EventSystem.run
      (State.step (recordService crates dateText cameras) (some maxRecordLookups))
      { cells := fun _ => [] } events = some s) :
    (∀ camera request past time reply, s.Replied camera request past time reply →
      past <+: s.log ∧ RecordsServed crates dateText cameras past camera request time reply) ∧
    s.Sole ∧ s.fetching ≤ 2 ∧
    (∀ a ∈ s.log, (lookupDay crates a.answer (dateText a.request.1)).2.length ≤ 6) ∧
    ∀ camera, (s.cells camera).length ≤ 8 := by
  have hstart : ∀ camera, DaysKept crates dateText [] camera 0 [] := fun camera =>
    ⟨Nat.zero_le _, List.Pairwise.nil, fun _ h => absurd h List.not_mem_nil⟩
  have hruled := record_rules.of_run hstart hrun
  exact ⟨fun camera request past time reply hreply => hruled.replied hreply, hruled.sole,
    hruled.few _ rfl, fun a _ => length_lookupDay_le, fun camera => (hruled.cells camera).length_le⟩

end Rules

/-- A calendar with two times of one day. -/
def sampleTimes : Crates where
  base64 _ := none
  inflate _ := none
  fromStr _ := none
  parseDateTime text := [("begin", (100 : ℤ)), ("end", 160)].lookup text
  parseDate _ := none

/-- The camera prefers the packed records, but has them as a list only. -/
def sampleLookup : Lookup where
  status := .ok { recordSearch := some .common }
  page
    | .common, _, _ => .error .timeout
    | .v2, _, _ =>
      .ok (.object [("records", .array [.object [("B", .string "begin"), ("E", .string "end")]])])
  localOffset := 0
  utcToday := 7

def sampleRecords : List (Guarded.Event String (ℤ × Bool) Lookup) :=
  [.call "front" (5, true), .lock 0, .permit 0, .answer 0 sampleLookup, .pass 599999,
    .call "front" (5, true), .lock 1]

/-- The second call is answered from the list of the first. -/
theorem records_served_sample :
    ∃ past, RecordsServed sampleTimes (fun _ => "2026-07-01")
    ["front"] past "front" (5, true) 599999
      (.ok [⟨100, 160, "continuous"⟩]) ∧ past.length = 1 := by
  obtain ⟨s, hs, hcall⟩ :
      ∃ s ∈ EventSystem.run (State.step (recordService sampleTimes (fun _ => "2026-07-01")
        ["front"])
          (some maxRecordLookups)) { cells := fun _ => [] } sampleRecords,
        s.calls[1]? =
          some ⟨"front", (5, true), .returned [⟨"front", (5, true), 0, 0, sampleLookup⟩] 599999
            (.ok [⟨100, 160, "continuous"⟩])⟩ := by
    refine ⟨_, rfl, rfl⟩
  obtain ⟨hserved, -⟩ := records_served hs
  exact ⟨_, (hserved _ _ _ _ _ ⟨1, hcall⟩).2, rfl⟩

end Device

end EzvizBridge
