import EzvizBridge.Device.Keys
import EzvizBridge.Lib.Guarded

/-!
# Cached reports on a camera

`DeviceService::storage` and `encryption` (`device/service.rs`), with `device/storage.rs`. Both are
one service with one guarded cell for each camera (`Lib.Guarded`), `cachedReport`: whatever comes
back from EZVIZ becomes a report, and it is kept for a time that depends on whether the request has
failed. What `encryption` serves over runs is in `Device.Encryption`.

A request tells whether `attach` has been called when it is served. Times are in milliseconds.
-/

namespace EzvizBridge

namespace Device

open Controls (Value)
open Guarded (Answer State Held Last Spaced about about_concat_self)

/-! ### The card -/

inductive StorageState
  | ok
  | noCard
  | unformatted
  | error
  | unknown
  deriving DecidableEq, Repr

structure StorageReport where
  status : StorageState
  capacityMb : Option ℤ := none
  freeMb : Option ℤ := none
  deriving DecidableEq, Repr

def StorageReport.unknown : StorageReport := { status := .unknown }

/-- What the cards are ordered by. -/
def cardIndex (card : Value) : ℤ :=
  ((card.get "index").bind Controls.Fields.int).getD (2 ^ 63 - 1)

/-- `parse_storage_status`. -/
def parseStorageStatus (value : Value) : StorageReport :=
  if (value.get "resultCode").bind Controls.Fields.int ≠ some 0 then .unknown
  else
    match (value.get "storageStatus").filter fun item => item.asObject.isSome with
    | none => .unknown
    | some status =>
      let cards := ((status.get "storageList").bind Value.asArray).getD []
      -- the card with the smallest index
      match (cards.filter fun card => card.asObject.isSome).minOn? cardIndex with
      | none => { status := .noCard }
      | some card => {
          status :=
            match (card.get "status").bind Controls.Fields.int with
            | some 0 => .ok
            | some 1 => .error
            | some 2 => .unformatted
            | _ => .unknown
          capacityMb := ((card.get "capacity").bind Controls.Fields.int).filter fun value =>
            0 < value }

/-! ### The service -/

def storageTtl : ℕ := 600000

def encryptionTtl : ℕ := 600000

def failureTtl : ℕ := 60000

structure Cached (ν : Type) where
  value : ν
  expires : ℕ
  deriving DecidableEq

/-- `storage` and `encryption`: `report` is what becomes of the answer of EZVIZ, and how long it is
kept. -/
def cachedReport {υ ν : Type} (cameras : List String) (report : String → υ → ν × ℕ) :
    Guarded.Service String Bool (Option (Cached ν)) υ (Except BridgeError ν) where
  look camera attached now cached :=
    if camera ∉ cameras then (cached, some (.error .cameraNotFound))
    else
      match cached.filter fun entry => now < entry.expires with
      | some entry => (cached, some (.ok entry.value))
      | none => if attached then (cached, none) else (cached, some (.error .upstreamUnavailable))
  keep camera _ now answer _ :=
    let (value, ttl) := report camera answer
    (some ⟨value, now + ttl⟩, .ok value)

/-- What `storage` makes of the answer to `storage_status`. -/
def storageReport (raw : Except BridgeError Value) : StorageReport × ℕ :=
  match raw with
  | .ok raw => (parseStorageStatus raw, storageTtl)
  | .error _ => (.unknown, failureTtl)

/-- `DeviceService::storage`. -/
def storageService (cameras : List String) :
    Guarded.Service String Bool (Option (Cached StorageReport)) (Except BridgeError Value)
      (Except BridgeError StorageReport) :=
  cachedReport cameras fun _ => storageReport

structure EncryptionReport where
  videoEncrypted : Option Bool
  keySource : KeySource
  deriving DecidableEq, Repr

/-- What `encryption` finds when it looks: the answer to `device_status`, the option's code and the
codes of the guard. -/
structure EncryptionAnswer where
  status : Except BridgeError CloudStatus
  optionCode : OptionCode
  guard : CloudKey.Guard

/-- What `encryption` makes of it; `serialOf` is the configuration. -/
def encryptionReport (twiceMd5 keyId serialOf : String → String) (camera : String)
    (answer : EncryptionAnswer) : EncryptionReport × ℕ :=
  let status := answer.status.toOption
  ({  videoEncrypted := status.bind fun status => status.videoEncrypted
      keySource := reportKeySource twiceMd5 keyId answer.guard
        (serialOf camera) answer.optionCode status },
    if status.isSome then encryptionTtl else failureTtl)

/-- `DeviceService::encryption`. -/
def encryptionService (twiceMd5 keyId serialOf : String → String) (cameras : List String) :
    Guarded.Service String Bool (Option (Cached EncryptionReport)) EncryptionAnswer
      (Except BridgeError EncryptionReport) :=
  cachedReport cameras (encryptionReport twiceMd5 keyId serialOf)

/-! ### What is served -/

section Rules

variable {υ ν : Type} {cameras : List String} {report : String → υ → ν × ℕ} {camera : String}
  {log : List (Answer String Bool υ)} {attached : Bool} {now asked : ℕ} {cached : Option (Cached ν)}

/-- The cell has the report on the last answer about its camera, with the time of its end. -/
def Reported (report : String → υ → ν × ℕ) (log : List (Answer String Bool υ))
    (camera : String) (now : ℕ) (cached : Option (Cached ν)) : Prop :=
  ∃ entry : Option ((ν × ℕ) × ℕ),
    cached = (entry.map fun entry => ⟨entry.1.1, entry.2 + entry.1.2⟩) ∧
      Held (fun answer => some (report camera answer)) Prod.snd log camera now entry

/-- What a reply says. -/
def ReportServed (cameras : List String) (report : String → υ → ν × ℕ)
    (log : List (Answer String Bool υ)) (camera : String) (attached : Bool) (now : ℕ) :
    Except BridgeError ν → Prop
  | .ok value => camera ∈ cameras ∧ ∃ a, (about log camera).getLast? = some a ∧
      (report camera a.answer).1 = value ∧
        (now = a.time ∨ now < a.time + (report camera a.answer).2)
  | .error error => (camera ∉ cameras ∧ error = .cameraNotFound) ∨
      camera ∈ cameras ∧ attached = false ∧ error = .upstreamUnavailable

theorem look_cachedReport (now : ℕ) :
    ((cachedReport cameras report).look camera attached now cached).1 = cached := by
  simp only [cachedReport]
  split
  · rfl
  · split
    · rfl
    · split <;> rfl

/-- EZVIZ is asked about a camera of the configuration when no report on it is fresh. -/
theorem look_cachedReport_none
    (h : ((cachedReport cameras report).look camera attached asked cached).2 = none) :
    camera ∈ cameras ∧ ∀ entry ∈ cached, entry.expires ≤ asked := by
  simp only [cachedReport] at h
  split at h
  · cases h
  · next hknown =>
    split at h
    · cases h
    · next hold =>
      refine ⟨not_not.mp hknown, fun entry hentry => ?_⟩
      rw [Option.filter_eq_none_iff] at hold
      simpa using hold entry hentry

theorem cachedReport_rules :
    Guarded.Rules (cachedReport cameras report) (Reported report)
      (ReportServed cameras report) where
  later log camera now time cached h hle := by
    obtain ⟨entry, hcached, hheld⟩ := h
    exact ⟨entry, hcached, hheld.later hle⟩
  other log camera now cached a h hne := by
    obtain ⟨entry, hcached, hheld⟩ := h
    exact ⟨entry, hcached, hheld.other hne⟩
  look log camera attached now cached h := by
    rw [look_cachedReport]
    exact h
  hit log camera attached now cached reply h hreply := by
    simp only [cachedReport] at hreply
    split at hreply
    · next hunknown =>
      obtain rfl := Option.some.inj hreply
      exact .inl ⟨hunknown, rfl⟩
    · next hknown =>
      split at hreply
      · next entry hfresh =>
        obtain rfl := Option.some.inj hreply
        obtain ⟨kept, rfl, hheld⟩ := h
        obtain ⟨hsome, hexpires⟩ := Option.filter_eq_some_iff.mp hfresh
        obtain ⟨⟨⟨value, ttl⟩, time⟩, rfl, rfl⟩ := Option.map_eq_some_iff.mp hsome
        obtain ⟨a, hlast, hreport, rfl⟩ := (hheld.last _ _ rfl).getLast?
        refine ⟨not_not.mp hknown, a, hlast, by rw [hreport], .inr ?_⟩
        rw [hreport]
        simpa using hexpires
      · split at hreply
        · cases hreply
        · next hdetached =>
          obtain rfl := Option.some.inj hreply
          exact .inr ⟨not_not.mp hknown, by simpa using hdetached, rfl⟩
  keep log camera attached asked now cached answer h hnone hle := by
    obtain ⟨entry, rfl, hheld⟩ := h
    obtain ⟨hknown, hold⟩ := look_cachedReport_none hnone
    have hconcat := hheld.concat attached (fun kept time hentry =>
      hold ⟨kept.1, time + kept.2⟩ (by rw [hentry]; rfl)) hle answer
    obtain ⟨a, hlast, hreport, htime⟩ := (hconcat.last _ _ rfl).getLast?
    exact ⟨⟨_, rfl, hconcat⟩, hknown, a, hlast, congrArg Prod.fst hreport, .inl htime.symm⟩

theorem reported_nil (camera : String) : Reported report [] camera 0 none :=
  ⟨none, rfl, Guarded.held_nil _ _ camera 0⟩

/-- The answers about a camera are as far from each other as the reports on them are kept. -/
theorem Reported.spaced (h : Reported report log camera now cached) :
    (about log camera).Pairwise fun earlier later =>
      earlier.time + (report camera earlier.answer).2 ≤ later.asked := by
  obtain ⟨entry, -, hheld⟩ := h
  exact hheld.spaced.imp fun hwait => hwait _ rfl

end Rules

section Runs

variable {cameras : List String}

/-- What a reply of `storage` says: the report on the last answer about the camera, not too old. -/
def StorageServed (cameras : List String)
    (log : List (Answer String Bool (Except BridgeError Value))) (camera : String) (attached : Bool)
    (now : ℕ) : Except BridgeError StorageReport → Prop
  | .ok report => camera ∈ cameras ∧ ∃ a, (about log camera).getLast? = some a ∧
      match a.answer with
      | .ok raw => report = parseStorageStatus raw ∧ now < a.time + storageTtl
      | .error _ => report = .unknown ∧ now < a.time + failureTtl
  | .error error => (camera ∉ cameras ∧ error = .cameraNotFound) ∨
      camera ∈ cameras ∧ attached = false ∧ error = .upstreamUnavailable

theorem storageServed_of {log : List (Answer String Bool (Except BridgeError Value))}
    {camera : String} {attached : Bool} {now : ℕ} {reply : Except BridgeError StorageReport}
    (h : ReportServed cameras (fun _ => storageReport) log camera attached now reply) :
    StorageServed cameras log camera attached now reply := by
  cases reply with
  | error error => exact h
  | ok report =>
    obtain ⟨hknown, a, hlast, rfl, hfresh⟩ := h
    refine ⟨hknown, a, hlast, ?_⟩
    cases hanswer : a.answer with
    | ok raw =>
      rw [hanswer] at hfresh
      refine ⟨rfl, hfresh.elim (fun hnow => ?_) id⟩
      rw [hnow, storageTtl]
      omega
    | error error =>
      rw [hanswer] at hfresh
      refine ⟨rfl, hfresh.elim (fun hnow => ?_) id⟩
      rw [hnow, failureTtl]
      omega

/-- **The state of the card.** Whatever calls are made, dropped and answered: a report is the one on
the last answer about its camera, at most ten minutes old, or a minute if that answer was a failure,
which is never a failure of the call. One call for each camera asks EZVIZ at a time, and not again
until the report on the last answer is too old. -/
theorem storage_served {events : List (Guarded.Event String Bool (Except BridgeError Value))}
    {s : State String Bool (Option (Cached StorageReport)) (Except BridgeError Value)
      (Except BridgeError StorageReport)}
    (hrun : EventSystem.run (State.step (storageService cameras) none)
      { cells := fun _ => none } events =
      some s) :
    (∀ camera attached past time reply, s.Replied camera attached past time reply →
      past <+: s.log ∧ StorageServed cameras past camera attached time reply) ∧
    s.Sole ∧
    ∀ camera, (about s.log camera).Pairwise fun earlier later =>
      earlier.time + (if earlier.answer.isOk then storageTtl else failureTtl) ≤ later.asked := by
  have hruled := cachedReport_rules.of_run reported_nil hrun
  refine ⟨fun camera attached past time reply hreply => ?_, hruled.sole, fun camera => ?_⟩
  · obtain ⟨hpast, hserved⟩ := hruled.replied hreply
    exact ⟨hpast, storageServed_of hserved⟩
  · refine (hruled.cells camera).spaced.imp fun {earlier later} hwait => ?_
    cases hanswer : earlier.answer with
    | ok raw | error error =>
      rw [hanswer] at hwait
      exact hwait

/-- The cards of an answer, a request that fails a while later, and a caller in between. -/
def sampleCards : Value :=
  .object [("resultCode", .string "0"), ("storageStatus", .object [("storageList", .array [
    .object [("index", .int 2), ("status", .int 2)],
    .object [("index", .int 1), ("status", .int 0), ("capacity", .string "61120")]])])]

def sampleReports : List (Guarded.Event String Bool (Except BridgeError Value)) :=
  [.call "front" true, .lock 0, .permit 0, .answer 0 (.ok sampleCards), .pass 599999,
    .call "front" true, .lock 1, .pass 1, .call "front" true, .lock 2, .permit 2,
    .answer 2 (.error .timeout)]

theorem storage_served_sample :
    (∃ past, StorageServed ["front"] past "front" true 599999 (.ok ⟨.ok, some 61120, none⟩) ∧
      past.length = 1) ∧
    ∃ past, StorageServed ["front"] past "front" true 600000 (.ok .unknown) ∧ past.length = 2 := by
  obtain ⟨s, hs, hfirst, hsecond⟩ :
      ∃ s ∈ EventSystem.run (State.step (storageService ["front"]) none) { cells := fun _ => none }
          sampleReports,
        s.calls[1]? = some ⟨"front", true, .returned [⟨"front", true, 0, 0, .ok sampleCards⟩] 599999
          (.ok ⟨.ok, some 61120, none⟩)⟩ ∧
        s.calls[2]? = some ⟨"front", true, .returned [⟨"front", true, 0, 0, .ok sampleCards⟩,
          ⟨"front", true, 600000, 600000, .error .timeout⟩] 600000 (.ok .unknown)⟩ := by
    refine ⟨_, rfl, rfl, rfl⟩
  obtain ⟨hserved, -, -⟩ := storage_served hs
  exact ⟨⟨_, (hserved _ _ _ _ _ ⟨1, hfirst⟩).2, rfl⟩, _, (hserved _ _ _ _ _ ⟨2, hsecond⟩).2, rfl⟩

end Runs

end Device

end EzvizBridge
