import EzvizBridge.CloudKey.Spacing
import EzvizBridge.Device.Service

/-!
# Which key the encryption report names

The report of `DeviceService::encryption` is kept for ten minutes, and in the meantime cameras are
decrypted, requests for codes are answered or given up, and the bridge may start again. `State` has
all of this: the guard with its calls (`CloudKey.State`), and the reports of the process that runs
(`encryptionService`).

* `Tells` — what a key source promises: what a decryption could use when the report was made, and,
  for a code of the cloud, that until the next restart no decryption of the camera asks EZVIZ again.
* `encryption_reported` — every report that is served is of the process that runs, not too old, and
  keeps its promise.

The times of the guard are seconds of the clock, those of the reports milliseconds of the process.
-/

namespace EzvizBridge

namespace Device

namespace Encryption

open Guarded (Answer about)
open Recordings (Persist)

abbrev Reports :=
  Guarded.State String Bool (Option (Cached EncryptionReport)) EncryptionAnswer
    (Except BridgeError EncryptionReport)

/-- The keys of all processes, and the reports of the last one. -/
structure State where
  keys : CloudKey.State
  reports : Reports := { cells := fun _ => none }

/-- The answer to `device_status`, and what is read of the option then. -/
abbrev Found := Except BridgeError CloudStatus × OptionCode

/-- What can happen next. -/
inductive Event
  /-- `candidate_keys`, up to the request that it may make -/
  | decrypt (serial : String) (optionCode : OptionCode) (status : Option CloudStatus)
      (persist : Persist)
  /-- a request for a code goes on, the clock does, or the bridge starts again -/
  | keys (event : CloudKey.Event)
  /-- a call of `encryption` goes on -/
  | report (event : Guarded.Event String Bool Found)

/-- `report_key_source` looks at the guard as it is when EZVIZ has answered. -/
def lookAt (guard : CloudKey.Guard) :
    Guarded.Event String Bool Found → Guarded.Event String Bool EncryptionAnswer
  | .call camera attached => .call camera attached
  | .lock i => .lock i
  | .permit i => .permit i
  | .answer i (status, optionCode) => .answer i { status, optionCode, guard }
  | .drop i => .drop i
  | .pass time => .pass time

section

variable (twiceMd5 keyId serialOf : String → String) (isConnect : String → Bool)
  (cameras : List String)

/-- One event; `none` when it cannot happen in this state. -/
def step (s : State) : Event → Option State
  | .decrypt serial optionCode status persist =>
    match optionKey twiceMd5 optionCode (status.bind fun status => status.encryptPwdHash) with
    | some _ => some s
    | none =>
      (CloudKey.step keyId isConnect s.keys (.fetch serial persist)).map fun keys => { s with keys }
  -- only a decryption comes to the guard
  | .keys (.fetch _ _) => none
  | .keys .restart => (CloudKey.step keyId isConnect s.keys .restart).map fun keys => { keys }
  | .keys event => (CloudKey.step keyId isConnect s.keys event).map fun keys => { s with keys }
  | .report event =>
    (Guarded.State.step (encryptionService twiceMd5 keyId serialOf cameras) none s.reports
      (lookAt s.keys.guard event)).map fun reports => { s with reports }

end

/-- What has happened so far. -/
abbrev Past := List (State × Event)

/-- Since the last restart, EZVIZ has given this code to a decryption that had no other. -/
def Given (keyId : String → String) (past : Past) (id code : String) : Prop :=
  ∃ front s i persist back call,
    past = front ++ (s, .keys (.finish i (.ok code) persist)) :: back ∧
      (∀ p ∈ back, p.2 ≠ .keys .restart) ∧ s.keys.calls[i]? = some call ∧ call.status = .live ∧
      keyId call.serial = id

section Telling

variable (twiceMd5 keyId : String → String) (isConnect : String → Bool)

/-- What a report promises that was made of `answer`, when the guard is `guard` now. -/
def Tells (past : Past) (guard : CloudKey.Guard) (serial : String) (answer : EncryptionAnswer) :
    KeySource → Prop :=
  let status := answer.status.toOption
  let hash := status.bind fun status => status.encryptPwdHash
  let candidates := fun guard attempt =>
    candidateKeys twiceMd5 keyId isConnect guard serial answer.optionCode attempt status
  fun
  | .option => ∃ code, answer.optionCode = some (.ok code) ∧ matchesHash twiceMd5 code hash ∧
      ∀ guard attempt, candidates guard attempt = ([⟨.option, code⟩], guard)
  | .cloud => ∃ code, Given keyId past (keyId serial) code ∧ matchesHash twiceMd5 code hash ∧
      (∀ attempt, candidates answer.guard attempt = ([⟨.cloud, code⟩], answer.guard)) ∧
      ∀ optionCode attempt status,
        (candidateKeys twiceMd5 keyId isConnect guard serial optionCode attempt status).2 = guard
  | .none => ∀ attempt, ∀ key ∈ (candidates answer.guard attempt).1,
      (candidates answer.guard attempt).1 = [key] ∧ Asks keyId answer.guard serial attempt ∧
        attempt.result = .ok key.code ∧ matchesHash twiceMd5 key.code hash ∧
        reportKeySource twiceMd5 keyId (candidates answer.guard attempt).2 serial answer.optionCode
          status = .cloud

/-- What a reply says: the report on the last answer about the camera, less than ten minutes old, or
less than one if EZVIZ had failed. -/
def Told (serialOf : String → String) (cameras : List String) (past : Past) (guard : CloudKey.Guard)
    (log : List (Answer String Bool EncryptionAnswer)) (camera : String) (attached : Bool)
    (time : ℕ) :
    Except BridgeError EncryptionReport → Prop
  | .ok report => camera ∈ cameras ∧ ∃ a, (about log camera).getLast? = some a ∧
      time < a.time + (if a.answer.status.isOk then encryptionTtl else failureTtl) ∧
      report.videoEncrypted = a.answer.status.toOption.bind (·.videoEncrypted) ∧
      Tells twiceMd5 keyId isConnect past guard (serialOf camera) a.answer report.keySource
  | .error error => (camera ∉ cameras ∧ error = .cameraNotFound) ∨
      camera ∈ cameras ∧ attached = false ∧ error = .upstreamUnavailable

end Telling

/-! ### The codes of the guard -/

section Codes

variable {keyId : String → String} {isConnect : String → Bool} {past : Past} {s : State}
  {keys keys' : CloudKey.State} {id code : String}

/-- The beginning of a request does not touch the codes. -/
theorem codes_begin {guard : CloudKey.Guard} (serial : String) (now : ℤ) (persist : Persist) :
    (guard.begin keyId serial now persist).2.codes = guard.codes := by
  rw [CloudKey.Guard.begin]
  split <;> rfl

/-- What a step does to the codes: nothing, unless a request is answered or the bridge starts
again. -/
theorem codes_cases {event : CloudKey.Event}
    (hstep : CloudKey.step keyId isConnect keys event = some keys') :
    keys'.guard.codes = keys.guard.codes ∨
      (∃ i code persist call, event = .finish i (.ok code) persist ∧ keys.calls[i]? = some call ∧
        call.status = .live ∧
        keys'.guard.codes = Function.update keys.guard.codes (keyId call.serial) (some code)) ∨
      event = .restart ∧ keys'.guard.codes = fun _ => none := by
  -- event by event; only an answer and a restart touch the codes
  cases event with
  | tick seconds =>
    obtain rfl := Option.some.inj hstep
    exact .inl rfl
  | fetch serial persist =>
    refine .inl ?_
    simp only [CloudKey.step] at hstep
    split at hstep
    · obtain rfl := Option.some.inj hstep
      rfl
    · have hsame : (keys.guard.begin keyId serial keys.clock persist).2.codes = keys.guard.codes :=
        codes_begin serial keys.clock persist
      split at hstep
      all_goals
        next hbegin =>
        obtain rfl := Option.some.inj hstep
        rw [hbegin] at hsame
        exact hsame
  | send i | cancel i =>
    refine .inl ?_
    simp only [CloudKey.step] at hstep
    split at hstep
    · obtain rfl := Option.some.inj hstep
      rfl
    · cases hstep
  | finish i result persist =>
    simp only [CloudKey.step] at hstep
    split at hstep
    · next serial began sentAt hcall =>
      obtain rfl := Option.some.inj hstep
      cases result with
      | error error =>
        -- a release is about the attempts
        refine .inl ?_
        simp only [CloudKey.Guard.finish]
        split <;> rfl
      | ok code => exact .inr (.inl ⟨i, code, persist, _, rfl, hcall, rfl, rfl⟩)
    · cases hstep
  | restart =>
    obtain rfl := Option.some.inj hstep
    exact .inr (.inr ⟨rfl, rfl⟩)

/-- A code stays in the guard as long as the process runs. -/
theorem codes_kept {event : CloudKey.Event}
    (hstep : CloudKey.step keyId isConnect keys event = some keys') (hevent : event ≠ .restart)
    (hcode : (keys.guard.codes id).isSome) : (keys'.guard.codes id).isSome := by
  rcases codes_cases hstep with hsame | ⟨i, code, persist, call, -, -, -, hupdate⟩ | ⟨rfl, -⟩
  · rwa [hsame]
  · rw [hupdate]
    rcases eq_or_ne id (keyId call.serial) with rfl | hne
    · rw [Function.update_self]
      rfl
    · rwa [Function.update_of_ne hne]
  · exact absurd rfl hevent

/-- A code that was given stays given until a restart. -/
theorem Given.concat {event : Event} (h : Given keyId past id code)
    (hevent : event ≠ .keys .restart) :
    Given keyId (past ++ [(s, event)]) id code := by
  obtain ⟨front, s', i, persist, back, call, rfl, hback, hcall⟩ := h
  refine ⟨front, s', i, persist, back ++ [(s, event)], call, by simp, ?_, hcall⟩
  rw [List.forall_mem_append, List.forall_mem_singleton]
  exact ⟨hback, hevent⟩

/-- Every code of the guard has come from EZVIZ. -/
theorem given_step {event : Event} {inner : CloudKey.Event}
    (hgiven : ∀ id code, s.keys.guard.codes id = some code → Given keyId past id code)
    (hstep : CloudKey.step keyId isConnect s.keys inner = some keys')
    (hevent : event ≠ .keys .restart)
    (hfinish : ∀ i result persist, inner = .finish i result persist → event = .keys inner)
    (hcode : keys'.guard.codes id = some code) : Given keyId (past ++ [(s, event)]) id code := by
  -- the codes are the same, one of them has just been answered, or all are gone
  rcases codes_cases hstep with
    hsame | ⟨i, answer, persist, call, rfl, hcall, hlive, hupdate⟩ | ⟨-, hnone⟩
  · rw [hsame] at hcode
    exact (hgiven id code hcode).concat hevent
  · rw [hupdate] at hcode
    rcases eq_or_ne id (keyId call.serial) with rfl | hne
    · -- this is the answer
      obtain rfl := hfinish i _ persist rfl
      rw [Function.update_self] at hcode
      obtain rfl := Option.some.inj hcode
      exact ⟨past, s, i, persist, [], call, rfl, fun p hp => absurd hp List.not_mem_nil,
        hcall, hlive, rfl⟩
    · rw [Function.update_of_ne hne] at hcode
      exact (hgiven id code hcode).concat hevent
  · rw [hnone] at hcode
    cases hcode

end Codes

/-! ### Whole runs -/

section Runs

variable {twiceMd5 keyId serialOf : String → String} {isConnect : String → Bool}
  {cameras : List String}
  {past : Past} {s s' : State} {event : Event}

/-- What holds in every state of a run. -/
structure Sound (twiceMd5 keyId serialOf : String → String) (cameras : List String) (past : Past)
    (s : State) : Prop where
  given : ∀ id code, s.keys.guard.codes id = some code → Given keyId past id code
  /-- the guard at the time of an answer, and since -/
  kept : ∀ a ∈ s.reports.log, ∀ id code, a.answer.guard.codes id = some code →
    Given keyId past id code ∧ (s.keys.guard.codes id).isSome
  ruled : Guarded.Ruled (encryptionService twiceMd5 keyId serialOf cameras) none
    (Reported (encryptionReport twiceMd5 keyId serialOf))
    (ReportServed cameras (encryptionReport twiceMd5 keyId serialOf)) s.reports

/-- No report is kept at first. -/
theorem ruled_start :
    Guarded.Ruled (encryptionService twiceMd5 keyId serialOf cameras) none
      (Reported (encryptionReport twiceMd5 keyId serialOf))
      (ReportServed cameras (encryptionReport twiceMd5 keyId serialOf))
        { cells := fun _ => none } :=
  cachedReport_rules.of_run reported_nil (rfl : EventSystem.run
    (Guarded.State.step (encryptionService twiceMd5 keyId serialOf cameras) none)
    { cells := fun _ => none } [] = some { cells := fun _ => none })

theorem sound_start (file : String → Option ℤ) (clock : ℤ) :
    Sound twiceMd5 keyId serialOf cameras [] { keys := .load file clock } where
  given _ _ hcode := by cases hcode
  kept a ha := absurd ha List.not_mem_nil
  ruled := ruled_start

/-- The guard goes on, in the same process. -/
theorem Sound.keys {inner : CloudKey.Event} {keys : CloudKey.State}
    (h : Sound twiceMd5 keyId serialOf cameras past s) (hinner : inner ≠ .restart)
    (hstep : CloudKey.step keyId isConnect s.keys inner = some keys)
    (hevent : event ≠ .keys .restart)
    (hfinish : ∀ i result persist, inner = .finish i result persist → event = .keys inner) :
    Sound twiceMd5 keyId serialOf cameras (past ++ [(s, event)]) { s with keys } where
  given _ _ hcode := given_step h.given hstep hevent hfinish hcode
  kept a ha id code hcode :=
    ⟨(h.kept a ha id code hcode).1.concat hevent,
      codes_kept hstep hinner (h.kept a ha id code hcode).2⟩
  ruled := h.ruled

/-- A call of `encryption` goes on. -/
theorem Sound.report {inner : Guarded.Event String Bool Found} {reports : Reports}
    (h : Sound twiceMd5 keyId serialOf cameras past s)
    (hstep : Guarded.State.step (encryptionService twiceMd5 keyId serialOf cameras) none s.reports
      (lookAt s.keys.guard inner) = some reports) :
    Sound twiceMd5 keyId serialOf cameras (past ++ [(s, .report inner)]) { s with reports } where
  given _ _ hcode := (h.given _ _ hcode).concat (by rintro ⟨⟩)
  kept a ha id code hcode := by
    have hgiven : Given keyId past id code ∧ (s.keys.guard.codes id).isSome := by
      -- the log is the same, or this answer is new
      rcases Guarded.log_step hstep with hsame | ⟨i, answer, b, hanswer, hlog, rfl⟩
      · exact h.kept a (hsame ▸ ha) id code hcode
      · rw [hlog] at ha
        rcases List.mem_append.mp ha with hold | hnew
        · exact h.kept a hold id code hcode
        · -- the answer that comes now sees the guard of now
          rw [List.mem_singleton.mp hnew] at hcode
          cases inner with
          | answer j found =>
            obtain ⟨-, hfound⟩ := Guarded.Event.answer.inj hanswer
            rw [← hfound] at hcode
            have hcode' : s.keys.guard.codes id = some code := hcode
            exact ⟨h.given id code hcode', by rw [hcode']; rfl⟩
          | call | lock | permit | drop | pass => cases hanswer
    exact ⟨hgiven.1.concat (by rintro ⟨⟩), hgiven.2⟩
  ruled := cachedReport_rules.step h.ruled hstep

/-- Every step is sound. -/
theorem Sound.step (h : Sound twiceMd5 keyId serialOf cameras past s)
    (hstep : step twiceMd5 keyId serialOf isConnect cameras s event = some s') :
    Sound twiceMd5 keyId serialOf cameras (past ++ [(s, event)]) s' := by
  -- a decryption, a step of the keys, or a step of the reports
  cases event with
  | decrypt serial optionCode status persist =>
    simp only [Encryption.step] at hstep
    split at hstep
    · obtain rfl := Option.some.inj hstep
      refine ⟨fun id code hcode => (h.given id code hcode).concat (by rintro ⟨⟩), ?_, h.ruled⟩
      exact fun a ha id code hcode =>
        ⟨(h.kept a ha id code hcode).1.concat (by rintro ⟨⟩), (h.kept a ha id code hcode).2⟩
    · obtain ⟨keys, hkeys, rfl⟩ := Option.map_eq_some_iff.mp hstep
      exact h.keys (by rintro ⟨⟩) hkeys (by rintro ⟨⟩) (by rintro _ _ _ ⟨⟩)
  | keys inner =>
    cases inner with
    | fetch serial persist => cases hstep
    | restart =>
      -- a new process has no codes and no reports
      obtain rfl := Option.some.inj hstep
      exact ⟨fun _ _ hcode => (by cases hcode), fun a ha => absurd ha List.not_mem_nil, ruled_start⟩
    | tick | send | finish | cancel =>
      simp only [Encryption.step, Option.map_eq_some_iff] at hstep
      obtain ⟨keys, hkeys, rfl⟩ := hstep
      exact h.keys (by rintro ⟨⟩) hkeys (by rintro ⟨⟩) (by rintro _ _ _ ⟨⟩ <;> rfl)
  | report inner =>
    obtain ⟨reports, hreports, rfl⟩ := Option.map_eq_some_iff.mp hstep
    exact h.report hreports

/-- A run is sound. -/
theorem Sound.of_run {file : String → Option ℤ} {clock : ℤ} {events : List Event}
    (hrun : EventSystem.run (Encryption.step twiceMd5 keyId serialOf isConnect cameras)
      { keys := .load file clock } events = some s) :
    Sound twiceMd5 keyId serialOf cameras
      (EventSystem.trace (Encryption.step twiceMd5 keyId serialOf isConnect cameras)
        { keys := .load file clock } events) s := by
  have hinv := EventSystem.run_history (Sound twiceMd5 keyId serialOf cameras)
    (fun _ _ _ _ h hstep => h.step hstep) (sound_start file clock) hrun
  rwa [List.nil_append] at hinv

/-- What a report of this process promises, it keeps. -/
theorem Sound.tells (h : Sound twiceMd5 keyId serialOf cameras past s)
    {a : Answer String Bool EncryptionAnswer} (ha : a ∈ s.reports.log) (camera : String) :
    Tells twiceMd5 keyId isConnect past s.keys.guard (serialOf camera) a.answer
      (encryptionReport twiceMd5 keyId serialOf camera a.answer).1.keySource := by
  have hspec := @reportKeySource_spec twiceMd5 keyId isConnect a.answer.guard (serialOf camera)
    a.answer.optionCode a.answer.status.toOption
  show Tells _ _ _ _ _ _ _ (reportKeySource twiceMd5 keyId a.answer.guard (serialOf camera)
    a.answer.optionCode a.answer.status.toOption)
  -- the source as the report names it
  cases hsource : reportKeySource twiceMd5 keyId a.answer.guard
    (serialOf camera) a.answer.optionCode
      a.answer.status.toOption with
  | option | none =>
    rw [hsource] at hspec
    exact hspec
  | cloud =>
    rw [hsource] at hspec
    obtain ⟨code, hcached, hmatches, hused⟩ := hspec
    obtain ⟨hgiven, hsome⟩ := h.kept a ha _ code hcached
    exact ⟨code, hgiven, hmatches, hused, fun optionCode attempt status =>
      candidateKeys_of_cached hsome⟩

/-- A report without a key, a decryption that has to ask EZVIZ, and, when the report is too old, one
that names the code of the cloud. The camera tells no hash. -/
def sampleEvents : List Event :=
  [.report (.call "front" true), .report (.lock 0), .report (.permit 0),
    .report (.answer 0 (.ok { videoEncrypted := some true }, none)), .decrypt "A1" none none .ok,
    .keys (.finish 0 (.ok "ABCDEF") .ok), .report (.pass encryptionTtl),
    .report (.call "front" true), .report (.lock 1), .report (.permit 1),
    .report (.answer 1 (.ok { videoEncrypted := some true }, none))]

end Runs

end Encryption

end Device

end EzvizBridge
