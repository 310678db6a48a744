import EzvizBridge.CloudKey.Guard
import EzvizBridge.Device.Records

/-!
# The verification code of a camera

`device/key.rs`: which code a decryption uses (`candidateKeys`), and which one `GET …/encryption`
reports (`reportKeySource`). The first may ask EZVIZ, through the guard; the second must not.

`twiceMd5` is a parameter, as is the digest of the serial. The code of the app's option is what
`ensure_private_regular` reads.
-/

namespace EzvizBridge

namespace Device

open CloudKey (Guard)
open Recordings (Persist)

/-- `DeviceStatus`, with the fields that the search of one protocol does not read. -/
structure CloudStatus extends DeviceStatus where
  videoEncrypted : Option Bool := none
  encryptPwdHash : Option String := none
  recordSearch : Option RecordSearchVersion := none

inductive KeySource
  | option
  | cloud
  | none
  deriving DecidableEq, Repr

structure VideoKey where
  source : KeySource
  code : String
  deriving DecidableEq, Repr

/-- The media key of a camera's configuration: `none` without a `media_key_file`, else what is
read. -/
abbrev OptionCode := Option (Except BridgeError String)

/-- What `cloud_verification_code` finds when it asks: the time, the answer of EZVIZ, and whether
the attempts could be written before and after. -/
structure Attempt where
  now : ℤ
  result : Except BridgeError String
  persist : Persist
  persist' : Persist

section

variable (twiceMd5 : String → String) (keyId : String → String) (isConnect : String → Bool)

/-- `matches_hash`. -/
def matchesHash (code : String) (hash : Option String) : Bool :=
  let validLength := code ≠ "" ∧ code.utf8ByteSize ≤ 64
  match hash with
  | .none => validLength
  | some expected => validLength ∧ twiceMd5 code = expected.toLower

/-- `option_key`. -/
def optionKey (optionCode : OptionCode) (hash : Option String) : Option VideoKey :=
  match optionCode with
  | some (.ok code) => if matchesHash twiceMd5 code hash then some ⟨.option, code⟩ else none
  | _ => none

/-- `cloud_key`. -/
def cloudKey (guard : Guard) (serial : String) (attempt : Attempt) (hash : Option String) :
    Option VideoKey × Guard :=
  match guard.fetch keyId isConnect serial attempt.now attempt.result attempt.persist
    attempt.persist' with
  | (.ok code, guard) =>
    (if matchesHash twiceMd5 code hash then some ⟨.cloud, code⟩ else none, guard)
  | (.error _, guard) => (none, guard)

/-- `candidate_keys`. -/
def candidateKeys (guard : Guard) (serial : String) (optionCode : OptionCode) (attempt : Attempt)
    (status : Option CloudStatus) : List VideoKey × Guard :=
  let hash := status.bind fun status => status.encryptPwdHash
  match optionKey twiceMd5 optionCode hash with
  | some option => ([option], guard)
  | none =>
    let (key, guard) := cloudKey twiceMd5 keyId isConnect guard serial attempt hash
    (key.toList, guard)

/-- `report_key_source`. -/
def reportKeySource (guard : Guard) (serial : String) (optionCode : OptionCode)
    (status : Option CloudStatus) : KeySource :=
  let hash := status.bind fun status => status.encryptPwdHash
  if (optionKey twiceMd5 optionCode hash).isSome then .option
  else
    match guard.cached keyId serial with
    | some code => if matchesHash twiceMd5 code hash then .cloud else .none
    | none => .none

end

section Reports

variable {twiceMd5 keyId : String → String} {isConnect : String → Bool} {guard : Guard}
  {serial : String} {optionCode : OptionCode} {attempt : Attempt} {status : Option CloudStatus}
  {hash : Option String} {key : VideoKey} {code : String}

/-- The guard lets a request through. -/
def Asks (keyId : String → String) (guard : Guard) (serial : String) (attempt : Attempt) : Prop :=
  guard.cached keyId serial = none ∧
    (guard.begin keyId serial attempt.now attempt.persist).1 = .ok ()

theorem optionKey_eq_some (h : optionKey twiceMd5 optionCode hash = some key) :
    ∃ code, optionCode = some (.ok code) ∧ matchesHash twiceMd5 code hash ∧
      key = ⟨.option, code⟩ := by
  unfold optionKey at h
  split at h
  · next code =>
    split at h
    · next hmatches => exact ⟨code, rfl, hmatches, (Option.some.inj h).symm⟩
    · cases h
  · cases h

theorem cloudKey_of_cached (hcached : guard.cached keyId serial = some code) :
    cloudKey twiceMd5 keyId isConnect guard serial attempt hash =
      (if matchesHash twiceMd5 code hash then some ⟨.cloud, code⟩ else none, guard) := by
  rw [cloudKey, Guard.fetch, hcached]

/-- Without it, a key is the answer of EZVIZ to a request, and it is kept. -/
theorem cloudKey_eq_some (hcached : guard.cached keyId serial = none)
    (h : (cloudKey twiceMd5 keyId isConnect guard serial attempt hash).1 = some key) :
    Asks keyId guard serial attempt ∧ attempt.result = .ok key.code ∧ key.source = .cloud ∧
      matchesHash twiceMd5 key.code hash ∧
      (cloudKey twiceMd5 keyId isConnect guard serial attempt hash).2.cached keyId serial =
        some key.code := by
  rw [cloudKey, Guard.fetch, hcached] at h ⊢
  cases hbegin : guard.begin keyId serial attempt.now attempt.persist with
  | mk begun after =>
    rw [hbegin] at h
    cases begun with
    | error error => cases h
    | ok _ =>
      cases hresult : attempt.result with
      | error error =>
        rw [hresult] at h
        cases h
      | ok code =>
        simp only [hresult] at h ⊢
        split at h
        · next hmatches =>
          obtain rfl := Option.some.inj h
          refine ⟨⟨hcached, by rw [hbegin]⟩, rfl, rfl, hmatches, ?_⟩
          exact Function.update_self _ _ _
        · cases h

/-- **What a report promises.** A reported code is the one that a decryption uses, and EZVIZ is not
asked for it: the code of the option by any guard, the code of the cloud by this one. If none is
reported, a decryption can only use what EZVIZ answers to a request, and then that is reported. -/
theorem reportKeySource_spec (guard : Guard) (serial : String) (optionCode : OptionCode)
    (status : Option CloudStatus) :
    let hash := status.bind fun status => status.encryptPwdHash
    let candidates := fun guard attempt =>
      candidateKeys twiceMd5 keyId isConnect guard serial optionCode attempt status
    match reportKeySource twiceMd5 keyId guard serial optionCode status with
    | .option => ∃ code, optionCode = some (.ok code) ∧ matchesHash twiceMd5 code hash ∧
        ∀ guard attempt, candidates guard attempt = ([⟨.option, code⟩], guard)
    | .cloud => ∃ code, guard.cached keyId serial = some code ∧ matchesHash twiceMd5 code hash ∧
        ∀ attempt, candidates guard attempt = ([⟨.cloud, code⟩], guard)
    | .none => ∀ attempt, ∀ key ∈ (candidates guard attempt).1,
        (candidates guard attempt).1 = [key] ∧ Asks keyId guard serial attempt ∧
          attempt.result = .ok key.code ∧ matchesHash twiceMd5 key.code hash ∧
          reportKeySource twiceMd5 keyId (candidates guard attempt).2 serial optionCode status =
            .cloud := by
  intro hash candidates
  have hcandidates : ∀ guard attempt, candidates guard attempt =
      match optionKey twiceMd5 optionCode hash with
      | some option => ([option], guard)
      | none =>
        let key := cloudKey twiceMd5 keyId isConnect guard serial attempt hash
        (key.1.toList, key.2) := fun guard attempt => rfl
  have hreport : ∀ guard, reportKeySource twiceMd5 keyId guard serial optionCode status =
      if (optionKey twiceMd5 optionCode hash).isSome then .option
      else
        match guard.cached keyId serial with
        | some code => if matchesHash twiceMd5 code hash then .cloud else .none
        | none => .none := fun guard => rfl
  simp only [hreport, hcandidates]
  cases hoption : optionKey twiceMd5 optionCode hash with
  | some option =>
    obtain ⟨code, hcode, hmatches, rfl⟩ := optionKey_eq_some hoption
    exact ⟨code, hcode, hmatches, fun guard attempt => rfl⟩
  | none =>
    rw [Option.isSome_none, if_neg Bool.false_ne_true]
    cases hcached : guard.cached keyId serial with
    | some code =>
      simp only [cloudKey_of_cached hcached]
      by_cases hmatches : matchesHash twiceMd5 code hash = true
      · simp only [if_pos hmatches]
        exact ⟨code, rfl, hmatches, fun attempt => rfl⟩
      · simp only [if_neg hmatches]
        exact fun attempt key hkey => absurd hkey List.not_mem_nil
    | none =>
      intro attempt key hkey
      have hkey' := Option.mem_toList.mp hkey
      obtain ⟨hasks, hresult, hsource, hmatches, hkept⟩ := cloudKey_eq_some hcached hkey'
      refine ⟨by rw [hkey']; rfl, hasks, hresult, hmatches, ?_⟩
      -- the guard has the answer now
      rw [hkept]
      simp only [hmatches, if_true, Bool.false_eq_true, if_false]

/-- A decryption does not ask EZVIZ for a code that the guard has. -/
theorem candidateKeys_of_cached (h : (guard.cached keyId serial).isSome) :
    (candidateKeys twiceMd5 keyId isConnect guard serial optionCode attempt status).2 = guard := by
  obtain ⟨code, hcached⟩ := Option.isSome_iff_exists.mp h
  rw [candidateKeys]
  cases optionKey twiceMd5 optionCode (status.bind fun status => status.encryptPwdHash) with
  | some option => rfl
  | none => rw [cloudKey_of_cached hcached]

end Reports

end Device

end EzvizBridge
