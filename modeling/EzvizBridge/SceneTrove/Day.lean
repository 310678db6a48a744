import Mathlib.Data.List.Sort
import EzvizBridge.SceneTrove.Exchange
import EzvizBridge.Lib.Decimal

/-!
# The import of a day: `pull_day`

`scenetrove_sd.rs`: the clips of a day are pulled one after the other, oldest first, and a ledger in
the destination says which of them are done. A run is split where the process can die: before each
clip, inside the pull of a clip (`Consumer`), and between the end of a pull and the write of the
ledger.

The ledger is written after every change before anything else happens, so the copy in memory and the
file are one field here. A run that cannot read the directory or write the ledger ends without
having done so, which is `DayEvent.crash`. The request for the list of records is left out: a run
starts with the records that it was given.

`Day.step_cases` says what one step can do; the texts of clips and keys can be taken apart again
(`clipOf_injective`, `keyOf_injective`).
-/

namespace EzvizBridge

/-- `i64::saturating_add`. -/
def saturatingAddI64 (a b : ℤ) : ℤ := max (-2 ^ 63) (min (a + b) (2 ^ 63 - 1))

/-- `+` of `i64` in the release build. -/
def wrappingAddI64 (a b : ℤ) : ℤ := (a + b).bmod (2 ^ 64)

namespace SceneTrove

open Recordings

/-! ### Records and the ledger -/

/-- `Record`. -/
structure Record where
  start : ℤ
  stop : ℤ
  deriving DecidableEq, Repr

/-- The limits in `SdDay`. -/
structure SdDay where
  maxClips : ℕ
  maxSeconds : ℤ
  deriving DecidableEq, Repr

def maxAttempts : ℕ := 3

/-- `Ledger`. -/
structure Ledger where
  done : List String := []
  attempts : List (String × ℕ) := []
  wakes : List (String × ℕ) := []
  deriving DecidableEq, Repr

namespace Ledger

/-- `Ledger::finish`. -/
def finish (self : Ledger) (clip : String) : Ledger where
  done := self.done.insert clip
  attempts := Keyed.remove Prod.fst self.attempts clip
  wakes := Keyed.remove Prod.fst self.wakes clip

/-- The failed attempts of a clip. -/
def attempt (self : Ledger) (clip : String) : ℕ :=
  ((Keyed.lookup Prod.fst self.attempts clip).map Prod.snd).getD 0

/-- How often a clip found the camera asleep. -/
def wake (self : Ledger) (clip : String) : ℕ :=
  ((Keyed.lookup Prod.fst self.wakes clip).map Prod.snd).getD 0

/-- The clip has failed so many times. -/
def failed (self : Ledger) (clip : String) (attempts : ℕ) : Ledger :=
  { self with attempts := Keyed.insert Prod.fst self.attempts (clip, attempts) }

/-- The clip has found the camera asleep once more; the counter is a `u32`. -/
def asleep (self : Ledger) (clip : String) : Ledger :=
  { self with wakes := Keyed.insert Prod.fst self.wakes (clip, (self.wake clip + 1) % 2 ^ 32) }

end Ledger

/-- The records of a run: in the order of their start, and only those that do not end before it. -/
def listed (records : List Record) : List Record :=
  (records.insertionSort fun a b => a.start ≤ b.start).filter fun record =>
    record.start ≤ record.stop

/-- The clip's identity is the listed interval, whatever bound is used. -/
def clipOf (camera : String) (record : Record) : String :=
  "sd-" ++ camera ++ "-" ++ toString record.start ++ "-" ++ toString record.stop

/-- The end of the interval that is asked for. -/
def boundOf (day : SdDay) (record : Record) : ℤ :=
  max (min record.stop (saturatingAddI64 record.start day.maxSeconds))
    (wrappingAddI64 record.start 1)

/-- Each attempt has its own key. -/
def keyOf (clip : String) (stop : ℤ) (attempt wake : ℕ) : String :=
  clip ++ "-e" ++ toString stop ++ "-a" ++ toString attempt ++ "-w" ++ toString wake

/-- `already_imported`: a file of this clip's recording time is already in the destination. -/
def alreadyImported (destination : List (MediaName × Bytes)) (start : ℤ) : Bool :=
  inRange start && destination.any fun entry => entry.1.stamp = start

/-! ### What the result of a pull means -/

/-- The arms of the `match` on the result. -/
inductive Verdict
  | imported (result : PullResult)
  /-- overwritten on the card -/
  | overwritten
  /-- the camera is asleep -/
  | asleep
  /-- the relay failed or the key was refused -/
  | failed
  | stillRunning
  /-- the bridge is unreachable or misbehaving -/
  | stopped (error : BridgeError)
  deriving DecidableEq, Repr

/-- The `match` on the result. -/
def verdictOf : Except BridgeError PullResult → Verdict
  | .ok result => .imported result
  | .error (.upstream detail) =>
    if "sd_no_recording".toList.isSuffixOf detail.toList then .overwritten
    else if detail = "bridge recording failed: camera_offline" then .asleep
    else if "bridge recording failed: ".toList.isPrefixOf detail.toList ∨
        "bridge returned HTTP 400".toList.isPrefixOf detail.toList then .failed
    else if detail = "recording did not finish before deadline" then .stillRunning
    else .stopped (.upstream detail)
  | .error error => .stopped error

/-! ### The process -/

/-- The variables of a run. -/
structure DayRun where
  day : SdDay
  /-- the records that the loop has not reached yet -/
  records : List Record
  attemptsLeft : ℕ
  pulled : List PullResult := []
  deriving DecidableEq, Repr

/-- Where a run stands. -/
inductive DayPhase
  | idle
  /-- at the head of the loop -/
  | looping (run : DayRun)
  /-- in `pull(request).await` -/
  | pulling (run : DayRun) (record : Record) (attempt : ℕ)
  | returned (result : Except BridgeError (List PullResult))
  deriving DecidableEq

/-- What happens in the process without the bridge. -/
inductive DayEvent
  /-- `pull_day` is called and has got the records of the day -/
  | start (records : List Record) (day : SdDay)
  /-- the loop takes its next record -/
  | next
  /-- the pull goes on -/
  | pull (event : PullEvent)
  /-- the pull has returned -/
  | settle
  | crash
  deriving DecidableEq, Repr

/-- The process, its destination directory and the ledger there. -/
structure Day where
  consumer : Consumer := {}
  ledger : Ledger := {}
  phase : DayPhase := .idle

namespace Day

/-- The request for one clip. -/
def requestOf (template : PullRequest) (day : SdDay) (record : Record) (attempt wake : ℕ) :
    PullRequest :=
  let stop := boundOf day record
  { template with
    sdInterval := some (record.start, stop)
    idempotencyKey := keyOf (clipOf template.camera record) stop attempt wake }

/-- One turn of the loop, up to the pull. -/
def next (sha256 : Sha256) (template : PullRequest) (self : Day) (run : DayRun) :
    Option (Day × Option Request) :=
  match run.records with
  | [] => some ({ self with phase := .returned (.ok run.pulled) }, none)
  | record :: records =>
    if run.attemptsLeft = 0 then some ({ self with phase := .returned (.ok run.pulled) }, none)
    else
      let clip := clipOf template.camera record
      let run := { run with records }
      if clip ∈ self.ledger.done then some ({ self with phase := .looping run }, none)
      -- imported but not recorded here (a crash after the bridge ACK)
      else if alreadyImported self.consumer.destination record.start then
        some ({ self with ledger := self.ledger.finish clip, phase := .looping run }, none)
      else
        let attempt := self.ledger.attempt clip
        let request := requestOf template run.day record attempt (self.ledger.wake clip)
        (self.consumer.advance sha256 (.call request)).map fun (consumer, message) =>
          ({ self with
              consumer
              phase := .pulling { run with attemptsLeft := run.attemptsLeft - 1 } record attempt },
            message)

/-- The rest of the turn, after the pull. -/
def settle (template : PullRequest) (self : Day) (run : DayRun) (record : Record) (attempt : ℕ)
    (outcome : PullOutcome) : Day :=
  let clip := clipOf template.camera record
  match verdictOf outcome.result with
  | .imported result =>
    { self with
      ledger := self.ledger.finish clip
      phase := .looping { run with pulled := run.pulled ++ [result] } }
  | .overwritten => { self with ledger := self.ledger.finish clip, phase := .looping run }
  | .asleep =>
    { self with ledger := self.ledger.asleep clip, phase := .returned (.ok run.pulled) }
  | .failed =>
    -- the clip is given up after its last key
    if maxAttempts ≤ attempt + 1 then
      { self with ledger := self.ledger.finish clip, phase := .looping run }
    else { self with ledger := self.ledger.failed clip (attempt + 1), phase := .looping run }
  | .stillRunning => { self with phase := .looping run }
  | .stopped error => { self with phase := .returned (.error error) }

/-- The process goes on by itself: its new state, and the request that it sends. -/
def advance (sha256 : Sha256) (template : PullRequest) (self : Day) :
    DayEvent → Option (Day × Option Request)
  | .start records day =>
    match self.phase with
    | .idle | .returned _ =>
      some ({ self with
        phase := .looping { day, records := listed records, attemptsLeft := day.maxClips } }, none)
    | _ => none
  | .next =>
    match self.phase with
    | .looping run => self.next sha256 template run
    | _ => none
  | .pull event =>
    match self.phase, event with
    | _, .call _ | _, .crash => none
    | .pulling _ _ _, event =>
      (self.consumer.advance sha256 event).map fun (consumer, message) =>
        ({ self with consumer }, message)
    | _, _ => none
  | .settle =>
    match self.phase, self.consumer.phase with
    | .pulling run record attempt, .finished _ outcome =>
      some (self.settle template run record attempt outcome, none)
    | _, _ => none
  | .crash =>
    some ({ self with consumer := { self.consumer with phase := .idle }, phase := .idle }, none)

/-- The reply to the last request. -/
def receive (sha256 : Sha256) (self : Day) (reply : Reply) : Option (Day × Option Request) :=
  match self.phase with
  | .pulling _ _ _ =>
    (self.consumer.receive sha256 reply).map fun (consumer, message) =>
      ({ self with consumer }, message)
  | _ => none

end Day

/-! ### Clips and keys -/

section Texts

variable {camera : String} {record record' : Record} {stop stop' : ℤ} {attempt attempt' : ℕ}
    {wake wake' : ℕ}

theorem toList_clipOf (camera : String) (record : Record) :
    (clipOf camera record).toList =
      ("sd-".toList ++ camera.toList) ++ '-' :: ((toString record.start).toList ++
        '-' :: (toString record.stop).toList) := by
  simp [clipOf]

theorem toList_keyOf (clip : String) (stop : ℤ) (attempt wake : ℕ) :
    (keyOf clip stop attempt wake).toList =
      clip.toList ++ '-' :: 'e' :: ((toString stop).toList ++
        '-' :: 'a' :: ((toString attempt).toList ++ '-' :: 'w' :: (toString wake).toList)) := by
  simp [keyOf]

/-- A clip says which interval it is. -/
theorem clipOf_injective (h : clipOf camera record = clipOf camera record') : record = record' := by
  have htext := congrArg String.toList h
  rw [toList_clipOf, toList_clipOf] at htext
  obtain ⟨-, htext⟩ := List.cons.inj (List.append_cancel_left htext)
  obtain ⟨hstart, hstop⟩ := Decimal.int_split htext
  cases record
  cases record'
  obtain rfl : _ = _ := hstart
  obtain rfl := Decimal.int_injective hstop
  rfl

/-- A key says which attempt it is. -/
theorem keyOf_injective
    (h : keyOf (clipOf camera record) stop attempt wake =
      keyOf (clipOf camera record') stop' attempt' wake') :
    record = record' ∧ attempt = attempt' ∧ wake = wake' := by
  have htext := congrArg String.toList h
  simp only [toList_keyOf, toList_clipOf, List.append_assoc, List.cons_append] at htext
  -- the pieces, from the left: start, end, bound, attempt, wake
  obtain ⟨-, htext⟩ := List.cons.inj
    (List.append_cancel_left (List.append_cancel_left htext))
  obtain ⟨hstart, htext⟩ := Decimal.int_split htext
  obtain ⟨hstop, htext⟩ := Decimal.int_split htext
  obtain ⟨-, htext⟩ := List.cons.inj htext
  obtain ⟨-, htext⟩ := Decimal.int_split htext
  obtain ⟨-, htext⟩ := List.cons.inj htext
  obtain ⟨hattempt, htext⟩ := Decimal.nat_split htext
  obtain ⟨-, htext⟩ := List.cons.inj htext
  refine ⟨?_, hattempt, Decimal.nat_injective htext⟩
  cases record
  cases record'
  obtain rfl : _ = _ := hstart
  obtain rfl : _ = _ := hstop
  rfl

end Texts

/-! ### Verdicts -/

/-- A text that ends in a digit does not end in `sd_no_recording`. -/
theorem not_suffix_of_number (text : String) (n : ℕ) :
    "sd_no_recording".toList.isSuffixOf (text ++ toString n).toList = false := by
  rw [Bool.eq_false_iff]
  intro h
  rw [List.isSuffixOf_iff_suffix, String.toList_append] at h
  obtain ⟨rest, hrest⟩ := h
  -- the last character is a digit, and the suffix has none
  have hlast := congrArg List.getLast? hrest
  have hne : (toString n).toList ≠ [] := by
    rw [Decimal.toList_toString]
    exact Nat.toDigits_ne_nil
  rw [List.getLast?_append_of_ne_nil _ hne, List.getLast?_eq_some_getLast hne] at hlast
  have hdigit := Decimal.isDigit_of_mem (List.getLast_mem hne)
  rw [List.getLast?_append] at hlast
  rw [← Option.some.inj hlast] at hdigit
  exact nomatch hdigit

/-- A text with the suffix has it from its code. -/
theorem suffix_of_code (code : String)
    (h : "sd_no_recording".toList.isSuffixOf ("bridge recording failed: " ++ code).toList = true) :
    "sd_no_recording".toList.isSuffixOf code.toList = true := by
  rw [List.isSuffixOf_iff_suffix, String.toList_append] at h
  rw [List.isSuffixOf_iff_suffix]
  rcases List.suffix_or_suffix_of_suffix h (List.suffix_append _ code.toList) with hs | hs
  · exact hs
  · -- the code would be a piece of the text, of which there are few
    have hmem := (List.mem_tails code.toList _).mpr hs
    generalize code.toList = c at *
    have hall : ∀ c ∈ List.tails "sd_no_recording".toList,
        "sd_no_recording".toList <:+ "bridge recording failed: ".toList ++ c →
          "sd_no_recording".toList <:+ c := by
      decide
    exact hall c hmem h

/-- The recording failed because the interval is not on the card any more. -/
def Overwritten (manifest : RecordingManifest) : Prop :=
  ∃ code, manifest.errorCode = some code ∧ "sd_no_recording".toList.isSuffixOf code.toList = true

/-- A text that none of the tests is about stops the run. -/
theorem verdictOf_upstream {detail : String}
    (hsuffix : "sd_no_recording".toList.isSuffixOf detail.toList = false)
    (hfirst : detail.toList.head? ≠ some 'b')
    (hdeadline : detail.toList.take 13 ≠ "recording did".toList) :
    verdictOf (.error (.upstream detail)) = .stopped (.upstream detail) := by
  -- the prefixes of the other tests start with another character
  have hprefix (text : List Char) : ('b' :: text).isPrefixOf detail.toList = false := by
    rw [Bool.eq_false_iff]
    intro h
    obtain ⟨rest, hrest⟩ := List.isPrefixOf_iff_prefix.mp h
    exact hfirst (by rw [← hrest]; rfl)
  have hoffline : detail ≠ "bridge recording failed: camera_offline" := by
    rintro rfl
    rw [String.toList_ofList] at hfirst
    exact hfirst rfl
  have hlate : detail ≠ "recording did not finish before deadline" := by
    rintro rfl
    rw [String.toList_ofList, String.toList_ofList] at hdeadline
    exact hdeadline rfl
  rw [verdictOf, if_neg (Bool.eq_false_iff.mp hsuffix), if_neg hoffline, if_neg ?_, if_neg hlate]
  rw [String.toList_ofList, String.toList_ofList, hprefix, hprefix]
  exact not_or.mpr ⟨Bool.false_ne_true, Bool.false_ne_true⟩

/-- A fault stops the run, whatever its text. -/
theorem verdict_broken (fault : Fault) :
    verdictOf (PullOutcome.broken fault).result = .stopped fault.error := by
  -- the faults whose text has a number, then those with an error of their own, and the fixed texts
  cases fault with
  | ack status =>
    apply verdictOf_upstream (not_suffix_of_number _ _)
    · rw [String.toList_append, String.toList_ofList]
      intro h
      exact absurd (Option.some.inj h) (by decide)
    · rw [String.toList_append, String.toList_ofList, String.toList_ofList]
      intro h
      have hplace := congrArg (fun text => text[10]?) h
      exact absurd (Option.some.inj hplace) (by decide)
  | http | io | json | receipt | tooLarge => rfl
  | _ =>
    apply verdictOf_upstream
    · rw [String.toList_ofList, String.toList_ofList]
      decide
    · rw [String.toList_ofList]
      decide
    · rw [String.toList_ofList, String.toList_ofList]
      decide

/-- A failed recording gives its clip an attempt, a wake or the end. -/
theorem verdict_of_failed (m : RecordingManifest) :
    (verdictOf (PullOutcome.failed m).result = .overwritten ∧ Overwritten m) ∨
      verdictOf (PullOutcome.failed m).result = .asleep ∨
      verdictOf (PullOutcome.failed m).result = .failed := by
  dsimp only [PullOutcome.result, verdictOf]
  -- the tests of the source, in their order
  split_ifs with hsuffix hoffline hstarts
  · refine .inl ⟨rfl, ?_⟩
    have hcode := suffix_of_code _ hsuffix
    cases herror : m.errorCode with
    | none =>
      rw [herror] at hcode
      exact nomatch hcode
    | some code =>
      rw [herror] at hcode
      exact ⟨code, herror, hcode⟩
  · exact .inr (.inl rfl)
  · exact .inr (.inr rfl)
  all_goals
    refine absurd (.inl ?_) hstarts
    rw [List.isPrefixOf_iff_prefix, String.toList_append]
    exact List.prefix_append _ _

/-- A refused request is an attempt, or it stops the run. -/
theorem verdict_of_refused (status : ℕ) :
    verdictOf (PullOutcome.refused status).result = .failed ∨
      (status ≠ 400 ∧ ∃ error, verdictOf (PullOutcome.refused status).result = .stopped error) := by
  -- the first characters tell the text from the others
  have htext : ∀ text : String, text.toList.take 11 ≠ "bridge retu".toList →
      "bridge returned HTTP " ++ toString status ≠ text := by
    rintro _ hne rfl
    rw [String.toList_append] at hne
    exact hne rfl
  dsimp only [PullOutcome.result, verdictOf]
  rw [if_neg (Bool.eq_false_iff.mp (not_suffix_of_number _ _)), if_neg (htext _ (by decide))]
  -- the status 400 counts as an attempt
  split_ifs with hstarts hdeadline
  · exact .inl rfl
  · exact absurd hdeadline (htext _ (by decide))
  · refine .inr ⟨?_, _, rfl⟩
    rintro rfl
    exact hstarts (.inr (by decide))

/-- What a pull ends with, and the arm that is taken for it. -/
inductive Means : PullOutcome → Verdict → Prop
  | imported {x} : Means (.ok x) (.imported x)
  | overwritten {m} : Overwritten m → Means (.failed m) .overwritten
  | asleep {m} : Means (.failed m) .asleep
  | failed {m} : Means (.failed m) .failed
  | refused {status} : Means (.refused status) .failed
  | unserved {status error} : status ≠ 400 → Means (.refused status) (.stopped error)
  | deadline : Means .deadline .stillRunning
  | broken {fault error} : Means (.broken fault) (.stopped error)

/-- **What the arms stand for.** -/
theorem verdict_means (outcome : PullOutcome) : Means outcome (verdictOf outcome.result) := by
  -- outcome by outcome
  cases outcome with
  | ok => exact .imported
  | failed m =>
    rcases verdict_of_failed m with ⟨h, hcode⟩ | h | h <;> rw [h]
    · exact .overwritten hcode
    · exact .asleep
    · exact .failed
  | refused status =>
    rcases verdict_of_refused status with h | ⟨hne, error, h⟩ <;> rw [h]
    · exact .refused
    · exact .unserved hne
  | deadline => exact .deadline
  | broken fault =>
    rw [verdict_broken]
    exact .broken

/-! ### The ledger -/

namespace Ledger

variable {l : Ledger} {clip clip' : String} {n : ℕ}

theorem mem_done_finish : clip' ∈ (l.finish clip).done ↔ clip' = clip ∨ clip' ∈ l.done :=
  List.mem_insert_iff

theorem attempt_finish_self : (l.finish clip).attempt clip = 0 := by
  rw [attempt, finish, Keyed.lookup_remove_self]
  rfl

theorem attempt_finish_of_ne (h : clip' ≠ clip) :
    (l.finish clip).attempt clip' = l.attempt clip' := by
  rw [attempt, finish, Keyed.lookup_remove_of_ne h, attempt]

theorem wake_finish_of_ne (h : clip' ≠ clip) : (l.finish clip).wake clip' = l.wake clip' := by
  rw [wake, finish, Keyed.lookup_remove_of_ne h, wake]

theorem attempt_failed_self : (l.failed clip n).attempt clip = n := by
  have hlookup := @Keyed.lookup_insert_self _ _ _ Prod.fst l.attempts (clip, n)
  dsimp only at hlookup
  rw [attempt, failed, hlookup]
  rfl

theorem attempt_failed_of_ne (h : clip' ≠ clip) :
    (l.failed clip n).attempt clip' = l.attempt clip' := by
  have hlookup := @Keyed.lookup_insert_of_ne _ _ _ Prod.fst l.attempts clip' (clip, n) h
  rw [attempt, failed, hlookup, attempt]

/-- The wake is counted, and wraps. -/
theorem wake_asleep_self : (l.asleep clip).wake clip = (l.wake clip + 1) % 2 ^ 32 := by
  have hlookup := @Keyed.lookup_insert_self _ _ _ Prod.fst l.wakes
    (clip, (l.wake clip + 1) % 2 ^ 32)
  dsimp only at hlookup
  rw [wake, asleep, hlookup]
  rfl

theorem wake_asleep_of_ne (h : clip' ≠ clip) : (l.asleep clip).wake clip' = l.wake clip' := by
  have hlookup := @Keyed.lookup_insert_of_ne _ _ _ Prod.fst l.wakes clip'
    (clip, (l.wake clip + 1) % 2 ^ 32) h
  rw [wake, asleep, hlookup, wake]

end Ledger

/-! ### What one step can do -/

namespace Day

/-- What a verdict does to the ledger. -/
inductive Concludes (l : Ledger) (clip : String) (attempt : ℕ) : Verdict → Ledger → Prop
  | imported {result} : Concludes l clip attempt (.imported result) (l.finish clip)
  | overwritten : Concludes l clip attempt .overwritten (l.finish clip)
  | givenUp : maxAttempts ≤ attempt + 1 → Concludes l clip attempt .failed (l.finish clip)
  | failed : attempt + 1 < maxAttempts →
      Concludes l clip attempt .failed (l.failed clip (attempt + 1))
  | asleep : Concludes l clip attempt .asleep (l.asleep clip)
  | stillRunning : Concludes l clip attempt .stillRunning l
  | stopped {error} : Concludes l clip attempt (.stopped error) l

/-- After the pull: the ledger has changed as the verdict says, and the run goes on or returns. -/
theorem settle_spec (template : PullRequest) (d : Day) (run : DayRun) (record : Record)
    (attempt : ℕ) (outcome : PullOutcome) :
    ∃ ledger phase, d.settle template run record attempt outcome = { d with ledger, phase } ∧
      Concludes d.ledger (clipOf template.camera record) attempt (verdictOf outcome.result) ledger ∧
      ((∃ pulled, phase = .looping { run with pulled }) ∨ ∃ result, phase = .returned result) := by
  unfold settle
  cases verdictOf outcome.result with
  | imported result => exact ⟨_, _, rfl, .imported, .inl ⟨_, rfl⟩⟩
  | overwritten => exact ⟨_, _, rfl, .overwritten, .inl ⟨_, rfl⟩⟩
  | asleep => exact ⟨_, _, rfl, .asleep, .inr ⟨_, rfl⟩⟩
  -- the last attempt ends the clip, the others are counted
  | failed =>
    dsimp only
    split_ifs with hmany
    · exact ⟨_, _, rfl, .givenUp hmany, .inl ⟨_, rfl⟩⟩
    · exact ⟨_, _, rfl, .failed (Nat.not_le.mp hmany), .inl ⟨_, rfl⟩⟩
  | stillRunning => exact ⟨_, _, rfl, .stillRunning, .inl ⟨_, rfl⟩⟩
  | stopped error => exact ⟨_, _, rfl, .stopped, .inr ⟨_, rfl⟩⟩

/-- What the process does by itself. -/
inductive Moves (sha256 : Sha256) (template : PullRequest) (d : Day) :
    DayEvent → Day → Option Request → Prop
  | start {records day} : (d.phase = .idle ∨ ∃ result, d.phase = .returned result) →
      Moves sha256 template d (.start records day)
        { d with
          phase := .looping { day, records := listed records, attemptsLeft := day.maxClips } } none
  | ended {run} : d.phase = .looping run → Moves sha256 template d .next
      { d with phase := .returned (.ok run.pulled) } none
  | skipped {run record records} : d.phase = .looping run → run.records = record :: records →
      clipOf template.camera record ∈ d.ledger.done → Moves sha256 template d .next
        { d with phase := .looping { run with records } } none
  | found {run record records} : d.phase = .looping run → run.records = record :: records →
      run.attemptsLeft ≠ 0 → clipOf template.camera record ∉ d.ledger.done →
      alreadyImported d.consumer.destination record.start = true → Moves sha256 template d .next
        { d with
          ledger := d.ledger.finish (clipOf template.camera record)
          phase := .looping { run with records } } none
  | called {run record records c' message} : d.phase = .looping run →
      run.records = record :: records → run.attemptsLeft ≠ 0 →
      clipOf template.camera record ∉ d.ledger.done →
      Advances sha256 d.consumer (.call (requestOf template run.day record
        (d.ledger.attempt (clipOf template.camera record))
        (d.ledger.wake (clipOf template.camera record)))) c' message →
      Moves sha256 template d .next
        { d with
          consumer := c'
          phase := .pulling { run with records, attemptsLeft := run.attemptsLeft - 1 } record
            (d.ledger.attempt (clipOf template.camera record)) } message
  | pulled {run record attempt event c' message} : d.phase = .pulling run record attempt →
      (∀ r, event ≠ .call r) → event ≠ .crash → Advances sha256 d.consumer event c' message →
      Moves sha256 template d (.pull event) { d with consumer := c' } message
  | settled {run record attempt r outcome} : d.phase = .pulling run record attempt →
      d.consumer.phase = .finished r outcome →
      Moves sha256 template d .settle (d.settle template run record attempt outcome) none
  | crash : Moves sha256 template d .crash
      { d with consumer := { d.consumer with phase := .idle }, phase := .idle } none

variable {sha256 : Sha256} {template : PullRequest} {d d' : Day} {message : Option Request}

/-- The loop goes to the next record, as the source does. -/
theorem next_cases {run : DayRun} (hphase : d.phase = .looping run)
    (h : d.next sha256 template run = some (d', message)) :
    Moves sha256 template d .next d' message := by
  unfold next at h
  -- no record is left
  split at h
  · obtain ⟨rfl, rfl⟩ := Prod.mk.inj (Option.some.inj h)
    exact .ended hphase
  · rename_i record records hrecords
    dsimp only at h
    -- the budget is used up, the clip is done, its file is there, or it is pulled
    split_ifs at h with hleft hdone himported
    · obtain ⟨rfl, rfl⟩ := Prod.mk.inj (Option.some.inj h)
      exact .ended hphase
    · obtain ⟨rfl, rfl⟩ := Prod.mk.inj (Option.some.inj h)
      exact .skipped hphase hrecords hdone
    · obtain ⟨rfl, rfl⟩ := Prod.mk.inj (Option.some.inj h)
      exact .found hphase hrecords hleft hdone himported
    · obtain ⟨⟨c', message'⟩, hcall, heq⟩ := Option.map_eq_some_iff.mp h
      obtain ⟨rfl, rfl⟩ := Prod.mk.inj heq
      exact .called hphase hrecords hleft hdone (SceneTrove.advance_cases hcall)

/-- **What the process can do by itself.** -/
theorem advance_cases {event : DayEvent}
    (h : d.advance sha256 template event = some (d', message)) :
    Moves sha256 template d event d' message := by
  -- the events of the process
  unfold advance at h
  split at h
  case h_1 =>
    split at h
    · rename_i hphase
      obtain ⟨rfl, rfl⟩ := Prod.mk.inj (Option.some.inj h)
      exact .start (.inl hphase)
    · rename_i result hphase
      obtain ⟨rfl, rfl⟩ := Prod.mk.inj (Option.some.inj h)
      exact .start (.inr ⟨result, hphase⟩)
    · exact nomatch h
  case h_2 =>
    split at h
    · rename_i run hphase
      exact next_cases hphase h
    · exact nomatch h
  case h_3 event =>
    split at h
    · exact nomatch h
    · exact nomatch h
    · rename_i run record attempt hphase hcall hcrash
      obtain ⟨⟨c', message'⟩, hadvance, heq⟩ := Option.map_eq_some_iff.mp h
      obtain ⟨rfl, rfl⟩ := Prod.mk.inj heq
      exact .pulled hphase (fun r => hcall r) hcrash (SceneTrove.advance_cases hadvance)
    · exact nomatch h
  case h_4 =>
    split at h
    · rename_i hphase hfinished
      obtain ⟨rfl, rfl⟩ := Prod.mk.inj (Option.some.inj h)
      exact .settled hphase hfinished
    · exact nomatch h
  case h_5 =>
    obtain ⟨rfl, rfl⟩ := Prod.mk.inj (Option.some.inj h)
    exact .crash

/-- **What the process can do with a reply**: the pull gets it. -/
theorem receive_cases {reply : Reply} (h : d.receive sha256 reply = some (d', message)) :
    ∃ run record attempt c', d.phase = .pulling run record attempt ∧
      d' = { d with consumer := c' } ∧
      Receives sha256 d.consumer reply c' message := by
  unfold receive at h
  split at h
  · rename_i run record attempt hphase
    obtain ⟨⟨c', message'⟩, hreceive, heq⟩ := Option.map_eq_some_iff.mp h
    obtain ⟨rfl, rfl⟩ := Prod.mk.inj heq
    exact ⟨run, record, attempt, c', hphase, rfl, SceneTrove.receive_cases hreceive⟩
  · exact nomatch h

end Day

/-- The template of the samples. -/
def sampleTemplate : PullRequest where
  camera := "front"
  durationSeconds := 0
  sdInterval := none
  idempotencyKey := ""
  maxBytes := 100

end SceneTrove

end EzvizBridge
