import EzvizBridge.Controls.Verified

/-!
# Rollbacks

`ControlService::update` and `set_account_defence` obey the law of verified writes, except in one
case: the write is accepted, the read-backs succeed, and none of them has a value of the control.
`confirm` takes such a read-back for a mismatch, and so the previous value is written back although
no read-back has shown another value. It happens to the sensitivity when the read of its
configuration fails, to any control when the vendor does not report it any more, and to the mode of
the account when it is unknown.
-/

namespace EzvizBridge

namespace Controls

open Effects Effects.Program

/-! ### What is read back -/

theorem read_observes (w : World) (service : ControlService) (alias_ : String)
    (config : CameraConfig) (key : ControlKey) :
    Observes (read w service alias_ config (refreshFor key))
      (fun after => .control (current after key))
      Effect.obtainedControl (fun after => current after key)
        (VendorShows w service config key) where
  emits := read_emits w service alias_ config _
  obtained_reading _ := rfl
  obtained_failed := rfl
  obtained_other effect h := by cases effect <;> first | rfl | cases h
  shows h hvalue := read_forced h hvalue
  mono h hsince huntil := h.mono hsince huntil

theorem defenceMode_observes (w : World) :
    Observes (defenceMode w true) (fun after => .account after.mode) Effect.obtainedMode
      AccountDefence.mode (VendorShowsMode w) where
  emits := defenceMode_emits w true
  obtained_reading _ := rfl
  obtained_failed := rfl
  obtained_other effect h := by cases effect <;> first | rfl | cases h
  shows h hvalue := by
    unfold VendorShowsMode
    rw [← hvalue]
    exact defenceMode_forced h
  mono h hsince huntil := Ran.mono h hsince huntil

/-! ### Changes of a control -/

/-- A change of a control, and what was done before the write. -/
structure Change where
  config : CameraConfig
  key : ControlKey
  desired : Desired
  previous : Desired
  before : Controls
  log : List Effect
  write : VendorWrite

/-- The request asks for a change: it is valid, the camera reports the expected value, the desired
value is another one, and it is in the range of the camera. -/
structure Change.Due (w : World) (service : ControlService) (alias_ : String)
    (request : ControlRequest) (change : Change) : Prop where
  camera : service.camera alias_ = some change.config
  attached : service.attached = true
  key : parseKey request.key = .ok change.key
  value : parseValue change.key request.value = .ok change.desired
  expected : parseValue change.key request.expectedValue = .ok change.previous
  read : (read w service alias_ change.config (refreshFor change.key)).run.run [] =
    (.ok change.before, change.log)
  reported : current change.before change.key = some change.previous
  changes : change.previous ≠ change.desired
  write : vendorWrite change.key change.desired change.before = .ok change.write

section Update

variable {w : World} {service : ControlService} {alias_ : String} {request : ControlRequest}

/-- An update with a change that is due comes to the common end. -/
theorem update_due {change : Change} (h : change.Due w service alias_ request) {undo : VendorWrite}
    (hundo : vendorWrite change.key change.previous change.before = .ok undo) :
    (update w service alias_ request).run.run [] =
      (settle w service (read w service alias_ change.config (refreshFor change.key))
        (fun after => .control (current after change.key))
        (fun after => current after change.key = some change.desired)
        (.write change.write) (some (.write undo))).run.run change.log := by
  unfold update
  rw [h.camera]
  refine (Fallible.run_bind_ok rfl).trans ?_
  rw [h.key]
  refine (Fallible.run_bind_ok rfl).trans ?_
  rw [h.value]
  refine (Fallible.run_bind_ok rfl).trans ?_
  rw [h.expected]
  refine (Fallible.run_bind_ok rfl).trans ?_
  simp only [h.attached, not_true_eq_false, if_false]
  refine (Fallible.run_bind_ok h.read).trans ?_
  simp only [h.reported, ne_eq, not_true_eq_false, if_false, if_neg h.changes, hundo, h.write]
  refine (Fallible.run_bind_ok rfl).trans ((Fallible.run_bind_ok rfl).trans ?_)
  refine congrArg (fun x : Service Controls => x.run.run change.log)
    (bind_congr fun _ => bind_congr fun outcome => ?_)
  cases outcome <;> rfl

/-- What is done without a change: it only reads, and it returns only what has the desired value. -/
structure Idle {α : Type} (confirmed : α → Prop)
    (outcome : Except ControlError α × List Effect) : Prop where
  reads : ∀ effect ∈ outcome.2, effect.IsRead
  confirmed : ∀ after, outcome.1 = .ok after → confirmed after

theorem Idle.error {α : Type} {confirmed : α → Prop} {error : ControlError} :
    Idle confirmed ((.error error, []) : Except ControlError α × List Effect) where
  reads _ hmem := absurd hmem List.not_mem_nil
  confirmed _ h := by cases h

/-- The controls have the value that the request asks for. -/
def Requested (request : ControlRequest) (after : Controls) : Prop :=
  ∃ key desired, parseKey request.key = .ok key ∧ parseValue key request.value = .ok desired ∧
    current after key = some desired

/-- An update without a change that is due only reads. -/
theorem update_not_due (h : ∀ change, ¬Change.Due w service alias_ request change) :
    Idle (Requested request) ((update w service alias_ request).run.run []) := by
  unfold update
  -- the checks of the request
  rcases hcamera : service.camera alias_ with _ | config
  · exact Idle.error
  rw [Option.elim_some, Fallible.run_bind_ok (Fallible.run_pure config)]
  rcases hkey : parseKey request.key with error | key
  · exact Idle.error
  rw [Fallible.run_bind_ok (Fallible.run_liftExcept (.ok key))]
  rcases hvalue : parseValue key request.value with error | desired
  · exact Idle.error
  rw [Fallible.run_bind_ok (Fallible.run_liftExcept (.ok desired))]
  rcases hexpected : parseValue key request.expectedValue with error | expected
  · exact Idle.error
  rw [Fallible.run_bind_ok (Fallible.run_liftExcept (.ok expected))]
  rcases hattached : service.attached with _ | _
  · exact Idle.error
  simp only [not_true_eq_false, if_false]
  -- the read
  obtain ⟨log, hlog, hreads⟩ := read_emits w service alias_ config (refreshFor key) []
  rcases hread : (read w service alias_ config (refreshFor key)).run.run [] with
    ⟨error | before, log'⟩
  all_goals
    rw [hread] at hlog
    obtain rfl : log' = log := hlog
  · rw [Fallible.run_bind_error hread]
    exact ⟨hreads, fun after h => by cases h⟩
  rw [Fallible.run_bind_ok hread]
  have hidle : ∀ result : Except ControlError Controls,
      (∀ after, result = .ok after → Requested request after) →
        Idle (Requested request) (result, log') :=
    fun result hresult => ⟨hreads, hresult⟩
  -- the checks of what was read
  rcases hcurrent : current before key with _ | previous
  · exact hidle _ fun after h => by cases h
  by_cases hconflict : previous = expected
  · subst hconflict
    simp only [ne_eq, not_true_eq_false, if_false]
    by_cases hsame : previous = desired
    · subst hsame
      rw [if_pos rfl]
      exact hidle _ fun after h => by cases h; exact ⟨key, previous, hkey, hvalue, hcurrent⟩
    · rw [if_neg hsame]
      obtain ⟨undo, hundo⟩ := vendorWrite_previous hread hcurrent
      rw [hundo, Fallible.run_bind_ok (Fallible.run_liftExcept (.ok undo))]
      rcases hwrite : vendorWrite key desired before with error | write
      · exact hidle _ fun after h => by cases h
      · exact absurd ⟨hcamera, hattached, hkey, hvalue, hexpected, hread, hcurrent, hsame, hwrite⟩
          (h ⟨config, key, desired, previous, before, log', write⟩)
  · simp only [ne_eq, hconflict, not_false_eq_true, if_true]
    exact hidle _ fun after h => by cases h

/-- The law of `ControlService::update`, for one request and one world. -/
structure UpdateLaw (w : World) (service : ControlService) (alias_ : String)
    (request : ControlRequest) :
    Prop where
  /-- Without a change that is due, no write. -/
  idle : (∀ change, ¬Change.Due w service alias_ request change) →
    Idle (Requested request) ((update w service alias_ request).run.run [])
  /-- A change that is due can be undone, and its write is verified. -/
  due : ∀ change, Change.Due w service alias_ request change →
    ∃ undo, vendorWrite change.key change.previous change.before = .ok undo ∧
      Verified service change.log (.write change.write) (some (.write undo)) Effect.obtainedControl
        change.desired (fun after => current after change.key)
        (VendorShows w service change.config change.key)
        ((update w service alias_ request).run.run []).1
          ((update w service alias_ request).run.run []).2

/-- The write is accepted, and the read-backs succeed without any value of the control. -/
def UpdateBlind (w : World) (service : ControlService) (alias_ : String)
    (request : ControlRequest) : Prop :=
  ∃ change, Change.Due w service alias_ request change ∧
    w.write (change.log ++ [.write change.write]) = .ok () ∧
    Blind (fun after => current after change.key)
      ((readBacks (read w service alias_ change.config (refreshFor change.key))
        (fun after => .control (current after change.key))
        (fun after => current after change.key = some change.desired) verifyDelays).run
          (change.log ++ [.write change.write])).1

/-- What was read before the write. -/
theorem Change.Due.reads {change : Change} (h : change.Due w service alias_ request) :
    ∀ effect ∈ change.log, effect.IsRead := by
  obtain ⟨log, hlog, hreads⟩ := read_emits w service alias_ change.config (refreshFor change.key) []
  rw [h.read] at hlog
  obtain rfl : change.log = log := hlog
  exact hreads

theorem update_verified_iff {change : Change} (h : change.Due w service alias_ request)
    {undo : VendorWrite} (hundo : vendorWrite change.key change.previous change.before = .ok undo) :
    Verified service change.log (.write change.write) (some (.write undo)) Effect.obtainedControl
        change.desired (fun after => current after change.key)
        (VendorShows w service change.config change.key)
        ((update w service alias_ request).run.run []).1
          ((update w service alias_ request).run.run []).2 ↔
      ¬(w.write (change.log ++ [.write change.write]) = .ok () ∧
        Blind (fun after => current after change.key)
          ((readBacks (read w service alias_ change.config (refreshFor change.key))
            (fun after => .control (current after change.key))
            (fun after => current after change.key = some change.desired) verifyDelays).run
              (change.log ++ [.write change.write])).1) := by
  rw [update_due h hundo, settle_verified
    (read_observes w service alias_ change.config change.key) h.reads
    rfl fun effect heq => by cases heq; rfl]
  simp only [ne_eq, reduceCtorEq, not_false_eq_true, true_and]

theorem updateLaw_iff : UpdateLaw w service alias_ request ↔
    ¬UpdateBlind w service alias_ request := by
  constructor
  · rintro hlaw ⟨change, hdue, hblind⟩
    obtain ⟨undo, hundo, hverified⟩ := hlaw.due change hdue
    exact (update_verified_iff hdue hundo).mp hverified hblind
  · intro hblind
    refine ⟨update_not_due, fun change hdue => ?_⟩
    obtain ⟨undo, hundo⟩ := vendorWrite_previous hdue.read hdue.reported
    exact ⟨undo, hundo, (update_verified_iff hdue hundo).mpr fun h => hblind ⟨change, hdue, h⟩⟩

end Update

/-! ### Changes of the mode -/

/-- The request asks for a change of the mode: the account has the expected mode, and the desired
mode is another one. -/
structure ModeDue (w : World) (service : ControlService) (request : DefenceUpdate)
    (before : AccountDefence) (log : List Effect) : Prop where
  attached : service.attached = true
  read : (defenceMode w true).run.run [] = (.ok before, log)
  expected : before.mode = request.expectedMode
  changes : before.mode ≠ some request.mode

section Defence

variable {w : World} {service : ControlService} {request : DefenceUpdate} {before : AccountDefence}
  {log : List Effect}

/-- The write of a mode. -/
def modeWrite (mode : DefenceMode) : Effect := .setGroupDefenceMode mode.code

theorem setAccountDefence_due (h : ModeDue w service request before log) :
    (setAccountDefence w service request).run.run [] =
      (settle w service (defenceMode w true) (fun after => .account after.mode)
        (fun after => after.mode = some request.mode) (modeWrite request.mode)
        (before.mode.map modeWrite)).run.run log := by
  unfold setAccountDefence
  simp only [h.attached, not_true_eq_false, if_false]
  refine (Fallible.run_bind_ok h.read).trans ?_
  simp only [h.expected, ne_eq, not_true_eq_false, if_false, if_neg (h.expected ▸ h.changes)]
  refine congrArg (fun x : Service AccountDefence => x.run.run log)
    (bind_congr fun _ => bind_congr fun outcome => ?_)
  cases outcome with
  | confirmed after => rfl
  | mismatch => cases request.expectedMode <;> rfl
  | unknown => cases request.expectedMode <;> rfl

/-- An update of the mode without a change that is due only reads. -/
theorem setAccountDefence_not_due (h : ∀ before log, ¬ModeDue w service request before log) :
    Idle (fun after => after.mode = some request.mode)
      ((setAccountDefence w service request).run.run []) := by
  unfold setAccountDefence
  rcases hattached : service.attached with _ | _
  · exact Idle.error
  simp only [not_true_eq_false, if_false]
  obtain ⟨log, hlog, hreads⟩ := defenceMode_emits w true []
  rcases hread : (defenceMode w true).run.run [] with ⟨error | before, log'⟩
  all_goals
    rw [hread] at hlog
    obtain rfl : log' = log := hlog
  · rw [Fallible.run_bind_error hread]
    exact ⟨hreads, fun after h => by cases h⟩
  rw [Fallible.run_bind_ok hread]
  by_cases hconflict : before.mode = request.expectedMode
  · simp only [hconflict, ne_eq, not_true_eq_false, if_false]
    by_cases hsame : request.expectedMode = some request.mode
    · rw [if_pos hsame]
      exact ⟨hreads, fun after h => by cases h; exact hconflict.trans hsame⟩
    · exact absurd ⟨hattached, hread, hconflict, hconflict ▸ hsame⟩ (h before log')
  · simp only [ne_eq, hconflict, not_false_eq_true, if_true]
    exact ⟨hreads, fun after h => by cases h⟩

/-- The law of `ControlService::set_account_defence`, for one request and one world. -/
structure DefenceLaw (w : World) (service : ControlService) (request : DefenceUpdate) : Prop where
  idle : (∀ before log, ¬ModeDue w service request before log) →
    Idle (fun after => after.mode = some request.mode)
      ((setAccountDefence w service request).run.run [])
  /-- There is no rollback if the previous mode is not known. -/
  due : ∀ before log, ModeDue w service request before log →
    Verified service log (modeWrite request.mode) (before.mode.map modeWrite) Effect.obtainedMode
      request.mode AccountDefence.mode (VendorShowsMode w)
      ((setAccountDefence w service request).run.run []).1
      ((setAccountDefence w service request).run.run []).2

/-- The write is accepted, there is a mode to go back to, and the read-backs succeed without any
mode. -/
def DefenceBlind (w : World) (service : ControlService) (request : DefenceUpdate) : Prop :=
  ∃ before log, ModeDue w service request before log ∧
    w.write (log ++ [modeWrite request.mode]) = .ok () ∧ before.mode ≠ none ∧
    Blind AccountDefence.mode ((readBacks (defenceMode w true) (fun after => .account after.mode)
      (fun after => after.mode = some request.mode) verifyDelays).run
        (log ++ [modeWrite request.mode])).1

theorem ModeDue.reads (h : ModeDue w service request before log) :
    ∀ effect ∈ log, effect.IsRead := by
  obtain ⟨log', hlog, hreads⟩ := defenceMode_emits w true []
  rw [h.read] at hlog
  obtain rfl : log = log' := hlog
  exact hreads

theorem defenceLaw_iff : DefenceLaw w service request ↔ ¬DefenceBlind w service request := by
  have hundo : ∀ before : AccountDefence, ∀ effect, before.mode.map modeWrite = some effect →
      effect.isWrite = true := by
    intro before effect heq
    obtain ⟨mode, _, rfl⟩ := Option.map_eq_some_iff.mp heq
    rfl
  constructor
  · rintro hlaw ⟨before, log, hdue, haccepted, hmode, hblind⟩
    have hverified := hlaw.due before log hdue
    rw [setAccountDefence_due hdue, settle_verified (defenceMode_observes w) hdue.reads rfl
      (hundo before)] at hverified
    exact hverified ⟨haccepted, fun hnone => hmode (Option.map_eq_none_iff.mp hnone), hblind⟩
  · intro hblind
    refine ⟨setAccountDefence_not_due, fun before log hdue => ?_⟩
    rw [setAccountDefence_due hdue,
      settle_verified (defenceMode_observes w) hdue.reads rfl (hundo before)]
    rintro ⟨haccepted, hmode, h⟩
    exact hblind ⟨before, log, hdue, haccepted,
      fun hnone => hmode (Option.map_eq_none_iff.mpr hnone), h⟩

end Defence

/-! ### The result -/

/-- Writes are verified, for every request and every world, if and only if it does not happen that
the write is accepted and the read-backs succeed without any value. -/
theorem verified_writes (w : World) (service : ControlService) :
    (∀ alias_ request,
      UpdateLaw w service alias_ request ↔ ¬UpdateBlind w service alias_ request) ∧
      ∀ request, DefenceLaw w service request ↔ ¬DefenceBlind w service request :=
  ⟨fun _ _ => updateLaw_iff, fun _ => defenceLaw_iff⟩

/-! ### A rollback without a value

The sensitivity of a camera is 50, and it shall become 80. EZVIZ accepts the write, and then it does
not answer to the reads of the configuration any more.
-/

namespace Sample

/-- The page of a camera with a sensitivity up to 100. -/
def page : Value :=
  .object [("deviceInfos", .array [.object [("deviceSerial", .string "C1"),
    ("supportExt", .object [("61", .string "3")])]])]

/-- The configuration of the algorithm. -/
def algorithmConfig : Value :=
  .object [("resultCode", .int 0), ("algorithmConfig", .object [("algorithmList",
    .array [.object [("type", .int 3), ("value", .int 50)]])])]

/-- The vendor answers to the reads of the configuration only before the write. -/
def world : World where
  clock _ := 0
  timedOut _ := false
  snapshotCell _ := {}
  sensitivityCell _ := {}
  defenceCell _ := {}
  controlPage _ := some (.ok page)
  algorithmConfig log := if log.any Effect.isWrite then none else some (.ok algorithmConfig)
  groupDefenceMode _ := none
  write _ := .ok ()
  fromStr _ := none

def service : ControlService := ⟨[("front", ⟨"C1", 1⟩)], true⟩

def request : ControlRequest := ⟨"sensitivity", .int 80, .int 50⟩

/-- The change that is due. -/
def change : Change where
  config := ⟨"C1", 1⟩
  key := .sensitivity
  desired := .level 80
  previous := .level 50
  before := controlsFrom world.fromStr
    ⟨.object [("deviceSerial", .string "C1"), ("supportExt", .object [("61", .string "3")])],
      .null, .null, .null, .null⟩ (some ⟨50, 0, 100, 3⟩)
  log := [.lock .snapshot, .page 0 50, .lock (.sensitivity "front"), .algorithmConfig]
  write := .sensitivity 3 80

end Sample

open Sample in
/-- The previous value is written back, and no read-back has obtained any value. -/
theorem rollback_without_value :
    (((update world service "front" request).run.run []).2.filter Effect.isWrite =
        [.write (.sensitivity 3 80), .write (.sensitivity 3 50)] ∧
      ((update world service "front" request).run.run []).2.filterMap Effect.obtainedControl = []) ∧
      ¬UpdateLaw world service "front" request := by
  refine ⟨⟨by decide +kernel, by decide +kernel⟩,
    fun hlaw => updateLaw_iff.mp hlaw ⟨change, ?_, rfl, ?_⟩⟩
  · exact ⟨rfl, rfl, rfl, rfl, rfl, rfl, rfl, by decide, rfl⟩
  · exact ⟨by decide +kernel, by decide +kernel⟩

end Controls

end EzvizBridge
