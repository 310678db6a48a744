import EzvizBridge.Controls.Update

/-!
# Forced reads

A forced read does not answer from a cell: a value that it returns was fetched during the read. All
that a read does is to wait for locks and to ask the vendor.
-/

namespace EzvizBridge

namespace Controls

open Effects Effects.Program

def Effect.IsRead : Effect → Prop
  | .lock _ | .page _ _ | .algorithmConfig | .groupDefenceMode => True
  | _ => False

section Emits

variable (w : World)

theorem ask_emits {effect : Effect} (answer : List Effect → Option (Except BridgeError Value))
    (h : effect.IsRead) : Emits Effect.IsRead (ask effect answer).run :=
  Fallible.emits_bind (Fallible.emits_lift (Emits.perform h)) fun _ =>
    Fallible.emits_bind (Fallible.emits_lift Emits.history) fun _ => Fallible.emits_liftExcept _

/-- The pages are read. -/
theorem fetchPages_emits (serials : List String) (left offset : ℕ) (snapshot : Snapshot) :
    Emits Effect.IsRead (fetchPages w serials left offset snapshot).run := by
  induction left generalizing offset snapshot with
  | zero => exact Fallible.emits_pure _
  | succ left ih =>
    refine Fallible.emits_bind (ask_emits _ trivial) fun page => ?_
    show Emits Effect.IsRead (ite (pageHasNext page = true) _ _ : Fetching Snapshot).run
    split
    · exact ih _ _
    · exact Fallible.emits_pure _

theorem fetchSnapshot_emits (serials : List String) :
    Emits Effect.IsRead (fetchSnapshot w serials).run := fetchPages_emits w serials _ _ _

theorem fetchSensitivity_emits (config : CameraConfig) (kind : ℕ) :
    Emits Effect.IsRead (fetchSensitivity w config kind).run :=
  Fallible.emits_bind (ask_emits _ trivial) fun _ => Fallible.emits_pure _

theorem fetchDefenceMode_emits : Emits Effect.IsRead (fetchDefenceMode w).run :=
  Fallible.emits_bind (ask_emits _ trivial) fun _ => Fallible.emits_pure _

theorem fallBack_emits {α : Type} (cell : List Effect → TtlCell α) (force : Bool)
    (category : String) :
    Emits Effect.IsRead (fallBack w cell force category) :=
  Emits.history.bind fun _ => Emits.pure _

/-- A get sends what its fetch sends. -/
theorem getCached_emits {α : Type} (name : CellName) (cell : List Effect → TtlCell α) (force : Bool)
    (deadline : ℕ) {fetch : Fetching α} (hfetch : Emits Effect.IsRead fetch.run) :
    Emits Effect.IsRead (getCached w name cell force deadline fetch) := by
  refine (Emits.perform trivial).bind fun _ => Emits.history.bind fun log => ?_
  -- the wait is over, the value is there, it is late, it backs off, or it is fetched
  split
  · exact fallBack_emits w cell force _
  · split
    · exact Emits.pure _
    · exact fallBack_emits w cell force _
    · exact fallBack_emits w cell force _
    · refine hfetch.bind fun result => ?_
      cases result with
      | ok value => exact Emits.pure _
      | error error => exact fallBack_emits w cell force _

theorem readSensitivity_emits (alias_ : String) (config : CameraConfig) (kind : ℕ) (force : Bool)
    (deadline : ℕ) : Emits Effect.IsRead (readSensitivity w alias_ config kind force deadline) := by
  refine (getCached_emits w _ _ force deadline (fetchSensitivity_emits w config kind)).bind
    fun result => ?_
  cases result <;> exact Emits.pure _

/-- A read of the snapshot only reads. -/
theorem readSnapshot_emits (service : ControlService) (force : Bool) (deadline : ℕ) :
    Emits Effect.IsRead (readSnapshot w service force deadline).run := by
  refine Fallible.emits_bind (Fallible.emits_lift
    (getCached_emits w _ _ force deadline (fetchSnapshot_emits w _))) fun result => ?_
  cases result with
  | ok answer => exact Fallible.emits_pure _
  | error category => exact Fallible.emits_throw _

/-- A read of the controls only reads. -/
theorem read_emits (service : ControlService) (alias_ : String) (config : CameraConfig)
    (refresh : Refresh) :
    Emits Effect.IsRead (read w service alias_ config refresh).run := by
  refine Fallible.emits_bind (Fallible.emits_lift Emits.history) fun _ =>
    Fallible.emits_bind (readSnapshot_emits w service _ _) fun answer => ?_
  refine Fallible.emits_bind (Fallible.emits_lift ?_) fun _ => Fallible.emits_pure _
  split
  · exact readSensitivity_emits w alias_ config _ _ _
  · exact Emits.pure _

/-- A read of the defence mode only reads. -/
theorem defenceMode_emits (force : Bool) : Emits Effect.IsRead (defenceMode w force).run := by
  refine Fallible.emits_bind (Fallible.emits_lift Emits.history) fun _ =>
    Fallible.emits_bind (Fallible.emits_lift
      (getCached_emits w _ _ force _ (fetchDefenceMode_emits w))) fun result => ?_
  cases result with
  | ok answer => exact Fallible.emits_pure _
  | error category => exact Fallible.emits_throw _

end Emits

/-! ### What a forced read returns -/

section Forced

variable {w : World} {log log' : List Effect}

/-- A forced look finds no value. -/
theorem TtlCell.look_forced {α : Type} (cell : TtlCell α) (deadline now : ℕ) :
    cell.look true deadline now = if deadline ≤ now then .late else .fetch := by
  have hstale : (cell.entry.filter fun entry => !true && decide (now < entry.expires)) = none := by
    cases cell.entry <;> rfl
  unfold TtlCell.look
  rw [hstale]

theorem TtlCell.fallback_forced {α : Type} (cell : TtlCell α) (lifetimes : Lifetimes)
    (category : String) (now : ℕ) :
    cell.fallback lifetimes true category now = .failed category := by
  unfold TtlCell.fallback
  cases cell.good <;> rfl

/-- A forced get that falls back fails. -/
theorem fallBack_forced {α : Type} (cell : List Effect → TtlCell α) (category : String) :
    (fallBack w cell true category).run log = (.error category, log) := by
  show ((((cell log).fallback controlsLifetimes true category (w.clock log)).answer, log) :
    Except String (α × Bool) × List Effect) = _
  rw [TtlCell.fallback_forced]
  rfl

/-- A forced get that returns has fetched the value, and the value is not stale. -/
theorem getCached_forced {α : Type} {name : CellName} {cell : List Effect → TtlCell α}
    {deadline : ℕ} {fetch : Fetching α} {value : α} {stale : Bool}
    (h : (getCached w name cell true deadline fetch).run log = (.ok (value, stale), log')) :
    stale = false ∧ Ran fetch.run log log' (.ok value) := by
  rw [getCached, run_bind, run_bind, run_history, run_perform, TtlCell.look_forced] at h
  -- the wait for the lock timed out, the deadline has passed, or the value is fetched
  by_cases hout : w.timedOut (log ++ [.lock name])
  · rw [if_pos hout, fallBack_forced] at h
    cases h
  · rw [if_neg hout] at h
    by_cases hlate : deadline ≤ w.clock (log ++ [.lock name])
    · rw [if_pos hlate, fallBack_forced] at h
      cases h
    · rw [if_neg hlate, run_bind] at h
      -- the fetch begins with the lock, and it is the last thing that is done
      rcases hrun : fetch.run.run (log ++ [.lock name]) with ⟨error | found, stop⟩
      · rw [hrun, fallBack_forced] at h
        cases h
      · rw [hrun] at h
        cases h
        exact ⟨rfl, _, _, List.prefix_append _ _, hrun, List.prefix_rfl⟩

/-- A forced read of the account has fetched the mode. -/
theorem defenceMode_forced {after : AccountDefence}
    (h : (defenceMode w true).run.run log = (.ok after, log')) :
    Ran (fetchDefenceMode w).run log log' (.ok after.mode) := by
  obtain ⟨_, _, hhistory, h⟩ := Fallible.run_bind_eq_ok h
  cases hhistory
  obtain ⟨result, mid, hget, h⟩ := Fallible.run_bind_eq_ok h
  cases result with
  | error category => cases h
  | ok answer =>
    obtain ⟨mode, stale⟩ := answer
    cases h
    exact (getCached_forced (Fallible.run_lift_eq_ok hget)).2

/-- A forced read of the snapshot has fetched it. -/
theorem readSnapshot_forced {service : ControlService} {deadline : ℕ} {snapshot : Snapshot}
    {stale : Bool}
    (h : (readSnapshot w service true deadline).run.run log = (.ok (snapshot, stale), log')) :
    Ran (fetchSnapshot w service.serials).run log log' (.ok snapshot) := by
  obtain ⟨result, mid, hget, h⟩ := Fallible.run_bind_eq_ok h
  cases result with
  | error category => cases h
  | ok answer =>
    cases h
    exact (getCached_forced (Fallible.run_lift_eq_ok hget)).2

/-- A forced read of the sensitivity has fetched what it returns, if that is a value. -/
theorem readSensitivity_forced {alias_ : String} {config : CameraConfig} {kind deadline : ℕ}
    {level : Sensitivity} {old : Bool}
    (h : (readSensitivity w alias_ config kind true deadline).run log = ((some level, old), log')) :
    Ran (fetchSensitivity w config kind).run log log' (.ok (some level)) := by
  rcases hget : (getCached w (.sensitivity alias_) w.sensitivityCell true deadline
    (fetchSensitivity w config kind)).run log with ⟨category | answer, mid⟩
  · simp only [readSensitivity, run_bind, hget, run_pure] at h
    cases h
  · simp only [readSensitivity, run_bind, hget, run_pure] at h
    cases h
    exact (getCached_forced hget).2

end Forced

/-! ### The value of a control -/

/-- Between two points of a run the vendor has been asked for a control, and it has shown a value:
the snapshot was fetched, and for the sensitivity also the configuration of the algorithm. -/
def VendorShows (w : World) (service : ControlService) (config : CameraConfig) (key : ControlKey)
    (since until_ : List Effect) (value : Desired) : Prop :=
  ∃ snapshot level, Ran (fetchSnapshot w service.serials).run since until_ (.ok snapshot) ∧
    (key = .sensitivity → ∃ kind,
      sensitivityKind w.fromStr ((snapshot config.serial).getD {}).device = some kind ∧
        Ran (fetchSensitivity w config kind).run since until_ (.ok level)) ∧
    current (controlsFrom w.fromStr ((snapshot config.serial).getD {}) level) key = some value

/-- Between two points of a run the vendor has been asked for the mode, and it has shown one. -/
def VendorShowsMode (w : World) (since until_ : List Effect) (mode : DefenceMode) : Prop :=
  Ran (fetchDefenceMode w).run since until_ (.ok (some mode))

section Values

variable {w : World} {service : ControlService} {alias_ : String} {config : CameraConfig}
  {key : ControlKey}
  {log log' : List Effect}

/-- What was shown in a span is shown in a longer one. -/
theorem VendorShows.mono {since since' until_ until' : List Effect} {value : Desired}
    (h : VendorShows w service config key since until_ value) (hsince : since' <+: since)
    (huntil : until_ <+: until') : VendorShows w service config key since' until' value := by
  obtain ⟨snapshot, level, hsnapshot, hlevel, hvalue⟩ := h
  refine ⟨snapshot, level, hsnapshot.mono hsince huntil, fun hkey => ?_, hvalue⟩
  obtain ⟨kind, hkind, hran⟩ := hlevel hkey
  exact ⟨kind, hkind, hran.mono hsince huntil⟩

theorem refreshFor_ne_cached (key : ControlKey) : refreshFor key ≠ .cached := by
  unfold refreshFor
  split <;> decide

/-- What a forced read has fetched. -/
theorem read_fetched {controls : Controls}
    (h : (read w service alias_ config (refreshFor key)).run.run log = (.ok controls, log')) :
    ∃ snapshot level stale, Ran (fetchSnapshot w service.serials).run log log' (.ok snapshot) ∧
      (key = .sensitivity → level ≠ none → ∃ kind,
        sensitivityKind w.fromStr ((snapshot config.serial).getD {}).device = some kind ∧
          Ran (fetchSensitivity w config kind).run log log' (.ok level)) ∧
      controls =
        { controlsFrom w.fromStr ((snapshot config.serial).getD {}) level with stale } := by
  obtain ⟨_, _, hhistory, h⟩ := Fallible.run_bind_eq_ok h
  cases hhistory
  obtain ⟨⟨snapshot, stale⟩, mid, hsnapshot, h⟩ := Fallible.run_bind_eq_ok h
  obtain ⟨⟨level, old⟩, stop, hlevel, h⟩ := Fallible.run_bind_eq_ok h
  cases h
  replace hlevel := Fallible.run_lift_eq_ok hlevel
  -- the snapshot comes first, and then the sensitivity
  have hfirst : log <+: mid := by
    have hle := (readSnapshot_emits w service (decide (refreshFor key ≠ .cached))
      (w.clock log + readDeadline)).le log
    rwa [show (readSnapshot w service (decide (refreshFor key ≠ .cached))
      (w.clock log + readDeadline)).run.run log = _ from hsnapshot] at hle
  rw [decide_eq_true (refreshFor_ne_cached key)] at hsnapshot
  -- without a kind there is no level
  cases hkind : sensitivityKind w.fromStr ((snapshot config.serial).getD {}).device with
  | none =>
    simp only [hkind] at hlevel
    cases hlevel
    exact ⟨snapshot, none, _, readSnapshot_forced hsnapshot, fun _ hsome => absurd rfl hsome, rfl⟩
  | some kind =>
    simp only [hkind] at hlevel
    have hsecond : mid <+: log' := by
      have hle := (readSensitivity_emits w alias_ config kind (decide (refreshFor key = .all))
        (w.clock log + readDeadline)).le mid
      rwa [show (readSensitivity w alias_ config kind (decide (refreshFor key = .all))
        (w.clock log + readDeadline)).run mid = _ from hlevel] at hle
    refine ⟨snapshot, level, _, (readSnapshot_forced hsnapshot).mono List.prefix_rfl hsecond,
      fun hkey hsome => ?_, rfl⟩
    subst hkey
    obtain ⟨found, rfl⟩ := Option.ne_none_iff_exists'.mp hsome
    exact ⟨kind, hkind, (readSensitivity_forced hlevel).mono hfirst List.prefix_rfl⟩

/-- The value does not depend on the staleness. -/
theorem current_stale (controls : Controls) (stale : Bool) (key : ControlKey) :
    current { controls with stale } key = current controls key := by
  cases key <;> rfl

/-- A forced read returns what the vendor shows. -/
theorem read_forced {controls : Controls} {value : Desired}
    (h : (read w service alias_ config (refreshFor key)).run.run log = (.ok controls, log'))
    (hvalue : current controls key = some value) :
    VendorShows w service config key log log' value := by
  obtain ⟨snapshot, level, stale, hsnapshot, hlevel, rfl⟩ := read_fetched h
  rw [current_stale] at hvalue
  refine ⟨snapshot, level, hsnapshot, fun hkey => hlevel hkey fun hnone => ?_, hvalue⟩
  subst hkey hnone
  cases hvalue

/-- A level that was fetched is in its range. -/
theorem parseSensitivity_range {raw : Value} {kind channel : ℕ} {level : Sensitivity}
    (h : parseSensitivity w.fromStr raw kind channel = some level) :
    level.min ≤ level.value ∧ level.value ≤ level.max := by
  -- the level is refused outside its range
  unfold parseSensitivity at h
  split at h
  · cases h
  · simp only [Option.bind_eq_bind, Option.bind_eq_some_iff] at h
    obtain ⟨_, _, _, _, _, _, _, _, _, _, h⟩ := h
    split at h
    · rename_i hrange
      cases h
      exact hrange
    · cases h

/-- The value that a forced read returns can be written back. -/
theorem vendorWrite_previous {controls : Controls} {previous : Desired}
    (h : (read w service alias_ config (refreshFor key)).run.run log = (.ok controls, log'))
    (hvalue : current controls key = some previous) :
    ∃ undo, vendorWrite key previous controls = .ok undo := by
  obtain ⟨snapshot, level, stale, hsnapshot, hlevel, rfl⟩ := read_fetched h
  rw [current_stale] at hvalue
  -- control by control
  cases key with
  | defence =>
    obtain ⟨enabled, _, rfl⟩ := Option.map_eq_some_iff.mp hvalue
    exact ⟨_, rfl⟩
  | detectionMode =>
    obtain ⟨mode, _, rfl⟩ := Option.map_eq_some_iff.mp hvalue
    exact ⟨_, rfl⟩
  | switch spec =>
    obtain ⟨enabled, _, rfl⟩ := Option.map_eq_some_iff.mp hvalue
    exact ⟨_, rfl⟩
  -- the level was parsed, so it is in its range
  | sensitivity =>
    obtain ⟨found, hfound, rfl⟩ := Option.map_eq_some_iff.mp hvalue
    replace hfound : level = some found := hfound
    subst hfound
    obtain ⟨kind, _, start, stop, _, hrun, _⟩ := hlevel rfl (fun hnone => nomatch hnone)
    obtain ⟨raw, mid, _, hparse⟩ := Fallible.run_bind_eq_ok hrun
    have hrange := parseSensitivity_range (Except.ok.inj (congrArg Prod.fst hparse))
    exact ⟨.sensitivity found.kind found.value, if_pos hrange⟩

end Values

end Controls

end EzvizBridge
