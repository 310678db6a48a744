import EzvizBridge.Recordings.Spool
import Mathlib.Algebra.Order.BigOperators.Group.List
import Mathlib.Algebra.Order.Group.Nat

/-!
# The quota of the spool

`enqueue` counts the finished files and reserves the byte limit for every active recording, the new
one included. Renames run outside of its guard, so the files of an active recording may or may not
be counted on top of its reservation.

The invariant (`Within`) charges each file once: media of recordings that are not active by its
size, an active recording by its reservation, which covers whatever it has on disk. Admission is the
only step that raises the sum; when a recording ends, its reservation is exchanged for its file.
-/

namespace EzvizBridge

namespace Recordings

/-! ### Sums of file sizes -/

namespace Directory

/-- The size of all files together. -/
def bytes (self : Directory) : ℕ := (self.map fun entry => entry.2.length).sum

theorem bytes_cons (entry : SpoolFile × Bytes) (d : Directory) :
    bytes (entry :: d) = entry.2.length + d.bytes := by
  rw [bytes, List.map_cons, List.sum_cons]
  rfl

theorem bytes_le_of_sublist {d d' : Directory} (h : d.Sublist d') : d.bytes ≤ d'.bytes :=
  (h.map _).sum_le_sum fun _ _ => Nat.zero_le _

theorem bytes_le_of_subperm {d d' : Directory} (h : d.Subperm d') : d.bytes ≤ d'.bytes := by
  obtain ⟨l, hperm, hsub⟩ := h
  calc d.bytes = bytes l := ((hperm.map _).sum_eq).symm
    _ ≤ d'.bytes := bytes_le_of_sublist hsub

/-- Files that meet one of two conditions. -/
theorem bytes_filter_le_add (d : Directory) {p q r : SpoolFile × Bytes → Bool}
    (h : ∀ entry ∈ d, p entry = true → q entry = true ∨ r entry = true) :
    bytes (d.filter p) ≤ bytes (d.filter q) + bytes (d.filter r) := by
  -- on the files
  induction d with
  | nil => exact Nat.zero_le _
  | cons entry d ih =>
    rw [List.forall_mem_cons] at h
    have hrest := ih h.2
    have hentry := h.1
    simp only [List.filter_cons]
    cases hp : p entry <;> cases hq : q entry <;> cases hr : r entry <;>
      simp only [hp, hq, hr, Bool.false_eq_true, if_true, if_false, bytes_cons] at hentry ⊢
    case true.false.false => exact absurd hentry (by simp)
    all_goals omega

/-- Files that meet a stronger condition. -/
theorem bytes_filter_le (d : Directory) {p q : SpoolFile × Bytes → Bool}
    (h : ∀ entry ∈ d, p entry = true → q entry = true) :
    bytes (d.filter p) ≤ bytes (d.filter q) := by
  have hsum := bytes_filter_le_add d (q := q) (r := fun _ => false) fun e he hp => .inl (h e he hp)
  rw [List.filter_false] at hsum
  exact hsum

/-- Files of a list of recordings, each within a bound. -/
theorem bytes_owned_le (d : Directory) {ids : List Uuid} {max : ℕ}
    (h : ∀ id ∈ ids, (d.filesOf id).bytes ≤ max) :
    bytes (d.filter fun entry => entry.1.owner ∈ ids) ≤ ids.length * max := by
  -- on the recordings
  induction ids with
  | nil =>
    have hnone : (d.filter fun entry => decide (entry.1.owner ∈ ([] : List Uuid))) = [] := by simp
    rw [hnone]
    exact Nat.zero_le _
  | cons id ids ih =>
    rw [List.forall_mem_cons] at h
    calc bytes (d.filter fun entry => entry.1.owner ∈ id :: ids)
        ≤ (d.filesOf id).bytes + bytes (d.filter fun entry => entry.1.owner ∈ ids) :=
          bytes_filter_le_add d fun entry _ hentry => by simpa using hentry
      _ ≤ max + ids.length * max := Nat.add_le_add h.1 (ih h.2)
      _ = (id :: ids).length * max := by rw [List.length_cons, Nat.succ_mul, Nat.add_comm]

end Directory

/-! ### Admission -/

/-- Below the bound of `u64` the saturating sum is the exact one, or refuses. -/
theorem admits_exact {spool active max quota : ℕ} (hquota : quota < u64Max)
    (h : admits spool active max quota = true) : spool + (active + 1) * max ≤ quota := by
  have hle := of_decide_eq_true h
  rw [saturatingAdd, saturatingMul, saturatingAdd] at hle
  -- so many recordings that the product is exact, or more than fit
  rcases Nat.lt_or_ge (active + 1) u64Max with hactive | hactive
  · rw [min_eq_left hactive.le] at hle
    omega
  · -- so many active recordings that even a single byte each is too much
    rw [min_eq_right hactive] at hle
    rcases Nat.eq_zero_or_pos max with rfl | hmax
    · omega
    · have : u64Max ≤ u64Max * max := Nat.le_mul_of_pos_right _ hmax
      omega

/-- The scan counts the media, as far as a `u64` goes. -/
theorem spoolBytes_eq (entries : Directory) :
    spoolBytes entries = min
      (Directory.bytes (entries.filter fun entry => entry.1.isMedia)) u64Max := by
  -- on the entries, with what has been counted so far
  have hfold : ∀ (l : Directory) (total : ℕ), total ≤ u64Max →
      l.foldl (fun total entry => saturatingAdd total entry.2.length) total =
        min (total + l.bytes) u64Max := by
    intro l
    induction l with
    | nil =>
      intro total htotal
      exact (min_eq_left htotal).symm
    | cons entry l ih =>
      intro total _
      have hnext : saturatingAdd total entry.2.length ≤ u64Max := min_le_right _ _
      rw [List.foldl_cons, ih _ hnext, Directory.bytes_cons, saturatingAdd]
      omega
  rw [spoolBytes, hfold _ 0 (Nat.zero_le _), Nat.zero_add]

/-! ### Active recordings -/

namespace State

variable {self : State} {id : Uuid}

/-- What is active runs. -/
theorem mem_active (h : self.Consistent) : id ∈ self.active ↔ self.Runs id := by
  rw [active, List.mem_map]
  constructor
  · rintro ⟨m, hm, rfl⟩
    obtain ⟨hm, hactive⟩ := List.mem_filter.mp hm
    exact ⟨m, get_of_mem h hm, hactive⟩
  · rintro ⟨m, hm, hactive⟩
    obtain ⟨hmem, hid⟩ := mem_of_get hm
    exact ⟨m, List.mem_filter.mpr ⟨hmem, hactive⟩, hid⟩

theorem nodup_active (h : self.Consistent) : self.active.Nodup :=
  h.ids.sublist (List.filter_sublist.map _)

end State

/-- Lists of the same ids are of the same length. -/
theorem length_eq_of_mem {a b : List Uuid} (ha : a.Nodup) (hb : b.Nodup)
    (h : ∀ id, id ∈ a ↔ id ∈ b) : a.length = b.length :=
  ((List.perm_ext_iff_of_nodup ha hb).mpr h).length_eq

/-- One recording fewer is active. -/
theorem length_add_one_of_mem {a b : List Uuid} {id : Uuid} (ha : a.Nodup) (hb : b.Nodup)
    (hid : id ∈ b) (h : ∀ x, x ∈ a ↔ x ∈ b ∧ x ≠ id) : a.length + 1 = b.length := by
  have hnot : id ∉ a := fun hmem => ((h id).mp hmem).2 rfl
  refine length_eq_of_mem (List.nodup_cons.mpr ⟨hnot, ha⟩) hb fun x => ?_
  rw [List.mem_cons, h]
  by_cases hx : x = id
  · simp [hx, hid]
  · simp [hx]

namespace Manager

variable {cfg : Config} {sha256 : Sha256} {s s' : Manager} {id id' : Uuid}

/-- Media of recordings that are not active. -/
def held (s : Manager) : ℕ :=
  Directory.bytes (s.directory.filter fun entry =>
    entry.1.isMedia ∧ entry.1.owner ∉ s.state.active)

/-- Everything that the quota is for: media, and partial files of active recordings. -/
def spoolUse (s : Manager) : ℕ :=
  Directory.bytes (s.directory.filter fun entry =>
    entry.1.isMedia ∨ entry.1.owner ∈ s.state.active)

/-- What is on disk and what is reserved fits the quota. -/
structure Within (cfg : Config) (s : Manager) : Prop extends s.Filed cfg where
  small : ∀ id ∈ s.state.active, (s.directory.filesOf id).bytes ≤ cfg.maxBytes
  room : s.held + s.state.active.length * cfg.maxBytes ≤ cfg.quotaBytes

/-- A reservation covers whatever its recording has on disk. -/
theorem Within.spoolUse_le (h : s.Within cfg) : s.spoolUse ≤ cfg.quotaBytes := by
  calc s.spoolUse
      ≤ s.held +
          Directory.bytes (s.directory.filter fun entry => entry.1.owner ∈ s.state.active) := by
        refine Directory.bytes_filter_le_add _ fun entry _ hentry => ?_
        by_cases hactive : entry.1.owner ∈ s.state.active
        · exact .inr (decide_eq_true hactive)
        · simpa [hactive] using hentry
    _ ≤ s.held + s.state.active.length * cfg.maxBytes :=
        Nat.add_le_add_left (Directory.bytes_owned_le _ h.small) _
    _ ≤ cfg.quotaBytes := h.room

/-- What a job has left is within its bound. -/
theorem Left.bytes_le {max : ℕ} {files : Directory} (h : Left max id files) :
    files.bytes ≤ max := by
  rcases h with rfl | ⟨bytes, rfl, hlength⟩ | ⟨x, hx, rfl⟩
  · exact Nat.zero_le _
  · simpa [Directory.bytes] using hlength
  · simpa [Directory.bytes] using hx.bound

/-! ### Steps -/

/-- A step that leaves the active recordings as they are, adds nothing to the media of the others,
and keeps each active recording within its reservation. -/
theorem Within.of_active (h : s.Within cfg) (h' : s'.Filed cfg)
    (hactive : ∀ id, id ∈ s'.state.active ↔ id ∈ s.state.active)
    (hsmall : ∀ id ∈ s'.state.active, (s'.directory.filesOf id).bytes ≤ cfg.maxBytes)
    (hheld : s'.held ≤ s.held) : s'.Within cfg := by
  refine { toFiled := h', small := hsmall, room := ?_ }
  have hlength := length_eq_of_mem (State.nodup_active h'.state.consistent)
    (State.nodup_active h.state.consistent) hactive
  rw [hlength]
  exact (Nat.add_le_add_right hheld _).trans h.room

/-- The same, when files may only have gone. -/
theorem Within.of_sublist (h : s.Within cfg) (h' : s'.Filed cfg)
    (hactive : ∀ id, id ∈ s'.state.active ↔ id ∈ s.state.active)
    (hd : s'.directory.Sublist s.directory) : s'.Within cfg := by
  refine h.of_active h' hactive ?_ ?_
  · intro id hid
    calc (s'.directory.filesOf id).bytes
        ≤ (s.directory.filesOf id).bytes := Directory.bytes_le_of_sublist (hd.filter _)
      _ ≤ cfg.maxBytes := h.small id ((hactive id).mp hid)
  · refine (Directory.bytes_le_of_sublist (hd.filter _)).trans ?_
    refine Directory.bytes_filter_le _ fun entry _ hentry => ?_
    simpa [hactive] using hentry

/-- Nothing is active: the media alone count. -/
theorem Within.of_idle (h : s.Within cfg) (h' : s'.Filed cfg) (hidle : s'.state.active = [])
    (hd : s'.directory.Sublist s.directory) : s'.Within cfg := by
  refine { toFiled := h', small := ?_, room := ?_ }
  · rw [hidle]
    exact fun _ hid => nomatch hid
  -- the files of what was active before count as held now
  · rw [hidle, List.length_nil, Nat.zero_mul, Nat.add_zero]
    calc s'.held
        ≤ Directory.bytes (s.directory.filter fun entry =>
            entry.1.isMedia ∧ entry.1.owner ∉ s'.state.active) :=
          Directory.bytes_le_of_sublist (hd.filter _)
      _ ≤ s.spoolUse := by
          refine Directory.bytes_filter_le _ fun entry _ hentry => ?_
          have hmedia := (of_decide_eq_true hentry).1
          simp [hmedia]
      _ ≤ cfg.quotaBytes := h.spoolUse_le

/-- An admitted recording fits, whatever its job writes. -/
theorem within_admitted {key : String} {m : RecordingManifest} {kind : JobKind}
    {scan : Except BridgeError Directory} {persist : Persist} (hcfg : cfg.Bounded)
    (h : s.Within cfg) (h' : s'.Filed cfg) (hadm : Admitted cfg s key m kind scan persist s') :
    s'.Within cfg := by
  have hnew : m.recordingId ∉ s.state.ids := fun hmem => hadm.fresh (h.state.issued _ hmem)
  have hactive : s'.state.active = s.state.active ++ [m.recordingId] := by
    have hmanifests : s'.state.manifests = s.state.manifests ++ [m] := by
      rw [hadm.state]
      exact Keyed.insert_of_new fun m' hm' heq => hnew (heq ▸ State.mem_ids hm')
    have hm : m.isActive = true := by
      rw [RecordingManifest.isActive, hadm.pending]
      rfl
    rw [State.active, hmanifests, List.filter_append, List.map_append]
    simp [State.active, hm]
  refine { toFiled := h', small := ?_, room := ?_ }
  · intro id hid
    rw [hactive, List.mem_append, List.mem_singleton] at hid
    rw [hadm.directory]
    obtain hid | rfl := hid
    · exact h.small id hid
    -- a new recording has no file yet
    · have hnone : s.directory.filesOf m.recordingId = [] := by
        refine List.eq_nil_iff_forall_not_mem.mpr fun entry hentry => ?_
        obtain ⟨hentry, howner⟩ := Directory.mem_filesOf.mp hentry
        exact hadm.fresh (howner ▸ h.owners entry hentry)
      rw [hnone]
      exact Nat.zero_le _
  · obtain ⟨entries, rfl, hscanned⟩ := hadm.scanned
    obtain ⟨total, htotal, hadmits⟩ := (admission_eq_none_iff.mp hadm.accepts).room
    have htotal : total = spoolBytes entries := (Except.ok.inj htotal).symm
    have hexact := admits_exact hcfg.quotaBytes hadmits
    rw [htotal, spoolBytes_eq] at hexact
    -- the scan has seen at least the media of recordings that are not active
    have hseen : s'.held ≤ Directory.bytes (entries.filter fun entry => entry.1.isMedia) := by
      calc s'.held
          ≤ Directory.bytes ((s.directory.filter fun entry => entry.1.owner ∉ s.state.active).filter
              fun entry => entry.1.isMedia) := by
            rw [List.filter_filter, held, hadm.directory, hactive]
            refine Directory.bytes_filter_le _ fun entry _ hentry => ?_
            have hboth := of_decide_eq_true hentry
            rw [List.mem_append, not_or] at hboth
            simp [hboth.1, hboth.2.1]
        _ ≤ _ := Directory.bytes_le_of_subperm (hscanned.1.filter _)
    have hquota := hcfg.quotaBytes
    rw [hactive, List.length_append, List.length_singleton]
    omega

/-- The files of a recording whose job is at work are not among those that are held. -/
theorem held_of_others (hactive : ∀ x, x ∈ s'.state.active ↔ x ∈ s.state.active)
    (hid : id ∈ s.state.active) (hothers : s'.directory.others id = s.directory.others id) :
    s'.held = s.held := by
  -- what is held belongs to other recordings
  have hsplit : ∀ d : Directory,
      (d.filter fun entry => entry.1.isMedia ∧ entry.1.owner ∉ s.state.active) =
        (d.others id).filter fun entry => entry.1.isMedia ∧ entry.1.owner ∉ s.state.active := by
    intro d
    rw [Directory.others, List.filter_filter]
    refine List.filter_congr fun entry _ => ?_
    by_cases howner : entry.1.owner = id
    · simp [howner, hid]
    · simp [howner]
  have hsame : (fun entry : SpoolFile × Bytes =>
      decide (entry.1.isMedia = true ∧ entry.1.owner ∉ s'.state.active)) =
        fun entry => decide (entry.1.isMedia = true ∧ entry.1.owner ∉ s.state.active) := by
    funext entry
    simp only [hactive]
  rw [held, held, hsame, hsplit s'.directory, hothers, ← hsplit]

theorem runs_update {state : State} {f : RecordingManifest → RecordingManifest}
    (hf : ∀ m, (f m).recordingId = m.recordingId) (hne : id' ≠ id) :
    (state.update id f).Runs id' ↔ state.Runs id' := by
  rw [State.Runs, State.get_update_of_ne hf hne, State.Runs]

/-- A step of a job keeps the quota. -/
theorem within_job {e : Event} {p q : JobPhase} {f : RecordingManifest → RecordingManifest}
    (hcfg : cfg.Bounded) (h : s.Within cfg) (h' : s'.Filed cfg)
    (hjob : JobStep cfg sha256 s e id p q f s') : s'.Within cfg := by
  obtain ⟨kind, hwas, hmoves, hjobs⟩ := hjob.moves
  obtain ⟨hp, hphase⟩ := hjob.phase_eq
  have hf := fun m => (request_of_moves hmoves m).1
  have hmem : ∀ {x}, x ∈ s.state.active ↔ s.state.Runs x := State.mem_active h.state.consistent
  have hmem' : ∀ {x}, x ∈ s'.state.active ↔ s'.state.Runs x := State.mem_active h'.state.consistent
  obtain ⟨hothers, hfiles⟩ := files_of_moves hcfg hmoves (h.files id p hp)
  cases hbusy : p.busy with
  | false =>
    -- past `complete`, the job does nothing but write the journal
    obtain ⟨rfl, rfl⟩ := completed_of_moves hmoves hbusy
    have hd : s'.directory = s.directory := by
      generalize s'.directory = d' at hmoves
      cases hmoves with
      | recordReady => rfl
      | timeout _ hcase =>
        rcases hcase with hcase | ⟨_, hcase⟩ | ⟨_, hcase⟩ | ⟨_, hcase⟩ <;> exact nomatch hcase
    refine h.of_sublist h' (fun x => ?_) (hd ▸ List.Sublist.refl _)
    rw [hjob.state, update_fun_id]
  | true =>
    have hrun := h.busy id p hp hbusy
    have hid : id ∈ s.state.active := hmem.mpr hrun.1
    cases hq : q.busy with
    | true =>
      -- the recording stays active, and its files are those of the new phase
      have hrun' := h'.busy id q (by rw [hphase, Function.update_self]) hq
      have hactive : ∀ x, x ∈ s'.state.active ↔ x ∈ s.state.active := by
        intro x
        rw [hmem, hmem']
        by_cases hx : x = id
        · subst hx
          exact iff_of_true hrun'.1 hrun.1
        · rw [hjob.state, runs_update hf hx]
      refine h.of_active h' hactive ?_ (held_of_others hactive hid hothers).le
      intro x hx
      by_cases heq : x = id
      · subst heq
        exact Left.bytes_le (hfiles.left hq)
      · rw [Directory.filesOf_congr hothers heq]
        exact h.small x ((hactive x).mp hx)
    | false =>
      -- the recording ends: its reservation is exchanged for its file
      have hd : s'.directory = s.directory := directory_of_moves hmoves hq
      have hinactive := inactive_of_moves hmoves hbusy hq
      have hactive : ∀ x, x ∈ s'.state.active ↔ x ∈ s.state.active ∧ x ≠ id := by
        intro x
        rw [hmem, hmem', hjob.state]
        by_cases hx : x = id
        · subst hx
          refine iff_of_false ?_ fun hboth => hboth.2 rfl
          rintro ⟨m, hm, hm'⟩
          rw [State.get_update_self hf] at hm
          obtain ⟨m₀, -, rfl⟩ := Option.map_eq_some_iff.mp hm
          exact nomatch hm'.symm.trans (hinactive m₀)
        · rw [runs_update hf hx]
          exact ⟨fun hx' => ⟨hx', hx⟩, And.left⟩
      have hlength := length_add_one_of_mem (State.nodup_active h'.state.consistent)
        (State.nodup_active h.state.consistent) hid hactive
      have hheld : s'.held ≤ s.held + (s.directory.filesOf id).bytes := by
        rw [held, hd]
        refine Directory.bytes_filter_le_add _ fun entry _ hentry => ?_
        obtain ⟨hmedia, howner⟩ := of_decide_eq_true hentry
        rw [hactive, not_and_or, not_not] at howner
        exact howner.imp (fun hnot => decide_eq_true ⟨hmedia, hnot⟩) decide_eq_true
      refine { toFiled := h', small := ?_, room := ?_ }
      · intro x hx
        rw [hd]
        exact h.small x ((hactive x).mp hx).1
      · have hsmall := h.small id hid
        have hroom := h.room
        rw [← hlength, Nat.succ_mul] at hroom
        omega

/-- Every step keeps the quota. -/
theorem within_step {e : Event} (hcfg : cfg.Bounded) (h : s.Within cfg)
    (hstep : s.step cfg sha256 e = some s') : s'.Within cfg := by
  have h' := filed_step hcfg h.toFiled hstep
  cases step_cases hstep with
  | idle hidle =>
    refine h.of_sublist h' (fun x => ?_) (hidle.directory ▸ List.Sublist.refl _)
    rw [hidle.state]
  | admitted _ hadm => exact within_admitted hcfg h h' hadm
  | spawn _ => exact h.of_sublist h' (fun _ => Iff.rfl) (List.Sublist.refl _)
  | @acknowledge id now faults _ _ hack =>
    cases hack with
    | refused => exact h
    | removed => exact h.of_sublist h' (fun _ => Iff.rfl) (withoutMedia_sublist _ _)
    | released hget hinactive =>
      refine h.of_sublist h' (fun x => ?_) (withoutMedia_sublist _ _)
      rw [State.mem_active h.state.consistent, State.mem_active h'.state.consistent]
      -- the recording that goes was not active
      by_cases hx : x = id
      · subst hx
        refine iff_of_false ?_ ?_
        · rintro ⟨m', hm', -⟩
          exact nomatch hm'.symm.trans State.get_release_self
        · rintro ⟨m', hm', hactive⟩
          obtain rfl := Option.some.inj (hget.symm.trans hm')
          exact nomatch hactive.symm.trans hinactive
      · change (s.state.release id now).Runs x ↔ _
        rw [State.Runs, State.get_release_of_ne hx, State.Runs]
  | crash => exact h.of_idle h' rfl (List.Sublist.refl _)
  | restart hres =>
    -- nothing is active when the bridge starts
    refine h.of_idle h' ?_ (hres.directory ▸ List.filter_sublist)
    rcases hres.state with ⟨-, heq⟩ | ⟨-, heq⟩ <;> rw [heq]
    · refine List.map_eq_nil_iff.mpr (List.filter_eq_nil_iff.mpr fun m hm => ?_)
      obtain ⟨m₀, -, rfl⟩ := List.mem_map.mp hm
      rw [isActive_recoverManifest]
      exact Bool.false_ne_true
    · rfl
  | job hjob => exact within_job hcfg h h' hjob

/-! ### Whole runs -/

/-- Nothing is being recorded, or about to be, and the media files fit the quota. The directory may
hold any other files of recordings that were asked for earlier. -/
structure Resting (cfg : Config) (s : Manager) : Prop extends s.Registered where
  names : Keyed.Distinct Prod.fst s.directory
  owners : ∀ entry ∈ s.directory, entry.1.owner ∈ s.used
  noneSpawning : s.spawning = []
  noneBusy : ∀ id p, s.phase id = some p → p.busy = false
  noneActive : s.state.active = []
  fits : Directory.bytes (s.directory.filter fun entry => entry.1.isMedia) ≤ cfg.quotaBytes

/-- A manager at rest is within its quota. -/
theorem Resting.within (h : s.Resting cfg) : s.Within cfg := by
  have hfiled : s.Filed cfg := by
    refine { toRegistered := h.toRegistered, names := h.names, owners := h.owners, untouched := ?_,
             files := ?_ }
    · rw [h.noneSpawning]
      exact fun _ he => nomatch he
    · intro id p hp
      have hbusy := h.noneBusy id p hp
      cases p with
      | completed | finished => exact trivial
      | _ => exact nomatch hbusy
  refine { toFiled := hfiled, small := ?_, room := ?_ }
  · rw [h.noneActive]
    exact fun _ hid => nomatch hid
  · rw [h.noneActive, List.length_nil, Nat.zero_mul, Nat.add_zero]
    refine (Directory.bytes_filter_le _ fun entry _ hentry => ?_).trans h.fits
    exact (of_decide_eq_true hentry).1

/-- A process that is not running, on whatever it finds on its disk. -/
theorem resting_stopped {directory : Directory} {journal : Option Journal} {used : List Uuid}
    (hjournal : Sound used (loadState journal)) (hnames : Keyed.Distinct Prod.fst directory)
    (howners : ∀ entry ∈ directory, entry.1.owner ∈ used)
    (hfits : Directory.bytes (directory.filter fun entry => entry.1.isMedia) ≤ cfg.quotaBytes) :
    Resting cfg { directory, journal, used } where
  toCoherent := ⟨sound_empty used, hjournal, fun _ hm => nomatch hm⟩
  stopped _ := ⟨rfl, fun _ => rfl, rfl⟩
  distinct := List.nodup_nil
  waiting _ h := nomatch h
  busy _ _ h := nomatch h
  published _ h := nomatch h
  spawned _ h := absurd rfl h
  names := hnames
  owners := howners
  noneSpawning := rfl
  noneBusy _ _ h := nomatch h
  noneActive := rfl
  fits := hfits

/-- **The spool never exceeds its quota.** From a manager at rest whose media files fit the quota,
whatever requests, jobs, faults, crashes and restarts follow: the media files and the partial files
of active recordings fit it at every moment, and no saturation admits what exact arithmetic would
refuse. -/
theorem spool_within_quota {events : List Event} (hcfg : cfg.Bounded) (hs : s.Resting cfg)
    (hrun : EventSystem.run (step cfg sha256) s events = some s') :
    s'.spoolUse ≤ cfg.quotaBytes ∧
      ∀ spool active, admits spool active cfg.maxBytes cfg.quotaBytes = true →
        spool + (active + 1) * cfg.maxBytes ≤ cfg.quotaBytes := by
  have hwithin : s'.Within cfg :=
    EventSystem.run_keeps (Within cfg) (fun _ _ _ => within_step hcfg) hs.within hrun
  exact ⟨hwithin.spoolUse_le, fun _ _ => admits_exact hcfg.quotaBytes⟩

/-- A recording up to the rename of its file. -/
theorem spool_within_quota_sample :
    ∃ s, EventSystem.run (step sampleConfig sampleSha256) {} sampleRenamed = some s ∧
      s.spoolUse = 8 ∧ s.spoolUse ≤ sampleConfig.quotaBytes := by
  obtain ⟨s, hs, huse⟩ : ∃ s ∈ EventSystem.run (step sampleConfig sampleSha256) {} sampleRenamed,
      s.spoolUse = 8 := by decide +kernel
  have hcfg : sampleConfig.Bounded := ⟨by decide, by decide⟩
  have hrest : Resting sampleConfig {} :=
    resting_stopped (sound_empty []) List.nodup_nil (fun _ h => nomatch h) (by decide)
  exact ⟨s, hs, huse, (spool_within_quota hcfg hrest hs).1⟩

end Manager

end Recordings

end EzvizBridge
