import EzvizBridge.Storage.AtomicWrite

/-!
# What is under a name

Every name of the directory is a register (`Lib.CrashFs`): whatever the calls, the faults and the
crashes, a reader finds all the contents of one call, or what was there before, and what a call that
has returned `Ok` has published is never undone by a crash (`atomic_writes`).

The temporary name of a call is its own, for its id is; so is the file under it (`Sound.owned`,
`Sound.apart`), and nobody else writes it before it is synced and gets its name.
-/

namespace EzvizBridge

namespace Storage

open CrashFs

/-! ### What a step does -/

/-- A phase in which the call has no file, and nothing has been published. -/
def Phase.Plain (phase : Phase) : Prop :=
  phase.file = none ∧ phase ≠ .publishing ∧ phase ≠ .done (.ok ())

namespace Directory

variable {s s' : Directory} {i : ℕ} {call : Call}

/-- What a system call of `call` does. -/
inductive Moves (s : Directory) (i : ℕ) (call : Call) : Directory → Prop
  | quiet (phase : Phase) (hphase : phase.Plain) : Moves s i call (s.goto i call phase)
  | created (hfree : s.disk.table call.temporary = none) :
    Moves s i call
      ({ s with disk := s.disk.create call.temporary [] }.goto i call
        (.writing s.disk.files.length call.contents))
  | wrote (file : ℕ) (rest : Bytes) (count : ℕ) (phase : Phase)
    (hwriting : call.phase = .writing file rest)
    (hphase : phase = .writing file (rest.drop count) ∨ phase.Plain) :
    Moves s i call ({ s with disk := s.disk.write file (· ++ rest.take count) }.goto i call phase)
  | synced (file : ℕ) (hwriting : call.phase = .writing file []) :
    Moves s i call ({ s with disk := s.disk.syncFile file }.goto i call (.moving file))
  | renamed (file : ℕ) (hmoving : call.phase = .moving file) :
    Moves s i call
      (({ s with disk := s.disk.change (.move call.temporary (.final call.name) file) }.record
        call.name ⟨some i, some call.contents⟩).goto i call .publishing)
  | secured (hpublishing : call.phase = .publishing) :
    Moves s i call ({ s with disk := s.disk.syncDir }.goto i call (.done (.ok ())))
  | cleaned (phase : Phase) (hphase : phase.Plain) :
    Moves s i call ({ s with disk := s.disk.change (.unbind call.temporary) }.goto i call phase)

theorem moves_of_advance {operation : Operation}
    (h : s.advance i call call.phase operation = some s') :
    Moves s i call s' := by
  have hcleaning : ∀ error, (Phase.cleaning error).Plain := fun error => by
    simp [Phase.Plain, Phase.file]
  have hfailed : ∀ error, (Phase.done (.error error)).Plain := fun error => by
    simp [Phase.Plain, Phase.file]
  -- one case for each arm of `advance`
  rw [advance.eq_def] at h
  split at h
  · cases h
    exact .quiet _ (by simp [Phase.Plain, Phase.file])
  · cases h
    exact .quiet _ (hfailed _)
  -- the temporary name is free, and a new file is bound to it
  · obtain ⟨hfree, rfl⟩ := EventSystem.guarded h
    exact .created hfree
  · cases h
    exact .quiet _ (hcleaning _)
  · next file rest count fault hphase =>
    -- the loop of writes goes on, or it fails
    cases fault with
    | none =>
      cases h
      exact .wrote file rest count _ hphase (.inl rfl)
    | some error =>
      cases h
      exact .wrote file rest count _ hphase (.inr (hcleaning error))
  -- the file is synced when everything was written
  · next file rest hphase =>
    obtain ⟨rfl, rfl⟩ := EventSystem.guarded h
    exact .synced file hphase
  · obtain ⟨-, rfl⟩ := EventSystem.guarded h
    exact .quiet _ (hcleaning _)
  -- the rename publishes the file
  · next file hphase =>
    obtain ⟨-, rfl⟩ := EventSystem.guarded h
    exact .renamed file hphase
  · cases h
    exact .quiet _ (hcleaning _)
  -- the sync of the directory makes it durable
  · next hphase =>
    cases h
    exact .secured hphase
  · cases h
    exact .quiet _ (hcleaning _)
  -- the temporary file is removed, or that fails
  · next error removed _ =>
    dsimp only at h
    split at h
    · cases h
      exact .cleaned _ (hfailed error)
    · cases h
      exact .quiet _ (hfailed error)
  · cases h

/-! ### Calls and their files -/

/-- The temporary name of a call is bound to its file, which has what was written so far. -/
def Owns (disk : Disk Name Bytes) (call : Call) : Phase → Prop
  | .writing file rest =>
    disk.table call.temporary = some file ∧
      ∃ written, disk.files[file]? = some ⟨written, false⟩ ∧ written ++ rest = call.contents
  | .moving file => disk.table call.temporary = some file ∧ disk.Has file call.contents
  | _ => True

/-- A place of the log up to `bound` has what the call has published. -/
def Logged (s : Directory) (i : ℕ) (call : Call) (bound : ℕ) : Prop :=
  ∃ place ≤ bound, (s.log call.name)[place]? = some ⟨some i, some call.contents⟩

/-- The register of a name; what has been published is visible, and what was acknowledged is
durable. -/
def Registered (s : Directory) (name : String) : Prop :=
  ∃ visible durable,
    Represents s.disk (.final name) ⟨(s.log name).map Version.contents, visible, durable⟩ ∧
      ∀ (i : ℕ) (call : Call), s.calls[i]? = some call → call.name = name →
        (call.phase = .publishing → s.Logged i call visible) ∧
          (call.phase = .done (.ok ()) → s.Logged i call durable)

structure Sound (s : Directory) : Prop where
  fresh : ∀ (i : ℕ) (call : Call), s.calls[i]? = some call → call.id ∈ s.used
  distinct : ∀ (i j : ℕ) (call other : Call), s.calls[i]? = some call → s.calls[j]? = some other →
    call.id = other.id → i = j
  owned : ∀ (i : ℕ) (call : Call), s.calls[i]? = some call → Owns s.disk call call.phase
  apart : ∀ (i j : ℕ) (call other : Call) (file : ℕ), s.calls[i]? = some call →
    s.calls[j]? = some other → call.phase.file = some file → other.phase.file = some file → i = j
  registered : ∀ name, s.Registered name
  authentic : ∀ (name : String) (version : Version) (i : ℕ), version ∈ s.log name →
    version.call = some i →
    ∃ call, s.calls[i]? = some call ∧ call.name = name ∧ version.contents = some call.contents

/-- A phase without a file owns nothing. -/
theorem Owns.plain {disk : Disk Name Bytes} {phase : Phase} (h : phase.file = none) :
    Owns disk call phase := by
  cases phase with
  | writing file rest => cases h
  | moving file => cases h
  | _ => exact trivial

/-- A file of a call is among the files. -/
theorem Owns.lt {disk : Disk Name Bytes} {phase : Phase} {file : ℕ} (h : Owns disk call phase)
    (hfile : phase.file = some file) : file < disk.files.length := by
  cases phase with
  | writing own rest =>
    cases hfile
    obtain ⟨-, written, hwritten, -⟩ := h
    exact (List.getElem?_eq_some_iff.mp hwritten).1
  | moving own =>
    cases hfile
    obtain ⟨-, hhas⟩ := h
    exact (List.getElem?_eq_some_iff.mp hhas).1
  | _ => cases hfile

/-- Other names, and other files, are no concern of a call. -/
theorem Owns.frame {disk disk' : Disk Name Bytes} {phase : Phase} (h : Owns disk call phase)
    (htable : disk'.table call.temporary = disk.table call.temporary)
    (hfiles : ∀ file, phase.file = some file → disk'.files[file]? = disk.files[file]?) :
    Owns disk' call phase := by
  cases phase with
  | writing file rest =>
    obtain ⟨hname, written, hwritten, hrest⟩ := h
    exact ⟨htable.trans hname, written, (hfiles file rfl).trans hwritten, hrest⟩
  | moving file =>
    obtain ⟨hname, hhas⟩ := h
    exact ⟨htable.trans hname, (hfiles file rfl).trans hhas⟩
  | _ => exact trivial

/-- The calls after one of them has moved on. -/
theorem getElem?_goto {phase : Phase} (hcall : s.calls[i]? = some call) {j : ℕ} {other : Call}
    (h : (s.goto i call phase).calls[j]? = some other) :
    (j = i ∧ other = { call with phase }) ∨ (j ≠ i ∧ s.calls[j]? = some other) := by
  have hset : (s.calls.set i { call with phase })[j]? = some other := h
  rw [List.getElem?_set] at hset
  by_cases hij : i = j
  · subst hij
    rw [if_pos rfl, if_pos (List.getElem?_eq_some_iff.mp hcall).1] at hset
    exact .inl ⟨rfl, (Option.some.inj hset).symm⟩
  · rw [if_neg hij] at hset
    exact .inr ⟨Ne.symm hij, hset⟩

theorem getElem?_goto_self {phase : Phase} (hcall : s.calls[i]? = some call) :
    (s.goto i call phase).calls[i]? = some { call with phase } := by
  show (s.calls.set i { call with phase })[i]? = _
  rw [List.getElem?_set_self (List.getElem?_eq_some_iff.mp hcall).1]

theorem getElem?_goto_other {phase : Phase} {j : ℕ} (hne : j ≠ i) :
    (s.goto i call phase).calls[j]? = s.calls[j]? :=
  List.getElem?_set_ne (Ne.symm hne)

/-- Calls keep their names and contents. -/
theorem exists_goto (phase : Phase) (hcall : s.calls[i]? = some call) {j : ℕ} {other : Call}
    (h : s.calls[j]? = some other) :
    ∃ later, (s.goto i call phase).calls[j]? = some later ∧ later.name = other.name ∧
      later.contents = other.contents := by
  by_cases hji : j = i
  · subst hji
    obtain rfl := Option.some.inj (hcall.symm.trans h)
    exact ⟨_, getElem?_goto_self hcall, rfl, rfl⟩
  · exact ⟨other, (getElem?_goto_other hji).trans h, rfl, rfl⟩

/-! ### A step keeps the directory sound -/

section Step

variable {t : Directory} {phase : Phase} {name : String}

/-- A call moves on, and the log stays: what other calls have published is there as before. -/
theorem Registered.goto (h : s.Registered name) (hcall : s.calls[i]? = some call)
    (hcalls : t.calls = s.calls) (hlog : t.log = s.log)
    (hdisk : ∀ r, Represents s.disk (.final name) r → Represents t.disk (.final name) r)
    (hpublishing : phase ≠ .publishing) (hdone : phase ≠ .done (.ok ())) :
    (t.goto i call phase).Registered name := by
  -- the places of the register are those of before
  obtain ⟨visible, durable, hrep, hclaims⟩ := h
  refine ⟨visible, durable, ?_, ?_⟩
  · show Represents t.disk (.final name) ⟨(t.log name).map Version.contents, visible, durable⟩
    rw [hlog]
    exact hdisk _ hrep
  -- the claims of the call that moves are empty, those of the others are about the same log
  · intro j other hother hname
    rcases getElem?_goto (hcalls ▸ hcall) hother with ⟨-, rfl⟩ | ⟨-, hold⟩
    · exact ⟨fun hphase => absurd hphase hpublishing, fun hphase => absurd hphase hdone⟩
    · rw [hcalls] at hold
      obtain ⟨hvisible, hdurable⟩ := hclaims j other hold hname
      have hlogged : ∀ bound, s.Logged j other bound →
          (t.goto i call phase).Logged j other bound := by
        intro bound hlogged
        show ∃ place ≤ bound, (t.log other.name)[place]? = _
        rw [hlog]
        exact hlogged
      exact ⟨fun hphase => hlogged _ (hvisible hphase), fun hphase => hlogged _ (hdurable hphase)⟩

/-- The parts of soundness that do not look at the registers. -/
theorem Sound.goto (h : s.Sound) (hcall : s.calls[i]? = some call) (hcalls : t.calls = s.calls)
    (hused : t.used = s.used) (howns : Owns t.disk { call with phase } phase)
    (hothers : ∀ (j : ℕ) (other : Call), s.calls[j]? = some other → j ≠ i →
      Owns t.disk other other.phase)
    (hfile : ∀ file, phase.file = some file →
      call.phase.file = some file ∨ s.disk.files.length ≤ file)
    (hregistered : ∀ name, (t.goto i call phase).Registered name)
    (hauthentic : ∀ (name : String) (version : Version) (j : ℕ), version ∈ t.log name →
      version.call = some j → ∃ call, s.calls[j]? = some call ∧ call.name = name ∧
        version.contents = some call.contents) : (t.goto i call phase).Sound := by
  have hcall' : t.calls[i]? = some call := hcalls ▸ hcall
  -- a call of the new state and the call that it was
  have hback : ∀ {j : ℕ} {other : Call}, (t.goto i call phase).calls[j]? = some other →
      ∃ before, s.calls[j]? = some before ∧ before.id = other.id ∧
        ((j = i ∧ other.phase = phase) ∨ (j ≠ i ∧ other = before)) := by
    intro j other hother
    rcases getElem?_goto hcall' hother with ⟨rfl, rfl⟩ | ⟨hne, hold⟩
    · exact ⟨call, hcall, rfl, .inl ⟨rfl, rfl⟩⟩
    · exact ⟨other, hcalls ▸ hold, rfl, .inr ⟨hne, rfl⟩⟩
  -- the file of the call that moves is not the file of another one
  have hnew : ∀ {j : ℕ} {other : Call} {file : ℕ}, s.calls[j]? = some other → j ≠ i →
      other.phase.file = some file → phase.file ≠ some file := by
    intro j other file hother hne hown hphase
    rcases hfile file hphase with hsame | hlarge
    · exact hne (h.apart j i other call file hother hcall hown hsame)
    · exact absurd ((h.owned j other hother).lt hown) (by omega)
  -- one clause after the other: the call that moves, and the others as they were
  refine ⟨?_, ?_, ?_, ?_, hregistered, ?_⟩
  · intro j other hother
    obtain ⟨before, hbefore, hid, -⟩ := hback hother
    show other.id ∈ t.used
    rw [hused, ← hid]
    exact h.fresh j before hbefore
  -- ids are never changed
  · intro j k other other' hother hother' heq
    obtain ⟨before, hbefore, hid, -⟩ := hback hother
    obtain ⟨before', hbefore', hid', -⟩ := hback hother'
    exact h.distinct j k before before' hbefore hbefore' (hid.trans (heq.trans hid'.symm))
  · intro j other hother
    rcases getElem?_goto hcall' hother with ⟨-, rfl⟩ | ⟨hne, hold⟩
    · exact howns
    · exact hothers j other (hcalls ▸ hold) hne
  -- two calls with one file: the one that moves, or neither
  · intro j k other other' file hother hother' hown hown'
    obtain ⟨before, hbefore, -, hj⟩ := hback hother
    obtain ⟨before', hbefore', -, hk⟩ := hback hother'
    rcases hj with ⟨rfl, hphase⟩ | ⟨hne, rfl⟩
    · rcases hk with ⟨rfl, -⟩ | ⟨hne', rfl⟩
      · rfl
      · exact absurd (hphase ▸ hown) (hnew hbefore' hne' hown')
    · rcases hk with ⟨rfl, hphase'⟩ | ⟨hne', rfl⟩
      · exact absurd (hphase' ▸ hown') (hnew hbefore hne hown)
      · exact h.apart j k _ _ file hbefore hbefore' hown hown'
  -- whoever published still has that name and those contents
  · intro name version j hmem hversion
    obtain ⟨before, hbefore, hname, hcontents⟩ := hauthentic name version j hmem hversion
    obtain ⟨later, hlater, hlaterName, hlaterContents⟩ :=
      exists_goto phase hcall' (hcalls ▸ hbefore)
    exact ⟨later, hlater, hlaterName.trans hname, by rw [hcontents, hlaterContents]⟩

/-- The log of the name is one version longer. -/
theorem log_record_self (version : Version) :
    (s.record name version).log name = s.log name ++ [version] :=
  Function.update_self _ _ _

theorem log_record_other {other : String} (hne : name ≠ other) (version : Version) :
    (s.record other version).log name = s.log name :=
  Function.update_of_ne hne _ _

/-- A later bound, and a longer log. -/
theorem Logged.mono {bound bound' : ℕ} (h : s.Logged i call bound) (hle : bound ≤ bound')
    (hlog : s.log call.name <+: t.log call.name) : t.Logged i call bound' := by
  obtain ⟨place, hplace, hversion⟩ := h
  obtain ⟨more, hmore⟩ := hlog
  refine ⟨place, hplace.trans hle, ?_⟩
  rw [← hmore, List.getElem?_append_left (List.getElem?_eq_some_iff.mp hversion).1]
  exact hversion

/-- The register of a name that is bound to something else. -/
theorem represents_record {visible durable : ℕ} {c : Change Name} {bound : Option ℕ}
    (version : Version)
    (h : Represents s.disk (.final name) ⟨(s.log name).map Version.contents, visible, durable⟩)
    (hbound : c.binding (.final name) = some bound) (hholds : Holds s.disk bound version.contents) :
    Represents (s.disk.change c) (.final name)
      ⟨((s.record name version).log name).map Version.contents, (s.log name).length, durable⟩ := by
  have hpublish := h.publish hbound hholds
  rw [log_record_self, List.map_append, List.map_singleton]
  rwa [Register.publish, List.length_map] at hpublish

/-- A call has renamed its file: its version is the last one of its name. -/
theorem Registered.rename (h : s.Registered name) (hcall : s.calls[i]? = some call) {file : ℕ}
    (hhas : s.disk.Has file call.contents) :
    ((({ s with disk := s.disk.change (.move call.temporary (.final call.name) file) } :
      Directory).record
      call.name ⟨some i, some call.contents⟩).goto i call .publishing).Registered name := by
  obtain ⟨visible, durable, hrep, hclaims⟩ := h
  -- the name of the call, or another one
  by_cases hname : name = call.name
  · subst hname
    have hbound : (Change.move call.temporary (Name.final call.name) file).binding
        (.final call.name) =
        some (some file) := by rw [Change.binding, if_pos rfl]
    -- the new version is behind the one that was visible
    have hlt : visible < (s.log call.name).length := by simpa using hrep.visible_lt
    refine ⟨(s.log call.name).length, durable,
      represents_record ⟨some i, some call.contents⟩ hrep hbound ⟨_, rfl, hhas⟩, ?_⟩
    intro j other hother hotherName
    rcases getElem?_goto (s := s) hcall hother with ⟨rfl, rfl⟩ | ⟨-, hold⟩
    -- the call that renames finds its own version at the end
    · refine ⟨fun _ => ⟨(s.log call.name).length, Nat.le_refl _, ?_⟩, fun hphase => by cases hphase⟩
      show ((s.record call.name _).log call.name)[_]? = _
      rw [log_record_self]
      exact List.getElem?_concat_length
    · -- what the others have published is still in the log
      have hlog : s.log other.name <+:
          (s.record call.name ⟨some i, some call.contents⟩).log other.name := by
        rw [hotherName, log_record_self]
        exact List.prefix_append _ _
      obtain ⟨hvisible, hdurable⟩ := hclaims j other hold hotherName
      exact ⟨fun hphase => (hvisible hphase).mono hlt.le hlog,
        fun hphase => (hdurable hphase).mono (Nat.le_refl _) hlog⟩
  -- the rename binds the other name to nothing
  · have hother : (Change.move call.temporary (Name.final call.name) file).binding
        (.final name) = none := by
      simp [Change.binding, Call.temporary, hname]
    have hlog : ∀ version, (s.record call.name version).log name = s.log name :=
      log_record_other hname
    refine ⟨visible, durable, ?_, ?_⟩
    · show Represents (s.disk.change _) (.final name)
        ⟨((s.record call.name _).log name).map Version.contents, visible, durable⟩
      rw [hlog]
      exact hrep.change_other hother
    · intro j other hmem hotherName
      rcases getElem?_goto (s := s) hcall hmem with ⟨-, rfl⟩ | ⟨-, hold⟩
      · exact absurd hotherName.symm hname
      · have hprefix : s.log other.name <+:
            (s.record call.name ⟨some i, some call.contents⟩).log other.name := by
          rw [hotherName, hlog]
        obtain ⟨hvisible, hdurable⟩ := hclaims j other hold hotherName
        exact ⟨fun hphase => (hvisible hphase).mono (Nat.le_refl _) hprefix,
          fun hphase => (hdurable hphase).mono (Nat.le_refl _) hprefix⟩

theorem Sound.temporary_ne (h : s.Sound) (hcall : s.calls[i]? = some call) {j : ℕ} {other : Call}
    (hother : s.calls[j]? = some other) (hne : j ≠ i) : other.temporary ≠ call.temporary := by
  intro heq
  have hid : other.id = call.id := (Name.temporary.inj heq).2
  exact hne (h.distinct j i other call hother hcall hid)

/-- Nobody else has the file of a call, so what it does with it leaves the others theirs. -/
theorem Sound.others_modify (h : s.Sound) (hcall : s.calls[i]? = some call) {file : ℕ}
    (hown : call.phase.file = some file) {disk : Disk Name Bytes}
    (htable : disk.table = s.disk.table) {f : File Bytes → File Bytes}
    (hfiles : disk.files = s.disk.files.modify file f) (j : ℕ) (other : Call)
    (hother : s.calls[j]? = some other) (hne : j ≠ i) : Owns disk other other.phase := by
  refine (h.owned j other hother).frame (congrFun htable _) fun file' hfile' => ?_
  have hapart : file ≠ file' := by
    rintro rfl
    exact hne (h.apart j i other call file hother hcall hfile' hown)
  rw [hfiles, List.getElem?_modify]
  simp [hapart]

/-- A call that moves keeps the directory sound, whatever it does. -/
theorem Sound.moves (h : s.Sound) (hcall : s.calls[i]? = some call) (hmoves : Moves s i call s') :
    s'.Sound := by
  cases hmoves with
  -- the phase has no file, and nothing happens on the disk
  | quiet phase hphase =>
    refine h.goto hcall rfl rfl (Owns.plain hphase.1)
      (fun j other hother _ => h.owned j other hother) ?_ ?_
      h.authentic
    · intro file hfile
      rw [hphase.1] at hfile
      cases hfile
    · intro name
      exact (h.registered name).goto hcall rfl rfl (fun _ hr => hr) hphase.2.1 hphase.2.2
  -- a new file under the temporary name, which nobody else has
  | created hfree =>
    refine h.goto hcall rfl rfl ?_ ?_ (fun file hfile => ?_) ?_ h.authentic
    · refine ⟨?_, [], List.getElem?_concat_length, List.nil_append _⟩
      rw [Disk.table_create]
      exact Function.update_self _ _ _
    · intro j other hother hne
      refine (h.owned j other hother).frame ?_ fun file hfile => ?_
      · rw [Disk.table_create]
        exact Function.update_of_ne (h.temporary_ne hcall hother hne) _ _
      · exact List.getElem?_append_left ((h.owned j other hother).lt hfile)
    · cases hfile
      exact .inr (Nat.le_refl _)
    · intro name
      exact (h.registered name).goto hcall rfl rfl
        (fun _ hr => hr.create (by simp [Call.temporary]) [])
        (by simp) (by simp)
  -- more bytes in the file of this call
  | wrote file rest count phase hwriting hphase =>
    have howns := h.owned i call hcall
    rw [hwriting] at howns
    obtain ⟨htable, written, hfile, hrest⟩ := howns
    have hown : call.phase.file = some file := by rw [hwriting, Phase.file]
    have hothers := @Sound.others_modify _ _ _ h hcall _ hown
      (s.disk.write file (· ++ rest.take count)) rfl _ rfl
    have hregistered : phase ≠ .publishing → phase ≠ .done (.ok ()) → ∀ name,
        (({ s with disk := s.disk.write file (· ++ rest.take count) } : Directory).goto i call
          phase).Registered name := by
      intro hpublishing hdone name
      exact (h.registered name).goto hcall rfl rfl
        (fun _ hr => hr.write (· ++ rest.take count) hfile rfl) hpublishing hdone
    -- the loop goes on, or the write has failed
    rcases hphase with rfl | hplain
    · refine h.goto hcall rfl rfl ⟨htable, written ++ rest.take count, ?_, ?_⟩ hothers ?_
        (hregistered (by simp) (by simp)) h.authentic
      -- what was written and what is left make up the contents
      · show (s.disk.files.modify file _)[file]? = _
        rw [List.getElem?_modify, hfile]
        simp
      · rw [List.append_assoc, List.take_append_drop]
        exact hrest
      · intro file' hfile'
        exact .inl (hown.trans hfile')
    · refine h.goto hcall rfl rfl (Owns.plain hplain.1) hothers ?_
        (hregistered hplain.2.1 hplain.2.2)
        h.authentic
      intro file' hfile'
      rw [hplain.1] at hfile'
      cases hfile'
  -- everything is written, and now it is synced
  | synced file hwriting =>
    have howns := h.owned i call hcall
    rw [hwriting] at howns
    obtain ⟨htable, written, hfile, hrest⟩ := howns
    have hown : call.phase.file = some file := by rw [hwriting, Phase.file]
    refine h.goto hcall rfl rfl ⟨htable, ?_⟩ ?_
      (fun file' hfile' => .inl (hown.trans hfile')) ?_ h.authentic
    · show (s.disk.files.modify file _)[file]? = _
      rw [List.append_nil] at hrest
      rw [List.getElem?_modify, hfile, ← hrest]
      simp
    · exact h.others_modify hcall hown rfl rfl
    · intro name
      exact (h.registered name).goto hcall rfl rfl (fun _ hr => hr.syncFile file)
        (by simp) (by simp)
  -- the file gets its final name
  | renamed file hmoving =>
    have howns := h.owned i call hcall
    rw [hmoving] at howns
    obtain ⟨-, hhas⟩ := howns
    refine h.goto hcall rfl rfl trivial ?_ (fun file' hfile' => ?_) ?_ ?_
    -- the temporary names of the others are bound as before
    · intro j other hother hne
      refine (h.owned j other hother).frame ?_ fun _ _ => rfl
      show (s.disk.change _).table other.temporary = _
      rw [Disk.table_change, Change.apply_eq, Change.binding, if_neg (by simp [Call.temporary]),
        if_neg (h.temporary_ne hcall hother hne)]
      rfl
    · cases hfile'
    -- the register gets a new version
    · intro name
      exact (h.registered name).rename hcall hhas
    · intro name version j hmem hversion
      by_cases hname : name = call.name
      · subst hname
        rcases List.mem_append.mp (log_record_self (s := s) _ ▸ hmem) with hmem | hmem
        · exact h.authentic _ version j hmem hversion
        · -- the version that is published now
          rw [List.mem_singleton.mp hmem] at hversion ⊢
          obtain rfl := Option.some.inj hversion
          exact ⟨call, hcall, rfl, rfl⟩
      · exact h.authentic name version j (log_record_other (s := s) hname _ ▸ hmem) hversion
  -- the directory is synced: what is visible is durable
  | secured hpublishing =>
    refine h.goto hcall rfl rfl trivial (fun j other hother _ => ?_)
      (fun file hfile => ?_) ?_ h.authentic
    · exact (h.owned j other hother).frame rfl fun _ _ => rfl
    · cases hfile
    · intro name
      obtain ⟨visible, durable, hrep, hclaims⟩ := h.registered name
      -- the call that returns was visible, the others as they were
      refine ⟨visible, visible, hrep.syncDir, ?_⟩
      intro j other hother hname
      have hcases := getElem?_goto (s := s) hcall hother
      rcases hcases with ⟨rfl, rfl⟩ | ⟨-, hold⟩
      · exact ⟨fun hphase => (by cases hphase), fun _ => (hclaims j call hcall hname).1 hpublishing⟩
      · obtain ⟨hvisible, hdurable⟩ := hclaims j other hold hname
        exact ⟨hvisible, fun hphase => Logged.mono (t := s)
          (hdurable hphase) hrep.le List.prefix_rfl⟩
  -- the temporary name is unbound
  | cleaned phase hphase =>
    refine h.goto hcall rfl rfl (Owns.plain hphase.1) ?_ ?_ ?_ h.authentic
    · intro j other hother hne
      refine (h.owned j other hother).frame ?_ fun _ _ => rfl
      rw [Disk.table_change, Change.apply_eq, Change.binding,
        if_neg (h.temporary_ne hcall hother hne)]
      rfl
    · intro file hfile
      rw [hphase.1] at hfile
      cases hfile
    · intro name
      exact (h.registered name).goto hcall rfl rfl
        (fun _ hr => hr.change_other (by simp [Change.binding, Call.temporary]))
          hphase.2.1 hphase.2.2

/-- A new call. -/
theorem Sound.enter (h : s.Sound) {id : Uuid} (hid : id ∉ s.used) (contents : Bytes) :
    ({ s with
      calls := s.calls ++ [{ name, id, contents }]
      used := s.used ++ [id] } : Directory).Sound := by
  -- the call that is new, or one of before
  have hcases : ∀ {j : ℕ} {other : Call},
      (s.calls ++ [⟨name, id, contents, .preparing⟩])[j]? = some other →
        s.calls[j]? = some other ∨
          (j = s.calls.length ∧ other = ⟨name, id, contents, .preparing⟩) := by
    intro j other hother
    rw [List.getElem?_append] at hother
    split_ifs at hother with hlt
    · exact .inl hother
    · rw [List.getElem?_singleton] at hother
      split_ifs at hother with hzero
      exact .inr ⟨by omega, (Option.some.inj hother).symm⟩
  -- an id that was used is not the new one
  have hold : ∀ {j : ℕ} {other : Call}, s.calls[j]? = some other → other.id ≠ id := by
    intro j other hother heq
    exact hid (heq ▸ h.fresh j other hother)
  refine ⟨?_, ?_, ?_, ?_, ?_, ?_⟩
  · intro j other hother
    rcases hcases hother with hother | ⟨-, rfl⟩
    · exact List.mem_append_left _ (h.fresh j other hother)
    · exact List.mem_append_right _ (List.mem_singleton_self id)
  · intro j k other other' hother hother' heq
    rcases hcases hother with hother | ⟨rfl, rfl⟩
    · rcases hcases hother' with hother' | ⟨rfl, rfl⟩
      · exact h.distinct j k other other' hother hother' heq
      · exact absurd heq (hold hother)
    · rcases hcases hother' with hother' | ⟨rfl, rfl⟩
      · exact absurd heq.symm (hold hother')
      · rfl
  · intro j other hother
    rcases hcases hother with hother | ⟨-, rfl⟩
    · exact h.owned j other hother
    · exact trivial
  · intro j k other other' file hother hother' hfile hfile'
    rcases hcases hother with hother | ⟨-, rfl⟩
    · rcases hcases hother' with hother' | ⟨-, rfl⟩
      · exact h.apart j k other other' file hother hother' hfile hfile'
      · cases hfile'
    · cases hfile
  -- the new call claims nothing
  · intro searched
    obtain ⟨visible, durable, hrep, hclaims⟩ := h.registered searched
    refine ⟨visible, durable, hrep, fun j other hother hname => ?_⟩
    rcases hcases hother with hother | ⟨-, rfl⟩
    · exact hclaims j other hother hname
    · exact ⟨fun hphase => (by cases hphase), fun hphase => (by cases hphase)⟩
  · intro searched version j hmem hversion
    obtain ⟨other, hother, hrest⟩ := h.authentic searched version j hmem hversion
    exact ⟨other, by
      rw [List.getElem?_append_left (List.getElem?_eq_some_iff.mp hother).1, hother], hrest⟩

/-- A file is removed. -/
theorem Sound.remove (h : s.Sound) (name : String) :
    (({ s with disk := s.disk.change (.unbind (.final name)) } : Directory).record name
      ⟨none, none⟩).Sound := by
  have hbound : (Change.unbind (Name.final name)).binding (.final name) = some none := by
    rw [Change.binding, if_pos rfl]
  -- no temporary name is touched, so every call owns what it owned
  refine ⟨h.fresh, h.distinct, ?_, h.apart, ?_, ?_⟩
  · intro j other hother
    refine (h.owned j other hother).frame ?_ fun _ _ => rfl
    show (s.disk.change _).table other.temporary = _
    rw [Disk.table_change, Change.apply_eq, Change.binding, if_neg (by simp [Call.temporary])]
    rfl
  · intro searched
    obtain ⟨visible, durable, hrep, hclaims⟩ := h.registered searched
    -- the register of the removed name, or another one
    by_cases hname : searched = name
    · subst hname
      have hlt : visible < (s.log searched).length := by simpa using hrep.visible_lt
      refine ⟨(s.log searched).length, durable,
        represents_record ⟨none, none⟩ hrep hbound rfl, ?_⟩
      intro j other hother hotherName
      have hlog : s.log other.name <+: (s.record searched ⟨none, none⟩).log other.name := by
        rw [hotherName, log_record_self]
        exact List.prefix_append _ _
      obtain ⟨hvisible, hdurable⟩ := hclaims j other hother hotherName
      exact ⟨fun hphase => (hvisible hphase).mono hlt.le hlog,
        fun hphase => (hdurable hphase).mono (Nat.le_refl _) hlog⟩
    -- the removal is of another name
    · have hlog : (s.record name ⟨none, none⟩).log searched = s.log searched :=
        log_record_other hname _
      refine ⟨visible, durable, ?_, ?_⟩
      · show Represents (s.disk.change _) (.final searched)
          ⟨((s.record name _).log searched).map Version.contents, visible, durable⟩
        rw [hlog]
        exact hrep.change_other (by simp [Change.binding, hname])
      · intro j other hother hotherName
        have hprefix : s.log other.name <+: (s.record name ⟨none, none⟩).log other.name := by
          rw [hotherName, hlog]
        obtain ⟨hvisible, hdurable⟩ := hclaims j other hother hotherName
        exact ⟨fun hphase => (hvisible hphase).mono (Nat.le_refl _) hprefix,
          fun hphase => (hdurable hphase).mono (Nat.le_refl _) hprefix⟩
  · intro searched version j hmem hversion
    by_cases hname : searched = name
    · subst hname
      -- the version of a removal has no call
      rcases List.mem_append.mp (log_record_self (s := s) _ ▸ hmem) with hmem | hmem
      · exact h.authentic _ version j hmem hversion
      · rw [List.mem_singleton.mp hmem] at hversion
        cases hversion
    · exact h.authentic searched version j (log_record_other (s := s) hname _ ▸ hmem) hversion

/-- A call that was cut off has no file and publishes nothing. -/
theorem interrupt_cases (call : Call) :
    (∃ result, call.phase = .done result ∧ interrupt call = call) ∨
      interrupt call = { call with phase := .lost } := by
  rw [interrupt]
  split
  · next result hphase => exact .inl ⟨result, hphase, rfl⟩
  · exact .inr rfl

/-- The machine crashes. -/
theorem Sound.crash (h : s.Sound) {kept : List (Change Name)}
    (hkept : ∀ change ∈ kept, change ∈ s.disk.pending) (lost : ℕ → Bytes) :
    Directory.Sound
      { s with disk := s.disk.crash kept lost, calls := s.calls.map interrupt } := by
  -- a call, and what it was before the crash
  have hback : ∀ {j : ℕ} {other : Call}, (s.calls.map interrupt)[j]? = some other →
      ∃ before, s.calls[j]? = some before ∧ before.id = other.id ∧ before.name = other.name ∧
        before.contents = other.contents ∧ other.phase.file = none ∧ other.phase ≠ .publishing ∧
          (other.phase = .done (.ok ()) → before = other) := by
    intro j other hother
    rw [List.getElem?_map, Option.map_eq_some_iff] at hother
    obtain ⟨before, hbefore, rfl⟩ := hother
    rcases interrupt_cases before with ⟨result, hphase, heq⟩ | heq
    · rw [heq, hphase]
      exact ⟨before, hbefore, rfl, rfl, rfl, rfl, by simp, fun _ => rfl⟩
    · rw [heq]
      exact ⟨before, hbefore, rfl, rfl, rfl, rfl, by simp, fun hdone => (by cases hdone)⟩
  refine ⟨?_, ?_, ?_, ?_, ?_, ?_⟩
  · intro j other hother
    obtain ⟨before, hbefore, hid, -⟩ := hback hother
    exact hid ▸ h.fresh j before hbefore
  · intro j k other other' hother hother' heq
    obtain ⟨before, hbefore, hid, -⟩ := hback hother
    obtain ⟨before', hbefore', hid', -⟩ := hback hother'
    exact h.distinct j k before before' hbefore hbefore' (hid.trans (heq.trans hid'.symm))
  · intro j other hother
    obtain ⟨-, -, -, -, -, hfile, -⟩ := hback hother
    exact Owns.plain hfile
  · intro j k other other' file hother hother' hfile _
    obtain ⟨-, -, -, -, -, hnone, -⟩ := hback hother
    rw [hnone] at hfile
    cases hfile
  -- the disk comes up with a version that is at least the durable one
  · intro searched
    obtain ⟨visible, durable, hrep, hclaims⟩ := h.registered searched
    obtain ⟨place, hplace, hcrash⟩ := hrep.crash hkept lost
    refine ⟨place, place, hcrash, fun j other hother hname => ?_⟩
    obtain ⟨before, hbefore, -, hnameBefore, -, -, hpublishing, hdone⟩ := hback hother
    -- a call that was done has been acknowledged before the crash
    refine ⟨fun hphase => absurd hphase hpublishing, fun hphase => ?_⟩
    obtain rfl := hdone hphase
    have hlogged := (hclaims j before hbefore hname).2 hphase
    exact Logged.mono (t := s) hlogged hplace List.prefix_rfl
  · intro searched version j hmem hversion
    obtain ⟨before, hbefore, hname, hcontents⟩ := h.authentic searched version j hmem hversion
    refine ⟨interrupt before, by rw [List.getElem?_map, hbefore, Option.map_some], ?_⟩
    rcases interrupt_cases before with ⟨-, -, heq⟩ | heq <;> rw [heq] <;> exact ⟨hname, hcontents⟩

/-- Every step keeps the directory sound. -/
theorem Sound.step (h : s.Sound) {event : Event} (hstep : s.step event = some s') : s'.Sound := by
  cases event with
  | call name id contents =>
    rw [Directory.step] at hstep
    split_ifs at hstep with hid
    cases hstep
    exact h.enter hid contents
  | operate i operation =>
    rw [Directory.step] at hstep
    -- the operation is for a call that is there
    cases hcall : s.calls[i]? with
    | none =>
      rw [hcall] at hstep
      cases hstep
    | some call =>
      rw [hcall] at hstep
      exact h.moves hcall (moves_of_advance hstep)
  | remove name =>
    rw [Directory.step] at hstep
    split_ifs at hstep with hfree
    cases hstep
    exact h.remove name
  | crash kept lost =>
    obtain ⟨hkept, rfl⟩ := EventSystem.guarded hstep
    exact h.crash hkept lost

end Step

/-! ### Runs -/

/-- A directory with synced files and no calls. -/
theorem sound_start (entries : List (String × Bytes)) : (start entries).Sound where
  fresh := fun i call h => by cases h
  distinct := fun i j call other h => by cases h
  owned := fun i call h => by cases h
  apart := fun i j call other file h => by cases h
  registered := by
    intro name
    refine ⟨0, 0, represents_start rfl ?_, fun i call h => by cases h⟩
    show Holds _ (entries.findIdx? fun entry => decide (entry.1 = name))
      ((entries.find? fun entry => decide (entry.1 = name)).map Prod.snd)
    -- the file of the name, if there is one
    cases hindex : entries.findIdx? fun entry => decide (entry.1 = name) with
    | none =>
      rw [List.findIdx?_eq_none_iff] at hindex
      rw [List.find?_eq_none.mpr fun entry hmem => by simpa using hindex entry hmem]
      rfl
    | some file =>
      obtain ⟨hlt, hname, hmin⟩ := List.findIdx?_eq_some_iff_getElem.mp hindex
      have hfind : (entries.find? fun entry => decide (entry.1 = name)) = some entries[file] := by
        rw [List.find?_eq_some_iff_getElem]
        exact ⟨hname, file, hlt, rfl, fun j hj => by simpa using hmin j hj⟩
      refine ⟨entries[file].2, by rw [hfind, Option.map_some], ?_⟩
      show (entries.map _)[file]? = _
      rw [List.getElem?_map, List.getElem?_eq_getElem hlt, Option.map_some]
  authentic := by
    intro name version i hmem hcall
    rw [List.mem_singleton.mp hmem] at hcall
    cases hcall

/-- The log begins with what was there; behind it come calls and removals. -/
def Rooted (entries : List (String × Bytes)) (s : Directory) : Prop :=
  ∀ name, ∃ later, s.log name =
      ⟨none, (entries.find? fun entry => entry.1 = name).map Prod.snd⟩ :: later ∧
    ∀ version ∈ later, version.call = none → version.contents = none

/-- One more version behind those of the start. -/
theorem Rooted.record {entries : List (String × Bytes)} (h : Rooted entries s) {name : String}
    {version : Version} (hversion : version.call = none → version.contents = none) :
    Rooted entries (s.record name version) := by
  intro searched
  obtain ⟨later, hlog, hlater⟩ := h searched
  by_cases hname : searched = name
  · subst hname
    refine ⟨later ++ [version], by rw [log_record_self, hlog, List.cons_append], ?_⟩
    intro found hmem
    rcases List.mem_append.mp hmem with hmem | hmem
    · exact hlater found hmem
    · exact List.mem_singleton.mp hmem ▸ hversion
  · exact ⟨later, by rw [log_record_other hname, hlog], hlater⟩

/-- The log goes back to the start, and only removals have no call. -/
theorem Rooted.step {entries : List (String × Bytes)} (h : Rooted entries s) {event : Event}
    (hstep : s.step event = some s') : Rooted entries s' := by
  cases event with
  | call name id contents =>
    obtain ⟨-, rfl⟩ : id ∉ s.used ∧ _ = s' := by simpa [Directory.step] using hstep
    exact h
  | operate i operation =>
    rw [Directory.step] at hstep
    cases hcall : s.calls[i]? with
    | none =>
      rw [hcall] at hstep
      cases hstep
    | some call =>
      rw [hcall] at hstep
      -- only a rename adds a version
      cases moves_of_advance hstep with
      | renamed file hmoving =>
        exact Rooted.record (s := { s with disk := _ }) h fun hnone => by cases hnone
      | _ => exact h
  | remove name =>
    rw [Directory.step] at hstep
    split_ifs at hstep with hfree
    cases hstep
    exact Rooted.record (s := { s with disk := _ }) h fun _ => rfl
  | crash kept lost =>
    obtain ⟨-, rfl⟩ := EventSystem.guarded hstep
    exact h

/-- **Atomic and durable writes**: in every run, what is read under a name is a version of it as a
whole, and it is no older than any that was acknowledged. A version is what was there at first, the
contents of a call, or none after a removal. -/
theorem atomic_writes {entries : List (String × Bytes)} {events : List Event}
    (hrun : EventSystem.run step (start entries) events = some s) (name : String) :
    ∃ later place version,
      s.log name = ⟨none, (entries.find? fun entry => entry.1 = name).map Prod.snd⟩ :: later ∧
      (∀ version ∈ later, version.call = none → version.contents = none) ∧
      (∀ version ∈ later, ∀ i, version.call = some i → ∃ call, s.calls[i]? = some call ∧
        call.name = name ∧ version.contents = some call.contents) ∧
      (s.log name)[place]? = some version ∧ s.disk.read (.final name) = version.contents ∧
      ∀ (i : ℕ) (call : Call), s.calls[i]? = some call → call.name = name →
        call.phase = .done (.ok ()) → s.Logged i call place := by
  -- both invariants from the start on
  have hsound : s.Sound :=
    EventSystem.run_keeps Sound (fun _ _ _ h hstep => h.step hstep) (sound_start entries) hrun
  have hrooted : Rooted entries s :=
    EventSystem.run_keeps (Rooted entries) (fun _ _ _ h hstep => h.step hstep)
      (fun _ => ⟨[], rfl, fun _ hmem => absurd hmem List.not_mem_nil⟩) hrun
  obtain ⟨later, hlog, hlater⟩ := hrooted name
  obtain ⟨visible, durable, hrep, hclaims⟩ := hsound.registered name
  -- what is read is the visible version
  have hread := hrep.read_eq
  rw [List.getElem?_map, Option.map_eq_some_iff] at hread
  obtain ⟨version, hversion, hcontents⟩ := hread
  refine ⟨later, visible, version, hlog, hlater, ?_, hversion, hcontents.symm, ?_⟩
  · intro found hmem i hcall
    exact hsound.authentic name found i (hlog ▸ List.mem_cons_of_mem _ hmem) hcall
  -- a call that was acknowledged is at the durable place or before it
  · intro i call hcall hname hdone
    exact Logged.mono (t := s) ((hclaims i call hcall hname).2 hdone) hrep.le List.prefix_rfl

/-- Two calls for one name; the machine crashes between the second rename and the sync of the
directory, and keeps none of the changes. -/
def overlapping : List Event :=
  [.call "journal" 1 [2, 3], .operate 0 (.prepare none), .operate 0 (.create none),
    .operate 0 (.write 1 none), .call "journal" 2 [4], .operate 1 (.prepare none),
    .operate 1 (.create none), .operate 0 (.write 1 none), .operate 0 (.sync none),
    .operate 1 (.write 1 none), .operate 0 (.rename none), .operate 0 (.syncDir none),
    .operate 1 (.sync none), .operate 1 (.rename none), .crash [] fun _ => [9]]

/-- Two overlapping writes and a crash: one of them is read, as a whole. -/
theorem atomic_writes_sample : ∃ s : Directory,
    EventSystem.run step (start [("journal", [1])]) overlapping = some s ∧
      s.disk.read (.final "journal") = some [2, 3] ∧
      ∃ later place version,
        s.log "journal" = ⟨none, some [1]⟩ :: later ∧
        (∀ version ∈ later, version.call = none → version.contents = none) ∧
        (∀ version ∈ later, ∀ i, version.call = some i → ∃ call, s.calls[i]? = some call ∧
          call.name = "journal" ∧ version.contents = some call.contents) ∧
        (s.log "journal")[place]? = some version ∧
        s.disk.read (.final "journal") = version.contents ∧
        ∀ (i : ℕ) (call : Call), s.calls[i]? = some call → call.name = "journal" →
          call.phase = .done (.ok ()) → s.Logged i call place := by
  obtain ⟨s, hrun, hread⟩ :
      ∃ s, EventSystem.run step (start [("journal", [1])]) overlapping = some s ∧
        s.disk.read (.final "journal") = some [2, 3] := ⟨_, rfl, rfl⟩
  exact ⟨s, hrun, hread, atomic_writes hrun "journal"⟩

end Directory

end Storage

end EzvizBridge
