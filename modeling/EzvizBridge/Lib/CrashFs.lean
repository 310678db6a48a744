import Mathlib.Data.List.Basic
import Mathlib.Logic.Function.Basic

/-!
# A directory on a disk that may crash

Programs see the files and the directory as they have made them. The disk has a file's contents only
after the file was synced, and the changes of the directory only after the directory was. A crash
keeps any of the changes that were not synced, in any order, and leaves anything in a file that was
not synced.

A name of the directory is read as a *register* (`Register`): the versions it has had, the one that
is visible, and the one that is durable, behind which no crash goes back. `Represents` says that the
disk implements it, and there is one rule for each operation:

* `Represents.create`, `Represents.write`, `Represents.syncFile` — work on a file that no name
  shows;
* `Represents.change_other` — a change of another name;
* `Represents.publish` — the name is bound to a synced file, or to none;
* `Represents.syncDir` — the visible version becomes durable;
* `Represents.crash` — one of the versions since the durable one becomes visible and durable.
-/

namespace CrashFs

variable {N C : Type}

/-- A file: what programs see of it, and whether the disk has it. -/
structure File (C : Type) where
  contents : C
  synced : Bool := false
  deriving DecidableEq

/-- A change of the directory. -/
inductive Change (N : Type)
  /-- a new file -/
  | bind (name : N) (file : ℕ)
  /-- a file under a new name, which may have had another file -/
  | move (old new : N) (file : ℕ)
  | unbind (name : N)
  deriving DecidableEq

/-- A directory and its files. -/
structure Disk (N C : Type) where
  files : List (File C) := []
  /-- the directory as the disk has it -/
  stable : N → Option ℕ := fun _ => none
  /-- the changes since the directory was synced, oldest first -/
  pending : List (Change N) := []

section Changes

variable [DecidableEq N]

/-- The directory after a change. -/
def Change.apply (table : N → Option ℕ) : Change N → N → Option ℕ
  | .bind name file => Function.update table name (some file)
  | .move old new file => Function.update (Function.update table old none) new (some file)
  | .unbind name => Function.update table name none

/-- What a change binds a name to, if it touches the name. -/
def Change.binding (name : N) : Change N → Option (Option ℕ)
  | .bind bound file => if name = bound then some (some file) else none
  | .move old new file =>
    if name = new then some (some file) else if name = old then some none else none
  | .unbind gone => if name = gone then some none else none

theorem Change.apply_eq (table : N → Option ℕ) (change : Change N) (name : N) :
    change.apply table name = (change.binding name).getD (table name) := by
  cases change with
  | bind bound file =>
    by_cases h : name = bound <;> simp [Change.apply, Change.binding, h]
  | move old new file =>
    simp only [Change.apply, Change.binding, Function.update_apply]
    split_ifs <;> rfl
  | unbind gone =>
    by_cases h : name = gone <;> simp [Change.apply, Change.binding, h]

/-- What a list of changes makes of a name is what one of them binds it to, or what it was. -/
theorem foldl_apply_cases (changes : List (Change N)) (table : N → Option ℕ) (name : N) :
    changes.foldl Change.apply table name = table name ∨
      ∃ change ∈ changes, change.binding name = some (changes.foldl Change.apply table name) := by
  induction changes generalizing table with
  | nil => exact .inl rfl
  | cons change changes ih =>
    rw [List.foldl_cons]
    rcases ih (change.apply table) with h | ⟨later, hlater, hbinding⟩
    · -- the later changes leave the name alone
      rw [h, Change.apply_eq]
      rcases hb : change.binding name with _ | bound
      · exact .inl rfl
      · exact .inr ⟨change, List.mem_cons_self, hb⟩
    · exact .inr ⟨later, List.mem_cons_of_mem _ hlater, hbinding⟩

end Changes

namespace Disk

variable [DecidableEq N] (d : Disk N C)

/-- The directory as programs see it. -/
def table : N → Option ℕ := d.pending.foldl Change.apply d.stable

/-- The contents of the file under a name. -/
def read (name : N) : Option C :=
  (d.table name).bind fun file => d.files[file]?.map File.contents

/-! ### Operations -/

/-- A new file under a name. -/
def create (name : N) (contents : C) : Disk N C :=
  { d with files := d.files ++ [{ contents }], pending := d.pending ++ [.bind name d.files.length] }

/-- Change the contents of a file. -/
def write (file : ℕ) (f : C → C) : Disk N C :=
  { d with files := d.files.modify file fun old => { contents := f old.contents } }

def syncFile (file : ℕ) : Disk N C :=
  { d with files := d.files.modify file fun old => { old with synced := true } }

def change (change : Change N) : Disk N C := { d with pending := d.pending ++ [change] }

def syncDir : Disk N C := { d with stable := d.table, pending := [] }

/-- A crash that keeps some of the changes, and leaves `lost` in the files that were not synced. -/
def crash (kept : List (Change N)) (lost : ℕ → C) : Disk N C where
  files := d.files.mapIdx fun i file => if file.synced then
    file else { contents := lost i, synced := true }
  stable := kept.foldl Change.apply d.stable

@[simp] theorem table_create (name : N) (contents : C) :
    (d.create name contents).table = (Change.bind name d.files.length).apply d.table := by
  simp [table, create, List.foldl_append]

@[simp] theorem table_change (c : Change N) : (d.change c).table = c.apply d.table := by
  simp [table, change, List.foldl_append]

end Disk

/-! ### Registers -/

/-- A register: all versions, oldest first, none where there is no file; the places of the visible
and of the durable one. -/
structure Register (C : Type) where
  versions : List (Option C)
  visible : ℕ
  durable : ℕ

namespace Register

variable (r : Register C)

/-- A register with one version. -/
def start (contents : Option C) : Register C := ⟨[contents], 0, 0⟩

def publish (version : Option C) : Register C :=
  { r with versions := r.versions ++ [version], visible := r.versions.length }

def secure : Register C := { r with durable := r.visible }

/-- A version is back. -/
def fallBack (place : ℕ) : Register C := { r with visible := place, durable := place }

end Register

/-- The disk has the contents of the file. -/
def Disk.Has (d : Disk N C) (file : ℕ) (contents : C) :
    Prop := d.files[file]? = some ⟨contents, true⟩

/-- The binding stands for the version, and the disk has it. -/
def Holds (d : Disk N C) : Option ℕ → Option C → Prop
  | none, version => version = none
  | some file, version => ∃ contents, version = some contents ∧ d.Has file contents

/-- The disk implements the register under a name. -/
structure Represents [DecidableEq N] (d : Disk N C) (name : N) (r : Register C) : Prop where
  visible : ∃ version, r.versions[r.visible]? = some version ∧ Holds d (d.table name) version
  durable : ∃ version, r.versions[r.durable]? = some version ∧ Holds d (d.stable name) version
  le : r.durable ≤ r.visible
  /-- a change that a crash may keep binds the name to a later version -/
  pending : ∀ change ∈ d.pending, ∀ bound, change.binding name = some bound →
    ∃ place version, r.durable < place ∧ r.versions[place]? = some version ∧ Holds d bound version

section Rules

variable {d : Disk N C} {name : N} {r : Register C}

/-- Synced files stay. -/
theorem Holds.mono {d' : Disk N C} {bound : Option ℕ} {version : Option C}
    (h : Holds d bound version)
    (hfiles : ∀ file contents, d.Has file contents → d'.Has file contents) :
    Holds d' bound version := by
  cases bound with
  | none => exact h
  | some file =>
    obtain ⟨contents, hversion, hfile⟩ := h
    exact ⟨contents, hversion, hfiles file contents hfile⟩

variable [DecidableEq N]

theorem represents_start {contents : Option C} (hpending : d.pending = [])
    (h : Holds d (d.stable name) contents) : Represents d name (.start contents) where
  visible := ⟨contents, rfl, by rwa [Disk.table, hpending]⟩
  durable := ⟨contents, rfl, h⟩
  le := Nat.le_refl 0
  pending := by
    rw [hpending]
    exact fun _ hmem => absurd hmem List.not_mem_nil

/-- What is read is the visible version. -/
theorem Represents.read_eq (h : Represents d name r) :
    r.versions[r.visible]? = some (d.read name) := by
  obtain ⟨version, hversion, hholds⟩ := h.visible
  rw [hversion, Disk.read]
  cases htable : d.table name with
  | none =>
    rw [htable] at hholds
    rw [show version = none from hholds, Option.bind_none]
  | some file =>
    rw [htable] at hholds
    obtain ⟨contents, rfl, hfile⟩ := hholds
    rw [Option.bind_some, show d.files[file]? = _ from hfile, Option.map_some]

theorem Represents.visible_lt (h : Represents d name r) : r.visible < r.versions.length := by
  obtain ⟨version, hversion, -⟩ := h.visible
  exact (List.getElem?_eq_some_iff.mp hversion).1

/-- The files change, the directory does not. -/
theorem Represents.files {d' : Disk N C} (h : Represents d name r) (hstable : d'.stable = d.stable)
    (hpending : d'.pending = d.pending)
    (hfiles : ∀ file contents, d.Has file contents → d'.Has file contents) :
    Represents d' name r where
  visible := by
    obtain ⟨version, hversion, hholds⟩ := h.visible
    have htable : d'.table = d.table := by rw [Disk.table, Disk.table, hstable, hpending]
    exact ⟨version, hversion, htable ▸ hholds.mono hfiles⟩
  durable := by
    obtain ⟨version, hversion, hholds⟩ := h.durable
    exact ⟨version, hversion, hstable ▸ hholds.mono hfiles⟩
  le := h.le
  pending := by
    intro change hmem bound hbound
    obtain ⟨place, version, hplace, hversion, hholds⟩ :=
      h.pending change (hpending ▸ hmem) bound hbound
    exact ⟨place, version, hplace, hversion, hholds.mono hfiles⟩

/-- A file that is not synced is written. -/
theorem Represents.write (h : Represents d name r) {file : ℕ} {old : File C} (f : C → C)
    (hfile : d.files[file]? = some old) (hsynced : old.synced = false) :
    Represents (d.write file f) name r := by
  refine h.files rfl rfl fun other contents hother => ?_
  have hne : file ≠ other := by
    rintro rfl
    rw [Disk.Has, hfile, Option.some.injEq] at hother
    rw [hother] at hsynced
    exact Bool.noConfusion hsynced
  show (d.files.modify file _)[other]? = _
  rw [List.getElem?_modify, show d.files[other]? = _ from hother]
  simp [hne]

theorem Represents.syncFile (h : Represents d name r) (file : ℕ) :
    Represents (d.syncFile file) name r := by
  refine h.files rfl rfl fun other contents hother => ?_
  rw [Disk.Has, Disk.syncFile, List.getElem?_modify, hother]
  by_cases heq : file = other <;> simp [heq]

/-- A change that does not touch the name. -/
theorem Represents.change_other (h : Represents d name r) {c : Change N}
    (hother : c.binding name = none) : Represents (d.change c) name r where
  visible := by
    obtain ⟨version, hversion, hholds⟩ := h.visible
    refine ⟨version, hversion, ?_⟩
    rwa [Disk.table_change, Change.apply_eq, hother]
  durable := h.durable
  le := h.le
  pending := by
    intro change hmem bound hbound
    rcases List.mem_append.mp hmem with hmem | hmem
    · exact h.pending change hmem bound hbound
    · rw [List.mem_singleton.mp hmem, hother] at hbound
      cases hbound

/-- A new file under another name. -/
theorem Represents.create (h : Represents d name r) {fresh : N} (hne : name ≠ fresh)
    (contents : C) :
    Represents (d.create fresh contents) name r := by
  have hchange : Represents (d.change (.bind fresh d.files.length)) name r :=
    h.change_other (by rw [Change.binding, if_neg hne])
  refine hchange.files rfl rfl fun file old hfile => ?_
  -- the new file comes behind the others
  have hold : d.Has file old := hfile
  show (d.files ++ [_])[file]? = _
  rw [List.getElem?_append_left (List.getElem?_eq_some_iff.mp hold).1]
  exact hold

/-- **Publication**: the name is bound to a synced file, or to none. -/
theorem Represents.publish (h : Represents d name r) {c : Change N} {bound : Option ℕ}
    {version : Option C} (hbound : c.binding name = some bound) (hholds : Holds d bound version) :
    Represents (d.change c) name (r.publish version) := by
  have hlt := h.visible_lt
  have hle := h.le
  -- a version that was there is still there
  have hold : ∀ {place : ℕ} {old : Option C}, r.versions[place]? = some old →
      (r.publish version).versions[place]? = some old := by
    intro place old hplace
    show (r.versions ++ [version])[place]? = _
    rw [List.getElem?_append_left (List.getElem?_eq_some_iff.mp hplace).1]
    exact hplace
  have hnew : (r.publish version).versions[r.versions.length]? = some version :=
    List.getElem?_concat_length
  exact
    { visible := ⟨version, hnew, by rwa [Disk.table_change, Change.apply_eq, hbound]⟩
      durable := by
        obtain ⟨old, hversion, hstable⟩ := h.durable
        exact ⟨old, hold hversion, hstable⟩
      le := by
        show r.durable ≤ r.versions.length
        omega
      pending := by
        intro change hmem b hb
        rcases List.mem_append.mp hmem with hmem | hmem
        · obtain ⟨place, old, hplace, hversion, hpending⟩ := h.pending change hmem b hb
          exact ⟨place, old, hplace, hold hversion, hpending⟩
        · rw [List.mem_singleton.mp hmem, hbound, Option.some.injEq] at hb
          refine ⟨r.versions.length, version, ?_, hnew, hb ▸ hholds⟩
          show r.durable < r.versions.length
          omega }

theorem Represents.syncDir (h : Represents d name r) : Represents d.syncDir name r.secure where
  visible := h.visible
  durable := h.visible
  le := Nat.le_refl _
  pending := fun _ hmem => absurd hmem List.not_mem_nil

/-- **A crash**: what is there afterwards is a version, and it is not older than the durable one. -/
theorem Represents.crash (h : Represents d name r) {kept : List (Change N)}
    (hkept : ∀ change ∈ kept, change ∈ d.pending) (lost : ℕ → C) :
    ∃ place, r.durable ≤ place ∧ Represents (d.crash kept lost) name (r.fallBack place) := by
  have hsynced : ∀ file contents, d.Has file contents → (d.crash kept lost).Has file contents := by
    intro file contents hfile
    rw [Disk.Has, Disk.crash, List.getElem?_mapIdx, hfile]
    rfl
  -- what the kept changes make of the name
  have hbinding : ∃ place version, r.durable ≤ place ∧ r.versions[place]? = some version ∧
      Holds d (kept.foldl Change.apply d.stable name) version := by
    rcases foldl_apply_cases kept d.stable name with heq | ⟨change, hmem, hbound⟩
    · obtain ⟨version, hversion, hholds⟩ := h.durable
      exact ⟨r.durable, version, Nat.le_refl _, hversion, heq ▸ hholds⟩
    · obtain ⟨place, version, hplace, hversion, hholds⟩ :=
        h.pending change (hkept change hmem) _ hbound
      exact ⟨place, version, Nat.le_of_lt hplace, hversion, hholds⟩
  obtain ⟨place, version, hplace, hversion, hholds⟩ := hbinding
  exact ⟨place, hplace,
    { visible := ⟨version, hversion, hholds.mono hsynced⟩
      durable := ⟨version, hversion, hholds.mono hsynced⟩
      le := Nat.le_refl place
      pending := fun _ hmem => absurd hmem List.not_mem_nil }⟩

end Rules

end CrashFs
