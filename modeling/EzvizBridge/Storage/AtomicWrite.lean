import EzvizBridge.Lib.CrashFs
import EzvizBridge.Lib.EventSystem
import EzvizBridge.Recordings.Model

/-!
# Atomic writes

`atomic_write_json` (`storage.rs`) and `PictureDir::write` (`alarms/pictures.rs`) publish a file in
the same way: a temporary file is created and written, synced and renamed, and then the directory is
synced; a failure removes the temporary file. Here any number of calls do so in one directory at
once, for any names, and `remove_file` takes files away meanwhile. A call is split at its system
calls. Each of them may fail, a write may come in pieces and stop anywhere, and the machine may
crash at any time.

The directory is there and on the disk (`DirBuilder::create` has nothing to do, or fails).
`Uuid::new_v4` returns an id that was never used before. `log` is not in the program: it records
what every name has been bound to, and by which call.
-/

namespace EzvizBridge

namespace Storage

open CrashFs

/-- The names of the directory: files, and the paths of `temporary_path`. -/
inductive Name
  | final (name : String)
  | temporary (name : String) (id : Uuid)
  deriving DecidableEq

/-- How far a call is. -/
inductive Phase
  /-- `DirBuilder::create` is next -/
  | preparing
  /-- the temporary file is opened with `create_new` -/
  | opening
  /-- the rest is written, and then the file is synced -/
  | writing (file : ℕ) (rest : Bytes)
  /-- the file is synced; it is renamed -/
  | moving (file : ℕ)
  /-- renamed; the directory is opened and synced -/
  | publishing
  /-- something has failed; the temporary file is removed -/
  | cleaning (error : BridgeError)
  | done (result : Except BridgeError Unit)
  /-- the machine has crashed -/
  | lost
  deriving DecidableEq

/-- The temporary file of a call. -/
def Phase.file : Phase → Option ℕ
  | .writing file _ | .moving file => some file
  | _ => none

/-- A call of `atomic_write_json` or `PictureDir::write`, behind its checks. -/
structure Call where
  name : String
  id : Uuid
  contents : Bytes
  phase : Phase := .preparing
  deriving DecidableEq

/-- `temporary_path`. -/
def Call.temporary (self : Call) : Name := .temporary self.name self.id

/-- What a name was bound to: the call that did so, if it was one, and the contents, if any. -/
structure Version where
  call : Option ℕ
  contents : Option Bytes
  deriving DecidableEq

/-- A directory and the calls that work in it. -/
structure Directory where
  disk : Disk Name Bytes := {}
  calls : List Call := []
  /-- every id that `Uuid::new_v4` has returned -/
  used : List Uuid := []
  log : String → List Version

/-- A system call, and how it ends. -/
inductive Operation
  | prepare (fault : Option String)
  | create (fault : Option String)
  /-- some bytes of the rest are written; the value may not be serializable -/
  | write (count : ℕ) (fault : Option BridgeError)
  | sync (fault : Option String)
  | rename (fault : Option String)
  | syncDir (fault : Option String)
  /-- `remove_file` of the temporary file, whose end is ignored -/
  | cleanUp (removed : Bool)

/-- What can happen. -/
inductive Event
  | call (name : String) (id : Uuid) (contents : Bytes)
  | operate (i : ℕ) (operation : Operation)
  /-- `remove_file` of a file -/
  | remove (name : String)
  /-- the changes of the directory that are kept, and what is left in files that were not synced -/
  | crash (kept : List (Change Name)) (lost : ℕ → Bytes)

/-- A call of `atomic_write_json`: the value as `serde_json::to_writer` writes it, and a newline. -/
def atomicWriteJson (name : String) (id : Uuid) (json : Bytes) :
    Event := .call name id (json ++ [0x0a])

/-- A call of `PictureDir::write` that has passed its checks. -/
def writePicture (alarm : String) (id : Uuid) (jpeg : Bytes) :
    Event := .call (alarm ++ ".jpg") id jpeg

namespace Directory

variable (self : Directory)

/-- A directory with the given files on the disk. -/
def start (entries : List (String × Bytes)) : Directory where
  disk :=
    { files := entries.map fun entry => { contents := entry.2, synced := true }
      stable := fun name =>
        match name with
        | .final name => entries.findIdx? fun entry => entry.1 = name
        | .temporary _ _ => none }
  log := fun name => [⟨none, (entries.find? fun entry => entry.1 = name).map Prod.snd⟩]

def goto (i : ℕ) (call : Call) (phase : Phase) : Directory :=
  { self with calls := self.calls.set i { call with phase } }

/-- A name is bound to something else. -/
def record (name : String) (version : Version) : Directory :=
  { self with log := Function.update self.log name (self.log name ++ [version]) }

/-- The next system call of a call. -/
def advance (i : ℕ) (call : Call) : Phase → Operation → Option Directory
  | .preparing, .prepare none => some (self.goto i call .opening)
  | .preparing, .prepare (some detail) => some (self.goto i call (.done (.error (.io detail))))
  | .opening, .create none =>
    -- `create_new`
    if self.disk.table call.temporary = none then
      some
        ({ self with disk := self.disk.create call.temporary [] }.goto i call
          (.writing self.disk.files.length call.contents))
    else none
  | .opening, .create (some detail) => some (self.goto i call (.cleaning (.io detail)))
  | .writing file rest, .write count fault =>
    let written := { self with disk := self.disk.write file (· ++ rest.take count) }
    match fault with
    | none => some (written.goto i call (.writing file (rest.drop count)))
    | some error => some (written.goto i call (.cleaning error))
  | .writing file rest, .sync none =>
    if rest = [] then
      some ({ self with disk := self.disk.syncFile file }.goto i call (.moving file))
    else none
  | .writing _ rest, .sync (some detail) =>
    if rest = [] then some (self.goto i call (.cleaning (.io detail))) else none
  | .moving file, .rename none =>
    if self.disk.table call.temporary = some file then
      some
        (({ self with
            disk := self.disk.change (.move call.temporary (.final call.name) file) }.record
          call.name ⟨some i, some call.contents⟩).goto i call .publishing)
    else none
  | .moving _, .rename (some detail) => some (self.goto i call (.cleaning (.io detail)))
  | .publishing, .syncDir none =>
    some ({ self with disk := self.disk.syncDir }.goto i call (.done (.ok ())))
  | .publishing, .syncDir (some detail) => some (self.goto i call (.cleaning (.io detail)))
  | .cleaning error, .cleanUp removed =>
    let disk :=
      if removed = true ∧ self.disk.table call.temporary ≠ none then
        self.disk.change (.unbind call.temporary)
      else self.disk
    some ({ self with disk }.goto i call (.done (.error error)))
  | _, _ => none

/-- What a crash leaves of a call. -/
def interrupt (call : Call) : Call :=
  match call.phase with
  | .done _ => call
  | _ => { call with phase := .lost }

/-- One event; `none` when it cannot happen in this state. -/
def step : Event → Option Directory
  | .call name id contents =>
    if id ∈ self.used then none
    else
      some { self with
        calls := self.calls ++ [{ name, id, contents }]
        used := self.used ++ [id] }
  | .operate i operation =>
    match self.calls[i]? with
    | none => none
    | some call => self.advance i call call.phase operation
  | .remove name =>
    if self.disk.table (.final name) = none then none
    else
      some
        ({ self with disk := self.disk.change (.unbind (.final name)) }.record name ⟨none, none⟩)
  | .crash kept lost =>
    -- any of the changes that were not synced may be kept
    if ∀ change ∈ kept, change ∈ self.disk.pending then
      some { self with disk := self.disk.crash kept lost, calls := self.calls.map interrupt }
    else none

end Directory

end Storage

end EzvizBridge
