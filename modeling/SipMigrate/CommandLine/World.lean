import SipMigrate.CommandLine.Address
import SipMigrate.Executor.Database
import SipMigrate.Files.Content
import SipMigrate.Files.Shortened
import SipMigrate.Hash.Key
import SipMigrate.Migration.Discovery
import SipMigrate.Migration.Runner

/-! What commands work on: files, databases in files, a clock and a source of keys. Changes
that another program left in a journal or a log beside a database are recovered when it is
opened; how is up to the world. -/

namespace SipMigrate.CommandLine

open Files Hash Migration Sql

/-! ### Beside databases -/

/-- Beside a database a journal of its changes is kept while it changes. -/
def journalPlace (p : Place) : Place := Tree.beside p "-journal"

/-- Beside a database there may be a log of changes yet to be made. -/
def logPlace (p : Place) : Place := Tree.beside p "-wal"

/-- Whether a file that is not empty stands at a place. -/
def isFilled (files : FileTree) (p : Place) : Bool :=
  match files.node? p with
  | some (.file c) => !c.toBytes.isEmpty
  | _ => false

/-- Whether changes were left beside a database, in a journal to be undone or in a log to be
made. -/
def hasLeftover (files : FileTree) (p : Place) : Bool :=
  isFilled files (journalPlace p) || isFilled files (logPlace p)

/-- What a database is found to hold once it has been recovered, or what keeps it from being
read, and the files then. -/
structure Recovery where
  database : Except Cause Database
  files : FileTree

/-- The database in a file as it stands. -/
def storedDatabase (c : Content) : Except Cause Database :=
  c.database?.elim (.error .notADatabase) .ok

/-- What was left beside a database is taken away and says nothing about it. -/
def Recovery.discard (p : Place) (files : FileTree) : Recovery where
  database :=
    match files.node? p with
    | some (.file c) => storedDatabase c
    | _ => .error .readFailure
  files := (files.remove (journalPlace p)).remove (logPlace p)

structure World where
  files : FileTree
  /-- The completion times of the steps of a run. -/
  completedAt : Nat → UInt64
  freshKey : Key
  /-- How the database at an address and its place is recovered from what was left beside it.
  The formats of journals and logs are not modelled. -/
  recover : Address → Place → FileTree → Recovery

namespace World

def surroundings (w : World) : Surroundings := ⟨w.files.readText, w.completedAt⟩

def steps (w : World) (directory : String) : Except MigrationError (List Step) :=
  discover directory (w.files.readDirectory directory)

end World

/-! ### Databases in files -/

/-- What a database answers its calls with. -/
inductive Handle
  | sound (c : Connection)
  /-- Every call fails. -/
  | refusing (cause : Cause)

/-- A database that has been opened. -/
structure OpenDatabase where
  handle : Handle
  /-- Where it is stored, unless it lives as long as its connection. -/
  place : Option Place
  files : FileTree

/-- Whether no journal can be kept. -/
def isUnrecorded (files : FileTree) (p : Place) : Bool :=
  files.isDirectory (journalPlace p) || (files.look (journalPlace p)) matches .error .nameTooLong

def accessTo (files : FileTree) (a : Address) (p : Place) : Access :=
  if a.isReadOnly then .readOnly else if isUnrecorded files p then .unrecorded else .full

def Handle.ofDatabase (access : Access) : Except Cause Database → Handle
  | .ok d => .sound { Connection.start d with access := access }
  | .error cause => .refusing cause

/-- The database in a file beside which no changes were left. Directories in the places of the
journal and the log are in the way, unless the database never changes. -/
def settledDatabase (files : FileTree) (a : Address) (p : Place) (c : Content) :
    Except Cause Database :=
  if a.isFixed then storedDatabase c
  else if files.isDirectory (journalPlace p) && !c.isBlank then .error .readFailure
  else if files.isDirectory (logPlace p) then
    .error (if c.isBlank then .removalFailure else .cannotOpenCompanion)
  else storedDatabase c

/-- Opens the database in a file. Changes that were left are seen to first, unless the database
never changes. -/
def openFile (w : World) (files : FileTree) (a : Address) (p : Place) (c : Content) :
    OpenDatabase :=
  if !a.isFixed && hasLeftover files p then
    let r := w.recover a p files
    ⟨.ofDatabase (accessTo r.files a p) r.database, some p, r.files⟩
  else ⟨.ofDatabase (accessTo files a p) (settledDatabase files a p c), some p, files⟩

/-- Opens the database at a place, if what leads there exists. -/
def openPlace (w : World) (a : Address) (p : Place) : Option OpenDatabase :=
  match w.files.look p, w.files.node? p with
  | .error _, _ => none
  | .ok _, some (.file c) => some (openFile w w.files a p c)
  | .ok _, some .directory =>
    if a.mode = .reading then some ⟨.refusing .readFailure, some p, w.files⟩ else none
  | .ok _, none =>
    if a.mode = .making then
      some (openFile w (w.files.set p (.file (.bytes []))) a p (.bytes []))
    else none

/-- Opens the database at an address. -/
def openDatabase (w : World) (text : String) : Except SqlError OpenDatabase := do
  let a ← (Address.ofText text).mapError .failure
  if a.isPassing then
    let access := if a.isReadOnly then .readOnly else .full
    return ⟨.sound { Connection.start .empty with access := access }, none, w.files⟩
  else
    match w.files.shortened a.path with
    | .error _ => throw (.failure (.cannotOpen text))
    | .ok p =>
      match openPlace w a p with
      | some o => return o
      | none => throw (.failure (.cannotOpen text))

/-- Asks a database; the transaction that is left open is lost. The files keep
what has been changed. -/
def OpenDatabase.ask {α : Type} (o : OpenDatabase) (f : {σ : Type} → Executor σ → Run σ α) :
    Except MigrationError α × FileTree :=
  match o.handle with
  | .refusing cause =>
    (((f (Executor.refusing (.database (.failure cause)))).run ()).1, o.files)
  | .sound c =>
    let (r, after) := (f Executor.database).run c
    match o.place with
    | some p =>
      if after.committed = c.committed then (r, o.files)
      else (r, o.files.set p (.file (.database after.committed)))
    | none => (r, o.files)

end SipMigrate.CommandLine
