import SipMigrate.CommandLine.Output
import SipMigrate.CommandLine.World
import SipMigrate.Hash.Reader

/-! Running a command. A command prints its output at the end, so one that
fails prints nothing but its error. -/

namespace SipMigrate.CommandLine

open Text Files Hash Migration

inductive CommandError
  | databaseNotFound (path : String)
  | hash (cause : HashError)
  | file (cause : FileError)
  | migration (cause : MigrationError)
  | database (cause : Sql.SqlError)
deriving DecidableEq, Repr

def CommandError.form : CommandError → String
  | databaseNotFound path => Form.applied "DatabaseNotFound" [quoted path]
  | hash cause => cause.form
  | file cause => cause.form
  | migration cause => cause.form
  | database cause => (Executor.ExecutorError.database cause).form

/-- The output or the error of a command, and the files after it. -/
structure Result where
  output : Except CommandError String
  files : FileTree

/-! ### Hashing -/

/-- A file is opened first and read then; a directory can only be opened. -/
def hashFile (w : World) (h : Hasher) (path : String) : Except CommandError Digest :=
  match w.files.find path with
  | .error e => .error (.file e)
  | .ok .directory => (h.hashReads [.failed .isADirectory]).mapError .hash
  | .ok (.file c) => (h.hashReads [.data c.toBytes]).mapError .hash

def hashOf (w : World) (h : Hasher) (foldCase : Bool) : HashInput → Except CommandError Digest
  | .text s => .ok (h.hashText s foldCase)
  | .file path => hashFile w h path
  | .number n => .ok (h.hashInt64 n)

def runHash (w : World) (key : String) (input : HashInput) (foldCase : Bool)
    (format : DigestFormat) : Except CommandError String := do
  let k ← (Key.ofHex key).mapError .hash
  let d ← hashOf w (Hasher.ofKey k) foldCase input
  return digestText d format ++ "\n"

/-! ### Migrations -/

/-- Opens a database, which may make a file for it, and asks it. A computation can also depend
on the files that are there once the database is open. -/
def askDatabase {α : Type} (w : World) (database : String)
    (f : FileTree → {σ : Type} → Executor σ → Run σ α) (text : α → String) : Result :=
  match openDatabase w database with
  | .error e => ⟨.error (.database e), w.files⟩
  | .ok o =>
    let (r, files) := o.ask (f o.files)
    ⟨(r.mapError .migration).map text, files⟩

/-- Lists what a run would apply; a database that is missing is not made. -/
def dryRun (w : World) (database : String) (t : TableName) (steps : List Step) : Result :=
  if w.files.hasPath database then
    askDatabase w database (fun _ _ x => pending x t steps) fun due => unlines (dryRunLines due)
  else ⟨.ok (unlines (dryRunLines steps)), w.files⟩

/-- Applies steps to the database in a file. -/
def applyTo (w : World) (database : String) (t : TableName) (steps : List Step) : Result :=
  askDatabase w database (fun _ _ x => apply x t w.surroundings steps) fun report =>
    unlines (reportLines report)

/-- The name of the table is looked at first, then the directory. -/
def runMigrations (w : World) (database directory table : String) (dry : Bool) : Result :=
  match TableName.ofString table with
  | .error e => ⟨.error (.migration e), w.files⟩
  | .ok t =>
    match w.steps directory with
    | .error e => ⟨.error (.migration e), w.files⟩
    | .ok steps => if dry then dryRun w database t steps else applyTo w database t steps

/-- Looks at the control table first and at the directory then. -/
def lookAt (w : World) (t : TableName) (directory : Option String) {σ : Type} (x : Executor σ) :
    Run σ (Status × Option (List Step)) := do
  let s ← status x t
  match directory with
  | none => return (s, none)
  | some d =>
    let steps ← Run.ofExcept (w.steps d)
    return (s, some (← pending x t steps))

def showStatus (w : World) (database : String) (directory : Option String) (table : String)
    (format : StatusFormat) : Result :=
  if w.files.hasPath database then
    match TableName.ofString table with
    | .error e => ⟨.error (.migration e), w.files⟩
    | .ok t =>
      askDatabase w database (fun files _ x => lookAt { w with files := files } t directory x)
        fun (s, steps) => statusText s steps format
  else ⟨.error (.databaseNotFound database), w.files⟩

/-! ### Commands -/

def Command.run (w : World) : Command → Result
  | .hash key input foldCase format => ⟨runHash w key input foldCase format, w.files⟩
  | .keygen => ⟨.ok (w.freshKey.hex ++ "\n"), w.files⟩
  | .migrate database directory table dry => runMigrations w database directory table dry
  | .status database directory table format => showStatus w database directory table format
  | .version => ⟨.ok (unlines versionLines), w.files⟩

/-- What a call of the program leaves behind. The texts of help are left out. -/
structure Outcome where
  exit : Nat
  output : String
  /-- The line that tells the error. -/
  error : Option String
  files : FileTree

def Result.outcome (r : Result) : Outcome :=
  match r.output with
  | .ok text => ⟨0, text, none, r.files⟩
  | .error e => ⟨1, "", some ("Error: " ++ e.form), r.files⟩

def runArguments (w : World) (arguments : List String) : Outcome :=
  match Command.ofArguments arguments with
  | .ok c => (c.run w).outcome
  | .error .help => ⟨0, "", none, w.files⟩
  | .error .version => ⟨0, unlines [versionLine], none, w.files⟩
  | .error .refused => ⟨2, "", none, w.files⟩

end SipMigrate.CommandLine
