import SipMigrate.Files.Error
import SipMigrate.Migration.Config
import SipMigrate.Migration.ControlTable
import SipMigrate.Migration.Script

/-! Running migrations. Every step above the current version runs in a
transaction of its own: its row goes into the control table, its statements are
executed, the row gets its completion time, and the transaction is committed.
The first failure undoes its step and ends the run. -/

namespace SipMigrate.Migration

open Executor Files

/-- What a run needs besides a database: the texts of files, and for each step
that it applies, counted from zero, the time of its completion. -/
structure Surroundings where
  read : String → Except FileError String
  completedAt : Nat → UInt64

structure Report where
  applied : List Version
  /-- The number of steps that were applied before. -/
  skipped : Nat
  statements : Nat
  finalVersion : Version
deriving DecidableEq, Repr

structure Status where
  current : Version
  locked : Option Version
  applied : Nat
deriving DecidableEq, Repr

def Status.isLocked (s : Status) : Bool := s.locked.isSome

/-- The statements of a step's script. -/
def Step.load (read : String → Except FileError String) (s : Step) :
    Except MigrationError (List String) :=
  match read s.file with
  | .ok text => .ok (Script.statements text)
  | .error cause => .error (.fileRead s.version s.file cause)

/-! ### Computations that ask an executor -/

/-- A computation that asks an executor with states in `σ`. -/
abbrev Run (σ : Type) := ExceptT MigrationError (StateM σ)

variable {σ α : Type}

def Run.ofExcept (r : Except MigrationError α) : Run σ α := ExceptT.mk (pure r)

/-- Asks for an answer without which the run fails. -/
def demand (x : Executor σ) (c : Call) : Run σ c.Answer :=
  ExceptT.mk fun s =>
    match x.answer c s with
    | (.ok a, s) => (.ok a, s)
    | (.error e, s) => (.error (.executor e), s)

/-- Asks and goes on whatever the answer is. -/
def attempt (x : Executor σ) (c : Call) : StateM σ Unit := fun s => ((), (x.answer c s).2)

/-- Cleans up after a failure, which stays. -/
def Run.cleaning (r : Run σ α) (clean : StateM σ Unit) : Run σ α :=
  ExceptT.mk fun s =>
    match r.run s with
    | (.ok a, s) => (.ok a, s)
    | (.error e, s) => (.error e, (clean s).2)

/-! ### Looking at the control table -/

def outOfRange (n : Int) : MigrationError :=
  .executor (.driver ("control table holds out-of-range version " ++ toString n))

def versionOfInt (n : Int) : Except MigrationError Version :=
  if 0 ≤ n ∧ n < 65536 then .ok (UInt16.ofNat n.toNat) else .error (outOfRange n)

def ensureTable (x : Executor σ) (t : TableName) : Run σ Unit :=
  demand x (.execute (ControlTable.create t.text))

/-- The highest completed version, zero if there is none. -/
def currentVersion (x : Executor σ) (t : TableName) : Run σ Version := do
  match ← demand x (.query (ControlTable.selectCurrent t.text)) with
  | some n => Run.ofExcept (versionOfInt n)
  | none => return 0

/-- The lowest version in flight. -/
def lockedVersion (x : Executor σ) (t : TableName) : Run σ (Option Version) := do
  match ← demand x (.query (ControlTable.selectLock t.text)) with
  | some n => Run.ofExcept ((versionOfInt n).map some)
  | none => return none

/-- Looks at the control table; a table that is missing has nothing applied. -/
def status (x : Executor σ) (t : TableName) : Run σ Status := do
  if ← demand x (.tableExists t.text) then
    let count ← demand x (.query (ControlTable.selectCount t.text))
    let current ← currentVersion x t
    let locked ← lockedVersion x t
    return ⟨current, locked, (count.getD 0).toNat⟩
  else
    return ⟨0, none, 0⟩

/-- The steps that are yet to be applied. -/
def pending (x : Executor σ) (t : TableName) (steps : List Step) : Run σ (List Step) := do
  let s ← status x t
  return steps.filter fun step => s.current < step.version

/-! ### Applying steps -/

/-- Removes the row of a step and rolls the step back. -/
def abandon (x : Executor σ) (t : TableName) (r : Record) : StateM σ Unit := do
  attempt x (.execute (ControlTable.delete t.text r))
  attempt x .rollback

/-- Executes statements up to the first failure, which names its statement. -/
def executeAll (x : Executor σ) (r : Record) : List String → Run σ Unit
  | [] => return ()
  | sql :: rest => do
    ExceptT.mk fun s =>
      match x.answer (.execute sql) s with
      | (.ok (), s) => (.ok (), s)
      | (.error e, s) => (.error (.statement r.version r.file sql e), s)
    executeAll x r rest

/-- Runs one step and tells the number of its statements. -/
def applyStep (x : Executor σ) (t : TableName) (w : Surroundings) (time : UInt64) (s : Step) :
    Run σ Nat := do
  let statements ← Run.ofExcept (s.load w.read)
  let row := Record.inFlight s
  demand x .begin
  (demand x (.execute (ControlTable.insert t.text row))).cleaning (attempt x .rollback)
  (executeAll x row statements).cleaning (abandon x t row)
  (demand x (.execute (ControlTable.update t.text (row.complete time)))).cleaning (abandon x t row)
  (demand x .commit).cleaning (attempt x .rollback)
  return statements.length

/-- Whether a version is to be applied, or was applied before. Versions are at
least one and ascend, and none above the current version is left out. -/
def isDue (current : Version) (previous : Option Version) (v : Version) :
    Except MigrationError Bool :=
  if v = 0 then .error (.nonContiguous 1 0)
  else
    match previous with
    | some p => if v ≤ p then .error (.nonContiguous (Version.next p) v) else isNext
    | none => isNext
where
  isNext : Except MigrationError Bool :=
    if v ≤ current then .ok false
    else if v = Version.next current then .ok true
    else .error (.nonContiguous (Version.next current) v)

def Report.skip (r : Report) : Report := { r with skipped := r.skipped + 1 }

def Report.add (r : Report) (v : Version) (statements : Nat) : Report :=
  { r with
    applied := r.applied ++ [v]
    statements := r.statements + statements
    finalVersion := v }

/-- Goes through steps; `previous` is the version of the step before them. -/
def applySteps (x : Executor σ) (t : TableName) (w : Surroundings) (r : Report)
    (previous : Option Version) : List Step → Run σ Report
  | [] => return r
  | s :: rest => do
    if ← Run.ofExcept (isDue r.finalVersion previous s.version) then
      let statements ← applyStep x t w (w.completedAt r.applied.length) s
      applySteps x t w (r.add s.version statements) (some s.version) rest
    else
      applySteps x t w r.skip (some s.version) rest

/-- The opening part of a run: the control table is there, and no step is in flight. -/
def openRun (x : Executor σ) (t : TableName) : Run σ Version := do
  ensureTable x t
  let current ← currentVersion x t
  match ← lockedVersion x t with
  | some v => throw (.locked v)
  | none => return current

def apply (x : Executor σ) (t : TableName) (w : Surroundings) (steps : List Step) :
    Run σ Report := do
  let current ← openRun x t
  applySteps x t w ⟨[], 0, 0, current⟩ none steps

end SipMigrate.Migration
