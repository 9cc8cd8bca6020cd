import SipMigrate.Migration.Step

/-! The control table keeps one row for each step. The row of a running step
has no completion time, and locks the table. -/

namespace SipMigrate.Migration

structure Record where
  version : Version
  description : String
  /-- The name of the script. -/
  file : String
  /-- The completion time in seconds, of a completed step. -/
  created : Option UInt64
deriving DecidableEq, Repr

namespace Record

/-- The row of a running step. -/
def inFlight (s : Step) : Record := ⟨s.version, s.description, s.fileName, none⟩

def isComplete (r : Record) : Bool := r.created.isSome

def isLock (r : Record) : Bool := r.created.isNone

def complete (r : Record) (time : UInt64) : Record := { r with created := some time }

end Record

namespace ControlTable

/-! ### Statements on the table -/

def create (table : String) : String :=
  "CREATE TABLE IF NOT EXISTS " ++ table ++ " (version SMALLINT NOT NULL PRIMARY KEY, " ++
    "description VARCHAR(200) NOT NULL, file VARCHAR(200) NOT NULL, created BIGINT NULL)"

/-- The highest completed version. -/
def selectCurrent (table : String) : String :=
  "SELECT MAX(version) FROM " ++ table ++ " WHERE created IS NOT NULL"

/-- The lowest version in flight. -/
def selectLock (table : String) : String :=
  "SELECT MIN(version) FROM " ++ table ++ " WHERE created IS NULL"

/-- The number of completed rows. -/
def selectCount (table : String) : String :=
  "SELECT COUNT(*) FROM " ++ table ++ " WHERE created IS NOT NULL"

/-! ### Statements on one row -/

/-- A string literal, in which a quote is written twice. -/
def textLiteral (s : String) : String :=
  String.ofList
    ('\x27' :: s.toList.flatMap (fun c => if c = '\x27' then ['\x27', '\x27'] else [c]) ++ ['\x27'])

def createdLiteral (r : Record) : String :=
  match r.created with
  | some time => toString time.toNat
  | none => "NULL"

def insert (table : String) (r : Record) : String :=
  "INSERT INTO " ++ table ++ " (version, description, file, created) VALUES (" ++
    toString r.version.toNat ++ ", " ++ textLiteral r.description ++ ", " ++
    textLiteral r.file ++ ", " ++ createdLiteral r ++ ")"

/-- Stores the completion time. -/
def update (table : String) (r : Record) : String :=
  "UPDATE " ++ table ++ " SET created = " ++ createdLiteral r ++ " WHERE version = " ++
    toString r.version.toNat

def delete (table : String) (r : Record) : String :=
  "DELETE FROM " ++ table ++ " WHERE version = " ++ toString r.version.toNat

end ControlTable

end SipMigrate.Migration
