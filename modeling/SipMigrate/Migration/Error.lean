import SipMigrate.Executor.Basic
import SipMigrate.Files.Error

/-! Versions of a schema, and the failures of a migration. -/

namespace SipMigrate.Migration

open Text

/-- Versions count from one; zero is the version of a schema without migrations. -/
abbrev Version := UInt16

/-- The version that comes next; the last one is its own successor. -/
def Version.next (v : Version) : Version := if v = 65535 then v else v + 1

inductive MigrationError
  | locked (version : Version)
  | nonContiguous (expected found : Version)
  | statement (version : Version) (file statement : String) (cause : Executor.ExecutorError)
  | fileRead (version : Version) (path : String) (cause : Files.FileError)
  | directoryRead (path : String) (cause : Files.FileError)
  | invalidFileName (name : String)
  | invalidTableName (name : String)
  | executor (cause : Executor.ExecutorError)
deriving DecidableEq, Repr

namespace MigrationError

def message : MigrationError → String
  | locked v =>
    "migration locked: version " ++ toString v.toNat ++
      " is marked in progress; another runner is active or a previous run crashed mid-step"
  | nonContiguous expected found =>
    "non-contiguous migration: expected version " ++ toString expected.toNat ++ ", found " ++
      toString found.toNat
  | statement v file sql cause =>
    "migration " ++ toString v.toNat ++ " (" ++ file ++ ") failed on statement \x60" ++ sql ++
      "\x60: " ++ cause.message
  | fileRead v path cause =>
    "migration " ++ toString v.toNat ++ ": cannot read " ++ quoted path ++ ": " ++ cause.message
  | directoryRead path cause =>
    "cannot read migrations directory " ++ quoted path ++ ": " ++ cause.message
  | invalidFileName name => "invalid migration file name: " ++ name
  | invalidTableName name => "invalid control table name: " ++ quoted name
  | executor cause => "executor error: " ++ cause.message

def form : MigrationError → String
  | locked v => Form.record "Locked" [("version", toString v.toNat)]
  | nonContiguous expected found =>
    Form.record "NonContiguous"
      [("expected", toString expected.toNat), ("found", toString found.toNat)]
  | statement v file sql cause =>
    Form.record "StatementExecution" [("version", toString v.toNat), ("file", quoted file),
      ("statement", quoted sql), ("source", cause.form)]
  | fileRead v path cause =>
    Form.record "FileRead"
      [("version", toString v.toNat), ("path", quoted path), ("source", cause.form)]
  | directoryRead path cause =>
    Form.record "DirectoryRead" [("path", quoted path), ("source", cause.form)]
  | invalidFileName name => Form.record "InvalidFileName" [("name", quoted name)]
  | invalidTableName name => Form.record "InvalidTableName" [("name", quoted name)]
  | executor cause => Form.applied "Executor" [cause.form]

end MigrationError

end SipMigrate.Migration
