import SipMigrate.Files.Path
import SipMigrate.Migration.Error
import SipMigrate.Text.Decimal

/-! Migration steps and the names of their files, `<version>_<description>.sql`. Names and
paths are texts; files whose names are no texts are left out. -/

namespace SipMigrate.Migration

open Text

structure Step where
  version : Version
  description : String
  /-- The path of the script. -/
  file : String
deriving DecidableEq, Repr

/-- The name under which a step is recorded: the last component of the path, or
the whole path when it has none. -/
def Step.fileName (s : Step) : String := (Files.fileName? s.file).getD s.file

namespace FileName

def ending : List Char := ['.', 's', 'q', 'l']

/-- The name without its ending. -/
def stem? (name : List Char) : Option (List Char) :=
  if ending.isSuffixOf name then some (name.take (name.length - ending.length)) else none

/-- A name that has something before the ending. -/
def isScript (name : String) : Bool :=
  match stem? name.toList with
  | some stem => !stem.isEmpty
  | none => false

/-- Reads a version: digits, with any number of leading zeros, and not zero. -/
def version? (digits : List Char) : Option Version :=
  match natural? digits with
  | some n => if 0 < n ∧ n < UInt16.size then some (UInt16.ofNat n) else none
  | none => none

/-- Underscores stand for spaces. -/
def spaced (text : List Char) : List Char := text.map fun c => if c = '_' then ' ' else c

/-- The version before the first underscore and the description after it. -/
def read? (name : List Char) : Option (Version × List Char) := do
  let stem ← stem? name
  let version ← version? (stem.takeWhile (· ≠ '_'))
  match stem.dropWhile (· ≠ '_') with
  | _ :: c :: rest => some (version, spaced (c :: rest))
  | _ => none

def parse (name : String) : Except MigrationError (Version × String) :=
  match read? name.toList with
  | some (version, description) => .ok (version, String.ofList description)
  | none => .error (.invalidFileName name)

end FileName

end SipMigrate.Migration
