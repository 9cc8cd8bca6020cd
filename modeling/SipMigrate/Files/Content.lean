import SipMigrate.Files.Tree
import SipMigrate.Sql.Dump

/-! What files hold: bytes, or a database. A database is stored as its text. -/

namespace SipMigrate.Files

inductive Content
  | bytes (b : List UInt8)
  | database (d : Sql.Database)

namespace Content

def ofText (s : String) : Content := bytes (Text.utf8 s)

def toBytes : Content → List UInt8
  | bytes b => b
  | database d => Text.utf8 d.dump

/-- Bytes as they are found: the text of a database is a database. -/
def ofBytes (b : List UInt8) : Content :=
  match (Text.ofUtf8? b).bind Sql.Database.ofDump? with
  | some d => database d
  | none => bytes b

/-- Whether nothing has been written yet; a single byte counts as nothing. -/
def isBlank : Content → Bool
  | database _ => false
  | bytes b => b.length ≤ 1

/-- The database in a file; a blank file is an empty database. -/
def database? : Content → Option Sql.Database
  | database d => some d
  | bytes b => if b.length ≤ 1 then some .empty else none

end Content

abbrev FileTree := Tree Content

/-- The text that bytes spell. A database is no text. -/
def Content.text? : Content → Option String
  | .bytes b => Text.ofUtf8? b
  | .database _ => none

/-- The text of a file. -/
def FileTree.readText (t : FileTree) (path : String) : Except FileError String := do
  match (← t.readFile path).text? with
  | some s => .ok s
  | none => .error .notText

end SipMigrate.Files
