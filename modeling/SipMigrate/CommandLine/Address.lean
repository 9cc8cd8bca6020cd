import SipMigrate.Files.Path
import SipMigrate.Sql.Error
import SipMigrate.Sql.Value
import SipMigrate.Text.Hex

/-! Addresses of databases. An address is a path, or a text that begins with
`file:` and gives a path and options. In such a text `%` and two hexadecimal
digits stand for a byte. -/

namespace SipMigrate.CommandLine

open Files Sql Text

/-- How a database is opened. -/
inductive Mode
  | reading
  | writing
  /-- A database that is missing is made. -/
  | making
  | memory
deriving DecidableEq, Repr

structure Address where
  path : String
  mode : Mode
  /-- Whether the database never changes. -/
  isFixed : Bool
  /-- Where files are kept. -/
  fileSystem : Option String
deriving DecidableEq, Repr

namespace Mode

def named? (name : String) : Option Mode :=
  [("ro", reading), ("rw", writing), ("rwc", making), ("memory", memory)].lookup name

/-- Of two modes the later one must not allow more than the earlier one. -/
def mayFollow (earlier later : Mode) : Bool :=
  match earlier, later with
  | _, memory => true
  | memory, _ => true
  | making, _ => true
  | writing, making => false
  | writing, _ => true
  | reading, reading => true
  | reading, _ => false

end Mode

namespace Address

/-- A database that lives as long as its connection. -/
def memoryPath : String := ":memory:"

def fileSystems : List String := ["memdb", "unix", "unix-dotfile", "unix-excl", "unix-none"]

/-- Whether the database lives as long as its connection. -/
def isPassing (a : Address) : Bool :=
  a.mode = .memory || a.path = "" || a.path = memoryPath || a.fileSystem = some "memdb"

def isReadOnly (a : Address) : Bool := a.mode = .reading || a.isFixed

def ofPath (path : String) : Address := ⟨path, .making, false, none⟩

/-! ### Texts with options -/

/-- Puts in the bytes that `%` and two digits stand for. -/
def decodeBytes : List UInt8 → List UInt8
  | p :: a :: b :: rest =>
    if p = 0x25 then
      match Hex.value? a, Hex.value? b with
      | some high, some low => (16 * high + low) :: decodeBytes rest
      | _, _ => p :: decodeBytes (a :: b :: rest)
    else p :: decodeBytes (a :: b :: rest)
  | l => l

/-- A piece of a text. It ends at a byte that is zero. -/
def decode (piece : List Char) : String :=
  let bytes := (decodeBytes (utf8 (String.ofList piece))).takeWhile (· ≠ 0)
  (ofUtf8? bytes).getD (String.ofList (bytes.map fun b => Char.ofNat b.toNat))

/-- What stands before and after the first place of a character. -/
def cut (c : Char) (l : List Char) : List Char × List Char :=
  (l.takeWhile (· ≠ c), (l.dropWhile (· ≠ c)).drop 1)

/-- The options between `&`, each a name and a value; those without a name say nothing. -/
def options (query : List Char) : List (String × String) :=
  ((piecesBetween '&' query).map fun o =>
    let (name, value) := cut '=' o
    (decode name, decode value)).filter fun o => o.1 ≠ ""

/-- Whether a value of an option means yes: a word, or a number that is not zero. -/
def isYes (value : String) : Bool :=
  match value.toList.takeWhile Char.isDigit with
  | [] => ["on", "yes", "true"].contains (lowerAscii value)
  | digits => digitsValue digits % 256 ≠ 0

/-- An address with one more option. -/
def withOption (a : Address) (o : String × String) : Except Cause Address :=
  match o with
  | ("vfs", name) => .ok { a with fileSystem := some name }
  | ("cache", value) =>
    if value = "shared" || value = "private" then .ok a else .error (.unknownMode "cache" value)
  | ("mode", value) =>
    match Mode.named? value with
    | none => .error (.unknownMode "access" value)
    | some m =>
      if a.mode.mayFollow m then .ok { a with mode := m }
      else .error (.modeNotAllowed "access" value)
  | _ => .ok a

/-- The path without the name of a computer, which must be this one. -/
def withoutAuthority (l : List Char) : Except Cause (List Char) :=
  match l with
  | '/' :: '/' :: rest =>
    let authority := String.ofList (rest.takeWhile (· ≠ '/'))
    if authority = "" || authority = "localhost" then .ok (rest.dropWhile (· ≠ '/'))
    else .error (.invalidAuthority authority)
  | l => .ok l

/-- What follows `file:`, up to `#`. -/
def ofFile (l : List Char) : Except Cause Address := do
  let l ← withoutAuthority l
  let (path, query) := cut '?' (cut '#' l).1
  let os := options query
  let a ← os.foldlM withOption (ofPath (decode path))
  match a.fileSystem.filter fun name => !fileSystems.contains name with
  | some name => throw (.unknownFileSystem name)
  | none => return { a with isFixed := (os.lookup "immutable").any isYes }

def ofText (text : String) : Except Cause Address :=
  if "file:".toList.isPrefixOf text.toList then ofFile (text.toList.drop 5)
  else .ok (ofPath text)

end Address

end SipMigrate.CommandLine
