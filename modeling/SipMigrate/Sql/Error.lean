import SipMigrate.Text.Quoted

/-! Failures of a database. Each has a text, a class and a number; a failure
that a word of the statement causes tells the place of the word. -/

namespace SipMigrate.Sql

open Text

/-- The kinds of values that a query can answer in place of an integer. -/
inductive OddKind
  | text
  | real
deriving DecidableEq, Repr

inductive Cause
  | nearWord (word : String)
  | unrecognizedToken (word : String)
  | incompleteInput
  | noSuchTable (name : String)
  | noSuchColumn (name : String)
  | tableExists (name : String)
  | reservedName (name : String)
  | duplicateColumn (name : String)
  | manyPrimaryKeys (table : String)
  | manyColumns (table : String)
  | manyResults
  | manyChanges
  | unknownOption (word : String)
  /-- The stored text of a table cannot be read. -/
  | malformedSchema (table : String)
  /-- Something in the open transaction is malformed. -/
  | malformed
  | schemaNotModified (table : String)
  | schemaNotDropped (table : String)
  | wrongValueCount (table : String) (columns values : Nat)
  | wrongListCount (values columns : Nat)
  | unevenRows
  | noColumnNamed (table column : String)
  | unique (table column : String) (isKey : Bool)
  | notNull (table column : String)
  | mismatch
  /-- There is no number for another row. -/
  | full
  | largeHexadecimal (numeral : String)
  | noSuchFunction (name : String)
  | argumentCount (function : String)
  | distinctArguments
  | nestedTransaction
  | commitOutside
  | rollbackOutside
  | sumOverflow
  | cannotOpen (path : String)
  /-- A file beside the database cannot be opened. -/
  | cannotOpenCompanion
  | readFailure
  | removalFailure
  | readOnly
  | invalidAuthority (authority : String)
  | unknownMode (kind mode : String)
  | modeNotAllowed (kind mode : String)
  | unknownFileSystem (name : String)
  | notADatabase
  | noTables
  | noStatement
deriving DecidableEq, Repr

namespace Cause

def syntaxErrorText (word : String) : String := "near \"" ++ word ++ "\": syntax error"

def text : Cause → String
  | nearWord w => syntaxErrorText w
  | unrecognizedToken w => "unrecognized token: \"" ++ w ++ "\""
  | incompleteInput => "incomplete input"
  | noSuchTable t => "no such table: " ++ t
  | noSuchColumn c => "no such column: " ++ c
  | tableExists t => "table " ++ t ++ " already exists"
  | reservedName t => "object name reserved for internal use: " ++ t
  | duplicateColumn c => "duplicate column name: " ++ c
  | manyPrimaryKeys t => "table \"" ++ t ++ "\" has more than one primary key"
  | manyColumns t => "too many columns on " ++ t
  | manyResults => "too many columns in result set"
  | manyChanges => "too many columns in set list"
  | unknownOption w => "unknown table option: " ++ w
  | malformedSchema t => "malformed database schema (" ++ t ++ ") - " ++ syntaxErrorText "("
  | malformed => "database disk image is malformed"
  | schemaNotModified t => "table " ++ t ++ " may not be modified"
  | schemaNotDropped t => "table " ++ t ++ " may not be dropped"
  | wrongValueCount t columns values =>
    "table " ++ t ++ " has " ++ toString columns ++ " columns but " ++ toString values ++
      " values were supplied"
  | wrongListCount values columns =>
    toString values ++ " values for " ++ toString columns ++ " columns"
  | unevenRows => "all VALUES must have the same number of terms"
  | noColumnNamed t c => "table " ++ t ++ " has no column named " ++ c
  | unique t c _ => "UNIQUE constraint failed: " ++ t ++ "." ++ c
  | notNull t c => "NOT NULL constraint failed: " ++ t ++ "." ++ c
  | mismatch => "datatype mismatch"
  | full => "database or disk is full"
  | largeHexadecimal n => "hex literal too big: " ++ n
  | noSuchFunction f => "no such function: " ++ f
  | argumentCount f => "wrong number of arguments to function " ++ f ++ "()"
  | distinctArguments => "DISTINCT aggregates must have exactly one argument"
  | nestedTransaction => "cannot start a transaction within a transaction"
  | commitOutside => "cannot commit - no transaction is active"
  | rollbackOutside => "cannot rollback - no transaction is active"
  | sumOverflow => "integer overflow"
  | cannotOpen path => "unable to open database file: " ++ path
  | cannotOpenCompanion => "unable to open database file"
  | readFailure => "disk I/O error"
  | removalFailure => "disk I/O error"
  | readOnly => "attempt to write a readonly database"
  | invalidAuthority a => "invalid uri authority: " ++ a
  | unknownMode kind mode => "no such " ++ kind ++ " mode: " ++ mode
  | modeNotAllowed kind mode => kind ++ " mode not allowed: " ++ mode
  | unknownFileSystem name => "no such vfs: " ++ name
  | notADatabase => "file is not a database"
  | noTables => "no tables specified"
  | noStatement => "not an error"

/-- The class and the number of a failure. -/
def code : Cause → String × Nat
  | unique _ _ true => ("ConstraintViolation", 1555)
  | unique _ _ false => ("ConstraintViolation", 2067)
  | notNull _ _ => ("ConstraintViolation", 1299)
  | mismatch => ("TypeMismatch", 20)
  | full => ("DiskFull", 13)
  | cannotOpen _ => ("CannotOpen", 14)
  | cannotOpenCompanion => ("CannotOpen", 14)
  | readFailure => ("SystemIoFailure", 266)
  | removalFailure => ("SystemIoFailure", 2570)
  | readOnly => ("ReadOnly", 8)
  | modeNotAllowed _ _ => ("PermissionDenied", 3)
  | malformedSchema _ => ("DatabaseCorrupt", 11)
  | malformed => ("DatabaseCorrupt", 11)
  | notADatabase => ("NotADatabase", 26)
  | noStatement => ("ApiMisuse", 21)
  | _ => ("Unknown", 1)

def codeForm (c : Cause) : String :=
  Form.record "Error" [("code", c.code.1), ("extended_code", toString c.code.2)]

end Cause

/-- A cause, and the place of the word that it is about, if there is one: the
number of bytes before it in its statement. -/
structure Fault where
  cause : Cause
  offset : Option Nat
deriving DecidableEq, Repr

/-- A cause that no word of the statement is about. -/
def Cause.fault (c : Cause) : Fault := ⟨c, none⟩

inductive SqlError
  | failure (cause : Cause)
  | failureAt (cause : Cause) (sql : String) (offset : Nat)
  /-- The answer of a query is no integer. -/
  | oddAnswer (kind : OddKind) (column : String)
deriving DecidableEq, Repr

/-- The failure of a statement in its text. -/
def Fault.error (f : Fault) (sql : String) : SqlError :=
  match f.offset with
  | some offset => .failureAt f.cause sql offset
  | none => .failure f.cause

namespace SqlError

def kindName : OddKind → String
  | .text => "Text"
  | .real => "Real"

def message : SqlError → String
  | failure c => c.text
  | failureAt c sql offset => c.text ++ " in " ++ sql ++ " at offset " ++ toString offset
  | oddAnswer kind column =>
    "Invalid column type " ++ kindName kind ++ " at index: 0, name: " ++ column

def form : SqlError → String
  | failure c => Form.applied "SqliteFailure" [c.codeForm, Form.applied "Some" [quoted c.text]]
  | failureAt c sql offset =>
    Form.record "SqlInputError" [("error", c.codeForm), ("msg", quoted c.text),
      ("sql", quoted sql), ("offset", toString offset)]
  | oddAnswer kind column =>
    Form.applied "InvalidColumnType" ["0", quoted column, kindName kind]

end SqlError

end SipMigrate.Sql
