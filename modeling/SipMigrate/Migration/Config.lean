import SipMigrate.Migration.Error

/-! The configuration of a run. The name of the control table goes into
statements as it is, so only plain names are accepted. -/

namespace SipMigrate.Migration

/-- An ASCII letter or underscore, then letters, digits and underscores. -/
def isTableName (name : String) : Bool :=
  match name.toList with
  | c :: rest => (c.isAlpha || c == '_') && rest.all fun d => d.isAlphanum || d == '_'
  | [] => false

/-- A name that a control table may have. -/
structure TableName where
  text : String
  isTableName_text : isTableName text = true
deriving DecidableEq

def TableName.ofString (text : String) : Except MigrationError TableName :=
  if h : isTableName text = true then .ok ⟨text, h⟩ else .error (.invalidTableName text)

structure Config where
  table : String
  /-- The directory of the scripts. -/
  directory : Option String
deriving DecidableEq, Repr

namespace Config

def standard : Config := ⟨"schema_version", none⟩

def validate (c : Config) : Except MigrationError TableName := TableName.ofString c.table

end Config

end SipMigrate.Migration
