import SipMigrate.Sql.Table

/-! The rows of a control table as a database holds them. -/

namespace SipMigrate.Migration

open Sql

structure StoredRow where
  version : Int
  description : String
  file : String
  created : Option Int
deriving DecidableEq, Repr

namespace StoredRow

/-- The positions of the four columns. -/
structure Layout where
  version : Nat
  description : Nat
  file : Nat
  created : Nat

def layout? (t : Table) : Option Layout := do
  return ⟨← t.column? "version", ← t.column? "description", ← t.column? "file",
    ← t.column? "created"⟩

def ofRow? (l : Layout) (r : Row) : Option StoredRow :=
  match r.get l.version, r.get l.description, r.get l.file, r.get l.created with
  | .integer version, .text description, .text file, .null =>
    some ⟨version, description, file, none⟩
  | .integer version, .text description, .text file, .integer created =>
    some ⟨version, description, file, some created⟩
  | _, _, _, _ => none

/-- All rows of a table by version, if it has the form of a control table. -/
def all? (t : Table) : Option (List StoredRow) := do
  let rows ← t.rows.mapM (ofRow? (← layout? t))
  return rows.mergeSort fun a b => a.version ≤ b.version

end StoredRow

end SipMigrate.Migration
