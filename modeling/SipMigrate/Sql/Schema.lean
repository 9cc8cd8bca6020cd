import SipMigrate.Sql.Table

/-! The tables that tell which tables there are. They can be read, and are
neither changed nor dropped. -/

namespace SipMigrate.Sql

namespace Schema

/-- The names of the table of the lasting tables, the proper one first. -/
def names : List String := ["sqlite_master", "sqlite_schema"]

/-- The names of the table of the passing tables, the proper one first. There
are no such tables. -/
def passingNames : List String := ["sqlite_temp_master", "sqlite_temp_schema"]

def columns : List Column :=
  [("type", "TEXT"), ("name", "TEXT"), ("tbl_name", "TEXT"), ("rootpage", "INT"),
    ("sql", "TEXT")].map fun (name, type) => ⟨name, type, false, false, false⟩

/-- The row of a table. -/
def tableRow (t : Table) (page : Value) : Row :=
  [.text "table", .text t.name, .text t.name, page, .text ("CREATE TABLE " ++ t.text)]

/-- The row of the `n`-th index of a table. -/
def indexRow (t : Table) (n : Nat) (page : Value) : Row :=
  [.text "index", .text ("sqlite_autoindex_" ++ t.name ++ "_" ++ toString n), .text t.name, page,
    .null]

/-- The rows of a table and of its indexes, but for the numbers of their pages. -/
def rows (t : Table) : List (Value → Row) :=
  tableRow t :: (List.range t.indexed.length).map fun n => indexRow t (n + 1)

/-- Everything has a page of its own, from the second one on. -/
def table (d : Database) : Table :=
  ⟨"sqlite_master", columns,
    (d.tables.flatMap rows).mapIdx fun n row => row (.integer (n + 2)), ""⟩

def passing : Table := ⟨"sqlite_temp_master", columns, [], ""⟩

end Schema

namespace Database

/-- The table of tables that a name means. -/
def schema? (d : Database) (name : String) : Option Table :=
  if Schema.names.contains (lowerAscii name) then some (Schema.table d)
  else if Schema.passingNames.contains (lowerAscii name) then some Schema.passing
  else none

/-- A table that can be read. -/
def readable? (d : Database) (name : String) : Option Table :=
  (d.schema? name).or (d.table? name)

end Database

end SipMigrate.Sql
