import SipMigrate.Sql.Error
import SipMigrate.Sql.Statement

/-! Tables and databases. A database holds tables and their indexes; there are no
views, triggers or indexes of their own. The rows of a table stand in the order of their
numbers. A column of type `INTEGER` that is the primary key is the number of
the row; the values of any other primary key and of a unique column differ,
nulls apart. -/

namespace SipMigrate.Sql

open Text

abbrev Row := List Value

structure Table where
  name : String
  columns : List Column
  rows : List Row
  /-- The text that describes the table, from its name on. -/
  text : String
deriving DecidableEq, Repr

/-- The value in a column; a row is as long as its table has columns. -/
def Row.get (r : Row) (column : Nat) : Value := r.getD column .null

def Column.isRowNumber (c : Column) : Bool := c.isPrimary && sameName c.type "integer"

/-- Whether an index keeps the values of a column apart. -/
def Column.isIndexed (c : Column) : Bool := c.isUnique || (c.isPrimary && !c.isRowNumber)

namespace Table

def column? (t : Table) (name : String) : Option Nat :=
  t.columns.findIdx? fun c => sameName c.name name

/-- The column that is the number of the row. -/
def rowNumber? (t : Table) : Option Nat := t.columns.findIdx? Column.isRowNumber

/-- The columns that have an index. -/
def indexed (t : Table) : List Nat :=
  (List.range t.columns.length).filter fun k => (t.columns[k]?).any Column.isIndexed

/-- The columns whose values differ, in the order in which they are looked at:
the number of the row, and then the indexes from the last one on. -/
def keys (t : Table) : List Nat := t.rowNumber?.toList ++ t.indexed.reverse

/-- The number of a new row: one more than the highest. Behind the last number there is, free
ones would be tried at random; that is not understood, so there is none. -/
def nextNumber (numbers : List Int) : Except Cause Int :=
  match numbers.max? with
  | none => .ok 1
  | some n => if isInt64 (n + 1) then .ok (n + 1) else .error .full

def numbers (column : Nat) (rows : List Row) : List Int :=
  rows.filterMap fun r =>
    match r.get column with
    | .integer n => some n
    | _ => none

/-! ### Fitting a row -/

/-- Gives a row its number, if a column is the number; `next` is the number
that stands for a null. -/
def number (t : Table) (next : Except Cause Int) (r : Row) : Except Cause Row :=
  match t.rowNumber? with
  | none => .ok r
  | some k =>
    match Affinity.integer.store (r.get k) with
    | .integer n => .ok (r.set k (.integer n))
    | .null => next.map fun n => r.set k (.integer n)
    | _ => .error .mismatch

/-- The values as the columns store them. -/
def convert (t : Table) (r : Row) : Row := t.columns.zipWith (fun c v => c.affinity.store v) r

/-- The first column that must not be null but is. -/
def missing? (t : Table) (r : Row) : Option Column :=
  ((t.columns.zip r).find? fun (c, v) => c.notNull && !c.isRowNumber && v.isNull).map (·.1)

/-- The first key that another row has too. -/
def repeated? (t : Table) (others : List Row) (r : Row) : Option Column := do
  let k ← t.keys.find? fun k => others.any fun o => (o.get k).equals (r.get k)
  t.columns[k]?

/-- The row as it is stored beside other rows. -/
def fit (t : Table) (next : Except Cause Int) (others : List Row) (r : Row) :
    Except Cause Row := do
  let r := t.convert (← t.number next r)
  match t.missing? r with
  | some c => throw (.notNull t.name c.name)
  | none =>
    match t.repeated? others r with
    | some c => throw (.unique t.name c.name c.isPrimary)
    | none => return r

/-- Puts the rows into the order of their numbers. -/
def arrange (t : Table) (rows : List Row) : List Row :=
  match t.rowNumber? with
  | none => rows
  | some k => rows.mergeSort fun a b => ((a.get k).order (b.get k)).isLE

/-! ### Changing rows -/

def insertRow (t : Table) (r : Row) : Except Cause Table := do
  let next := nextNumber (t.rowNumber?.elim [] fun k => numbers k t.rows)
  let r ← t.fit next t.rows r
  return { t with rows := t.arrange (t.rows ++ [r]) }

def insertRows (t : Table) : List Row → Except Cause Table
  | [] => .ok t
  | r :: rest => do (← t.insertRow r).insertRows rest

def deleteRows (t : Table) (hit : Row → Bool) : Table :=
  { t with rows := t.rows.filter fun r => !hit r }

/-- Changes rows one after the other; `before` are those already looked at. -/
def changeAfter (t : Table) (hit : Row → Bool) (change : Row → Row) (before : List Row) :
    List Row → Except Cause (List Row)
  | [] => .ok before
  | r :: rest =>
    if hit r then do
      let r ← t.fit (.error .mismatch) (before ++ rest) (change r)
      t.changeAfter hit change (before ++ [r]) rest
    else t.changeAfter hit change (before ++ [r]) rest

def updateRows (t : Table) (hit : Row → Bool) (change : Row → Row) : Except Cause Table := do
  return { t with rows := t.arrange (← t.changeAfter hit change [] t.rows) }

end Table

/-- All that a database holds are tables. -/
structure Database where
  tables : List Table
deriving DecidableEq, Repr

/-! ### Databases -/

namespace Database

def empty : Database := ⟨[]⟩

def table? (d : Database) (name : String) : Option Table :=
  d.tables.find? fun t => sameName t.name name

/-- Whether a table has exactly this name. Nothing that is no table could have it. -/
def hasTable (d : Database) (name : String) : Bool := d.tables.any fun t => t.name = name

def add (d : Database) (t : Table) : Database := ⟨d.tables ++ [t]⟩

def drop (d : Database) (name : String) : Database :=
  ⟨d.tables.filter fun t => !sameName t.name name⟩

/-- Puts a table in the place of the one of its name. -/
def replace (d : Database) (t : Table) : Database :=
  ⟨d.tables.map fun u => if sameName u.name t.name then t else u⟩

end Database

end SipMigrate.Sql
