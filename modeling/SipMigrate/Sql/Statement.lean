import SipMigrate.Sql.Error
import SipMigrate.Sql.Value

/-! Statements as they are written, before their names are looked up. -/

namespace SipMigrate.Sql

structure Name where
  text : String
  /-- The name with its quotes. -/
  written : String
  offset : Nat
deriving DecidableEq, Repr

/-- A column of a table. -/
structure Column where
  name : String
  /-- The declared type. -/
  type : String
  notNull : Bool
  isPrimary : Bool
  isUnique : Bool
deriving DecidableEq, Repr

def Column.affinity (c : Column) : Affinity := .ofType c.type

/-- A part of the description of a new table. A part that is no column is about
the column before it. -/
inductive Definition
  | column (name type : String)
  | primary
  | unique
  | notNull
deriving DecidableEq, Repr

inductive Operand
  | value (v : Value)
  | name (n : Name)
  /-- An operand whose form is right but which has no value. -/
  | faulty (f : Fault)
deriving DecidableEq, Repr

inductive Condition
  | equal (a b : Operand)
  | isNull (a : Operand) (negated : Bool)
deriving DecidableEq, Repr

inductive Aggregate
  | count
  | sum
  | min
  | max
deriving DecidableEq, Repr

inductive Result
  | all
  | operand (o : Operand)
  | countRows
  /-- Of several equal values a distinct aggregate counts one. -/
  | aggregate (f : Aggregate) (distinct : Bool) (o : Operand)
  /-- A function that is not called rightly. -/
  | faulty (f : Fault) (arguments : List Operand)
deriving DecidableEq, Repr

/-- A result of a query. -/
structure ResultColumn where
  result : Result
  /-- The result as it is written. -/
  text : String
  otherName : Option String
deriving DecidableEq, Repr

inductive Statement
  /-- The parts read, what stopped the reading before the end, and the text
  from the name on. -/
  | createTable (ifMissing : Bool) (name : Name) (parts : List Definition) (stop : Option Fault)
    (text : String)
  | dropTable (ifPresent : Bool) (name : Name)
  | insert (table : Name) (columns : Option (List Name)) (rows : List (List Operand))
  | delete (table : Name) (filter : Option Condition)
  | update (table : Name) (changes : List (Name × Operand)) (filter : Option Condition)
  | select (results : List ResultColumn) (table : Option Name) (filter : Option Condition)
  | begin
  | commit
  | rollback
deriving DecidableEq, Repr

end SipMigrate.Sql
