import SipMigrate.Sql.Lexeme
import SipMigrate.Sql.Scan
import SipMigrate.Sql.Schema

/-! What a statement does to the tables that its names mean. Looking up the
names finds all faults but those that the rows cause. -/

namespace SipMigrate.Sql

open Text

/-- A value, or the column of a row that holds it. -/
inductive Term
  | value (v : Value)
  | column (index : Nat) (affinity : Affinity)
deriving DecidableEq, Repr

/-- The column that a term is. -/
def Term.column? : Term → Option Nat
  | column i _ => some i
  | value _ => none

inductive Test
  | equal (a b : Term)
  | isNull (a : Term) (negated : Bool)
deriving DecidableEq, Repr

inductive Output
  | term (t : Term)
  | countRows
  | aggregate (f : Aggregate) (distinct : Bool) (t : Term)
deriving DecidableEq, Repr

inductive Plan
  | nothing
  | create (t : Table)
  | drop (name : String)
  | insert (t : Table) (rows : List Row)
  | delete (t : Table) (test : Option Test)
  | update (t : Table) (changes : List (Nat × Term)) (test : Option Test)
  /-- Each output with the name of its column. -/
  | select (t : Option Table) (outputs : List (Output × String)) (test : Option Test)
  | begin
  | commit
  | rollback
deriving DecidableEq, Repr

/-! ### Looking up names -/

namespace Name

/-- A name in double quotes that means no column is a text. -/
def isDoubleQuoted (n : Name) : Bool := n.written.toList.head? = some '"'

/-- Words for truth values that mean no column are numbers. -/
def truth? (n : Name) : Option Int :=
  if sameName n.written "true" then some 1
  else if sameName n.written "false" then some 0
  else none

def term (n : Name) (t : Option Table) : Except Fault Term :=
  match t.bind fun t => (t.column? n.text).bind fun i => (t.columns[i]?).map fun c => (i, c) with
  | some (i, c) => .ok (.column i c.affinity)
  | none =>
    if n.isDoubleQuoted then .ok (.value (.text n.text))
    else
      match n.truth? with
      | some b => .ok (.value (.integer b))
      | none => .error ⟨.noSuchColumn n.text, some n.offset⟩

def missing (n : Name) : Fault := (Cause.noSuchTable n.text).fault

/-- The table that a name means. -/
def table (n : Name) (d : Database) : Except Fault Table :=
  match d.readable? n.text with
  | some t => .ok t
  | none => .error n.missing

/-- The table that a name means, if its rows can be changed. -/
def changeable (n : Name) (d : Database) : Except Fault Table :=
  match d.schema? n.text with
  | some t => .error (Cause.schemaNotModified t.name).fault
  | none => n.table d

end Name

def Operand.term (t : Option Table) : Operand → Except Fault Term
  | .value v => .ok (.value v)
  | .name n => n.term t
  | .faulty f => .error f

def Condition.test (t : Option Table) : Condition → Except Fault Test
  | .equal a b => do return .equal (← a.term t) (← b.term t)
  | .isNull a negated => do return .isNull (← a.term t) negated

def testOf (t : Option Table) (c : Option Condition) : Except Fault (Option Test) :=
  c.mapM (·.test t)

/-- An operand where there is no row. -/
def Operand.constant (o : Operand) : Except Fault Value := do
  match ← o.term none with
  | .value v => return v
  | .column _ _ => return .null

/-! ### Looking up statements -/

def isReservedTable (name : String) : Bool :=
  "sqlite_".toList.isPrefixOf (lowerAscii name).toList

/-- The greatest number of columns of a table, of the results of a query and of
the changes of an update. -/
def columnLimit : Nat := 2000

/-- Changes the last column. -/
def changeLast (change : Column → Column) (columns : List Column) : List Column :=
  columns.dropLast ++ columns.getLast?.toList.map change

/-- The columns with one more part of the description. -/
def define (table : String) (columns : List Column) : Definition → Except Cause (List Column)
  | .column name type =>
    if columnLimit ≤ columns.length then .error (.manyColumns table)
    else if columns.any fun c => sameName c.name name then .error (.duplicateColumn name)
    else .ok (columns ++ [⟨name, type, false, false, false⟩])
  | .primary =>
    if columns.any Column.isPrimary then .error (.manyPrimaryKeys table)
    else .ok (changeLast (fun c => { c with isPrimary := true }) columns)
  | .unique => .ok (changeLast (fun c => { c with isUnique := true }) columns)
  | .notNull => .ok (changeLast (fun c => { c with notNull := true }) columns)

def planCreate (d : Database) (ifMissing : Bool) (n : Name) (parts : List Definition)
    (stop : Option Fault) (text : String) : Except Fault Plan :=
  let stopped (p : Plan) : Except Fault Plan :=
    match stop with
    | some f => .error f
    | none => .ok p
  if isReservedTable n.text then .error (Cause.reservedName n.text).fault
  else if (d.table? n.text).isSome then
    if ifMissing then stopped .nothing else .error ⟨.tableExists n.written, some n.offset⟩
  else
    match parts.foldlM (define n.text) [] with
    | .ok columns => stopped (.create ⟨n.text, columns, [], text⟩)
    | .error c => .error c.fault

def planDrop (d : Database) (ifPresent : Bool) (n : Name) : Except Fault Plan :=
  match d.schema? n.text, d.table? n.text with
  | some t, _ => .error (Cause.schemaNotDropped t.name).fault
  | none, some t => .ok (.drop t.name)
  | none, none => if ifPresent then .ok .nothing else .error n.missing

/-- The positions of the columns that an insertion names. -/
def insertPositions (n : Name) (t : Table) (columns : List Name) : Except Fault (List Nat) :=
  columns.mapM fun c =>
    match t.column? c.text with
    | some i => .ok i
    | none => .error (Cause.noColumnNamed n.text c.text).fault

/-- A row with the given values at the given positions, and nulls elsewhere. -/
def widen (width : Nat) (positions : List Nat) (values : Row) : Row :=
  (List.range width).map fun i =>
    match positions.idxOf? i with
    | some k => values.getD k .null
    | none => .null

def planInsert (d : Database) (n : Name) (columns : Option (List Name))
    (rows : List (List Operand)) : Except Fault Plan := do
  let t ← n.changeable d
  let positions ← columns.mapM (insertPositions n t)
  if rows.any fun r => r.length ≠ (rows.headD []).length then throw Cause.unevenRows.fault
  let values ← rows.mapM fun r => r.mapM Operand.constant
  let count := (rows.headD []).length
  match positions with
  | none =>
    if count ≠ t.columns.length then
      throw (Cause.wrongValueCount n.text t.columns.length count).fault
    return .insert t values
  | some positions =>
    if count ≠ positions.length then throw (Cause.wrongListCount count positions.length).fault
    return .insert t (values.map (widen t.columns.length positions))

def planDelete (d : Database) (n : Name) (filter : Option Condition) : Except Fault Plan := do
  let t ← n.changeable d
  return .delete t (← testOf (some t) filter)

def planChange (t : Table) (change : Name × Operand) : Except Fault (Nat × Term) := do
  let v ← change.2.term (some t)
  match t.column? change.1.text with
  | some i => return (i, v)
  | none => throw (Cause.noSuchColumn change.1.text).fault

def planUpdate (d : Database) (n : Name) (changes : List (Name × Operand))
    (filter : Option Condition) : Except Fault Plan := do
  if columnLimit < changes.length then throw Cause.manyChanges.fault
  let t ← n.changeable d
  let changes ← changes.mapM (planChange t)
  return .update t changes (← testOf (some t) filter)

/-- The columns of a table as outputs. -/
def allOutputs (t : Table) : List (Output × String) :=
  t.columns.mapIdx fun i c => (.term (.column i c.affinity), c.name)

/-- The outputs of a result; a column is named as it was declared. -/
def outputs (t : Option Table) (r : ResultColumn) : Except Fault (List (Output × String)) :=
  match r.result with
  | .all => .ok (t.elim [] allOutputs)
  | .operand o => do
    let term ← o.term t
    let label := ((term.column?.bind fun i => t.bind (·.columns[i]?)).map (·.name)).getD r.text
    return [(.term term, r.otherName.getD label)]
  | .countRows => .ok [(.countRows, r.otherName.getD r.text)]
  | .aggregate f distinct o => do
    return [(.aggregate f distinct (← o.term t), r.otherName.getD r.text)]
  | .faulty f arguments => do
    discard (arguments.mapM (·.term t))
    throw f

/-- The number of outputs of results. -/
def outputCount (t : Option Table) (results : List ResultColumn) : Nat :=
  results.foldl (fun n r => n + if r.result = .all then t.elim 0 (·.columns.length) else 1) 0

def planSelect (d : Database) (results : List ResultColumn) (n : Option Name)
    (filter : Option Condition) : Except Fault Plan := do
  let t ← n.mapM (·.table d)
  if t.isNone && results.any fun r => r.result = .all then throw Cause.noTables.fault
  if columnLimit < outputCount t results then throw Cause.manyResults.fault
  let outs ← results.mapM (outputs t)
  return .select t outs.flatten (← testOf t filter)

def Statement.plan (d : Database) : Statement → Except Fault Plan
  | .createTable ifMissing n parts stop text => planCreate d ifMissing n parts stop text
  | .dropTable ifPresent n => planDrop d ifPresent n
  | .insert n columns rows => planInsert d n columns rows
  | .delete n filter => planDelete d n filter
  | .update n changes filter => planUpdate d n changes filter
  | .select results n filter => planSelect d results n filter
  | .begin => .ok .begin
  | .commit => .ok .commit
  | .rollback => .ok .rollback

/-! ### Evaluating -/

namespace Term

def eval (r : Row) : Term → Value
  | value v => v
  | column i _ => r.get i

/-- The value of the first term as it is compared with the second one. Of two
columns a numeric one decides, and beside a value the column does. -/
def evalBeside (r : Row) (a b : Term) : Value :=
  let v := a.eval r
  match a, b with
  | value _, value _ => v
  | value _, column _ x => x.compared v
  | column _ x, value _ => x.compared v
  | column _ x, column _ y => if x.isNumeric || y.isNumeric then v.toNumber else v

end Term

namespace Test

def holds (r : Row) : Test → Bool
  | equal a b => (a.evalBeside r b).equals (b.evalBeside r a)
  | isNull a negated => (a.eval r).isNull != negated

def columns : Test → List Nat
  | equal a b => a.column?.toList ++ b.column?.toList
  | isNull a _ => a.column?.toList

end Test

def passes (test : Option Test) (r : Row) : Bool := test.all (·.holds r)

/-! ### Aggregates -/

/-- The sum so far: all integers, or with other values among them. Infinities
of both signs have no sum. -/
inductive Sum
  | none
  | exact (n : Int)
  | mixed (x : Option Double)
  | overflow

/-- The number that a value counts as in a sum. -/
def Value.summand : Value → Option (Int ⊕ Double)
  | .null => .none
  | v =>
    match v.toNumber with
    | .integer n => some (.inl n)
    | .real x => some (.inr x)
    | _ => some (.inr (.ofInt 0))

def Sum.add : Sum → Option (Int ⊕ Double) → Sum
  | s, .none => s
  | .none, some (.inl n) => .exact n
  | .none, some (.inr x) => .mixed x
  | .exact m, some (.inl n) => if isInt64 (m + n) then .exact (m + n) else .overflow
  | .exact m, some (.inr x) => .mixed ((Double.ofInt m).add? x)
  | .mixed y, some (.inl n) => .mixed (y.bind fun y => y.add? (.ofInt n))
  | .mixed y, some (.inr x) => .mixed (y.bind fun y => y.add? x)
  | .overflow, _ => .overflow

def Sum.value : Sum → Except Cause Value
  | .none => .ok .null
  | .exact n => .ok (.integer n)
  | .mixed x => .ok (x.elim .null .real)
  | .overflow => .error .sumOverflow

/-- Whether the first value takes the place of the best one so far. -/
def isBetter (better : Ordering) (v best : Value) : Bool :=
  !v.isNull && (best.isNull || v.order best == better)

/-- The extreme value but for nulls; `better` compares with the best so far. -/
def extreme (better : Ordering) (values : List Value) : Value :=
  values.foldl (fun best v => if isBetter better v best then v else best) .null

/-- The first ones of equal values. -/
def distinctValues (values : List Value) : List Value :=
  values.foldl (fun seen v => if seen.any v.equals then seen else seen ++ [v]) []

def Aggregate.eval (values : List Value) : Aggregate → Except Cause Value
  | .count => .ok (.integer (values.countP fun v => !v.isNull))
  | .sum => (values.foldl (fun s v => s.add v.summand) Sum.none).value
  | .min => .ok (extreme .lt values)
  | .max => .ok (extreme .gt values)

/-- How a better value compares with the best one so far, if an aggregate looks for the best. -/
def Aggregate.better? : Aggregate → Option Ordering
  | .min => some .lt
  | .max => some .gt
  | _ => .none

/-! ### Queries -/

namespace Output

def isAggregate : Output → Bool
  | term _ => false
  | _ => true

def columns : Output → List Nat
  | term t => t.column?.toList
  | countRows => []
  | aggregate _ _ t => t.column?.toList

/-- The value over all rows; a term has the value of the row that stands for them. -/
def evalAll (rows : List Row) (standing : Option Row) : Output → Except Cause Value
  | term t => .ok (standing.elim .null t.eval)
  | countRows => .ok (.integer rows.length)
  | aggregate f distinct t =>
    let values := rows.map t.eval
    f.eval (if distinct then distinctValues values else values)

def eval (r : Row) : Output → Value
  | term t => t.eval r
  | _ => .null

/-- The extreme value that an output looks for. -/
def extreme? : Output → Option (Ordering × Term)
  | aggregate f _ t => f.better?.map (·, t)
  | _ => none

end Output

/-- The row that stands for all rows beside an extreme value: the first one that
has it, or the last row if all values are null. -/
def extremeRow (better : Ordering) (t : Term) (rows : List Row) : Option Row :=
  let value (r : Option Row) : Value := r.elim .null t.eval
  rows.foldl
    (fun best r => if (value best).isNull || isBetter better (t.eval r) (value best) then some r
      else best) none

/-- The row that stands for all rows: the first one, unless an extreme value is
looked for. An index gives the least value beyond the nulls. -/
def standingRow (t : Option Table) (outs : List Output) (rows : List Row) : Option Row :=
  match (outs.filterMap Output.extreme?).getLast? with
  | some (.lt, .column k a) =>
    if (t.elim [] Table.indexed).contains k && outs.countP Output.isAggregate = 1 then
      extremeRow .lt (.column k a) (rows.filter fun r => !(r.get k).isNull)
    else extremeRow .lt (.column k a) rows
  | some (better, x) => extremeRow better x rows
  | none => rows.head?

/-- The rows that a query answers. -/
def selectRows (t : Option Table) (outs : List Output) (test : Option Test) :
    Except Cause (List Row) :=
  let used := outs.flatMap Output.columns ++ test.elim [] Test.columns
  let rows := (t.elim [[]] fun t => t.scan used).filter (passes test)
  if outs.any Output.isAggregate then do
    return [← outs.mapM (Output.evalAll rows (standingRow t outs rows))]
  else .ok (rows.map fun r => outs.map (Output.eval r))

/-- The first value of the first row, with the name of its column. -/
abbrev Answer := Option (Value × String)

def select (t : Option Table) (outs : List (Output × String)) (test : Option Test) :
    Except Cause Answer := do
  match ← selectRows t (outs.map (·.1)) test, outs with
  | r :: _, (_, label) :: _ => return some (r.get 0, label)
  | _, _ => return none

/-! ### Running a plan -/

def change (changes : List (Nat × Term)) (r : Row) : Row :=
  changes.foldl (fun s c => s.set c.1 (c.2.eval r)) r

/-- Whether the text of a table can be read again. Its first word must not be
the one that begins a condition. -/
def Table.isReadable (t : Table) : Bool :=
  !sameName (String.ofList (t.text.toList.takeWhile Lexeme.isNameChar)) "if"

/-- Whether a plan changes the database, or might. -/
def Plan.writes : Plan → Bool
  | create _ => true
  | drop _ => true
  | insert _ _ => true
  | delete _ _ => true
  | update _ _ _ => true
  | _ => false

/-- The database after a plan, and the answer. The plans of transactions leave it alone. -/
def Plan.run (d : Database) : Plan → Except Cause (Database × Answer)
  | create t => if t.isReadable then .ok (d.add t, none) else .error (.malformedSchema t.name)
  | drop name => .ok (d.drop name, none)
  | insert t rows => do return (d.replace (← t.insertRows rows), none)
  | delete t test => .ok (d.replace (t.deleteRows (passes test)), none)
  | update t changes test => do
    return (d.replace (← t.updateRows (passes test) (change changes)), none)
  | select t outs test => do return (d, ← Sql.select t outs test)
  | _ => .ok (d, none)

end SipMigrate.Sql
