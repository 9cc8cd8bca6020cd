import SipMigrate.Sql.Parser
import SipMigrate.Sql.Plan

/-! A connection to a database. A transaction works on a copy of the committed
database, and a failed statement changes nothing and leaves it open. -/

namespace SipMigrate.Sql

/-- What a connection may do with its database. -/
inductive Access
  | full
  | readOnly
  /-- Changes cannot be recorded, so none can be made. -/
  | unrecorded
deriving DecidableEq, Repr

structure Transaction where
  database : Database
  /-- Whether something malformed has been found. Then nothing more is changed,
  and the transaction cannot be committed. -/
  isMalformed : Bool
deriving DecidableEq, Repr

structure Connection where
  committed : Database
  working : Option Transaction
  access : Access
deriving DecidableEq, Repr

def Cause.isMalformed : Cause → Bool
  | .malformedSchema _ => true
  | _ => false

namespace Connection

/-- A connection without an open transaction. -/
def start (d : Database) : Connection := ⟨d, none, .full⟩

/-- The connection without its open transaction. -/
def reopen (c : Connection) : Connection := { c with working := none }

def isAutocommit (c : Connection) : Bool := c.working.isNone

/-- The database as statements see it. -/
def view (c : Connection) : Database := c.working.elim c.committed Transaction.database

def store (c : Connection) (d : Database) : Connection :=
  match c.working with
  | some t => { c with working := some { t with database := d } }
  | none => { c with committed := d }

/-- What keeps a connection from changing anything. -/
def obstacle? (c : Connection) : Option Cause :=
  if c.working.any Transaction.isMalformed then some .malformed
  else if c.access = .readOnly then some .readOnly
  else none

/-- The connection after a failure. -/
def afterFailure (c : Connection) (cause : Cause) : Connection :=
  if cause.isMalformed then
    { c with working := c.working.map fun t => { t with isMalformed := true } }
  else c

/-- Runs a plan that is not one of a transaction. -/
def perform (c : Connection) (p : Plan) : Except Cause Answer × Connection :=
  match p.run c.view with
  | .ok (d, a) =>
    if p.writes && c.access = .unrecorded then (.error .cannotOpenCompanion, c)
    else (.ok a, c.store d)
  | .error cause => (.error cause, c.afterFailure cause)

def step (c : Connection) : Plan → Except Cause Answer × Connection
  | .begin =>
    match c.working with
    | some _ => (.error .nestedTransaction, c)
    | none => (.ok none, { c with working := some ⟨c.committed, false⟩ })
  | .commit =>
    match c.working with
    | some t =>
      if t.isMalformed then (.error .malformed, c.reopen)
      else (.ok none, { c with committed := t.database, working := none })
    | none => (.error .commitOutside, c)
  | .rollback =>
    match c.working with
    | some _ => (.ok none, c.reopen)
    | none => (.error .rollbackOutside, c)
  | p =>
    match p.writes, c.obstacle? with
    | true, some cause => (.error cause, c)
    | _, _ => c.perform p

/-- The plan of a statement; blanks and semicolons alone are none. -/
def prepare (c : Connection) (statement : List Lexeme) : Except Fault (Option Plan) :=
  match (Token.ofLexemes statement).dropWhile (·.isSymbol ";") with
  | [] => .ok none
  | tokens => do return some (← (← Parser.statement tokens).plan c.view)

/-- The characters before the first NUL, which ends a text. -/
def visible (text : List Char) : List Char := text.takeWhile (· ≠ '\x00')

def hidden (text : List Char) : List Char := text.dropWhile (· ≠ '\x00')

/-- The text from a statement to the end. -/
def textFrom (statements : List (List Lexeme)) (hidden : List Char) : String :=
  String.ofList (statements.flatMap (·.flatMap (·.chars)) ++ hidden)

/-- Executes statements up to the first failure. -/
def executeAll (c : Connection) (hidden : List Char) :
    List (List Lexeme) → Except SqlError Unit × Connection
  | [] => (.ok (), c)
  | s :: rest =>
    match c.prepare s with
    | .error f => (.error (f.error (textFrom (s :: rest) hidden)), c)
    | .ok none => c.executeAll hidden rest
    | .ok (some p) =>
      match c.step p with
      | (.ok _, c) => c.executeAll hidden rest
      | (.error cause, c) => (.error (.failure cause), c)

def execute (c : Connection) (sql : String) : Except SqlError Unit × Connection :=
  c.executeAll (hidden sql.toList) (Lexeme.statements (Lexeme.cut (visible sql.toList)))

/-- An answer as an integer; no row and a null are none. -/
def integerAnswer : Answer → Except SqlError (Option Int)
  | none => .ok none
  | some (.null, _) => .ok none
  | some (.integer n, _) => .ok (some n)
  | some (.real _, label) => .error (.oddAnswer .real label)
  | some (.text _, label) => .error (.oddAnswer .text label)

/-- Runs the first statement of a text, whatever follows it. -/
def query (c : Connection) (sql : String) : Except SqlError (Option Int) × Connection :=
  let first := (Lexeme.statements (Lexeme.cut (visible sql.toList))).headD []
  match c.prepare first with
  | .error f => (.error (f.error sql), c)
  | .ok none => (.error (.failure .noStatement), c)
  | .ok (some p) =>
    match c.step p with
    | (.ok a, c) => (integerAnswer a, c)
    | (.error cause, c) => (.error (.failure cause), c)

end Connection

end SipMigrate.Sql
