import SipMigrate.Sql.Error

/-! What a migration run may ask of a database. An executor answers the calls
one by one and keeps a state between them. -/

namespace SipMigrate.Executor

open Text

inductive Call
  | execute (sql : String)
  /-- The first column of the first row, as an integer. -/
  | query (sql : String)
  | tableExists (table : String)
  | begin
  | commit
  | rollback
deriving DecidableEq, Repr

inductive ExecutorError
  | database (cause : Sql.SqlError)
  | driver (message : String)
deriving DecidableEq, Repr

namespace ExecutorError

def message : ExecutorError → String
  | database cause => "sqlite error: " ++ cause.message
  | driver m => "driver error: " ++ m

def form : ExecutorError → String
  | database cause => Form.applied "Sqlite" [cause.form]
  | driver m => Form.record "Driver" [("message", quoted m)]

end ExecutorError

/-- The type of the answer to a call. -/
abbrev Call.Answer : Call → Type
  | .query _ => Option Int
  | .tableExists _ => Bool
  | _ => Unit

end Executor

/-- An executor with states in `σ`. -/
structure Executor (σ : Type) where
  answer : (c : Executor.Call) → σ → Except Executor.ExecutorError c.Answer × σ

end SipMigrate
