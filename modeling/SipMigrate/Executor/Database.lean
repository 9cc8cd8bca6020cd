import SipMigrate.Executor.Basic
import SipMigrate.Sql.Connection

/-! The executor of a database. -/

namespace SipMigrate.Executor

open Sql

/-- The answer of a connection as the answer of an executor. -/
def ofConnection {α : Type} (r : Except SqlError α × Connection) :
    Except ExecutorError α × Connection :=
  (r.1.mapError .database, r.2)

def transaction (c : Connection) (p : Plan) : Except ExecutorError Unit × Connection :=
  match c.step p with
  | (.ok _, c) => (.ok (), c)
  | (.error cause, c) => (.error (.database (.failure cause)), c)

def database : Executor Connection where
  answer
    | .execute sql, c => ofConnection (c.execute sql)
    | .query sql, c => ofConnection (c.query sql)
    | .tableExists table, c => (.ok (c.view.hasTable table), c)
    | .begin, c => transaction c .begin
    | .commit, c => transaction c .commit
    | .rollback, c => transaction c .rollback

/-- An executor that fails every call in the same way. -/
def refusing (e : ExecutorError) : Executor Unit where
  answer _ s := (.error e, s)

end SipMigrate.Executor
