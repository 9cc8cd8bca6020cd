import SipMigrate.Executor.Basic

/-! An executor whose answers are given beforehand. Statements and transaction
calls succeed; when the answers have run out, a query gives nothing and no
table exists. -/

namespace SipMigrate.Executor

structure Script where
  queries : List (Option Int)
  tables : List Bool

def scripted : Executor Script where
  answer
    | .execute _, s => (.ok (), s)
    | .query _, s => (.ok (s.queries.headD none), { s with queries := s.queries.tail })
    | .tableExists _, s => (.ok (s.tables.headD false), { s with tables := s.tables.tail })
    | .begin, s => (.ok (), s)
    | .commit, s => (.ok (), s)
    | .rollback, s => (.ok (), s)

end SipMigrate.Executor
