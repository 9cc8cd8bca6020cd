import SipMigrate.Executor.Basic
import SipMigrate.Text.Basic

/-! An executor that keeps the calls it gets, and fails some of them. -/

namespace SipMigrate.Executor

inductive Kind
  | execute
  | query
  | tableExists
  | begin
  | commit
  | rollback
deriving DecidableEq, Repr

def Call.kind : Call → Kind
  | .execute _ => .execute
  | .query _ => .query
  | .tableExists _ => .tableExists
  | .begin => .begin
  | .commit => .commit
  | .rollback => .rollback

/-- The statement or the table of a call. -/
def Call.subject : Call → String
  | .execute sql => sql
  | .query sql => sql
  | .tableExists table => table
  | _ => ""

/-- Fails calls of one kind: the `nth` one, if that is given, and only those
whose subject contains a text, if that is given. -/
structure Fault where
  kind : Kind
  nth : Option Nat
  contains : Option String
  message : String

/-- Whether a fault hits the `n`-th call of its kind. -/
def Fault.hits (f : Fault) (n : Nat) (c : Call) : Bool :=
  f.kind = c.kind && f.nth.all (· == n) &&
    f.contains.all fun text => Text.occursIn text.toList c.subject.toList

structure Recorder (σ : Type) where
  inner : σ
  /-- The calls made so far, in order. -/
  calls : List Call

/-- Keeps each call; the first fault that hits it fails it, and then it goes no further. -/
def recorded {σ : Type} (faults : List Fault) (x : Executor σ) : Executor (Recorder σ) where
  answer c r :=
    let calls := r.calls ++ [c]
    match faults.find? fun f => f.hits (calls.countP fun d => d.kind = c.kind) c with
    | some f => (.error (.driver f.message), { r with calls := calls })
    | none =>
      let (a, s) := x.answer c r.inner
      (a, ⟨s, calls⟩)

end SipMigrate.Executor
