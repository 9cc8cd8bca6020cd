import SipMigrate.Executor.Basic

/-! Calls with their answers. What an executor was asked and what it answered
is a list of events that leads from one of its states to another. -/

namespace SipMigrate.Executor

/-- A call and the answer that it got. -/
structure Event where
  call : Call
  answer : Except ExecutorError call.Answer

/-- The events are the answers of an executor to calls made one after the other. -/
inductive Trace {σ : Type} (x : Executor σ) : σ → List Event → σ → Prop
  | nil (s : σ) : Trace x s [] s
  | cons (c : Call) (s : σ) {rest : List Event} {s' : σ} (h : Trace x (x.answer c s).2 rest s') :
    Trace x s (⟨c, (x.answer c s).1⟩ :: rest) s'

/-- The state of an executor, and the events so far. -/
structure Log (σ : Type) where
  inner : σ
  events : List Event

/-- Notes each call with its answer. -/
def logged {σ : Type} (x : Executor σ) : Executor (Log σ) where
  answer c l :=
    let (a, s) := x.answer c l.inner
    (a, ⟨s, l.events ++ [⟨c, a⟩]⟩)

end SipMigrate.Executor
