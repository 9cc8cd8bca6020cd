import Mathlib
import SipMigrate.Executor.Event

/-! Traces one after the other are a trace, and the log of an executor is its trace. -/

namespace SipMigrate.Executor

variable {σ : Type} {x : Executor σ}

namespace Trace

theorem single (c : Call) (s : σ) : Trace x s [⟨c, (x.answer c s).1⟩] (x.answer c s).2 :=
  .cons c s (.nil _)

theorem append {s₁ s₂ s₃ : σ} {l₁ l₂ : List Event} (h₁ : Trace x s₁ l₁ s₂)
    (h₂ : Trace x s₂ l₂ s₃) : Trace x s₁ (l₁ ++ l₂) s₃ := by
  induction h₁ with
  | nil => exact h₂
  | cons c s _ ih => exact .cons c s (ih h₂)

theorem of_answer {c : Call} {s s' : σ} {a : Except ExecutorError c.Answer}
    (h : x.answer c s = (a, s')) : Trace x s [⟨c, a⟩] s' := by
  have := single (x := x) c s
  rwa [h] at this

/-- The log grows by exactly the events, and the executor inside answers them. -/
theorem of_logged {l l' : Log σ} {events : List Event} (h : Trace (logged x) l events l') :
    l'.events = l.events ++ events ∧ Trace x l.inner events l'.inner := by
  induction h with
  | nil l => exact ⟨by simp, .nil _⟩
  | cons c l _ ih =>
    refine ⟨?_, .cons c _ ih.2⟩
    rw [ih.1]
    simp [logged]

end Trace

end SipMigrate.Executor
