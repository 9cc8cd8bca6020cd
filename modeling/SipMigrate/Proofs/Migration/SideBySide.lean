import SipMigrate.Proofs.Migration.Run

/-! Two computations side by side, each on its own state: either both fail, with one
error, or both succeed, with one result. What is known of the states after a failure is
kept apart from what is known of them after a success, since a failure is cleaned up. -/

namespace SipMigrate.Migration

open Executor

variable {σ α β : Type} {F G : σ → σ → Prop} {Q : α → σ → σ → Prop} {R : β → σ → σ → Prop}
  {s s' : σ}

/-- Both ends are failures with one error and states related by `F`, or both are successes
with one result and states related by `Q`. -/
def SideBySide (F : σ → σ → Prop) (Q : α → σ → σ → Prop)
    (end₁ end₂ : Except MigrationError α × σ) : Prop :=
  (∃ e s₁ s₂, end₁ = (.error e, s₁) ∧ end₂ = (.error e, s₂) ∧ F s₁ s₂) ∨
    ∃ a s₁ s₂, end₁ = (.ok a, s₁) ∧ end₂ = (.ok a, s₂) ∧ Q a s₁ s₂

namespace SideBySide

theorem of_error (e : MigrationError) (h : F s s') :
    SideBySide (α := α) F Q (.error e, s) (.error e, s') := .inl ⟨e, s, s', rfl, rfl, h⟩

theorem of_ok (a : α) (h : Q a s s') : SideBySide F Q (.ok a, s) (.ok a, s') :=
  .inr ⟨a, s, s', rfl, rfl, h⟩

theorem bind {q q' : Run σ α} {k k' : α → Run σ β} (h : SideBySide F Q (q.run s) (q'.run s'))
    (hk : ∀ a s s', Q a s s' → SideBySide F R ((k a).run s) ((k' a).run s')) :
    SideBySide F R ((q >>= k).run s) ((q' >>= k').run s') := by
  rcases h with ⟨e, s₁, s₂, h, h', hf⟩ | ⟨a, s₁, s₂, h, h', hq⟩
  · rw [Run.run_bind_of_error h, Run.run_bind_of_error h']
    exact of_error e hf
  · rw [Run.run_bind_of_ok h, Run.run_bind_of_ok h']
    exact hk a s₁ s₂ hq

theorem cleaning {q q' : Run σ α} {clean : StateM σ Unit}
    (h : SideBySide F Q (q.run s) (q'.run s'))
    (hc : ∀ s s', F s s' → G (clean s).2 (clean s').2) :
    SideBySide G Q ((q.cleaning clean).run s) ((q'.cleaning clean).run s') := by
  rcases h with ⟨e, s₁, s₂, h, h', hf⟩ | ⟨a, s₁, s₂, h, h', hq⟩
  · rw [Run.run_cleaning_of_error h, Run.run_cleaning_of_error h']
    exact of_error e (hc s₁ s₂ hf)
  · rw [Run.run_cleaning_of_ok h, Run.run_cleaning_of_ok h']
    exact of_ok a hq

end SideBySide

end SipMigrate.Migration
