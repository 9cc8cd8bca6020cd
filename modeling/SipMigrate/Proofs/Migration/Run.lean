import Mathlib
import SipMigrate.Migration.Runner

/-! How the computations of a run act on the state of an executor. -/

namespace SipMigrate.Migration

open Executor

variable {σ α β : Type}

namespace Run

@[simp] theorem run_pure (a : α) (s : σ) : (pure a : Run σ α).run s = (.ok a, s) := rfl

@[simp] theorem run_ofExcept (r : Except MigrationError α) (s : σ) :
    (ofExcept r : Run σ α).run s = (r, s) := rfl

theorem run_bind (r : Run σ α) (k : α → Run σ β) (s : σ) :
    (r >>= k).run s =
      match r.run s with
      | (.ok a, s) => (k a).run s
      | (.error e, s) => (.error e, s) := by
  show (ExceptT.bindCont k (r.run s).1 (r.run s).2) = _
  rcases r.run s with ⟨_ | _, _⟩ <;> rfl

theorem run_bind_of_ok {r : Run σ α} {s s' : σ} {a : α} (h : r.run s = (.ok a, s'))
    (k : α → Run σ β) : (r >>= k).run s = (k a).run s' := by
  rw [run_bind, h]

theorem run_bind_of_error {r : Run σ α} {s s' : σ} {e : MigrationError}
    (h : r.run s = (.error e, s')) (k : α → Run σ β) : (r >>= k).run s = (.error e, s') := by
  rw [run_bind, h]

theorem run_cleaning_of_ok {r : Run σ α} {s s' : σ} {a : α} (h : r.run s = (.ok a, s'))
    (clean : StateM σ Unit) : (r.cleaning clean).run s = (.ok a, s') := by
  simp [cleaning, h]

theorem run_cleaning_of_error {r : Run σ α} {s s' : σ} {e : MigrationError}
    (h : r.run s = (.error e, s')) (clean : StateM σ Unit) :
    (r.cleaning clean).run s = (.error e, (clean s').2) := by
  simp [cleaning, h]

end Run

/-! ### Asking -/

variable {x : Executor σ} {c : Call} {s s' : σ}

theorem run_demand_of_ok {a : c.Answer} (h : x.answer c s = (.ok a, s')) :
    (demand x c).run s = (.ok a, s') := by
  simp [demand, h]

theorem run_demand_of_error {e : ExecutorError} (h : x.answer c s = (.error e, s')) :
    (demand x c).run s = (.error (.executor e), s') := by
  simp [demand, h]

/-! A statement of a step. -/

theorem executeAll_cons_of_ok {sql : String} {rest : List String} {r : Record}
    (h : x.answer (.execute sql) s = (.ok (), s')) :
    (executeAll x r (sql :: rest)).run s = (executeAll x r rest).run s' := by
  simp [executeAll, Run.run_bind, h]

theorem executeAll_cons_of_error {sql : String} {rest : List String} {r : Record}
    {e : ExecutorError} (h : x.answer (.execute sql) s = (.error e, s')) :
    (executeAll x r (sql :: rest)).run s = (.error (.statement r.version r.file sql e), s') := by
  simp [executeAll, Run.run_bind, h]

/-! What a run does with its first step. -/

section Steps

variable {t : TableName} {w : Surroundings} {r : Report} {p : Option Version} {step : Step}
  {rest : List Step}

theorem applySteps_of_refused {e : MigrationError}
    (h : isDue r.finalVersion p step.version = .error e) :
    (applySteps x t w r p (step :: rest)).run s = (.error e, s) := by
  rw [applySteps, h]
  rfl

theorem applySteps_of_skipped (h : isDue r.finalVersion p step.version = .ok false) :
    (applySteps x t w r p (step :: rest)).run s =
      (applySteps x t w r.skip (some step.version) rest).run s := by
  rw [applySteps, h]
  rfl

theorem applySteps_of_failed {e : MigrationError}
    (h : isDue r.finalVersion p step.version = .ok true)
    (hs : (applyStep x t w (w.completedAt r.applied.length) step).run s = (.error e, s')) :
    (applySteps x t w r p (step :: rest)).run s = (.error e, s') := by
  rw [applySteps, h, Run.run_bind_of_ok (Run.run_ofExcept _ s), if_pos rfl,
    Run.run_bind_of_error hs]

theorem applySteps_of_applied {k : Nat} (h : isDue r.finalVersion p step.version = .ok true)
    (hs : (applyStep x t w (w.completedAt r.applied.length) step).run s = (.ok k, s')) :
    (applySteps x t w r p (step :: rest)).run s =
      (applySteps x t w (r.add step.version k) (some step.version) rest).run s' := by
  rw [applySteps, h, Run.run_bind_of_ok (Run.run_ofExcept _ s), if_pos rfl, Run.run_bind_of_ok hs]

end Steps

/-! What a run does after its opening. -/

section Opening

variable {t : TableName} {w : Surroundings} {steps : List Step}

theorem apply_of_openRun {n : Version} (h : (openRun x t).run s = (.ok n, s')) :
    (apply x t w steps).run s = (applySteps x t w ⟨[], 0, 0, n⟩ none steps).run s' := by
  rw [apply, Run.run_bind_of_ok h]

theorem apply_of_openRun_error {e : MigrationError}
    (h : (openRun x t).run s = (.error e, s')) :
    (apply x t w steps).run s = (.error e, s') := by
  rw [apply, Run.run_bind_of_error h]

end Opening

/-! Cleaning up. -/

theorem attempt_snd (x : Executor σ) (c : Call) (s : σ) :
    (attempt x c s).2 = (x.answer c s).2 := rfl

theorem abandon_snd (x : Executor σ) (t : TableName) (r : Record) (s : σ) :
    (abandon x t r s).2 =
      (x.answer .rollback (x.answer (.execute (ControlTable.delete t.text r)) s).2).2 := rfl

end SipMigrate.Migration
