import SipMigrate.Proofs.Migration.Standing

/-! Computations that look at the control table. They ask whether it is there and query it;
at most they create it. This is told by the calls they make, against any executor. -/

namespace SipMigrate.Migration

open Sql Executor ControlTable

/-- All calls that a computation makes are of one kind. -/
def Run.Asks {σ α : Type} (x : Executor σ) (p : Call → Prop) (q : Run σ α) : Prop :=
  ∀ s, ∃ l, Trace x s l (q.run s).2 ∧ ∀ ev ∈ l, p ev.call

namespace Run.Asks

variable {σ α β : Type} {x : Executor σ} {p p' : Call → Prop}

theorem pure (a : α) : Asks x p (Pure.pure a : Run σ α) := fun s => ⟨[], .nil s, by simp⟩

theorem ofExcept (r : Except MigrationError α) : Asks x p (Run.ofExcept r) :=
  fun s => ⟨[], .nil s, by simp⟩

theorem demand {c : Call} (h : p c) : Asks x p (Migration.demand x c) := by
  intro s
  refine ⟨[⟨c, (x.answer c s).1⟩], ?_, by simpa using h⟩
  rcases ha : x.answer c s with ⟨e | a, s'⟩
  · rw [run_demand_of_error ha]
    exact .of_answer ha
  · rw [run_demand_of_ok ha]
    exact .of_answer ha

theorem bind {q : Run σ α} {k : α → Run σ β} (h : Asks x p q) (hk : ∀ a, Asks x p (k a)) :
    Asks x p (q >>= k) := by
  intro s
  obtain ⟨l, hl, hp⟩ := h s
  rcases hq : q.run s with ⟨e | a, s'⟩
  · rw [hq] at hl
    rw [Run.run_bind_of_error hq]
    exact ⟨l, hl, hp⟩
  · rw [hq] at hl
    rw [Run.run_bind_of_ok hq]
    obtain ⟨l', hl', hp'⟩ := hk a s'
    refine ⟨l ++ l', hl.append hl', ?_⟩
    simp only [List.mem_append]
    rintro ev (hev | hev)
    · exact hp ev hev
    · exact hp' ev hev

theorem mono {q : Run σ α} (h : Asks x p q) (hp : ∀ c, p c → p' c) : Asks x p' q := by
  intro s
  obtain ⟨l, hl, hall⟩ := h s
  exact ⟨l, hl, fun ev hev => hp _ (hall ev hev)⟩

/-- The events in the log of a computation are of the kind as well. -/
theorem logged {q : Run (Log σ) α} (h : Asks (Executor.logged x) p q) (s : σ) :
    ∀ ev ∈ (q.run ⟨s, []⟩).2.events, p ev.call := by
  obtain ⟨l, hl, hall⟩ := h ⟨s, []⟩
  rw [hl.of_logged.1, List.nil_append]
  exact hall

end Run.Asks

/-- The calls that look at the control table and leave it as it is. -/
def Peeks (t : TableName) : Call → Prop
  | .query sql => sql ∈ [selectCurrent t.text, selectLock t.text, selectCount t.text]
  | .tableExists name => name = t.text
  | _ => False

theorem Peeks.looks {t : TableName} {c : Call} (h : Peeks t c) : Looks t c := by
  cases c with
  | query sql => exact h
  | tableExists name => trivial
  | execute | begin | commit | rollback => exact h.elim

section Looking

variable {σ : Type} (x : Executor σ) (t : TableName)

theorem currentVersion_peeks : Run.Asks x (Peeks t) (currentVersion x t) := by
  refine .bind (.demand (by simp [Peeks])) fun a => ?_
  cases a
  · exact .pure _
  · exact .ofExcept _

theorem lockedVersion_peeks : Run.Asks x (Peeks t) (lockedVersion x t) := by
  refine .bind (.demand (by simp [Peeks])) fun a => ?_
  cases a
  · exact .pure _
  · exact .ofExcept _

theorem status_peeks : Run.Asks x (Peeks t) (status x t) := by
  refine .bind (.demand rfl) fun isThere => ?_
  cases isThere
  · exact .pure _
  · refine .bind (.demand (by simp [Peeks])) fun count => ?_
    refine .bind (currentVersion_peeks x t) fun current => ?_
    exact .bind (lockedVersion_peeks x t) fun locked => .pure _

theorem pending_peeks (steps : List Step) : Run.Asks x (Peeks t) (pending x t steps) :=
  .bind (status_peeks x t) fun _ => .pure _

theorem ensureTable_looks : Run.Asks x (Looks t) (ensureTable x t) := .demand rfl

theorem currentVersion_looks : Run.Asks x (Looks t) (currentVersion x t) :=
  (currentVersion_peeks x t).mono fun _ => Peeks.looks

theorem lockedVersion_looks : Run.Asks x (Looks t) (lockedVersion x t) :=
  (lockedVersion_peeks x t).mono fun _ => Peeks.looks

theorem status_looks : Run.Asks x (Looks t) (status x t) :=
  (status_peeks x t).mono fun _ => Peeks.looks

theorem pending_looks (steps : List Step) : Run.Asks x (Looks t) (pending x t steps) :=
  (pending_peeks x t steps).mono fun _ => Peeks.looks

end Looking

end SipMigrate.Migration
