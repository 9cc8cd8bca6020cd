import SipMigrate.Proofs.Migration.Foresight
import SipMigrate.Proofs.Migration.ScriptTransactions

/-! Names for a control table. The check of a name looks at its characters alone, but the
name stands as it is in every statement on the table. Under a reserved word, a name that
is kept for internal use or the word `if`, no table can be made, and then nothing is
changed; under every other name one is made, and all that is asked of it is answered. -/

namespace SipMigrate.Migration

open Sql Executor ControlTable

variable {t : TableName} {c : Connection} {n : Version} {rows : List Row}

/-! ### A control table that is there -/

theorem Ready.hasTable (h : Ready t c n rows) : c.committed.hasTable t.text = true :=
  List.any_eq_true.mpr
    ⟨table t rows, List.mem_of_find?_eq_some h.has.table?, decide_eq_true rfl⟩

theorem Ready.answer_tableExists (h : Ready t c n rows) :
    database.answer (.tableExists t.text) c = (.ok true, c) := by
  show (Except.ok (c.view.hasTable t.text), c) = _
  rw [view_of_working h.working, h.hasTable]

theorem Ready.status (h : Ready t c n rows) :
    (status database t).run c = (.ok ⟨n, none, (versions true rows).length⟩, c) := by
  obtain ⟨a, ha, hv⟩ := h.answer_current
  have hcurrent := currentVersion_run database t ha
  rw [hv] at hcurrent
  have hlocked := lockedVersion_run database t h.answer_lock
  unfold Migration.status
  rw [Run.run_bind_of_ok (run_demand_of_ok h.answer_tableExists), if_pos rfl,
    Run.run_bind_of_ok (run_demand_of_ok (answer_query_of_ok
      (query_selectCount h.isCreatable h.view))),
    Run.run_bind_of_ok hcurrent, Run.run_bind_of_ok hlocked]
  rfl

/-- A run without steps reports the version of the control table. -/
theorem Ready.apply_nil (h : Ready t c n rows) (w : Surroundings) :
    (apply database t w []).run c = (.ok ⟨[], 0, 0, n⟩, c) := by
  rw [apply_of_openRun h.openRun]
  rfl

/-! ### A control table that is made -/

/-- On a database without a control table one can be made, and it is found and is empty;
so it is by a run, too. -/
structure Works (t : TableName) (c : Connection) : Prop where
  makes : ∃ c', (ensureTable database t).run c = (.ok (), c') ∧
    (database.answer (.tableExists t.text) c').1 = .ok true ∧
    ((status database t).run c').1 = .ok ⟨0, none, 0⟩ ∧
    ∀ w, ((apply database t w []).run c').1 = .ok ⟨[], 0, 0, 0⟩
  applies : ∀ w, ((apply database t w []).run c).1 = .ok ⟨[], 0, 0, 0⟩

theorem ready_of_created (ht : t.IsCreatable) (hw : c.working = none)
    (hn : c.committed.table? t.text = none) :
    Ready t (c.store (c.view.add (table t []))) 0 [] := by
  rw [Connection.store, hw, view_of_working hw]
  exact ⟨rfl, ht, Database.has_add_self hn sameName_table, Complete.zero.atVersion⟩

theorem works_of_isCreatable (ht : t.IsCreatable) (ha : c.access = .full) (hw : c.working = none)
    (hn : c.committed.table? t.text = none) : Works t c := by
  have hready := ready_of_created ht hw hn
  have hrefusal : c.refusal? = none :=
    refusal?_eq_none.mpr ⟨by simp [Connection.isSound, hw], ha⟩
  have hcreate : database.answer (.execute (create t.text)) c =
      (.ok (), c.store (c.view.add (table t []))) := by
    refine answer_execute_of_ok ?_
    rw [execute_create_of_none ht (by rw [view_of_working hw, hn]), hrefusal]
  obtain ⟨a, hcurrent, hv⟩ := hready.answer_current
  have hopen := openRun_of_answers hcreate hcurrent hready.answer_lock hv
  refine ⟨⟨_, run_demand_of_ok hcreate, ?_, ?_, fun w => ?_⟩, fun w => ?_⟩
  · rw [hready.answer_tableExists]
  · rw [hready.status]
    rfl
  · rw [hready.apply_nil]
  · rw [apply_of_openRun hopen]
    rfl

/-- A connection that refuses to make the table, or a name that does not allow it. -/
theorem execute_create_refused (h : ¬(t.IsCreatable ∧ c.access = .full)) (hw : c.working = none)
    (hn : c.committed.table? t.text = none) :
    ∃ e, c.execute (create t.text) = (.error e, c) := by
  have hview : c.view.table? t.text = none := by rw [view_of_working hw, hn]
  by_cases ht : t.IsCreatable
  · have hcreate := execute_create_of_none ht hview
    cases hr : c.refusal? with
    | none => exact absurd ⟨ht, (refusal?_eq_none.mp hr).2⟩ h
    | some cause =>
      rw [hr] at hcreate
      exact ⟨_, hcreate⟩
  · exact execute_create_of_not ht hw hview

/-- Where no control table can be made, no run gets beyond its first statement, and everything
stays as it is. -/
theorem not_works_of_not (h : ¬(t.IsCreatable ∧ c.access = .full)) (hw : c.working = none)
    (hn : c.committed.table? t.text = none) :
    ¬Works t c ∧ ∃ e, (ensureTable database t).run c = (.error e, c) ∧
      ∀ w steps, (apply database t w steps).run c = (.error e, c) := by
  obtain ⟨e, he⟩ := execute_create_refused h hw hn
  have hensure : (ensureTable database t).run c = (.error (.executor (.database e)), c) :=
    run_demand_of_error (answer_execute_of_error he)
  refine ⟨?_, _, hensure, fun w steps => apply_of_openRun_error ?_⟩
  · rintro ⟨⟨c', hmade, -⟩, -⟩
    rw [hensure] at hmade
    cases hmade
  · rw [openRun, Run.run_bind_of_error hensure]

/-- A name works precisely if it is no reserved word, no name for internal use and not `if`,
and the database can be changed. If it does not work, every run fails and changes nothing. -/
theorem works_iff (t : TableName) (c : Connection) (hw : c.working = none)
    (hn : c.committed.table? t.text = none) :
    (Works t c ↔ t.IsCreatable ∧ c.access = .full) ∧
      (¬Works t c → ∃ e, (ensureTable database t).run c = (.error e, c) ∧
        ∀ w steps, (apply database t w steps).run c = (.error e, c)) := by
  by_cases h : t.IsCreatable ∧ c.access = .full
  · have hworks := works_of_isCreatable h.1 h.2 hw hn
    exact ⟨iff_of_true hworks h, fun hno => absurd hworks hno⟩
  · obtain ⟨hno, hfails⟩ := not_works_of_not h hw hn
    exact ⟨iff_of_false hno h, fun _ => hfails⟩

theorem works_standard :
    (Connection.start .empty).committed.table? TableName.standard.text = none ∧
      Works .standard (.start .empty) :=
  ⟨rfl, (works_iff .standard (.start .empty) rfl rfl).1.mpr ⟨isCreatable_standard, rfl⟩⟩

/-- Names that pass the check and do not work: a reserved word, a name that is kept for
internal use, and a name whose table could not be read again. -/
theorem accepted_names_fail :
    ¬Works ⟨"select", by decide⟩ (.start .empty) ∧
      ¬Works ⟨"sqlite_version", by decide⟩ (.start .empty) ∧
      ¬Works ⟨"if", by decide⟩ (.start .empty) := by
  have hselect : lowerAscii "select" ∈ reservedWords := by decide
  have hinternal : isReservedTable "sqlite_version" = true := by decide
  have hif : sameName "if" "if" = true := by decide
  refine ⟨(not_works_of_not ?_ rfl rfl).1, (not_works_of_not ?_ rfl rfl).1,
    (not_works_of_not ?_ rfl rfl).1⟩
  · exact fun h => h.1.isWord hselect
  · exact fun h => absurd (h.1.isReservedTable.symm.trans hinternal) Bool.false_ne_true
  · exact fun h => absurd (h.1.isReadable.symm.trans hif) Bool.false_ne_true

end SipMigrate.Migration
