import SipMigrate.Proofs.Migration.Effect
import SipMigrate.Proofs.Migration.SideBySide

/-! Runs against databases that are alike but for completion times. The time at which
a step is completed has no part in what later steps do: on databases that differ in such
times alone, steps have the same outcome, and leave databases that are alike again. A
step that fails leaves the connection exactly as it was. -/

namespace SipMigrate.Migration

open Sql Executor ControlTable

/-! ### Completion times -/

/-- A row without its completion time. That it has one stays. -/
def timeless (s : Row) : Row := if (s.get 3).isNull then s else s.set 3 (.integer 0)

variable {t : TableName} {c c' e e' : Connection} {w x : Transaction} {n : Version}
  {rows rows' : List Row} {r : Record}

/-- No transaction is open, the control table tells version `n`, and no step is in flight. -/
structure Ready (t : TableName) (c : Connection) (n : Version) (rows : List Row) : Prop where
  working : c.working = none
  isCreatable : t.IsCreatable
  has : c.committed.Has t.text (table t rows)
  atVersion : AtVersion n.toNat rows

/-- Two connections that differ in the completion times of the control table alone. -/
structure Alike (t : TableName) (n : Version) (c : Connection) (rows : List Row) (e : Connection)
    (rows' : List Row) : Prop where
  left : Ready t c n rows
  right : Ready t e n rows'
  access : c.access = e.access
  agrees : Agrees t c.committed e.committed
  rows : rows.map timeless = rows'.map timeless

/-- Connections as they are in transactions opened on `c` and `e`. -/
def Opened (c e c' e' : Connection) : Prop := (∃ w, c' = c.within w) ∧ ∃ x, e' = e.within x

/-- Connections as they were. -/
def Back (c e c' e' : Connection) : Prop := c = c' ∧ e = e'

theorem back_of_reopen (hc : c'.reopen = c) (he : e'.reopen = e) :
    Back c e (attempt database .rollback c').2 (attempt database .rollback e').2 := by
  rw [attempt_snd, attempt_snd, answer_rollback, answer_rollback]
  exact ⟨hc.symm, he.symm⟩

/-- A rollback leads back to where a step began. -/
theorem Opened.rollback (hc : c.working = none) (he : e.working = none)
    (h : Opened c e c' e') :
    Back c e (attempt database .rollback c').2 (attempt database .rollback e').2 := by
  obtain ⟨⟨w, rfl⟩, x, rfl⟩ := h
  exact back_of_reopen (reopen_of_working hc) (reopen_of_working he)

theorem Back.rollback (hc : c.working = none) (he : e.working = none) (h : Back c e c' e') :
    Back c e (attempt database .rollback c').2 (attempt database .rollback e').2 := by
  obtain ⟨rfl, rfl⟩ := h
  exact back_of_reopen (reopen_of_working hc) (reopen_of_working he)

/-- So does abandoning it, whatever it has done. -/
theorem Opened.abandon (ht : t.IsCreatable) (hc : c.working = none) (he : e.working = none)
    (h : Opened c e c' e') :
    Back c e (abandon database t r c').2 (abandon database t r e').2 := by
  obtain ⟨⟨w, rfl⟩, x, rfl⟩ := h
  have hdelete := delete_readsPlain t (r := r) ht.isWord
  obtain ⟨a, w', hw⟩ := Connection.execute_within (c := c) (w := w) hdelete
  obtain ⟨b, x', hx⟩ := Connection.execute_within (c := e) (w := x) hdelete
  rw [abandon_snd, abandon_snd, answer_execute, answer_execute, hw, hx]
  exact Opened.rollback hc he ⟨⟨w', rfl⟩, x', rfl⟩

/-- Two runs, which stood at reports `r` and `r'`, end in the same way: with one error, or
with the same added to both reports. -/
inductive SameEnd (r r' : Report) :
    Except MigrationError Report → Except MigrationError Report → Prop
  | error (err : MigrationError) : SameEnd r r' (.error err) (.error err)
  | ok (applied : List Version) (skipped statements : Nat) (final : Version) :
    SameEnd r r'
      (.ok ⟨r.applied ++ applied, r.skipped + skipped, r.statements + statements, final⟩)
      (.ok ⟨r'.applied ++ applied, r'.skipped + skipped, r'.statements + statements, final⟩)

variable {q q' : Report} {o o' : Except MigrationError Report}

theorem SameEnd.refl (h : q.finalVersion = q'.finalVersion) : SameEnd q q' (.ok q) (.ok q') := by
  have : SameEnd q q' _ _ := .ok [] 0 0 q.finalVersion
  rw [List.append_nil, List.append_nil] at this
  have hq : q' = ⟨q'.applied, q'.skipped + 0, q'.statements + 0, q.finalVersion⟩ := by
    rw [h]
    rfl
  rw [← hq] at this
  exact this

end SipMigrate.Migration
