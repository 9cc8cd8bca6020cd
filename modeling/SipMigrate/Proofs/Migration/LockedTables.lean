import SipMigrate.Proofs.Migration.History
import SipMigrate.Proofs.Migration.Resumption

/-! Control tables with a step in flight. Such a table refuses every run, before it looks at
the steps, and no run, refused as it is, and no look at the table changes anything. So the
row of the step stays until it is taken away by other means. -/

namespace SipMigrate.Migration

open Sql Executor ControlTable

variable {t : TableName} {c c' : Connection} {m : Version} {rows : List Row}
  {mayFail : Call → Prop}

/-! ### Looks -/

/-- Where the control table is there, neither a look at it nor its creation changes anything. -/
theorem looks_stays {ev : Event} (ht : t.IsCreatable) (hd : c.view.Has t.text (table t rows))
    (h : Looks t ev.call) (hp : Passes database mayFail c ev c') : c' = c := by
  obtain ⟨call, a⟩ := ev
  cases call with
  | execute sql =>
    obtain rfl : sql = create t.text := h
    rcases hp.execute with hc | hc
    · exact hc
    · rw [hc, execute_create_of_isSome ht (by rw [hd.table?]; rfl)]
  | query sql =>
    rcases hp.query with hc | hc
    · exact hc
    · replace h : sql ∈ [selectCurrent t.text, selectLock t.text, selectCount t.text] := h
      simp only [List.mem_cons, List.not_mem_nil, or_false] at h
      rcases h with rfl | rfl | rfl
      · rw [hc, query_selectCurrent ht hd]
      · rw [hc, query_selectLock ht hd]
      · rw [hc, query_selectCount ht hd]
  | tableExists name => exact hp.tableExists
  | begin | commit | rollback => exact h.elim

theorem Run.Asks.stays {α : Type} {q : Run (Recorder Connection) α} {r : Recorder Connection}
    (hq : Run.Asks (recorded [] database) (Looks t) q) (ht : t.IsCreatable)
    (hd : r.inner.view.Has t.text (table t rows)) : (q.run r).2.inner = r.inner := by
  obtain ⟨l, hl, hlooks⟩ := hq r
  rw [recorded_eq_failing] at hl
  have htrail : Trail database (fun _ => True) r.inner l (q.run r).2.inner :=
    Trail.of_failing (fun _ _ _ _ => trivial) hl
  exact htrail.stays (fun _ _ => looks_stays ht hd) hlooks

/-! ### Refusals -/

/-- The control table has rows in flight, the lowest version of which is `m`; the highest
completed version, if there is any, is a version as well. -/
structure Locked (t : TableName) (c : Connection) (m : Version) (rows : List Row) : Prop where
  isCreatable : t.IsCreatable
  has : c.view.Has t.text (table t rows)
  lock : IsExtreme .lt (versions false rows) m.toNat
  current : versions true rows = [] ∨
    ∃ n : Version, IsExtreme .gt (versions true rows) n.toNat

namespace Locked

theorem answer_create (h : Locked t c m rows) :
    database.answer (.execute (create t.text)) c = (.ok (), c) :=
  answer_execute_of_ok (execute_create_of_isSome h.isCreatable (by rw [h.has.table?]; rfl))

theorem answer_current (h : Locked t c m rows) :
    ∃ a v, database.answer (.query (selectCurrent t.text)) c = (.ok a, c) ∧
      versionOfAnswer a = .ok v := by
  have hq := query_selectCurrent h.isCreatable h.has
  rcases h.current with hnone | ⟨n, hn⟩
  · rw [hnone] at hq
    exact ⟨none, 0, answer_query_of_ok hq, rfl⟩
  · rw [extreme_of_isExtreme (by decide) hn] at hq
    have hlt := n.toNat_lt
    refine ⟨_, UInt16.ofNat (n.toNat : Int).toNat, answer_query_of_ok hq, ?_⟩
    rw [versionOfAnswer, Option.elim_some, versionOfInt_of ⟨by omega, by omega⟩]

theorem answer_lock (h : Locked t c m rows) :
    database.answer (.query (selectLock t.text)) c = (.ok (some m.toNat), c) := by
  have hq := query_selectLock h.isCreatable h.has
  rw [extreme_of_isExtreme (by decide) h.lock] at hq
  exact answer_query_of_ok hq

/-- A run is refused after three calls, whatever its steps are. -/
theorem apply (h : Locked t c m rows) (w : Surroundings) (steps : List Step) (calls : List Call) :
    (apply (recorded [] database) t w steps).run ⟨c, calls⟩ =
      (.error (.locked m), ⟨c, calls ++ [.execute (create t.text),
        .query (selectCurrent t.text), .query (selectLock t.text)]⟩) := by
  obtain ⟨a, v, ha, hv⟩ := h.answer_current
  have hlt := m.toNat_lt
  have hopen := openRun_of_lock (answer_recorded h.answer_create calls) (answer_recorded ha _)
    (answer_recorded h.answer_lock _) hv (by omega)
  rw [apply_of_openRun_error hopen]
  simp

/-- No operation changes anything. A new connection loses no transaction if none is open. -/
theorem inner_run {r : Recorder Connection} (h : Locked t r.inner m rows) (op : Operation)
    (hop : op = .reopen → r.inner.working = none) :
    (op.run (recorded [] database) t r).inner = r.inner := by
  have hlook {α : Type} {q : Run (Recorder Connection) α}
      (hq : Run.Asks (recorded [] database) (Looks t) q) : (q.run r).2.inner = r.inner :=
    hq.stays h.isCreatable h.has
  cases op with
  | apply w steps =>
    obtain ⟨c, calls⟩ := r
    rw [Operation.run, h.apply w steps calls]
  | pending steps =>
    rw [Operation.run]
    exact hlook (pending_looks _ t steps)
  | status =>
    rw [Operation.run]
    exact hlook (status_looks _ t)
  | ensureTable =>
    rw [Operation.run]
    exact hlook (ensureTable_looks _ t)
  | currentVersion =>
    rw [Operation.run]
    exact hlook (currentVersion_looks _ t)
  | lockedVersion =>
    rw [Operation.run]
    exact hlook (lockedVersion_looks _ t)
  | reopen => exact reopen_of_working (hop rfl)

theorem inner_runAll {r : Recorder Connection} (h : Locked t r.inner m rows)
    (ops : List Operation) (hops : .reopen ∈ ops → r.inner.working = none) :
    (Operation.runAll (recorded [] database) t ops r).inner = r.inner := by
  induction ops generalizing r with
  | nil => rfl
  | cons op rest ih =>
    have hop := h.inner_run op fun heq => hops (heq ▸ List.mem_cons_self)
    rw [← hop] at h hops ⊢
    exact ih h fun hrest => hops (List.mem_cons_of_mem _ hrest)

end Locked

/-- A step in flight blocks every run and outlasts it. Among operations in any number and
order, with whatever steps and files, each run fails with the lowest version in flight, after
it has asked for the control table, the current version and the lock and for nothing else; and
the connection is the same after each operation as before the first one. -/
theorem locked_outlasts (t : TableName) (c : Connection) (rows : List Row)
    (h : Holds t c.view rows) (m : Version) (hm : IsExtreme .lt (versions false rows) m.toNat)
    (hn : versions true rows = [] ∨ ∃ n : Version, IsExtreme .gt (versions true rows) n.toNat)
    (ops : List Operation) (hops : .reopen ∈ ops → c.working = none) (k : Nat) :
    let x := recorded [] database
    let r := Operation.runAll x t (ops.take k) ⟨c, []⟩
    r.inner = c ∧ ∀ w steps, ops[k]? = some (.apply w steps) →
      (apply x t w steps).run r = (.error (.locked m), ⟨c, r.calls ++ [.execute (create t.text),
        .query (selectCurrent t.text), .query (selectLock t.text)]⟩) := by
  intro x r
  obtain ⟨ht, hd⟩ := holds_iff.mp h
  have hlocked : Locked t c m rows := ⟨ht, hd, hm, hn⟩
  have hinner : r.inner = c := Locked.inner_runAll (r := ⟨c, []⟩) hlocked (ops.take k)
    fun hmem => hops (List.mem_of_mem_take hmem)
  refine ⟨hinner, fun w steps _ => ?_⟩
  have hr : r = ⟨c, r.calls⟩ := by rw [← hinner]
  rw [hr]
  exact hlocked.apply w steps r.calls

/-- The rows of a completed step and of one in flight. -/
def interruptedRows : List Row :=
  [row ((Record.inFlight ⟨1, "table", "1_table.sql"⟩).complete 7),
    row (.inFlight ⟨2, "rows", "2_rows.sql"⟩)]

/-- A run after looks at a table with a step in flight, and after another run. -/
theorem locked_outlasts_at_two :
    let x := recorded [] database
    let c : Connection := .start ⟨[table .standard interruptedRows]⟩
    let ops : List Operation := [.status, .apply smallFiles [], .reopen, .pending smallSteps,
      .apply smallFiles smallSteps]
    let r := Operation.runAll x .standard (ops.take 4) ⟨c, []⟩
    r.inner = c ∧ (apply x .standard smallFiles smallSteps).run r =
      (.error (.locked 2), ⟨c, r.calls ++ [.execute (create TableName.standard.text),
        .query (selectCurrent TableName.standard.text),
        .query (selectLock TableName.standard.text)]⟩) := by
  intro x c ops
  have hlock : IsExtreme .lt (versions false interruptedRows) (2 : Version).toNat :=
    ⟨by decide, by decide⟩
  have hcurrent : IsExtreme .gt (versions true interruptedRows) (1 : Version).toNat :=
    ⟨by decide, by decide⟩
  obtain ⟨hinner, happly⟩ := locked_outlasts .standard c interruptedRows
    (holds_iff.mpr ⟨isCreatable_standard, rfl⟩) 2 hlock (.inr ⟨1, hcurrent⟩) ops (fun _ => rfl) 4
  exact ⟨hinner, happly smallFiles smallSteps rfl⟩

end SipMigrate.Migration
