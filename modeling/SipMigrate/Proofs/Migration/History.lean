import SipMigrate.Proofs.Migration.Effect
import SipMigrate.Proofs.Migration.Looking

/-! The control table over whole histories. Runs, looks at the control table and new
connections follow each other in any order, and any of their calls may fail, rollbacks
among them. A failed rollback leaves a transaction open for what comes next; the
committed control table has the versions up to some version throughout. -/

namespace SipMigrate.Migration

open Sql Executor ControlTable

/-! ### Operations -/

/-- What is done with a database and its control table. -/
inductive Operation
  | apply (w : Surroundings) (steps : List Step)
  | pending (steps : List Step)
  | status
  | ensureTable
  | currentVersion
  | lockedVersion
  /-- A new connection, which has no open transaction. -/
  | reopen

namespace Operation

/-- The state after an operation, whatever its outcome. -/
def run (x : Executor (Recorder Connection)) (t : TableName) (r : Recorder Connection) :
    Operation → Recorder Connection
  | apply w steps => ((Migration.apply x t w steps).run r).2
  | pending steps => ((Migration.pending x t steps).run r).2
  | status => ((Migration.status x t).run r).2
  | ensureTable => ((Migration.ensureTable x t).run r).2
  | currentVersion => ((Migration.currentVersion x t).run r).2
  | lockedVersion => ((Migration.lockedVersion x t).run r).2
  | reopen => { r with inner := r.inner.reopen }

/-- The state after operations one after the other. -/
def runAll (x : Executor (Recorder Connection)) (t : TableName) (ops : List Operation)
    (r : Recorder Connection) : Recorder Connection :=
  ops.foldl (fun r op => op.run x t r) r

/-- The scripts that an operation runs leave the control table alone. -/
def Harmless (t : TableName) : Operation → Prop
  | apply w steps => w.Harmless t steps
  | _ => True

end Operation

/-! ### Every operation keeps the control table complete -/

variable {t : TableName} {c : Connection} {d e : Database} {n : Version} {rows : List Row}
  {fault : List Call → Call → Option ExecutorError} {r r' : Recorder Connection}

theorem Run.Asks.standing {α : Type} {q : Run (Recorder Connection) α}
    (hq : Run.Asks (failing fault database) (Looks t) q) (h : Standing t e r.inner.reopen n rows) :
    Standing t e (q.run r).2.inner.reopen n rows := by
  obtain ⟨l, hl, hlooks⟩ := hq r
  exact (h.looks_all hlooks (Trail.of_failing (fun _ _ _ _ => trivial) hl)).1

theorem Operation.standing (fault : List Call → Call → Option ExecutorError) (op : Operation)
    (h : Standing t e r.inner.reopen n rows)
    (hop : op.Harmless t) :
    ∃ e' n' rows', Standing t e' (op.run (failing fault database) t r).inner.reopen n' rows' ∧
      n ≤ n' ∧ rows <+: rows' := by
  have hlook {α : Type} {q : Run (Recorder Connection) α}
      (hq : Run.Asks (failing fault database) (Looks t) q) :
      ∃ e' n' rows', Standing t e' (q.run r).2.inner.reopen n' rows' ∧ n ≤ n' ∧ rows <+: rows' :=
    ⟨e, n, rows, hq.standing h, UInt16.le_refl n, List.prefix_rfl⟩
  cases op with
  | apply w steps =>
    obtain ⟨l, hl, hc⟩ := apply_course (failing fault database) t w steps r
    obtain ⟨done, e', n', rows', heffect, h', -⟩ :=
      RunCourse.effect h hop hc (Trail.of_failing (fun _ _ _ _ => trivial) hl)
    refine ⟨e', n', rows', h', ?_, heffect.rows⟩
    rw [UInt16.le_iff_toNat_le, heffect.version]
    omega
  | pending steps => exact hlook (pending_looks _ t steps)
  | status => exact hlook (status_looks _ t)
  | ensureTable => exact hlook (ensureTable_looks _ t)
  | currentVersion => exact hlook (currentVersion_looks _ t)
  | lockedVersion => exact hlook (lockedVersion_looks _ t)
  | reopen => exact ⟨e, n, rows, h, UInt16.le_refl n, List.prefix_rfl⟩

theorem Operation.runAll_standing (fault : List Call → Call → Option ExecutorError)
    (ops : List Operation) (h : Standing t e r.inner.reopen n rows)
    (hops : ∀ op ∈ ops, op.Harmless t) :
    ∃ e' n' rows', Standing t e' (runAll (failing fault database) t ops r).inner.reopen n' rows' ∧
      n ≤ n' ∧ rows <+: rows' := by
  induction ops generalizing r e n rows with
  | nil => exact ⟨e, n, rows, h, UInt16.le_refl n, List.prefix_rfl⟩
  | cons op rest ih =>
    obtain ⟨e₁, n₁, rows₁, h₁, hn₁, hpre₁⟩ := op.standing fault h (hops op (by simp))
    obtain ⟨e₂, n₂, rows₂, h₂, hn₂, hpre₂⟩ := ih h₁ fun op hop => hops op (by simp [hop])
    exact ⟨e₂, n₂, rows₂, h₂, UInt16.le_trans hn₁ hn₂, hpre₁.trans hpre₂⟩

/-! ### What a look at the control table shows -/

/-- What a look at a complete control table shows. -/
structure Shows (t : TableName) (c : Connection) (n : Version) : Prop where
  current : (currentVersion database t).run c = (.ok n, c)
  locked : (lockedVersion database t).run c = (.ok none, c)
  status : (status database t).run c = (.ok ⟨n, none, n.toNat⟩, c)

theorem Present.shows (h : Present t e c n rows) (hw : c.working = none) : Shows t c n := by
  have hview := h.view hw
  have hat := h.complete.atVersion
  obtain ⟨a, ha, hv⟩ := hat.query_current h.isCreatable hview
  have hcurrent : (currentVersion database t).run c = (.ok n, c) := by
    rw [currentVersion_run database t (answer_query_of_ok ha), hv]
  have hlocked : (lockedVersion database t).run c = (.ok none, c) :=
    lockedVersion_run database t (answer_query_of_ok (hat.query_lock h.isCreatable hview))
  refine ⟨hcurrent, hlocked, ?_⟩
  have hthere : database.answer (.tableExists t.text) c = (.ok true, c) := by
    show (Except.ok (c.view.hasTable t.text), c) = _
    have hmem : table t rows ∈ c.view.tables := List.mem_of_find?_eq_some hview.table?
    have : c.view.hasTable t.text = true := by
      simp only [Database.hasTable, List.any_eq_true]
      exact ⟨_, hmem, by simp [table]⟩
    rw [this]
  have hcount := answer_query_of_ok (query_selectCount h.isCreatable hview)
  rw [h.complete.versions_eq.1, List.length_map, h.complete.length] at hcount
  unfold status
  rw [Run.run_bind_of_ok (run_demand_of_ok hthere), if_pos rfl,
    Run.run_bind_of_ok (run_demand_of_ok hcount), Run.run_bind_of_ok hcurrent,
    Run.run_bind_of_ok hlocked]
  simp

/-- Throughout a history, and whichever calls fail in it, the committed control table has
the versions up to some version, all complete. Later on there may be more of them, and the
rows are still there as they were. -/
theorem history_complete (fault : List Call → Call → Option ExecutorError) (t : TableName)
    (c : Connection) (hw : c.working = none) (n : Version) (rows : List Row)
    (h : IsComplete t c.committed n rows) (before after : List Operation)
    (hops : ∀ op ∈ before ++ after, op.Harmless t) :
    let x := failing fault database
    let earlier := Operation.runAll x t before ⟨c, []⟩
    let later := Operation.runAll x t after earlier
    ∃ n₁ rows₁ n₂ rows₂, n ≤ n₁ ∧ n₁ ≤ n₂ ∧ rows <+: rows₁ ∧ rows₁ <+: rows₂ ∧
      IsComplete t earlier.inner.committed n₁ rows₁ ∧
      IsComplete t later.inner.committed n₂ rows₂ ∧
      (later.inner.working = none → (later.inner.committed.table? t.text).isSome = true →
        Shows t later.inner n₂) := by
  intro x earlier later
  obtain ⟨e, hs⟩ := h.standing hw
  rw [← reopen_of_working hw] at hs
  obtain ⟨e₁, n₁, rows₁, h₁, hn₁, hpre₁⟩ := Operation.runAll_standing fault before
    (r := ⟨c, []⟩) hs fun op hop => hops op (List.mem_append_left _ hop)
  obtain ⟨e₂, n₂, rows₂, h₂, hn₂, hpre₂⟩ := Operation.runAll_standing fault after
    h₁ fun op hop => hops op (List.mem_append_right _ hop)
  refine ⟨n₁, rows₁, n₂, rows₂, hn₁, hn₂, hpre₁, hpre₂, h₁.isComplete, h₂.isComplete, ?_⟩
  intro hopen hthere
  change Standing t e₂ later.inner.reopen n₂ rows₂ at h₂
  rw [reopen_of_working hopen] at h₂
  rcases h₂.state with ha | hp
  · rw [ha.table?] at hthere
    cases hthere
  · exact hp.shows hopen

/-- A first run whose commit and rollback fail, a new connection, and a second run. -/
theorem history_complete_after_lost_rollback :
    let x := failing (fun calls c => if c ∈ [.commit, .rollback] ∧ calls.length < 9 then
      some (.driver "lost") else none) database
    let earlier := Operation.runAll x .standard [.apply smallFiles smallSteps] ⟨.start .empty, []⟩
    let later :=
      Operation.runAll x .standard [.status, .reopen, .apply smallFiles smallSteps] earlier
    ∃ n₁ rows₁ n₂ rows₂, 0 ≤ n₁ ∧ n₁ ≤ n₂ ∧ [] <+: rows₁ ∧ rows₁ <+: rows₂ ∧
      IsComplete .standard earlier.inner.committed n₁ rows₁ ∧
      IsComplete .standard later.inner.committed n₂ rows₂ ∧
      (later.inner.working = none →
        (later.inner.committed.table? TableName.standard.text).isSome = true →
          Shows .standard later.inner n₂) := by
  refine history_complete _ .standard (.start .empty) rfl 0 [] (.inl ⟨rfl, rfl, rfl⟩) _ _ ?_
  simp only [List.cons_append, List.nil_append, List.mem_cons, List.not_mem_nil, or_false]
  rintro op (rfl | rfl | rfl | rfl)
  · exact smallFiles_harmless
  · trivial
  · trivial
  · exact smallFiles_harmless

end SipMigrate.Migration
