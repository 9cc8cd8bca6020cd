import SipMigrate.Proofs.Migration.Effect

/-! Each migration takes effect once, or not at all. A sequence of runs some of whose
calls fail leaves the tables that one gets by executing the statements of the steps
that were committed, each once and in the order of the versions. -/

namespace SipMigrate.Migration

open Sql Executor ControlTable

/-- The surroundings of a run and its steps. -/
abbrev Job := Surroundings × List Step

/-- The state after runs one after the other, whatever their outcomes. -/
def runEach (x : Executor (Recorder Connection)) (t : TableName) (jobs : List Job)
    (r : Recorder Connection) : Recorder Connection :=
  jobs.foldl (fun r job => ((apply x t job.1 job.2).run r).2) r

/-- The steps that a run has committed: of the steps of its version each is the first one, and
comes with the statements of its script. The report of a run that succeeds has their
versions. -/
structure Committed (job : Job) (o : Except MigrationError Report)
    (part : List (Step × List String)) : Prop where
  steps : ∀ d ∈ part,
    job.2.find? (·.version = d.1.version) = some d.1 ∧ d.1.load job.1.read = .ok d.2
  report : ∀ report, o = .ok report → report.applied = part.map (·.1.version)

/-- A connection after steps have been committed to a database without a control table:
everything but the control table is as if the statements of the steps had been executed
one after the other, after the creation of the control table. -/
structure AppliedOnce (t : TableName) (d : Database) (done : List (Step × List String))
    (c : Connection) : Prop where
  working : c.working = none
  versions : done.map (·.1.version.toNat) = List.range' 1 done.length
  complete : ∃ n rows, n.toNat = done.length ∧ IsComplete t c.committed n rows
  effect : ∃ e, Executes (prepared t d) (done.flatMap (·.2)) e ∧
    c.committed.drop t.text = e.drop t.text

variable {t : TableName} {d e : Database} {n : Version} {rows : List Row}
  {fault : List Call → Call → Option ExecutorError} {r : Recorder Connection}

theorem drop_prepared (h : d.table? t.text = none) :
    (prepared t d).drop t.text = d.drop t.text := by
  by_cases hc : t.IsCreatable
  · rw [prepared_of_isCreatable hc h]
    simp [Database.add, Database.drop]
  · rw [prepared_of_not hc h]

theorem Standing.drop {c : Connection} (h : Standing t e c n rows) :
    c.committed.drop t.text = e.drop t.text := by
  rcases h.state with ha | hp
  · rw [ha.eq, drop_prepared ha.table?]
  · exact hp.agrees.drop

/-- One run more. -/
theorem apply_committed (hf : ∀ calls, fault calls .rollback = none) {job : Job}
    (hs : job.1.Harmless t job.2) (h : Standing t e r.inner n rows) :
    let run := (apply (failing fault database) t job.1 job.2).run r
    ∃ part e' n' rows', Committed job run.1 part ∧
      Effect t job.1 job.2 e n rows part e' n' rows' ∧ Standing t e' run.2.inner n' rows' := by
  intro run
  have hmay : ∀ calls c e, fault calls c = some e → c ≠ .rollback := by
    rintro calls _ e he rfl
    rw [hf] at he
    cases he
  obtain ⟨l, hl, hc⟩ := apply_course (failing fault database) t job.1 job.2 r
  have hreopen := reopen_of_working h.working
  obtain ⟨part, e', n', rows', heffect, h', hw, hreport⟩ :=
    RunCourse.effect (hreopen ▸ h) hs hc (.of_failing hmay hl)
  have hw : run.2.inner.working = none := (hw h.working).resolve_right (fun hn => hn rfl)
  change Standing t e' run.2.inner.reopen n' rows' at h'
  rw [reopen_of_working hw] at h'
  exact ⟨part, e', n', rows', ⟨heffect.steps, hreport⟩, heffect, h'⟩

/-- Runs one after the other: what each of them has committed, and the state after the
first `k` of them. -/
theorem runEach_committed (hf : ∀ calls, fault calls .rollback = none) {jobs : List Job}
    (hs : ∀ job ∈ jobs, job.1.Harmless t job.2) (h : Standing t e r.inner n rows) :
    let x := failing fault database
    ∃ parts : List (List (Step × List String)), parts.length = jobs.length ∧
      (∀ k job part, jobs[k]? = some job → parts[k]? = some part →
        Committed job ((apply x t job.1 job.2).run (runEach x t (jobs.take k) r)).1 part) ∧
      ∀ k, let done := (parts.take k).flatten
        ∃ e' n' rows', Executes e (done.flatMap (·.2)) e' ∧
          done.map (·.1.version.toNat) = List.range' (n.toNat + 1) done.length ∧
          n'.toNat = n.toNat + done.length ∧
          Standing t e' (runEach x t (jobs.take k) r).inner n' rows' := by
  intro x
  induction jobs generalizing r e n rows with
  | nil =>
    refine ⟨[], rfl, by simp, fun k => ?_⟩
    simp only [List.take_nil]
    exact ⟨e, n, rows, rfl, rfl, rfl, h⟩
  | cons job rest ih =>
    obtain ⟨part, e₁, n₁, rows₁, hpart, heffect, h₁⟩ :=
      apply_committed hf (hs job (by simp)) h
    obtain ⟨parts, hlen, hparts, hstates⟩ := ih (fun job hj => hs job (by simp [hj])) h₁
    refine ⟨part :: parts, by simp [hlen], ?_, ?_⟩
    · intro k job' part' hjob hpart'
      cases k with
      | zero =>
        obtain rfl : job = job' := by simpa using hjob
        obtain rfl : part = part' := by simpa using hpart'
        exact hpart
      | succ k => exact hparts k job' part' (by simpa using hjob) (by simpa using hpart')
    · intro k
      cases k with
      | zero => exact ⟨e, n, rows, rfl, rfl, rfl, h⟩
      | succ k =>
        obtain ⟨e', n', rows', hex, hv, hn, h'⟩ := hstates k
        refine ⟨e', n', rows', ?_, ?_, ?_, h'⟩
        · simp only [List.take_succ_cons, List.flatten_cons, List.flatMap_append]
          exact executes_append.mpr ⟨e₁, heffect.executes, hex⟩
        · simp only [List.take_succ_cons, List.flatten_cons, List.map_append, List.length_append]
          rw [heffect.versions, hv, heffect.version, ← List.range'_append_1]
          congr 2
          omega
        · simp only [List.take_succ_cons, List.flatten_cons, List.length_append]
          rw [hn, heffect.version]
          omega

/-- Calls of runs may fail, but for rollbacks. After each of the runs no transaction is open,
and the tables other than the control table are those that one gets by executing the
statements of the steps committed so far, each once and in order, and nothing else. -/
theorem runEach_appliedOnce (fault : List Call → Call → Option ExecutorError)
    (hf : ∀ calls, fault calls .rollback = none) (t : TableName) (c : Connection)
    (hw : c.working = none) (hn : c.committed.table? t.text = none) (jobs : List Job)
    (hs : ∀ job ∈ jobs, job.1.Harmless t job.2) :
    let x := failing fault database
    let after (k : Nat) := runEach x t (jobs.take k) ⟨c, []⟩
    ∃ parts : List (List (Step × List String)), parts.length = jobs.length ∧
      (∀ k job part, jobs[k]? = some job → parts[k]? = some part →
        Committed job ((apply x t job.1 job.2).run (after k)).1 part) ∧
      ∀ k, AppliedOnce t c.committed (parts.take k).flatten (after k).inner := by
  intro x after
  have hstart : Standing t (prepared t c.committed) (⟨c, []⟩ : Recorder Connection).inner 0 [] :=
    ⟨hw, .inl ⟨hn, rfl, rfl, rfl⟩⟩
  obtain ⟨parts, hlen, hparts, hstates⟩ := runEach_committed hf hs hstart
  refine ⟨parts, hlen, hparts, fun k => ?_⟩
  obtain ⟨e, n, rows, hex, hv, hn, hstand⟩ := hstates k
  exact ⟨hstand.working, hv, ⟨n, rows, by simpa using hn, hstand.isComplete⟩, e, hex, hstand.drop⟩

/-- A first run whose commit fails, and a second run. -/
theorem runEach_appliedOnce_after_lost_commit :
    let x := failing (fun calls c => if c = .commit ∧ calls.length < 9 then some (.driver "lost")
      else none) database
    let jobs := [(smallFiles, smallSteps), (smallFiles, smallSteps)]
    let after (k : Nat) := runEach x .standard (jobs.take k) ⟨.start .empty, []⟩
    ∃ parts : List (List (Step × List String)), parts.length = jobs.length ∧
      (∀ k job part, jobs[k]? = some job → parts[k]? = some part →
        Committed job ((apply x .standard job.1 job.2).run (after k)).1 part) ∧
      ∀ k, AppliedOnce .standard .empty (parts.take k).flatten (after k).inner := by
  refine runEach_appliedOnce _ (fun calls => by simp) .standard (.start .empty) rfl rfl _ ?_
  simpa using smallFiles_harmless

end SipMigrate.Migration
