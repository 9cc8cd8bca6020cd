import SipMigrate.Proofs.Migration.Resumption

/-! What a look at the control table tells of the next run. A run creates the control
table unless one is there under any spelling of its name, and asks it; a look asks only
a table of exactly that name. The two agree unless the control table has versions and
is spelled in another way. -/

namespace SipMigrate.Migration

open Sql Executor ControlTable

variable {t : TableName} {c c' : Connection} {n : Version}

/-! ### Queries without a transaction -/

/-- A failure changes nothing where no transaction is open. -/
theorem afterFailure_of_working (hw : c.working = none) (cause : Cause) :
    c.afterFailure cause = c := by
  obtain ⟨d, w, a⟩ := c
  obtain rfl : w = none := hw
  cases hm : cause.isMalformed <;> simp [Connection.afterFailure, hm]

theorem step_select (hw : c.working = none) (u : Option Table) (outs : List (Output × String))
    (test : Option Test) :
    c.step (.select u outs test) = (Sql.select u outs test, c) := by
  show c.perform (.select u outs test) = _
  unfold Connection.perform
  cases hs : Sql.select u outs test with
  | error cause => simp [Plan.run, hs, Bind.bind, Except.bind, afterFailure_of_working hw]
  | ok a =>
    simp [Plan.run, hs, Plan.writes, Connection.store_view, Bind.bind, Except.bind, pure,
      Except.pure]

/-- What a name means does not depend on where it stands. -/
theorem term_ofWord_eq_ok {s : String} {u : Option Table} {x : Term} {k : Nat}
    (h : (Name.ofWord s k).term u = .ok x) (m : Nat) : (Name.ofWord s m).term u = .ok x := by
  simp only [Name.term, Name.isDoubleQuoted, Name.truth?, Name.ofWord] at h ⊢
  grind

section Queries

variable {sql : String} {complete : Bool}

/-- The table of a query, and the test of its rows, where its names mean something. -/
theorem plan_query_ok {o : Nat → Nat} {rc : ResultColumn} {d : Database} {p : Plan}
    (h : (query t o complete rc).plan d = .ok p) :
    ∃ u test outs, d.readable? t.text = some u ∧
      (∀ k, (Name.ofWord "created" k).term (some u) = .ok test) ∧
      p = .select (some u) outs (some (.isNull test complete)) := by
  cases hu : d.readable? t.text with
  | none => simp [query, Statement.plan, planSelect, Name.table, Name.ofWord, hu] at h
  | some u =>
    have ht : (Name.ofWord t.text (o 6)).table d = .ok u := by
      simp [Name.table, Name.ofWord, hu]
    simp [query, Statement.plan, planSelect, ht, testOf, Condition.test, Operand.term] at h
    split at h
    · cases h
    cases ho : outputs (some u) rc with
    | error f => simp [ho] at h
    | ok outs =>
      cases hc : (Name.ofWord "created" (o 8)).term (some u) with
      | error f => simp [ho, hc] at h
      | ok test =>
        simp only [ho, hc, ok_bind, Except.ok.injEq] at h
        exact ⟨u, test, outs, rfl, term_ofWord_eq_ok hc, h.symm⟩

theorem plan_selectCount {o : Nat → Nat} {d : Database} {u : Table} {test : Term}
    (hu : d.readable? t.text = some u)
    (hc : ∀ k, (Name.ofWord "created" k).term (some u) = .ok test) :
    (query t o true ⟨.countRows, "COUNT(*)", none⟩).plan d =
      .ok (.select (some u) [(.countRows, "COUNT(*)")] (some (.isNull test true))) := by
  have ht : (Name.ofWord t.text (o 6)).table d = .ok u := by
    simp [Name.table, Name.ofWord, hu]
  simp [query, Statement.plan, planSelect, ht, testOf, Condition.test, Operand.term, hc, outputs,
    outputCount, columnLimit]

/-- A query leaves a connection alone where no transaction is open. -/
theorem ControlTable.ReadsQuery.query_snd {rc : (Nat → Nat) → ResultColumn}
    (hr : ReadsQuery t sql complete rc) (hw : c.working = none) : (c.query sql).2 = c := by
  by_cases ht : t.IsWord
  · obtain ⟨o, ho⟩ := hr.reads ht
    rw [Connection.query_of_reads ho, Connection.carryOut]
    cases hp : (query t o complete (rc o)).plan c.view with
    | error f => rfl
    | ok p =>
      obtain ⟨u, test, outs, -, -, rfl⟩ := plan_query_ok hp
      dsimp only
      rw [step_select hw]
  · obtain ⟨f, hf⟩ := hr.fails ht
    rw [Connection.query_of_reads_error hf]

/-- A table that answers the query for the current version also answers the one for the
number of rows. -/
theorem query_selectCount_of_selectCurrent (hw : c.working = none) {a : Option Int}
    (h : (c.query (selectCurrent t.text)).1 = .ok a) :
    ∃ k, c.query (selectCount t.text) = (.ok (some k), c) := by
  by_cases ht : t.IsWord
  · obtain ⟨o, ho⟩ := (selectCurrent_reads t).reads ht
    obtain ⟨o', ho'⟩ := (selectCount_reads t).reads ht
    rw [Connection.query_of_reads ho, Connection.carryOut] at h
    cases hp : (query t o true ⟨.aggregate .max false (.name (.ofWord "version" (o 3))),
        "MAX(version)", none⟩).plan c.view with
    | error f =>
      rw [hp] at h
      cases h
    | ok p =>
      obtain ⟨u, test, outs, hu, hc, -⟩ := plan_query_ok hp
      rw [Connection.query_of_reads ho', Connection.carryOut, plan_selectCount hu hc]
      dsimp only
      rw [step_select hw]
      exact ⟨_, rfl⟩
  · obtain ⟨f, hf⟩ := (selectCurrent_reads t).fails ht
    rw [Connection.query_of_reads_error hf] at h
    cases h

end Queries

/-! ### Openings that succeed -/

section Opening

variable {σ : Type} {x : Executor σ} {s s' : σ}

theorem currentVersion_eq_ok (h : (currentVersion x t).run s = (.ok n, s')) :
    ∃ a, x.answer (.query (selectCurrent t.text)) s = (.ok a, s') ∧ versionOfAnswer a = .ok n := by
  rcases ha : x.answer (.query (selectCurrent t.text)) s with ⟨e | a, s₁⟩
  · have : (currentVersion x t).run s = (.error (.executor e), s₁) :=
      Run.run_bind_of_error (run_demand_of_error ha) _
    rw [this] at h
    cases h
  · rw [currentVersion_run x t ha, Prod.mk.injEq] at h
    obtain ⟨hv, rfl⟩ := h
    exact ⟨a, rfl, hv⟩

theorem lockedVersion_snd (x : Executor σ) (t : TableName) (s : σ) :
    ((lockedVersion x t).run s).2 = (x.answer (.query (selectLock t.text)) s).2 := by
  rcases ha : x.answer (.query (selectLock t.text)) s with ⟨e | a, s₁⟩
  · have : (lockedVersion x t).run s = (.error (.executor e), s₁) :=
      Run.run_bind_of_error (run_demand_of_error ha) _
    rw [this]
  · rw [lockedVersion_run x t ha]

theorem openRun_eq_ok (h : (openRun x t).run s = (.ok n, s')) :
    ∃ s₁ s₂, x.answer (.execute (create t.text)) s = (.ok (), s₁) ∧
      (currentVersion x t).run s₁ = (.ok n, s₂) ∧ (lockedVersion x t).run s₂ = (.ok none, s') := by
  unfold openRun ensureTable at h
  rcases hc : x.answer (.execute (create t.text)) s with ⟨e | u, s₁⟩
  · rw [Run.run_bind_of_error (run_demand_of_error hc)] at h
    cases h
  rw [Run.run_bind_of_ok (run_demand_of_ok hc)] at h
  rcases hv : (currentVersion x t).run s₁ with ⟨e | v, s₂⟩
  · rw [Run.run_bind_of_error hv] at h
    cases h
  rw [Run.run_bind_of_ok hv] at h
  rcases hl : (lockedVersion x t).run s₂ with ⟨e | l, s₃⟩
  · rw [Run.run_bind_of_error hl] at h
    cases h
  rw [Run.run_bind_of_ok hl] at h
  cases l with
  | some v => cases h
  | none =>
    cases h
    exact ⟨s₁, s₂, rfl, hv, hl⟩

end Opening

/-- To create a table that is there under some spelling changes nothing. -/
theorem execute_create_of_table? (h : (c.view.table? t.text).isSome = true)
    (hok : (c.execute (create t.text)).1 = .ok ()) : c.execute (create t.text) = (.ok (), c) := by
  by_cases ht : t.IsWord
  · obtain ⟨o, ho⟩ := create_reads t ht
    cases hr : isReservedTable t.text with
    | true =>
      rw [Connection.execute_of_reads ho, Connection.carryOut] at hok
      simp [Statement.plan, planCreate, Name.ofWord, hr, Except.map] at hok
    | false =>
      rw [Connection.execute_of_reads ho, Connection.carryOut, plan_create hr, if_pos h]
      show ((Except.ok ()), c.store c.view) = _
      rw [Connection.store_view]
  · obtain ⟨f, hf⟩ := create_reads_error t ht
    rw [Connection.execute_of_reads_error hf] at hok
    cases hok

/-- An opening that succeeds finds the table as it is, or makes one with nothing applied. -/
theorem openRun_finds (hw : c.working = none) (h : (openRun database t).run c = (.ok n, c')) :
    ((c.committed.table? t.text).isSome = true ∧
      (∃ a, c.query (selectCurrent t.text) = (.ok a, c)) ∧
      (currentVersion database t).run c = (.ok n, c) ∧
      (lockedVersion database t).run c = (.ok none, c)) ∨
    (c.committed.table? t.text = none ∧ n = 0) := by
  have hview := view_of_working hw
  obtain ⟨s₁, s₂, hcreate, hcurrent, hlocked⟩ := openRun_eq_ok h
  rw [answer_execute_eq_ok] at hcreate
  cases hd : c.committed.table? t.text with
  | some u =>
    have hstay := execute_create_of_table? (by rw [hview, hd]; rfl) (congrArg Prod.fst hcreate)
    obtain rfl : s₁ = c := congrArg Prod.snd (hcreate.symm.trans hstay)
    obtain ⟨a, ha, -⟩ := currentVersion_eq_ok hcurrent
    rw [answer_query_eq_ok] at ha
    obtain rfl : s₁ = s₂ := by rw [← (selectCurrent_reads t).query_snd hw, ha]
    obtain rfl : s₁ = c' := by
      calc s₁ = (s₁.query (selectLock t.text)).2 := ((selectLock_reads t).query_snd hw).symm
        _ = ((lockedVersion database t).run s₁).2 := by
          rw [lockedVersion_snd, answer_query, ofConnection]
        _ = c' := by rw [hlocked]
    exact .inl ⟨rfl, ⟨a, ha⟩, hcurrent, hlocked⟩
  | none =>
    refine .inr ⟨rfl, ?_⟩
    have hnone : c.view.table? t.text = none := by rw [hview, hd]
    by_cases ht : t.IsCreatable
    · rw [execute_create_of_none ht hnone] at hcreate
      cases hr : c.refusal? with
      | some cause => simp [hr] at hcreate
      | none =>
        rw [hr] at hcreate
        obtain rfl : c.store (c.view.add (table t [])) = s₁ := congrArg Prod.snd hcreate
        have hhas : (c.store (c.view.add (table t []))).view.Has t.text (table t []) := by
          rw [Connection.store, hw]
          exact Database.has_add_self hnone sameName_table
        obtain ⟨o, ho, hzero⟩ := currentVersion_of_has ht hhas
        rw [hcurrent, Prod.mk.injEq] at ho
        rcases hzero n ho.1.symm with hmax | ⟨-, hn⟩
        · cases hmax
        · exact UInt16.toNat_inj.mp hn
    · obtain ⟨f, hf⟩ := execute_create_of_not ht hw hnone
      rw [hf] at hcreate
      cases hcreate

/-! ### Steps that are applied -/

section Steps

variable {w : Surroundings} {r report : Report} {p : Option Version} {steps : List Step}

/-- The version rises by one with each step that is applied. -/
theorem Course.finalVersion {l : List Event} {o : Except MigrationError Report}
    (h : Course t w r p steps l o) (ho : o = .ok report) :
    report.finalVersion.toNat + r.applied.length =
      r.finalVersion.toNat + report.applied.length := by
  induction h with
  | done r p =>
    cases ho
    rfl
  | refused | stopped => cases ho
  | skipped _ _ ih => exact ih ho
  | @applied r p s rest l₁ l₂ k o hd _ _ ih =>
    have hv : s.version.toNat = r.finalVersion.toNat + 1 := toNat_of_isDue_true hd
    have := ih ho
    simp only [Report.add, List.length_append, List.length_singleton] at this
    omega

/-- The steps that are applied are those above the version at the beginning. -/
theorem Course.applied_eq {l : List Event} (h : Course t w r p steps l (.ok report)) :
    report.applied =
      r.applied ++ (steps.filter fun s => r.finalVersion < s.version).map (·.version) := by
  obtain ⟨passed, left, done, tail, rfl, -, -, hdone, hend⟩ := h.bracketed
  cases hend with
  | complete hreport => rw [hreport, List.append_nil, ← hdone.steps, List.map_map]; rfl

theorem applySteps_course_of_ok {σ : Type} {x : Executor σ} {s s' : σ}
    (h : (applySteps x t w r p steps).run s = (.ok report, s')) :
    ∃ l, Course t w r p steps l (.ok report) := by
  obtain ⟨l, -, hl⟩ := applySteps_course x t w r p steps s
  rw [h] at hl
  exact ⟨l, hl⟩

end Steps

/-! ### What a look tells -/

variable {w : Surroundings} {steps : List Step} {report : Report}

/-- A look at the control table tells what a run with a report applies, and the version
that the run begins at. The look changes nothing. -/
structure Foretold (t : TableName) (c : Connection) (steps : List Step) (report : Report) :
    Prop where
  pending : (pending database t steps).run c =
    (.ok (steps.filter fun s => s.version ∈ report.applied), c)
  versions : (steps.filter fun s => s.version ∈ report.applied).map (·.version) = report.applied
  status : ∃ s, (status database t).run c = (.ok s, c) ∧
    s.current.toNat = report.finalVersion.toNat - report.applied.length

/-- A look finds the control table that a run uses, or there is nothing to be found in it. Only
tables are looked for. A database that also had views could hide the control table from a look
behind one; here there are none. -/
def Reveals (t : TableName) (d : Database) (report : Report) : Prop :=
  d.hasTable t.text = true ∨ d.table? t.text = none ∨
    report.finalVersion.toNat = report.applied.length

theorem status_of_not_hasTable (hw : c.working = none) (h : c.committed.hasTable t.text = false) :
    (status database t).run c = (.ok ⟨0, none, 0⟩, c) := by
  have hmissing : database.answer (.tableExists t.text) c = (.ok false, c) := by
    show (Except.ok (c.view.hasTable t.text), c) = _
    rw [view_of_working hw, h]
  unfold status
  rw [Run.run_bind_of_ok (run_demand_of_ok hmissing), if_neg Bool.false_ne_true]
  rfl

theorem status_of_hasTable (hw : c.working = none) (h : c.committed.hasTable t.text = true)
    {a : Option Int} (hq : c.query (selectCurrent t.text) = (.ok a, c))
    (hcurrent : (currentVersion database t).run c = (.ok n, c))
    (hlocked : (lockedVersion database t).run c = (.ok none, c)) :
    ∃ k, (status database t).run c = (.ok ⟨n, none, k⟩, c) := by
  have hthere : database.answer (.tableExists t.text) c = (.ok true, c) := by
    show (Except.ok (c.view.hasTable t.text), c) = _
    rw [view_of_working hw, h]
  obtain ⟨k, hk⟩ := query_selectCount_of_selectCurrent hw (congrArg Prod.fst hq)
  unfold status
  rw [Run.run_bind_of_ok (run_demand_of_ok hthere), if_pos rfl,
    Run.run_bind_of_ok (run_demand_of_ok (answer_query_of_ok hk)), Run.run_bind_of_ok hcurrent,
    Run.run_bind_of_ok hlocked]
  exact ⟨_, rfl⟩

/-- A name that a table has exactly is one under which it is found. -/
theorem table?_isSome_of_hasTable {d : Database} {name : String} (h : d.hasTable name = true) :
    (d.table? name).isSome = true := by
  obtain ⟨u, hu, hn⟩ := List.any_eq_true.mp h
  rw [Database.table?, List.find?_isSome]
  exact ⟨u, hu, by simp [of_decide_eq_true hn, sameName]⟩

section Look

variable {v : Version} {l : List Event}

theorem Course.filter_applied (h : Course t w ⟨[], 0, 0, v⟩ none steps l (.ok report)) :
    (steps.filter fun s => s.version ∈ report.applied) =
      steps.filter fun s => v < s.version := by
  have happlied : report.applied = (steps.filter fun s => v < s.version).map (·.version) :=
    h.applied_eq
  refine List.filter_congr fun s hs => ?_
  rw [happlied, decide_eq_decide, List.mem_map]
  constructor
  · rintro ⟨u, hu, hv⟩
    rw [← hv]
    simpa using (List.mem_filter.mp hu).2
  · exact fun hv => ⟨s, List.mem_filter.mpr ⟨hs, by simpa using hv⟩, rfl⟩

theorem Course.finalVersion_eq (h : Course t w ⟨[], 0, 0, v⟩ none steps l (.ok report)) :
    report.finalVersion.toNat = v.toNat + report.applied.length := by
  simpa using h.finalVersion rfl

/-- A look that tells the version at the beginning tells everything. -/
theorem Course.foretold {s : Status} (h : Course t w ⟨[], 0, 0, v⟩ none steps l (.ok report))
    (hs : (status database t).run c = (.ok s, c)) (hv : s.current = v) :
    Foretold t c steps report where
  pending := by
    rw [Migration.pending, Run.run_bind_of_ok hs, h.filter_applied, hv]
    rfl
  versions := by
    rw [h.filter_applied]
    exact h.applied_eq.symm
  status := ⟨s, hs, by rw [hv, h.finalVersion_eq, Nat.add_sub_cancel]⟩

end Look

/-- A look tells what a run does precisely if it finds the table of the run, or nothing is in
that table. A look that finds no table tells the version 0. -/
theorem foretold_iff (hw : c.working = none)
    (h : (apply database t w steps).run c = (.ok report, c')) :
    Foretold t c steps report ↔ Reveals t c.committed report := by
  rcases hopen : (openRun database t).run c with ⟨e | v, c₁⟩
  · rw [apply_of_openRun_error hopen] at h
    cases h
  rw [apply_of_openRun hopen] at h
  obtain ⟨l, hl⟩ := applySteps_course_of_ok h
  have hfinal := hl.finalVersion_eq
  have hmissed (hspelled : c.committed.hasTable t.text = false) :=
    status_of_not_hasTable (t := t) hw hspelled
  rcases openRun_finds hw hopen with ⟨hthere, ⟨a, ha⟩, hcurrent, hlocked⟩ | ⟨hnone, rfl⟩
  · cases hspelled : c.committed.hasTable t.text with
    | true =>
      obtain ⟨k, hk⟩ := status_of_hasTable hw hspelled ha hcurrent hlocked
      exact iff_of_true (hl.foretold hk rfl) (.inl hspelled)
    | false =>
      -- the run goes on from the table of another spelling
      constructor
      · intro hf
        obtain ⟨s, hs, hv⟩ := hf.status
        rw [hmissed hspelled, Prod.mk.injEq, Except.ok.injEq] at hs
        obtain ⟨rfl, -⟩ := hs
        change 0 = _ at hv
        exact .inr (.inr (by omega))
      · rintro (htrue | hnone | hzero)
        · rw [hspelled] at htrue
          cases htrue
        · rw [hnone] at hthere
          cases hthere
        · exact hl.foretold (hmissed hspelled) (UInt16.toNat_inj.mp (by
            show 0 = v.toNat
            omega))
  · have hspelled : c.committed.hasTable t.text = false := by
      rw [← Bool.not_eq_true]
      intro htrue
      have := table?_isSome_of_hasTable htrue
      rw [hnone] at this
      cases this
    exact iff_of_true (hl.foretold (hmissed hspelled) rfl) (.inr (.inl hnone))

end SipMigrate.Migration
