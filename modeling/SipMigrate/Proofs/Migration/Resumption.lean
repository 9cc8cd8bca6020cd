import SipMigrate.Proofs.Migration.Alike

/-! Runs that go on where others have stopped. To apply a list of steps and then a
longer one comes to the same as to apply the longer one at once, whichever of the runs
fails; in particular a list that has been applied can be applied again, and then nothing
is done. -/

namespace SipMigrate.Migration

open Sql Executor ControlTable

variable {σ : Type} {t : TableName} {c c' : Connection} {n : Version} {rows : List Row}

/-! ### Openings -/

/-- The opening of a run, once the control table is there. -/
theorem openRun_of_answers {x : Executor σ} {s s₁ s₂ s₃ : σ} {a : Option Int} {v : Version}
    (h₁ : x.answer (.execute (create t.text)) s = (.ok (), s₁))
    (h₂ : x.answer (.query (selectCurrent t.text)) s₁ = (.ok a, s₂))
    (h₃ : x.answer (.query (selectLock t.text)) s₂ = (.ok none, s₃))
    (hv : versionOfAnswer a = .ok v) : (openRun x t).run s = (.ok v, s₃) := by
  have hcurrent := currentVersion_run x t h₂
  rw [hv] at hcurrent
  have hlock : (lockedVersion x t).run s₂ = (.ok none, s₃) := lockedVersion_run x t h₃
  unfold openRun ensureTable
  rw [Run.run_bind_of_ok (run_demand_of_ok h₁), Run.run_bind_of_ok hcurrent,
    Run.run_bind_of_ok hlock]
  rfl

/-- The opening of a run that finds a step in flight. -/
theorem openRun_of_lock {x : Executor σ} {s s₁ s₂ s₃ : σ} {a : Option Int} {v : Version} {m : Int}
    (h₁ : x.answer (.execute (create t.text)) s = (.ok (), s₁))
    (h₂ : x.answer (.query (selectCurrent t.text)) s₁ = (.ok a, s₂))
    (h₃ : x.answer (.query (selectLock t.text)) s₂ = (.ok (some m), s₃))
    (hv : versionOfAnswer a = .ok v) (hm : 0 ≤ m ∧ m < 65536) :
    (openRun x t).run s = (.error (.locked (UInt16.ofNat m.toNat)), s₃) := by
  have hcurrent := currentVersion_run x t h₂
  rw [hv] at hcurrent
  have hlock := lockedVersion_run x t h₃
  rw [Option.elim_some, versionOfInt_of hm] at hlock
  unfold openRun ensureTable
  rw [Run.run_bind_of_ok (run_demand_of_ok h₁), Run.run_bind_of_ok hcurrent,
    Run.run_bind_of_ok hlock]
  rfl

namespace Ready

theorem view (h : Ready t c n rows) : c.view.Has t.text (table t rows) := by
  rw [view_of_working h.working]
  exact h.has

theorem answer_create (h : Ready t c n rows) :
    database.answer (.execute (create t.text)) c = (.ok (), c) :=
  answer_execute_of_ok (execute_create_of_isSome h.isCreatable (by rw [h.view.table?]; rfl))

theorem answer_current (h : Ready t c n rows) :
    ∃ a, database.answer (.query (selectCurrent t.text)) c = (.ok a, c) ∧
      versionOfAnswer a = .ok n := by
  obtain ⟨a, ha, hv⟩ := h.atVersion.query_current h.isCreatable h.view
  exact ⟨a, answer_query_of_ok ha, hv⟩

theorem answer_lock (h : Ready t c n rows) :
    database.answer (.query (selectLock t.text)) c = (.ok none, c) :=
  answer_query_of_ok (h.atVersion.query_lock h.isCreatable h.view)

theorem openRun (h : Ready t c n rows) : (openRun database t).run c = (.ok n, c) := by
  obtain ⟨a, ha, hv⟩ := h.answer_current
  exact openRun_of_answers h.answer_create ha h.answer_lock hv

end Ready

section Opening

variable (ht : t.IsCreatable) (hd : c.view.Has t.text (table t rows))

include ht hd

theorem currentVersion_of_has : ∃ o, (currentVersion database t).run c = (o, c) ∧
    ∀ n, o = .ok n → extreme .gt (versions true rows) = .integer n.toNat ∨
      extreme .gt (versions true rows) = .null ∧ n.toNat = 0 := by
  have hq := query_selectCurrent ht hd
  cases hv : extreme .gt (versions true rows) with
  | null =>
    rw [hv] at hq
    refine ⟨.ok 0, currentVersion_run database t (answer_query_of_ok hq), ?_⟩
    rintro n ⟨⟩
    exact .inr ⟨rfl, rfl⟩
  | integer k =>
    rw [hv] at hq
    refine ⟨versionOfInt k, currentVersion_run database t (answer_query_of_ok hq), ?_⟩
    intro n hn
    by_cases hk : 0 ≤ k ∧ k < 65536
    · rw [versionOfInt_of hk, Except.ok.injEq] at hn
      subst hn
      have hlt : k.toNat < UInt16.size := by
        show k.toNat < 65536
        omega
      refine .inl (congrArg Value.integer ?_)
      rw [UInt16.toNat_ofNat_of_lt' hlt]
      omega
    · rw [versionOfInt_of_not hk] at hn
      cases hn
  | real y =>
    rw [hv] at hq
    exact ⟨_, Run.run_bind_of_error (run_demand_of_error (answer_query_of_error hq)) _,
      by rintro _ ⟨⟩⟩
  | text y =>
    rw [hv] at hq
    exact ⟨_, Run.run_bind_of_error (run_demand_of_error (answer_query_of_error hq)) _,
      by rintro _ ⟨⟩⟩

theorem lockedVersion_of_has : ∃ o, (lockedVersion database t).run c = (o, c) ∧
    (o = .ok none → extreme .lt (versions false rows) = .null) := by
  have hq := query_selectLock ht hd
  cases hv : extreme .lt (versions false rows) with
  | null =>
    rw [hv] at hq
    exact ⟨_, lockedVersion_run database t (answer_query_of_ok hq), fun _ => rfl⟩
  | integer k =>
    rw [hv] at hq
    refine ⟨(versionOfInt k).map some, lockedVersion_run database t (answer_query_of_ok hq), ?_⟩
    cases versionOfInt k <;> nofun
  | real y =>
    rw [hv] at hq
    exact ⟨_, Run.run_bind_of_error (run_demand_of_error (answer_query_of_error hq)) _,
      by rintro ⟨⟩⟩
  | text y =>
    rw [hv] at hq
    exact ⟨_, Run.run_bind_of_error (run_demand_of_error (answer_query_of_error hq)) _,
      by rintro ⟨⟩⟩

/-- An opening where the control table is there changes nothing. -/
theorem openRun_of_has (hw : c.working = none) :
    ∃ o, (openRun database t).run c = (o, c) ∧ ∀ n, o = .ok n → Ready t c n rows := by
  have hcreate : database.answer (.execute (create t.text)) c = (.ok (), c) :=
    answer_execute_of_ok (execute_create_of_isSome ht (by rw [hd.table?]; rfl))
  obtain ⟨o, ho, hcurrent⟩ := currentVersion_of_has ht hd
  obtain ⟨b, hb, hlock⟩ := lockedVersion_of_has ht hd
  unfold openRun ensureTable
  rw [Run.run_bind_of_ok (run_demand_of_ok hcreate)]
  cases o with
  | error err =>
    rw [Run.run_bind_of_error ho]
    exact ⟨_, rfl, by rintro _ ⟨⟩⟩
  | ok n =>
    rw [Run.run_bind_of_ok ho]
    cases b with
    | error err =>
      rw [Run.run_bind_of_error hb]
      exact ⟨_, rfl, by rintro _ ⟨⟩⟩
    | ok l =>
      rw [Run.run_bind_of_ok hb]
      cases l with
      | some v => exact ⟨_, rfl, by rintro _ ⟨⟩⟩
      | none =>
        refine ⟨.ok n, rfl, ?_⟩
        rintro _ ⟨⟩
        rw [view_of_working hw] at hd
        exact ⟨hw, ht, hd, hcurrent n rfl, hlock rfl⟩

end Opening

/-- An opening is done once: a second one finds everything as the first one has left it. The
rows of the control table stay. -/
theorem openRun_of_stores (hw : c.working = none) (hc : Stores t c.committed rows) :
    ∃ o c', (openRun database t).run c = (o, c') ∧ (openRun database t).run c' = (o, c') ∧
      c'.working = none ∧ ∀ n, o = .ok n → Ready t c' n rows := by
  rcases hc with ⟨hnone, rfl⟩ | hholds
  · have hfail (f : SqlError) (hf : c.execute (create t.text) = (.error f, c)) :
        (openRun database t).run c = (.error (.executor (.database f)), c) :=
      Run.run_bind_of_error (run_demand_of_error (answer_execute_of_error hf)) _
    by_cases ht : t.IsCreatable
    · have hcreate := execute_create_of_none ht (c := c) (by rwa [view_of_working hw])
      cases hr : c.refusal? with
      | some cause =>
        rw [hr] at hcreate
        have := hfail _ hcreate
        exact ⟨_, c, this, this, hw, by rintro _ ⟨⟩⟩
      | none =>
        rw [hr] at hcreate
        -- from here on the run is one that finds the table
        have hstore : (c.store (c.view.add (table t []))).working = none := by
          rw [Connection.store, hw]
        have hview : (c.store (c.view.add (table t []))).view.Has t.text (table t []) := by
          rw [view_of_working hstore, Connection.store, view_of_working hw, hw]
          exact Database.has_add_self hnone sameName_table
        obtain ⟨o, ho, hready⟩ := openRun_of_has ht hview hstore
        have hfirst : (openRun database t).run c = (openRun database t).run
            (c.store (c.view.add (table t []))) := by
          have hagain : database.answer (.execute (create t.text))
              (c.store (c.view.add (table t []))) = (.ok (), _) :=
            answer_execute_of_ok (execute_create_of_isSome ht (by rw [hview.table?]; rfl))
          unfold openRun ensureTable
          rw [Run.run_bind_of_ok (run_demand_of_ok (answer_execute_of_ok hcreate)),
            Run.run_bind_of_ok (run_demand_of_ok hagain)]
        exact ⟨o, _, hfirst.trans ho, ho, hstore, hready⟩
    · obtain ⟨f, hf⟩ := execute_create_of_not ht hw (by rwa [view_of_working hw])
      exact ⟨_, c, hfail f hf, hfail f hf, hw, by rintro _ ⟨⟩⟩
  · obtain ⟨ht, hd⟩ := holds_iff.mp hholds
    obtain ⟨o, ho, hready⟩ := openRun_of_has ht (by rwa [view_of_working hw]) hw
    exact ⟨o, c, ho, ho, hw, hready⟩

/-- The version of the last step, or the one before the steps. -/
def lastVersion (p : Option Version) (steps : List Step) : Option Version :=
  steps.foldl (fun _ s => some s.version) p

section Append

variable {x : Executor σ} {w : Surroundings} {r : Report} {p : Option Version} {s s' : σ}
  {steps rest : List Step}

theorem applySteps_append :
    (applySteps x t w r p (steps ++ rest)).run s =
      match (applySteps x t w r p steps).run s with
      | (.ok r', s') => (applySteps x t w r' (lastVersion p steps) rest).run s'
      | (.error e, s') => (.error e, s') := by
  induction steps generalizing r p s with
  | nil => rfl
  | cons step more ih =>
    rw [List.cons_append]
    cases hd : isDue r.finalVersion p step.version with
    | error e => rw [applySteps_of_refused hd, applySteps_of_refused hd]
    | ok due =>
      cases due with
      | false =>
        rw [applySteps_of_skipped hd, applySteps_of_skipped hd]
        exact ih
      | true =>
        rcases hs : (applyStep x t w (w.completedAt r.applied.length) step).run s with ⟨e | k, s₁⟩
        · rw [applySteps_of_failed hd hs, applySteps_of_failed hd hs]
        · rw [applySteps_of_applied hd hs, applySteps_of_applied hd hs]
          exact ih

/-- Steps that are left out at version `n`, as they were applied before. -/
def Passed (n : Version) : Option Version → List Step → Prop
  | _, [] => True
  | p, s :: rest => isDue n p s.version = .ok false ∧ Passed n (some s.version) rest

end Append

/-- What a run over some steps leaves for later ones, when it ends at version `n`: if it has
succeeded, the steps are left out from then on; if it has failed, every run over the steps
fails so, and leaves everything as it is. -/
def Settled (t : TableName) (v : Surroundings) (n : Version) (c : Connection) (p : Option Version)
    (steps : List Step) : Except MigrationError Report → Prop
  | .ok report => report.finalVersion = n ∧ Passed n p steps
  | .error err => ∀ (v' : Surroundings) (q : Report), v.read = v'.read → q.finalVersion = n →
    (applySteps database t v' q p steps).run c = (.error err, c)

theorem Settled.cons {v : Surroundings} {p : Option Version} {s : Step} {rest : List Step}
    {o : Except MigrationError Report} (hd : isDue n p s.version = .ok false)
    (h : Settled t v n c (some s.version) rest o) : Settled t v n c p (s :: rest) o := by
  cases o with
  | ok report => exact ⟨h.1, hd, h.2⟩
  | error err =>
    intro v' q hv hq
    rw [applySteps_of_skipped (by rw [hq, hd])]
    exact h v' q.skip hv hq

end SipMigrate.Migration
