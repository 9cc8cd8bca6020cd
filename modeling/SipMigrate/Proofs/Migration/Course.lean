import SipMigrate.Proofs.Executor.Trace
import SipMigrate.Proofs.Migration.Run

/-! The course of a run, against any executor. Every call that a run makes
belongs to its opening or to the block of one step. `apply_course` says once
what the calls of a run, their answers and the outcome of the run can be; the
executor is arbitrary, so each call may fail. -/

namespace SipMigrate.Migration

open Executor

/-! ### Blocks -/

/-- The successful execution of a statement. -/
def executed (sql : String) : Event := ⟨.execute sql, .ok ()⟩

/-- The beginning of a block: the transaction is open and the row of the step is there. -/
def opened (t : TableName) (r : Record) : List Event :=
  [⟨.begin, .ok ()⟩, executed (ControlTable.insert t.text r)]

/-- The events of a step that is applied. -/
def block (t : TableName) (r : Record) (statements : List String) (time : UInt64) : List Event :=
  opened t r ++ statements.map executed ++
    [executed (ControlTable.update t.text (r.complete time)), ⟨.commit, .ok ()⟩]

/-- The events of a step that fails, and its error. Once the row of the step may
be there, it is removed before the transaction is rolled back. What cleans up is
not asked whether it succeeds. -/
inductive Interrupted (t : TableName) (r : Record) (statements : List String) (time : UInt64) :
    List Event → MigrationError → Prop
  | begin (e : ExecutorError) : Interrupted t r statements time [⟨.begin, .error e⟩] (.executor e)
  | insert (e : ExecutorError) (a : Except ExecutorError Unit) :
    Interrupted t r statements time
      [⟨.begin, .ok ()⟩, ⟨.execute (ControlTable.insert t.text r), .error e⟩, ⟨.rollback, a⟩]
      (.executor e)
  | statement {before after : List String} {sql : String} (h : statements = before ++ sql :: after)
      (e : ExecutorError) (a b : Except ExecutorError Unit) :
    Interrupted t r statements time
      (opened t r ++ before.map executed ++ [⟨.execute sql, .error e⟩,
        ⟨.execute (ControlTable.delete t.text r), a⟩, ⟨.rollback, b⟩])
      (.statement r.version r.file sql e)
  | update (e : ExecutorError) (a b : Except ExecutorError Unit) :
    Interrupted t r statements time
      (opened t r ++ statements.map executed ++
        [⟨.execute (ControlTable.update t.text (r.complete time)), .error e⟩,
          ⟨.execute (ControlTable.delete t.text r), a⟩, ⟨.rollback, b⟩])
      (.executor e)
  | commit (e : ExecutorError) (a : Except ExecutorError Unit) :
    Interrupted t r statements time
      (opened t r ++ statements.map executed ++
        [executed (ControlTable.update t.text (r.complete time)), ⟨.commit, .error e⟩,
          ⟨.rollback, a⟩])
      (.executor e)

/-- What one step does, and its outcome. -/
inductive StepCourse (t : TableName) (w : Surroundings) (time : UInt64) (s : Step) :
    List Event → Except MigrationError Nat → Prop
  | unreadable {e : MigrationError} (h : s.load w.read = .error e) :
    StepCourse t w time s [] (.error e)
  | applied {statements : List String} (h : s.load w.read = .ok statements) :
    StepCourse t w time s (block t (.inFlight s) statements time) (.ok statements.length)
  | interrupted {statements : List String} {l : List Event} {e : MigrationError}
      (h : s.load w.read = .ok statements)
      (hl : Interrupted t (.inFlight s) statements time l e) :
    StepCourse t w time s l (.error e)

/-- What a run does with its steps, and its outcome. -/
inductive Course (t : TableName) (w : Surroundings) :
    Report → Option Version → List Step → List Event → Except MigrationError Report → Prop
  | done (r : Report) (p : Option Version) : Course t w r p [] [] (.ok r)
  | refused {r : Report} {p : Option Version} {s : Step} {rest : List Step} {e : MigrationError}
      (h : isDue r.finalVersion p s.version = .error e) : Course t w r p (s :: rest) [] (.error e)
  | skipped {r : Report} {p : Option Version} {s : Step} {rest : List Step} {l : List Event}
      {o : Except MigrationError Report} (h : isDue r.finalVersion p s.version = .ok false)
      (hl : Course t w r.skip (some s.version) rest l o) : Course t w r p (s :: rest) l o
  | applied {r : Report} {p : Option Version} {s : Step} {rest : List Step}
      {l₁ l₂ : List Event} {n : Nat} {o : Except MigrationError Report}
      (h : isDue r.finalVersion p s.version = .ok true)
      (h₁ : StepCourse t w (w.completedAt r.applied.length) s l₁ (.ok n))
      (h₂ : Course t w (r.add s.version n) (some s.version) rest l₂ o) :
    Course t w r p (s :: rest) (l₁ ++ l₂) o
  | stopped {r : Report} {p : Option Version} {s : Step} {rest : List Step} {l : List Event}
      {e : MigrationError} (h : isDue r.finalVersion p s.version = .ok true)
      (hl : StepCourse t w (w.completedAt r.applied.length) s l (.error e)) :
    Course t w r p (s :: rest) l (.error e)

/-! ### The opening -/

/-- The version that the answer to the query for the current version stands for. -/
def versionOfAnswer (a : Option Int) : Except MigrationError Version := a.elim (.ok 0) versionOfInt

/-- The beginning of an opening: the control table is there, and `a` answers
the query for the current version. -/
def looked (t : TableName) (a : Option Int) : List Event :=
  [executed (ControlTable.create t.text), ⟨.query (ControlTable.selectCurrent t.text), .ok a⟩]

/-- The events of the opening of a run, and its outcome. -/
inductive Opening (t : TableName) : List Event → Except MigrationError Version → Prop
  | create (e : ExecutorError) :
    Opening t [⟨.execute (ControlTable.create t.text), .error e⟩] (.error (.executor e))
  | current (e : ExecutorError) :
    Opening t [executed (ControlTable.create t.text),
      ⟨.query (ControlTable.selectCurrent t.text), .error e⟩] (.error (.executor e))
  | currentOutOfRange {n : Int} (h : ¬(0 ≤ n ∧ n < 65536)) :
    Opening t (looked t (some n)) (.error (outOfRange n))
  | lock {a : Option Int} {v : Version} (h : versionOfAnswer a = .ok v) (e : ExecutorError) :
    Opening t (looked t a ++ [⟨.query (ControlTable.selectLock t.text), .error e⟩])
      (.error (.executor e))
  | lockOutOfRange {a : Option Int} {v : Version} {n : Int} (h : versionOfAnswer a = .ok v)
      (hn : ¬(0 ≤ n ∧ n < 65536)) :
    Opening t (looked t a ++ [⟨.query (ControlTable.selectLock t.text), .ok (some n)⟩])
      (.error (outOfRange n))
  | locked {a : Option Int} {v : Version} {n : Int} (h : versionOfAnswer a = .ok v)
      (hn : 0 ≤ n ∧ n < 65536) :
    Opening t (looked t a ++ [⟨.query (ControlTable.selectLock t.text), .ok (some n)⟩])
      (.error (.locked (UInt16.ofNat n.toNat)))
  | free {a : Option Int} {v : Version} (h : versionOfAnswer a = .ok v) :
    Opening t (looked t a ++ [⟨.query (ControlTable.selectLock t.text), .ok none⟩]) (.ok v)

/-! ### Every run takes such a course -/

variable {σ : Type} (x : Executor σ) (t : TableName) (w : Surroundings)

theorem executeAll_trace (r : Record) (statements : List String) (s : σ) :
    (∃ before sql after e s', statements = before ++ sql :: after ∧
      (executeAll x r statements).run s = (.error (.statement r.version r.file sql e), s') ∧
      Trace x s (before.map executed ++ [⟨.execute sql, .error e⟩]) s') ∨
    ∃ s', (executeAll x r statements).run s = (.ok (), s') ∧
      Trace x s (statements.map executed) s' := by
  induction statements generalizing s with
  | nil => exact .inr ⟨s, rfl, .nil s⟩
  | cons sql rest ih =>
    rcases ha : x.answer (.execute sql) s with ⟨e | u, s₁⟩
    · exact .inl ⟨[], sql, rest, e, s₁, rfl, executeAll_cons_of_error ha, .of_answer ha⟩
    · rw [executeAll_cons_of_ok ha]
      rcases ih s₁ with ⟨before, sql', after, e, s', rfl, hr, ht⟩ | ⟨s', hr, ht⟩
      · exact .inl ⟨sql :: before, sql', after, e, s', rfl, hr, (Trace.of_answer ha).append ht⟩
      · exact .inr ⟨s', hr, (Trace.of_answer ha).append ht⟩

theorem rollback_trace (s : σ) :
    ∃ a, Trace x s [⟨.rollback, a⟩] (attempt x .rollback s).2 := ⟨_, .single .rollback s⟩

theorem abandon_trace (r : Record) (s : σ) :
    ∃ a b, Trace x s [⟨.execute (ControlTable.delete t.text r), a⟩, ⟨.rollback, b⟩]
      (abandon x t r s).2 :=
  ⟨_, _, .cons _ s (.single .rollback _)⟩

theorem applyStep_course (time : UInt64) (step : Step) (s : σ) :
    ∃ l, Trace x s l ((applyStep x t w time step).run s).2 ∧
      StepCourse t w time step l ((applyStep x t w time step).run s).1 := by
  unfold applyStep
  cases hload : step.load w.read with
  | error e => exact ⟨[], .nil s, .unreadable hload⟩
  | ok statements =>
    rw [Run.run_bind_of_ok (Run.run_ofExcept _ s)]
    -- each call either fails, and then the rest is its clean-up, or leads on
    rcases hb : x.answer .begin s with ⟨e | u, s₁⟩
    · rw [Run.run_bind_of_error (run_demand_of_error hb)]
      exact ⟨_, .of_answer hb, .interrupted hload (.begin e)⟩
    rw [Run.run_bind_of_ok (run_demand_of_ok hb)]
    have t₁ : Trace x s [⟨.begin, .ok ()⟩] s₁ := .of_answer hb
    rcases hi : x.answer (.execute (ControlTable.insert t.text (.inFlight step))) s₁ with
      ⟨e | u, s₂⟩
    · rw [Run.run_bind_of_error (Run.run_cleaning_of_error (run_demand_of_error hi) _)]
      obtain ⟨a, ha⟩ := rollback_trace x s₂
      exact ⟨_, t₁.append ((Trace.of_answer hi).append ha), .interrupted hload (.insert e a)⟩
    rw [Run.run_bind_of_ok (Run.run_cleaning_of_ok (run_demand_of_ok hi) _)]
    have t₂ : Trace x s (opened t (.inFlight step)) s₂ := t₁.append (.of_answer hi)
    rcases executeAll_trace x (.inFlight step) statements s₂ with
      ⟨before, sql, after, e, s₃, hs, hx, ht⟩ | ⟨s₃, hx, ht⟩
    · rw [Run.run_bind_of_error (Run.run_cleaning_of_error hx _)]
      obtain ⟨a, b, hab⟩ := abandon_trace x t (.inFlight step) s₃
      refine ⟨_, (t₂.append ht).append hab, .interrupted hload ?_⟩
      simpa using Interrupted.statement hs e a b
    rw [Run.run_bind_of_ok (Run.run_cleaning_of_ok hx _)]
    have t₃ := t₂.append ht
    rcases hu : x.answer
      (.execute (ControlTable.update t.text ((Record.inFlight step).complete time))) s₃ with
      ⟨e | u, s₄⟩
    · rw [Run.run_bind_of_error (Run.run_cleaning_of_error (run_demand_of_error hu) _)]
      obtain ⟨a, b, hab⟩ := abandon_trace x t (.inFlight step) s₄
      exact ⟨_, t₃.append ((Trace.of_answer hu).append hab), .interrupted hload (.update e a b)⟩
    rw [Run.run_bind_of_ok (Run.run_cleaning_of_ok (run_demand_of_ok hu) _)]
    rcases hc : x.answer .commit s₄ with ⟨e | u, s₅⟩
    · rw [Run.run_bind_of_error (Run.run_cleaning_of_error (run_demand_of_error hc) _)]
      obtain ⟨a, ha⟩ := rollback_trace x s₅
      exact ⟨_, t₃.append ((Trace.of_answer hu).append ((Trace.of_answer hc).append ha)),
        .interrupted hload (.commit e a)⟩
    rw [Run.run_bind_of_ok (Run.run_cleaning_of_ok (run_demand_of_ok hc) _)]
    exact ⟨_, t₃.append ((Trace.of_answer hu).append (.of_answer hc)), .applied hload⟩

theorem applySteps_course (r : Report) (p : Option Version) (steps : List Step) (s : σ) :
    ∃ l, Trace x s l ((applySteps x t w r p steps).run s).2 ∧
      Course t w r p steps l ((applySteps x t w r p steps).run s).1 := by
  induction steps generalizing r p s with
  | nil => exact ⟨[], .nil s, .done r p⟩
  | cons step rest ih =>
    cases hd : isDue r.finalVersion p step.version with
    | error e =>
      rw [applySteps_of_refused hd]
      exact ⟨[], .nil s, .refused hd⟩
    | ok due =>
      cases due with
      | false =>
        rw [applySteps_of_skipped hd]
        obtain ⟨l, hl, hc⟩ := ih r.skip (some step.version) s
        exact ⟨l, hl, .skipped hd hc⟩
      | true =>
        obtain ⟨l₁, h₁, c₁⟩ := applyStep_course x t w (w.completedAt r.applied.length) step s
        rcases hs : (applyStep x t w (w.completedAt r.applied.length) step).run s with ⟨e | n, s₁⟩
        · rw [hs] at h₁ c₁
          rw [applySteps_of_failed hd hs]
          exact ⟨l₁, h₁, .stopped hd c₁⟩
        · rw [hs] at h₁ c₁
          rw [applySteps_of_applied hd hs]
          obtain ⟨l₂, h₂, c₂⟩ := ih (r.add step.version n) (some step.version) s₁
          exact ⟨l₁ ++ l₂, h₁.append h₂, .applied hd c₁ c₂⟩

theorem versionOfInt_of_not {n : Int} (h : ¬(0 ≤ n ∧ n < 65536)) :
    versionOfInt n = .error (outOfRange n) := if_neg h

theorem versionOfInt_of {n : Int} (h : 0 ≤ n ∧ n < 65536) :
    versionOfInt n = .ok (UInt16.ofNat n.toNat) := if_pos h

/-- The query for the current version, once it is answered. -/
theorem currentVersion_run {s s₁ : σ} {a : Option Int}
    (h : x.answer (.query (ControlTable.selectCurrent t.text)) s = (.ok a, s₁)) :
    (currentVersion x t).run s = (versionOfAnswer a, s₁) := by
  unfold currentVersion
  rw [Run.run_bind_of_ok (run_demand_of_ok h)]
  cases a <;> rfl

theorem lockedVersion_run {s s₁ : σ} {a : Option Int}
    (h : x.answer (.query (ControlTable.selectLock t.text)) s = (.ok a, s₁)) :
    (lockedVersion x t).run s = (a.elim (.ok none) fun n => (versionOfInt n).map some, s₁) := by
  unfold lockedVersion
  rw [Run.run_bind_of_ok (run_demand_of_ok h)]
  cases a <;> rfl

theorem openRun_opening (s : σ) :
    ∃ l, Trace x s l ((openRun x t).run s).2 ∧ Opening t l ((openRun x t).run s).1 := by
  unfold openRun ensureTable
  rcases hc : x.answer (.execute (ControlTable.create t.text)) s with ⟨e | u, s₁⟩
  · rw [Run.run_bind_of_error (run_demand_of_error hc)]
    exact ⟨_, .of_answer hc, .create e⟩
  rw [Run.run_bind_of_ok (run_demand_of_ok hc)]
  have t₁ : Trace x s [executed (ControlTable.create t.text)] s₁ := .of_answer hc
  rcases hq : x.answer (.query (ControlTable.selectCurrent t.text)) s₁ with ⟨e | a, s₂⟩
  · have hr : (currentVersion x t).run s₁ = (.error (.executor e), s₂) :=
      Run.run_bind_of_error (run_demand_of_error hq) _
    rw [Run.run_bind_of_error hr]
    exact ⟨_, t₁.append (.of_answer hq), .current e⟩
  have t₂ : Trace x s (looked t a) s₂ := t₁.append (.of_answer hq)
  have hr := currentVersion_run x t hq
  cases hv : versionOfAnswer a with
  | error e =>
    rw [hv] at hr
    rw [Run.run_bind_of_error hr]
    cases a with
    | none => simp [versionOfAnswer] at hv
    | some n =>
      by_cases hn : 0 ≤ n ∧ n < 65536
      · simp [versionOfAnswer, versionOfInt_of hn] at hv
      · obtain rfl : outOfRange n = e := by
          simpa [versionOfAnswer, versionOfInt_of_not hn] using hv
        exact ⟨_, t₂, .currentOutOfRange hn⟩
  | ok v =>
    rw [hv] at hr
    rw [Run.run_bind_of_ok hr]
    rcases hl : x.answer (.query (ControlTable.selectLock t.text)) s₂ with ⟨e | b, s₃⟩
    · have hr : (lockedVersion x t).run s₂ = (.error (.executor e), s₃) :=
        Run.run_bind_of_error (run_demand_of_error hl) _
      rw [Run.run_bind_of_error hr]
      exact ⟨_, t₂.append (.of_answer hl), .lock hv e⟩
    have t₃ := t₂.append (Trace.of_answer hl)
    have hr := lockedVersion_run x t hl
    cases b with
    | none =>
      rw [Run.run_bind_of_ok hr]
      exact ⟨_, t₃, .free hv⟩
    | some n =>
      by_cases hn : 0 ≤ n ∧ n < 65536
      · rw [Option.elim_some, versionOfInt_of hn] at hr
        rw [Run.run_bind_of_ok hr]
        exact ⟨_, t₃, .locked hv hn⟩
      · rw [Option.elim_some, versionOfInt_of_not hn] at hr
        rw [Run.run_bind_of_error hr]
        exact ⟨_, t₃, .lockOutOfRange hv hn⟩

/-- What the calls of a run, their answers and its outcome can be: an opening that
fails, or one that succeeds with a course through the steps after it. -/
inductive RunCourse (t : TableName) (w : Surroundings) (steps : List Step) :
    List Event → Except MigrationError Report → Prop
  | notOpened {l : List Event} {e : MigrationError} (h : Opening t l (.error e)) :
    RunCourse t w steps l (.error e)
  | opened {l₁ l₂ : List Event} {current : Version} {o : Except MigrationError Report}
      (h₁ : Opening t l₁ (.ok current)) (h₂ : Course t w ⟨[], 0, 0, current⟩ none steps l₂ o) :
    RunCourse t w steps (l₁ ++ l₂) o

theorem apply_course (steps : List Step) (s : σ) :
    ∃ l, Trace x s l ((apply x t w steps).run s).2 ∧
      RunCourse t w steps l ((apply x t w steps).run s).1 := by
  unfold apply
  obtain ⟨l₁, h₁, c₁⟩ := openRun_opening x t s
  rcases ho : (openRun x t).run s with ⟨e | current, s₁⟩
  · rw [ho] at h₁ c₁
    rw [Run.run_bind_of_error ho]
    exact ⟨l₁, h₁, .notOpened c₁⟩
  · rw [ho] at h₁ c₁
    rw [Run.run_bind_of_ok ho]
    obtain ⟨l₂, h₂, c₂⟩ := applySteps_course x t w ⟨[], 0, 0, current⟩ none steps s₁
    exact ⟨l₁ ++ l₂, h₁.append h₂, .opened c₁ c₂⟩

end SipMigrate.Migration
