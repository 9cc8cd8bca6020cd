import SipMigrate.Executor.Faults
import SipMigrate.Executor.Script
import SipMigrate.Proofs.Executor.Tally
import SipMigrate.Proofs.Migration.Bracketing
import SipMigrate.Proofs.Migration.Effect

/-! A run whose calls are counted on their way. The counting does not show: the result of the
run, the calls that reach the executor inside and its state are those of the run without it.
And the counts tell what the run did, if it succeeds by its report, and if it fails by the
number of steps that are committed and the place of the failure. -/

namespace SipMigrate.Migration

open Executor Text

variable {σ : Type} {t : TableName} {w : Surroundings}

/-! ### The counted run -/

theorem tally_watches (x : Executor σ) : Watches Tally.inner (tally x) x := by
  intro c s
  rw [answer_tally]

/-- What a counted run has counted are the events of the run on the executor inside. -/
theorem apply_tally_counts (x : Executor σ) (t : TableName) (w : Surroundings)
    (steps : List Step) (c : Tally σ) :
    let run := (apply (tally x) t w steps).run c
    let events := ((apply (logged x) t w steps).run ⟨c.inner, []⟩).2.events
    Tally.Counts events c run.2 ∧ RunCourse t w steps events run.1 := by
  intro run events
  have hwatched := apply_follows (logged_watches (tally x)) t w steps ⟨c, []⟩
  have halong := apply_alongside (fun call hcall =>
    ((tally_watches x).matches (RunCall t w steps) call hcall).logged) ⟨c, []⟩ ⟨c.inner, []⟩
    ⟨rfl, rfl⟩
  obtain ⟨l, htrace, hcourse⟩ := apply_course (logged (tally x)) t w steps ⟨c, []⟩
  obtain ⟨hl, htrace⟩ := htrace.of_logged
  have hevents : events = l := halong.2.2.symm.trans hl
  change run = _ at hwatched
  rw [hevents, hwatched]
  exact ⟨htrace.of_tally.1, hcourse⟩

/-! ### Steps that are applied -/

theorem texts_executed (statements : List String) :
    texts (statements.map executed) = statements := by
  rw [texts, List.filterMap_map]
  exact List.filterMap_some

/-- Statements make no other call. -/
theorem made_executed {c : Call} (hc : c.text? = none) (statements : List String) :
    made c (statements.map executed) = 0 := by
  rw [made, List.countP_map, List.countP_eq_zero]
  rintro sql - h
  have hcall : Call.execute sql = c := of_decide_eq_true h
  rw [← hcall] at hc
  cases hc

theorem texts_block (r : Record) (statements : List String) (time : UInt64) :
    texts (block t r statements time) = ControlTable.insert t.text r :: statements ++
      [ControlTable.update t.text (r.complete time)] := by
  rw [block, texts_append, texts_append, texts_executed]
  rfl

/-- Events of which none has failed, and which leave some transactions open. -/
structure Answered (pending : Nat) (l : List Event) : Prop where
  isOk : ∀ e ∈ l, e.answer.isOk = true
  begins : made .begin l = made .commit l + pending
  rollbacks : made .rollback l = 0

theorem Answered.append {l₁ l₂ : List Event} {n : Nat} (h₁ : Answered 0 l₁)
    (h₂ : Answered n l₂) : Answered n (l₁ ++ l₂) where
  isOk := List.forall_mem_append.mpr ⟨h₁.isOk, h₂.isOk⟩
  begins := by
    rw [made_append, made_append, h₁.begins, h₂.begins]
    omega
  rollbacks := by rw [made_append, h₁.rollbacks, h₂.rollbacks]

/-- A block up to some of its statements. -/
def started (t : TableName) (r : Record) (statements : List String) : List Event :=
  opened t r ++ statements.map executed

theorem made_commit_started (r : Record) (statements : List String) :
    made .commit (started t r statements) = 0 := by
  rw [started, made_append, made_executed rfl]
  rfl

theorem answered_started (r : Record) (statements : List String) :
    Answered 1 (started t r statements) where
  isOk := by
    intro e he
    simp only [started, opened, List.mem_append, List.mem_map, List.mem_cons, List.not_mem_nil,
      or_false] at he
    rcases he with (rfl | rfl) | ⟨sql, -, rfl⟩ <;> rfl
  begins := by
    rw [made_commit_started, started, made_append, made_executed rfl]
    rfl
  rollbacks := by
    rw [started, made_append, made_executed rfl]
    rfl

theorem made_commit_block (r : Record) (statements : List String) (time : UInt64) :
    made .commit (block t r statements time) = 1 := by
  rw [block, ← started, made_append, made_commit_started]
  rfl

theorem answered_block (r : Record) (statements : List String) (time : UInt64) :
    Answered 0 (block t r statements time) where
  isOk := by
    rw [block, ← started, List.forall_mem_append]
    refine ⟨(answered_started r statements).isOk, ?_⟩
    simp [executed, Except.isOk, Except.toBool]
  begins := by
    rw [made_commit_block, block, ← started, made_append, (answered_started r statements).begins,
      made_commit_started]
    rfl
  rollbacks := by
    rw [block, ← started, made_append, (answered_started r statements).rollbacks]
    rfl

theorem answered_blocks (n : Nat) (done : List (Step × List String)) :
    Answered 0 (blocks t w n done) := by
  induction done generalizing n with
  | nil => exact ⟨by simp [blocks], rfl, rfl⟩
  | cons d rest ih => exact (answered_block _ _ _).append (ih (n + 1))

theorem made_commit_blocks (n : Nat) (done : List (Step × List String)) :
    made .commit (blocks t w n done) = done.length := by
  induction done generalizing n with
  | nil => rfl
  | cons d rest ih =>
    rw [blocks, made_append, made_commit_block, ih, List.length_cons, Nat.add_comm]

theorem length_texts_blocks (n : Nat) (done : List (Step × List String)) :
    (texts (blocks t w n done)).length = 2 * done.length + (done.flatMap (·.2)).length := by
  induction done generalizing n with
  | nil => rfl
  | cons d rest ih =>
    simp only [blocks, texts_append, texts_block, List.length_append, List.length_cons,
      List.length_nil, List.flatMap_cons, ih]
    omega

/-- The statements of applied steps are executed in their order. -/
theorem sublist_texts_blocks (n : Nat) (done : List (Step × List String)) :
    (done.flatMap (·.2)).Sublist (texts (blocks t w n done)) := by
  induction done generalizing n with
  | nil => exact .refl _
  | cons d rest ih =>
    rw [blocks, texts_append, texts_block, List.flatMap_cons]
    exact ((List.sublist_append_left d.2 _).cons _).append (ih (n + 1))

/-! ### A run that succeeds -/

/-- Whether a text mentions a control table. -/
def TableName.mentionedIn (t : TableName) (sql : String) : Bool :=
  occursIn t.text.toList sql.toList

theorem mentionedIn_of_eq {sql before after : String} (h : sql = before ++ (t.text ++ after)) :
    t.mentionedIn sql = true := by
  rw [h]
  simp only [TableName.mentionedIn, occursIn_iff, String.toList_append, ← List.append_assoc]
  exact ⟨_, _, rfl⟩

theorem mentionedIn_create : t.mentionedIn (ControlTable.create t.text) = true := by
  apply mentionedIn_of_eq
  unfold ControlTable.create
  simp only [String.append_assoc]
  rfl

theorem mentionedIn_insert (r : Record) : t.mentionedIn (ControlTable.insert t.text r) = true := by
  apply mentionedIn_of_eq
  unfold ControlTable.insert
  simp only [String.append_assoc]
  rfl

theorem mentionedIn_update (r : Record) : t.mentionedIn (ControlTable.update t.text r) = true := by
  apply mentionedIn_of_eq
  unfold ControlTable.update
  simp only [String.append_assoc]
  rfl

/-- Of the texts of a run only statements of scripts may leave the control table out. -/
theorem outside_blocks (n : Nat) (done : List (Step × List String)) :
    (texts (blocks t w n done)).countP (!t.mentionedIn ·) =
      (done.flatMap (·.2)).countP (!t.mentionedIn ·) := by
  induction done generalizing n with
  | nil => rfl
  | cons d rest ih =>
    simp [blocks, texts_block, mentionedIn_insert, mentionedIn_update, ih, List.flatMap_cons]

/-- The statements of the scripts that a run has applied, by its report. -/
def Report.migrated (report : Report) (w : Surroundings) (steps : List Step) : List String :=
  (steps.filter fun s => s.version ∈ report.applied).flatMap fun s =>
    ((s.load w.read).toOption).getD []

/-- A run that succeeds has executed two texts of its own for each step that it applied. -/
theorem Course.length_texts {r : Report} {p : Option Version} {steps : List Step}
    {l : List Event} {report : Report} (h : Course t w r p steps l (.ok report)) :
    (texts l).length + (r.statements + 2 * r.applied.length) =
      report.statements + 2 * report.applied.length := by
  generalize ho : Except.ok report = o at h
  induction h with
  | done r p =>
    cases ho
    simp
  | refused | stopped => cases ho
  | skipped _ _ ih => exact ih ho
  | applied _ h₁ _ ih =>
    obtain ⟨statements, -, rfl, rfl⟩ := stepCourse_ok h₁
    have ih := ih ho
    simp only [Report.add, List.length_append, List.length_cons, List.length_nil] at ih
    simp only [texts_append, texts_block, List.length_append, List.length_cons, List.length_nil]
    omega

/-- The steps that a run has applied are those of its report. -/
theorem Applied.migrated {current : Version} {steps : List Step}
    {done : List (Step × List String)} {report : Report} (h : Applied w current steps done)
    (hreport : report.applied = done.map (·.1.version)) :
    report.migrated w steps = done.flatMap (·.2) := by
  have hsteps : (steps.filter fun s => s.version ∈ report.applied) = done.map (·.1) := by
    rw [h.steps]
    refine List.filter_congr fun s hs => ?_
    have hmem : s.version ∈ report.applied ↔ current < s.version := by
      have hmap : report.applied = (done.map (·.1)).map (·.version) := by
        rw [hreport, List.map_map]
        rfl
      rw [hmap, h.steps, List.mem_map]
      constructor
      · rintro ⟨u, hu, hversion⟩
        rw [← hversion]
        simpa using (List.mem_filter.mp hu).2
      · intro hlt
        exact ⟨s, List.mem_filter.mpr ⟨hs, by simpa using hlt⟩, rfl⟩
    simp [hmem]
  rw [Report.migrated, hsteps, List.flatMap_map]
  refine List.flatMap_congr fun d hd => ?_
  rw [h.statements d hd]
  rfl

/-- What the counts of a tally are after a run that ended with a report. -/
structure TellsReport (t : TableName) (w : Surroundings) (steps : List Step) (report : Report)
    (c : Tally σ) : Prop where
  begins : c.begins = report.applied.length
  commits : c.commits = report.applied.length
  rollbacks : c.rollbacks = 0
  executed : c.executed.length = 1 + 2 * report.applied.length + report.statements
  migrated : (report.migrated w steps).Sublist c.executed
  length_migrated : (report.migrated w steps).length = report.statements
  outside : c.statementsOutside t.text = (report.migrated w steps).countP (!t.mentionedIn ·)
  outside_eq : (∀ sql ∈ report.migrated w steps, t.mentionedIn sql = false) →
    c.statementsOutside t.text = report.statements

theorem texts_of_opened {l : List Event} {v : Version} (h : Opening t l (.ok v)) :
    texts l = [ControlTable.create t.text] := by
  cases h
  rfl

theorem answered_opening {l : List Event} {v : Version} (h : Opening t l (.ok v)) :
    Answered 0 l := by
  cases h
  exact ⟨by simp [looked, executed, Except.isOk, Except.toBool], rfl, rfl⟩

theorem made_commit_opening {l : List Event} {o : Except MigrationError Version}
    (h : Opening t l o) : made .commit l = 0 := by
  cases h <;> rfl

theorem statementsOutside_eq (c : Tally σ) :
    c.statementsOutside t.text = c.executed.countP (!t.mentionedIn ·) := rfl

/-- A run that succeeds is its opening and the blocks of the steps that it has applied. -/
theorem RunCourse.of_ok {steps : List Step} {l : List Event} {report : Report}
    (h : RunCourse t w steps l (.ok report)) :
    ∃ opening current done, Opening t opening (.ok current) ∧ l = opening ++ blocks t w 0 done ∧
      report.applied.length = done.length ∧ report.migrated w steps = done.flatMap (·.2) ∧
      (report.migrated w steps).length = report.statements := by
  cases h with
  | @opened opening l current o h₁ h₂ =>
    have htexts := h₂.length_texts
    obtain ⟨passed, left, done, tail, rfl, -, rfl, happlied, hend⟩ := h₂.bracketed
    cases hend with
    | complete hreport =>
      rw [List.nil_append] at hreport
      simp only [List.append_nil] at htexts ⊢
      have hdone : report.applied.length = done.length := by rw [hreport, List.length_map]
      have hmigrated := happlied.migrated hreport
      refine ⟨opening, current, done, h₁, rfl, hdone, hmigrated, ?_⟩
      rw [length_texts_blocks, ← hmigrated, List.length_nil] at htexts
      omega

/-- A tally that starts from nothing tells the report of a run that succeeds. -/
theorem RunCourse.tellsReport {steps : List Step} {l : List Event} {report : Report}
    (h : RunCourse t w steps l (.ok report)) {s : σ} {c : Tally σ}
    (hc : Tally.Counts l (.start s) c) : TellsReport t w steps report c := by
  obtain ⟨opening, current, done, hopening, rfl, hdone, hmigrated, hlength⟩ := h.of_ok
  have hanswered := (answered_opening hopening).append (answered_blocks (t := t) (w := w) 0 done)
  have hcommits : made .commit (opening ++ blocks t w 0 done) = report.applied.length := by
    rw [made_append, made_commit_opening hopening, made_commit_blocks, hdone, Nat.zero_add]
  have hexecuted : c.executed = ControlTable.create t.text :: texts (blocks t w 0 done) := by
    rw [hc.executed, texts_append, texts_of_opened hopening]
    rfl
  have houtside : c.statementsOutside t.text =
      (report.migrated w steps).countP (!t.mentionedIn ·) := by
    rw [statementsOutside_eq, hexecuted, List.countP_cons, mentionedIn_create, outside_blocks,
      hmigrated]
    rfl
  exact {
    begins := by rw [hc.begins, hanswered.begins, hcommits]; exact Nat.zero_add _
    commits := by rw [hc.commits, hcommits]; exact Nat.zero_add _
    rollbacks := by rw [hc.rollbacks, hanswered.rollbacks]; rfl
    executed := by
      rw [hexecuted, List.length_cons, length_texts_blocks, ← hmigrated, hlength, hdone]
      omega
    migrated := by
      rw [hexecuted, hmigrated]
      exact (sublist_texts_blocks 0 done).cons _
    length_migrated := hlength
    outside := houtside
    outside_eq := fun hnone => by
      rw [houtside, ← hlength, List.countP_eq_length]
      intro sql hsql
      rw [hnone sql hsql]
      rfl }

/-! ### A run that fails -/

/-- Where a run may fail, by its transactions. -/
inductive Phase
  /-- With no transaction open. -/
  | outside
  | begin
  | within
  | commit
deriving DecidableEq, Repr

/-- The number of calls to begin, to commit and to roll back at a failure, once some steps
are committed. -/
def Phase.counts (committed : Nat) : Phase → Nat × Nat × Nat
  | outside => (committed, committed, 0)
  | begin => (committed + 1, committed, 0)
  | within => (committed + 1, committed, 1)
  | commit => (committed + 1, committed + 1, 1)

/-- The place of a call that fails, from the events before it. -/
def Phase.ofCall (before : List Event) : Call → Phase
  | .begin => .begin
  | .commit => .commit
  | _ => if made .begin before = made .commit before then .outside else .within

/-- The place of the first call that fails. A run that no call fails does so outside of its
transactions: by what it has read or by the versions of its steps. -/
def phaseOf (l : List Event) : Phase :=
  match l.dropWhile (·.answer.isOk) with
  | [] => .outside
  | e :: _ => .ofCall (l.takeWhile (·.answer.isOk)) e.call

/-- The number of transactions that are committed. -/
def committed (l : List Event) : Nat := l.countP fun e => e.call = .commit && e.answer.isOk

theorem committed_append (l₁ l₂ : List Event) :
    committed (l₁ ++ l₂) = committed l₁ + committed l₂ := List.countP_append

theorem Answered.committed_eq {n : Nat} {l : List Event} (h : Answered n l) :
    committed l = made .commit l :=
  List.countP_congr fun e he => by simp [h.isOk e he]

theorem phaseOf_of_first {n : Nat} {before : List Event} {e : Event} (after : List Event)
    (h : Answered n before) (he : e.answer.isOk = false) :
    phaseOf (before ++ e :: after) = .ofCall before e.call := by
  rw [phaseOf, List.dropWhile_append_of_pos h.isOk, List.takeWhile_append_of_pos h.isOk,
    List.dropWhile_cons_of_neg (by simp [he]), List.takeWhile_cons_of_neg (by simp [he]),
    List.append_nil]

theorem phaseOf_append {before l : List Event} (h : Answered 0 before) :
    phaseOf (before ++ l) = phaseOf l := by
  rw [phaseOf, phaseOf, List.dropWhile_append_of_pos h.isOk,
    List.takeWhile_append_of_pos h.isOk]
  cases l.dropWhile (·.answer.isOk) with
  | nil => rfl
  | cons e after =>
    cases hcall : e.call <;> simp [hcall, Phase.ofCall, h.begins]

/-- The calls on transactions among some events are those that their place of failure tells. -/
def TellsFailure (l : List Event) : Prop :=
  (made .begin l, made .commit l, made .rollback l) = (phaseOf l).counts (committed l)

theorem TellsFailure.append {before l : List Event} (hl : TellsFailure l)
    (h : Answered 0 before) : TellsFailure (before ++ l) := by
  unfold TellsFailure at hl ⊢
  rw [phaseOf_append h, committed_append, h.committed_eq, made_append, made_append, made_append,
    h.begins, h.rollbacks]
  cases hphase : phaseOf l <;> rw [hphase] at hl <;>
    simp only [Phase.counts, Prod.mk.injEq] at * <;> omega

theorem Opening.tellsFailure {l : List Event} {e : MigrationError}
    (h : Opening t l (.error e)) : TellsFailure l := by
  cases h <;> rfl

/-- A call that fails in a block follows the one transaction that is begun there. -/
theorem tellsFailure_of_started (r : Record) (statements : List String) {e : Event}
    {after : List Event} (he : e.answer.isOk = false)
    (h : (1 + made .begin (e :: after), made .commit (e :: after), made .rollback (e :: after)) =
      (Phase.ofCall (started t r statements) e.call).counts (committed (e :: after))) :
    TellsFailure (started t r statements ++ e :: after) := by
  have hstarted := answered_started (t := t) r statements
  rw [TellsFailure, phaseOf_of_first _ hstarted he, committed_append, hstarted.committed_eq,
    made_append, made_append, made_append, hstarted.begins, hstarted.rollbacks,
    made_commit_started]
  simpa only [Nat.zero_add] using h

/-- A statement that fails in a block is followed by the removal of the row and a rollback. -/
theorem tellsFailure_execute (r : Record) (statements : List String) (sql row : String)
    (e : ExecutorError) (a b : Except ExecutorError Unit) :
    TellsFailure (started t r statements ++
      [⟨.execute sql, .error e⟩, ⟨.execute row, a⟩, ⟨.rollback, b⟩]) := by
  have hphase : Phase.ofCall (started t r statements) (.execute sql) = .within := by
    simp [Phase.ofCall, (answered_started (t := t) r statements).begins]
  refine tellsFailure_of_started r statements rfl ?_
  rw [hphase]
  rfl

theorem tellsFailure_commit (r : Record) (statements : List String) (sql : String)
    (e : ExecutorError) (a : Except ExecutorError Unit) :
    TellsFailure (started t r statements ++
      [executed sql, ⟨.commit, .error e⟩, ⟨.rollback, a⟩]) := by
  have hevents : started t r statements ++ [executed sql, ⟨.commit, .error e⟩, ⟨.rollback, a⟩] =
      started t r (statements ++ [sql]) ++ [⟨.commit, .error e⟩, ⟨.rollback, a⟩] := by
    simp [started]
  rw [hevents]
  exact tellsFailure_of_started r _ rfl rfl

theorem Interrupted.tellsFailure {r : Record} {statements : List String} {time : UInt64}
    {l : List Event} {e : MigrationError} (h : Interrupted t r statements time l e) :
    TellsFailure l := by
  cases h with
  | begin | insert => rfl
  | statement => exact tellsFailure_execute _ _ _ _ _ _ _
  | update => exact tellsFailure_execute _ _ _ _ _ _ _
  | commit => exact tellsFailure_commit _ _ _ _ _

theorem Ending.tellsFailure {r : Report} {done : List (Step × List String)} {left : List Step}
    {l : List Event} {e : MigrationError} (h : Ending t w r done left l (.error e)) :
    TellsFailure l := by
  cases h with
  | refused | unreadable => rfl
  | interrupted _ _ _ hl => exact hl.tellsFailure

/-- A run that fails has begun, committed and rolled back what the place of the failure tells. -/
theorem RunCourse.tellsFailure {steps : List Step} {l : List Event} {e : MigrationError}
    (h : RunCourse t w steps l (.error e)) : TellsFailure l := by
  cases h with
  | notOpened h => exact h.tellsFailure
  | opened h₁ h₂ =>
    obtain ⟨passed, left, done, tail, -, -, rfl, -, hend⟩ := h₂.bracketed
    exact (hend.tellsFailure.append (answered_blocks _ done)).append (answered_opening h₁)

/-! ### Every run -/

/-- Counting the calls of a run does not change its result, the calls that reach the executor
inside, their order and answers, nor the state of that executor. And if the counts are those of
a new tally or of one that was reset, they tell a report as it is; if the run fails, they are
the ones that go with the place of the failure and the number of steps committed before it. -/
theorem apply_tallied (x : Executor σ) (t : TableName) (w : Surroundings) (steps : List Step)
    (c : Tally σ) :
    let run := (apply (tally x) t w steps).run c
    let events := ((apply (logged x) t w steps).run ⟨c.inner, []⟩).2.events
    (run.1, run.2.inner) = (apply x t w steps).run c.inner ∧
    (∀ l : Tally (Log σ), ((apply (tally (logged x)) t w steps).run l).2.inner =
      ((apply (logged x) t w steps).run l.inner).2) ∧
    ((c = .start c.inner ∨ ∃ b : Tally σ, c = b.reset) →
      (∀ report, run.1 = .ok report → TellsReport t w steps report run.2) ∧
      ∀ e, run.1 = .error e → (run.2.begins, run.2.commits, run.2.rollbacks) =
        (phaseOf events).counts (committed events)) := by
  intro run events
  obtain ⟨hcounts, hcourse⟩ := apply_tally_counts x t w steps c
  change Tally.Counts events c run.2 at hcounts
  change RunCourse t w steps events run.1 at hcourse
  refine ⟨(apply_follows (tally_watches x) t w steps c).symm, fun l => ?_, fun hc => ?_⟩
  · rw [apply_follows (tally_watches (logged x)) t w steps l]
  obtain ⟨s, rfl⟩ : ∃ s, c = .start s := by
    rcases hc with hc | ⟨b, hc⟩
    · exact ⟨_, hc⟩
    · exact ⟨_, hc⟩
  constructor
  · intro report hrun
    rw [hrun] at hcourse
    exact hcourse.tellsReport hcounts
  · intro e hrun
    rw [hrun] at hcourse
    rw [hcounts.begins, hcounts.commits, hcounts.rollbacks]
    simpa [Tally.start, TellsFailure] using hcourse.tellsFailure

/-- Answers every call, except that the second commit fails. -/
def fullDisk : Executor (Recorder Script) :=
  recorded [⟨.commit, some 2, none, "disk full"⟩] scripted

/-- Two steps with three statements, none of which mentions the control table; and the same
steps when the second of them cannot be committed. -/
theorem apply_tallied_of_two :
    (((apply (tally scripted) .standard smallFiles smallSteps).run
        (.start ⟨[none, none], []⟩)).1 = .ok ⟨[1, 2], 0, 3, 2⟩ ∧
      TellsReport .standard smallFiles smallSteps ⟨[1, 2], 0, 3, 2⟩
        ((apply (tally scripted) .standard smallFiles smallSteps).run
          (.start ⟨[none, none], []⟩)).2) ∧
    ((apply (tally fullDisk) .standard smallFiles smallSteps).run
        (.start ⟨⟨[none, none], []⟩, []⟩)).1 = .error (.executor (.driver "disk full")) ∧
      (((apply (tally fullDisk) .standard smallFiles smallSteps).run
          (.start ⟨⟨[none, none], []⟩, []⟩)).2.begins,
        ((apply (tally fullDisk) .standard smallFiles smallSteps).run
          (.start ⟨⟨[none, none], []⟩, []⟩)).2.commits,
        ((apply (tally fullDisk) .standard smallFiles smallSteps).run
          (.start ⟨⟨[none, none], []⟩, []⟩)).2.rollbacks) = (2, 2, 1) := by
  have hrun : ((apply (tally scripted) .standard smallFiles smallSteps).run
      (.start ⟨[none, none], []⟩)).1 = .ok ⟨[1, 2], 0, 3, 2⟩ := by
    decide +kernel
  have hfailed : ((apply (tally fullDisk) .standard smallFiles smallSteps).run
      (.start ⟨⟨[none, none], []⟩, []⟩)).1 = .error (.executor (.driver "disk full")) := by
    decide +kernel
  have hphase : phaseOf ((apply (logged fullDisk) .standard smallFiles smallSteps).run
      ⟨⟨⟨[none, none], []⟩, []⟩, []⟩).2.events = .commit := by
    decide +kernel
  have hcommitted : committed ((apply (logged fullDisk) .standard smallFiles smallSteps).run
      ⟨⟨⟨[none, none], []⟩, []⟩, []⟩).2.events = 1 := by
    decide +kernel
  obtain ⟨-, -, htold⟩ := apply_tallied scripted .standard smallFiles smallSteps
    (.start ⟨[none, none], []⟩)
  obtain ⟨-, -, hfails⟩ := apply_tallied fullDisk .standard smallFiles smallSteps
    (.start ⟨⟨[none, none], []⟩, []⟩)
  refine ⟨⟨hrun, (htold (.inl rfl)).1 _ hrun⟩, hfailed, ?_⟩
  have hcounts := (hfails (.inl rfl)).2 _ hfailed
  have hinner : (Tally.start (⟨⟨[none, none], []⟩, []⟩ : Recorder Script)).inner =
      ⟨⟨[none, none], []⟩, []⟩ := rfl
  rw [hinner, hphase, hcommitted] at hcounts
  exact hcounts

end SipMigrate.Migration
