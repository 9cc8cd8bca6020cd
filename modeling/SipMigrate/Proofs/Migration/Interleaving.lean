import SipMigrate.Proofs.Migration.ExactlyOnce
import SipMigrate.Proofs.Migration.Resumption

/-! Runs that share a database. Each of them has a connection of its own, and they take
turns: the opening of a run is one part of it, and each step that it applies is another
one. A run goes on with the version that it was told in its opening, whatever the others
have committed since then. It is the primary key of the control table that keeps a version
from being committed twice. -/

namespace SipMigrate.Migration

open Sql Executor ControlTable

/-! ### The parts of a run -/

/-- How far a run has come. -/
inductive Stage
  | opening
  | stepping (report : Report) (previous : Option Version) (left : List Step)
  | ended (outcome : Except MigrationError Report)
deriving DecidableEq

namespace Stage

variable {σ : Type} {x : Executor σ} {t : TableName} {job : Job} {s : σ} {st : Stage}

/-- The next part of a run: its opening, or what it does with one step. -/
def advance (x : Executor σ) (t : TableName) (job : Job) (s : σ) : Stage → Stage × σ
  | opening =>
    match (openRun x t).run s with
    | (.ok current, s) => (stepping ⟨[], 0, 0, current⟩ none job.2, s)
    | (.error e, s) => (ended (.error e), s)
  | stepping r _ [] => (ended (.ok r), s)
  | stepping r p (u :: rest) =>
    match isDue r.finalVersion p u.version with
    | .ok true =>
      match (applyStep x t job.1 (job.1.completedAt r.applied.length) u).run s with
      | (.ok k, s) => (stepping (r.add u.version k) (some u.version) rest, s)
      | (.error e, s) => (ended (.error e), s)
    | .ok false => (stepping r.skip (some u.version) rest, s)
    | .error e => (ended (.error e), s)
  | ended o => (ended o, s)

/-- What is left of a run, done at once. -/
def finish (x : Executor σ) (t : TableName) (job : Job) (s : σ) :
    Stage → Except MigrationError Report × σ
  | opening => (apply x t job.1 job.2).run s
  | stepping r p left => (applySteps x t job.1 r p left).run s
  | ended o => (o, s)

/-- A bound for the number of parts that are left. -/
def parts (job : Job) : Stage → Nat
  | opening => job.2.length + 2
  | stepping _ _ left => left.length + 1
  | ended _ => 0

/-- The step that is looked at next. -/
def first? : Stage → Option Step
  | stepping _ _ (u :: _) => some u
  | _ => none

theorem finish_advance :
    (st.advance x t job s).1.finish x t job (st.advance x t job s).2 = st.finish x t job s := by
  cases st with
  | opening =>
    simp only [advance, finish, apply, Run.run_bind]
    rcases (openRun x t).run s with ⟨e | current, s'⟩ <;> rfl
  | ended o => rfl
  | stepping r p left =>
    cases left with
    | nil => rfl
    | cons u rest =>
      cases hd : isDue r.finalVersion p u.version with
      | error e => simp only [advance, finish, hd, applySteps_of_refused hd]
      | ok due =>
        cases due with
        | false => simp only [advance, finish, hd, applySteps_of_skipped hd]
        | true =>
          rcases hu : (applyStep x t job.1 (job.1.completedAt r.applied.length) u).run s with
            ⟨e | k, s'⟩
          · simp only [advance, finish, hd, hu, applySteps_of_failed hd hu]
          · simp only [advance, finish, hd, hu, applySteps_of_applied hd hu]

theorem parts_advance : (st.advance x t job s).1.parts job ≤ st.parts job - 1 := by
  cases st with
  | opening =>
    simp only [advance]
    rcases (openRun x t).run s with ⟨e | current, s'⟩ <;> simp [parts]
  | ended o => simp [advance, parts]
  | stepping r p left =>
    cases left with
    | nil => simp [advance, parts]
    | cons u rest =>
      simp only [advance]
      rcases isDue r.finalVersion p u.version with e | _ | _
      · simp [parts]
      · simp [parts]
      · dsimp only
        rcases (applyStep x t job.1 (job.1.completedAt r.applied.length) u).run s with
          ⟨e | k, s'⟩ <;> simp [parts]

/-- The parts of a run, one after the other and with nothing between them, are the run. -/
theorem iterate_advance {k : Nat} (hk : st.parts job ≤ k) :
    (fun g => g.1.advance x t job g.2)^[k] (st, s) =
      (ended (st.finish x t job s).1, (st.finish x t job s).2) := by
  induction k generalizing st s with
  | zero =>
    cases st with
    | opening | stepping => simp [parts] at hk
    | ended o => rfl
  | succ k ih =>
    rw [Function.iterate_succ_apply, ih (parts_advance.trans (Nat.sub_le_iff_le_add.mpr hk)),
      finish_advance]

theorem iterate_advance_opening (x : Executor σ) (t : TableName) (job : Job) (s : σ) :
    (fun g => g.1.advance x t job g.2)^[job.2.length + 2] (opening, s) =
      (ended ((apply x t job.1 job.2).run s).1, ((apply x t job.1 job.2).run s).2) :=
  iterate_advance (Nat.le_refl _)

end Stage

/-! ### Runs that take turns -/

/-- A transaction that is committed. -/
def isCommit (e : Event) : Bool := e.call = .commit && e.answer.isOk

/-- Runs on connections to one database. -/
structure Shared (ι : Type) where
  connection : ι → Connection
  stage : ι → Stage
  /-- The steps that were committed, in order, each with its run. -/
  commits : List (ι × Step)

namespace Shared

variable {ι : Type}

/-- Runs that are yet to begin. -/
def start (d : Database) (access : ι → Access) : Shared ι :=
  ⟨fun i => ⟨d, none, access i⟩, fun _ => .opening, []⟩

variable [DecidableEq ι]

/-- The next part of one run, with its calls and their answers. -/
def part (t : TableName) (jobs : ι → Job) (g : Shared ι) (i : ι) : Stage × Log Connection :=
  (g.stage i).advance (logged database) t (jobs i) ⟨g.connection i, []⟩

/-- One part of one run. What it commits is what all connections have from then on. -/
def advance (t : TableName) (jobs : ι → Job) (g : Shared ι) (i : ι) : Shared ι where
  connection := Function.update
    (fun j => { g.connection j with committed := (g.part t jobs i).2.inner.committed }) i
    (g.part t jobs i).2.inner
  stage := Function.update g.stage i (g.part t jobs i).1
  commits := g.commits ++
    if (g.part t jobs i).2.events.any isCommit then (g.stage i).first?.toList.map (i, ·) else []

/-- Parts of runs in the order of a schedule. -/
def run (t : TableName) (jobs : ι → Job) (g : Shared ι) (schedule : List ι) : Shared ι :=
  schedule.foldl (advance t jobs) g

/-- The statements of the steps that were committed. -/
def statements (jobs : ι → Job) (g : Shared ι) : List String :=
  g.commits.flatMap fun c => (c.2.load (jobs c.1).1.read).toOption.getD []

section Advance

variable (t : TableName) (jobs : ι → Job) (g : Shared ι)

theorem connection_advance_self (i : ι) :
    (g.advance t jobs i).connection i = (g.part t jobs i).2.inner := by
  simp [advance]

theorem connection_advance_of_ne {i j : ι} (h : j ≠ i) :
    (g.advance t jobs i).connection j =
      { g.connection j with committed := (g.part t jobs i).2.inner.committed } := by
  simp [advance, h]

theorem stage_advance_self (i : ι) : (g.advance t jobs i).stage i = (g.part t jobs i).1 := by
  simp [advance]

theorem stage_advance_of_ne {i j : ι} (h : j ≠ i) :
    (g.advance t jobs i).stage j = g.stage j := by
  simp [advance, h]

/-- The connections have one database after each part. -/
theorem committed_advance (i j : ι) :
    ((g.advance t jobs i).connection j).committed = (g.part t jobs i).2.inner.committed := by
  by_cases hj : j = i
  · rw [hj, connection_advance_self]
  · rw [connection_advance_of_ne t jobs g hj]

end Advance

end Shared

/-! ### Standing depends on the database alone -/

variable {t : TableName} {c c' : Connection} {d e : Database} {m n : Version} {rows : List Row}

theorem Present.congr (h : Present t e c n rows) (hc : c'.committed = c.committed) :
    Present t e c' n rows :=
  ⟨h.isCreatable, hc ▸ h.has, h.complete, hc ▸ h.agrees⟩

theorem Standing.congr (h : Standing t e c n rows) (hc : c'.committed = c.committed)
    (hw : c'.working = none) : Standing t e c' n rows := by
  refine ⟨hw, h.state.imp ?_ fun hp => hp.congr hc⟩
  intro ha
  exact ⟨hc ▸ ha.table?, ha.version, ha.rows, hc ▸ ha.eq⟩

/-- Where the control table is there, preparing it does nothing. -/
theorem Holds.prepared (h : Holds t d rows) : Migration.prepared t d = d := by
  obtain ⟨ht, hd⟩ := holds_iff.mp h
  have hcreate : (Connection.start d).execute (create t.text) = (.ok (), .start d) :=
    execute_create_of_isSome ht (by
      show (d.table? t.text).isSome = true
      rw [hd.table?]
      rfl)
  rw [Migration.prepared, hcreate]
  rfl

theorem IsComplete.standing_start (h : IsComplete t d n rows) :
    Standing t (prepared t d) (.start d) n rows := by
  refine ⟨rfl, ?_⟩
  rcases h with ⟨hd, rfl, rfl⟩ | ⟨hh, hc⟩
  · exact .inl ⟨hd, rfl, rfl, rfl⟩
  · obtain ⟨ht, hd⟩ := holds_iff.mp hh
    refine .inr ⟨ht, hd, hc, ?_⟩
    rw [hh.prepared]
    rfl

/-! ### One part among others -/

theorem Complete.any_hasVersion {k : Nat} {r : Record} (h : Complete k rows)
    (hr : r.version.toNat ∈ List.range' 1 k) : rows.any (hasVersion r) = true := by
  have hmem : versionValue r ∈ rows.map (·.get 0) :=
    h.versions.mem_iff.mpr (List.mem_map_of_mem hr)
  obtain ⟨s, hs, hv⟩ := List.mem_map.mp hmem
  refine List.any_eq_true.mpr ⟨s, hs, ?_⟩
  simp [hasVersion, hv, versionValue, Value.equals, Value.isNull, Value.order]

section Step

variable {w : Surroundings} {time : UInt64} {u : Step} {statements : List String}

theorem answer_logged {σ : Type} {x : Executor σ} {call : Call} {s s' : σ}
    {a : Except ExecutorError call.Answer} (h : x.answer call s = (a, s')) (l : List Event) :
    (logged x).answer call ⟨s, l⟩ = (a, ⟨s', l ++ [⟨call, a⟩]⟩) := by
  simp only [logged, h]

/-- A step whose row cannot be inserted is rolled back, and none of its statements is sent. -/
theorem applyStep_of_insert_error {σ : Type} {x : Executor σ} {s s₁ s₂ : σ} {cause : ExecutorError}
    (hload : u.load w.read = .ok statements) (hb : x.answer .begin s = (.ok (), s₁))
    (hi : x.answer (.execute (insert t.text (.inFlight u))) s₁ = (.error cause, s₂)) :
    (applyStep x t w time u).run s = (.error (.executor cause), (x.answer .rollback s₂).2) := by
  unfold applyStep
  rw [hload, Run.run_bind_of_ok (Run.run_ofExcept _ s), Run.run_bind_of_ok (run_demand_of_ok hb),
    Run.run_bind_of_error (Run.run_cleaning_of_error (run_demand_of_error hi) _), attempt_snd]

/-- A row of a version that is there already is not inserted. -/
theorem Present.insert_taken (h : Present t e c m rows)
    (hu : u.version.toNat ∈ List.range' 1 m.toNat) (w : Transaction)
    (hd : w.database = c.committed) :
    ∃ cause, database.answer (.execute (insert t.text (.inFlight u))) (c.within w) =
      (.error cause, c.within w) := by
  have htaken : rows.any (hasVersion (.inFlight u)) = true := h.complete.any_hasVersion hu
  by_cases hn : '\x00' ∈ (Record.inFlight u).description.toList ∨
      '\x00' ∈ (Record.inFlight u).file.toList
  · obtain ⟨f, hf⟩ := insert_reads_error t (.inFlight u) h.isCreatable.isWord hn
    exact ⟨_, answer_execute_of_error (Connection.execute_of_reads_error hf _)⟩
  · rw [not_or] at hn
    have hview : (c.within w).view.Has t.text (table t rows) := by
      show w.database.Has t.text (table t rows)
      rw [hd]
      exact h.has
    have hx := execute_insert h.isCreatable hview hn.1 hn.2
    rw [htaken, if_pos rfl] at hx
    exact ⟨_, answer_execute_of_error hx⟩

/-- The attempt to apply a version that is there already. -/
def attemptEvents (t : TableName) (u : Step) (cause : ExecutorError) : List Event :=
  [⟨.begin, .ok ()⟩, ⟨.execute (insert t.text (.inFlight u)), .error cause⟩, ⟨.rollback, .ok ()⟩]

theorem Present.applyStep_taken (h : Present t e c m rows) (hw : c.working = none)
    (hu : u.version.toNat ∈ List.range' 1 m.toNat) (hload : u.load w.read = .ok statements)
    (time : UInt64) :
    ∃ cause, (applyStep (logged database) t w time u).run ⟨c, []⟩ =
      (.error (.executor cause), ⟨c, attemptEvents t u cause⟩) := by
  obtain ⟨cause, hi⟩ := h.insert_taken hu ⟨c.committed, false⟩ rfl
  have hr : database.answer .rollback (c.within ⟨c.committed, false⟩) = (.ok (), c) := by
    show (Except.ok (), c.reopen) = _
    rw [reopen_of_working hw]
  refine ⟨cause, ?_⟩
  rw [applyStep_of_insert_error hload (answer_logged (answer_begin hw) []) (answer_logged hi _),
    answer_logged hr]
  rfl

end Step

theorem Opening.any_isCommit {l : List Event} {o : Except MigrationError Version}
    (h : Opening t l o) : l.any isCommit = false := by
  cases h <;> rfl

theorem Interrupted.any_isCommit {r : Record} {statements : List String} {time : UInt64}
    {l : List Event} {cause : MigrationError} (h : Interrupted t r statements time l cause) :
    l.any isCommit = false := by
  have hexecuted (l : List String) : (l.map executed).any isCommit = false := by
    simp [isCommit, executed]
  cases h with
  | begin | insert => rfl
  | statement | update | commit =>
    simp only [opened, List.any_append, hexecuted]
    rfl

/-- What a part of a run may do where the control table stands at version `m`: it commits
nothing, or it commits the step that it looks at, which has the next version. -/
inductive Part (job : Job) (e : Database) (m : Version) (rows : List Row) (u? : Option Step)
    (l : List Event) : Database → Version → List Row → Prop
  | idle (quiet : l.any isCommit = false) : Part job e m rows u? l e m rows
  | commits {u : Step} {statements : List String} {e' : Database} {rows' : List Row}
      (first : u? = some u) (loud : l.any isCommit = true)
      (next : u.version.toNat = m.toNat + 1) (grows : rows <+: rows')
      (load : u.load job.1.read = .ok statements) (executes : Executes e statements e') :
    Part job e m rows u? l e' u.version rows'

/-- What is known of a run in turn with others. -/
def Stage.Within (job : Job) (m : Version) (isThere : Prop) : Stage → Prop
  | stepping r _ left => left ⊆ job.2 ∧ r.finalVersion ≤ m ∧ isThere
  | _ => True

theorem Stage.Within.first {job : Job} {m : Version} {p : Prop} {st : Stage}
    (h : st.Within job m p) : ∀ u ∈ st.first?, u ∈ job.2 := by
  intro u hu
  cases st with
  | opening | ended => cases hu
  | stepping r p left =>
    cases left with
    | nil => cases hu
    | cons v rest =>
      obtain rfl : v = u := by simpa [Stage.first?] using hu
      exact h.1 List.mem_cons_self

theorem Stage.Within.mono {job : Job} {m m' : Version} {p q : Prop} {st : Stage}
    (h : st.Within job m p) (hm : m ≤ m') (hpq : p → q) : st.Within job m' q := by
  cases st with
  | opening | ended => trivial
  | stepping => exact ⟨h.1, UInt16.le_trans h.2.1 hm, hpq h.2.2⟩

/-- A part of a run that looks at step `u?` leads from a connection that stands at version `m`
to one that stands at version `m'`. -/
structure Leads (t : TableName) (job : Job) (e : Database) (m : Version) (rows : List Row)
    (c : Connection) (u? : Option Step) (log : Log Connection) (e' : Database) (m' : Version)
    (rows' : List Row) : Prop where
  part : Part job e m rows u? log.events e' m' rows'
  standing : Standing t e' log.inner m' rows'
  stays : Present t e c m rows → Present t e' log.inner m' rows'

section Parts

variable {job : Job} {log : Log Connection}

theorem Standing.leads (h : Standing t e c m rows) (u? : Option Step) (hc : log.inner = c)
    (hl : log.events.any isCommit = false) : Leads t job e m rows c u? log e m rows := by
  refine ⟨.idle hl, ?_, ?_⟩
  · rwa [hc]
  · rw [hc]
    exact id

theorem openRun_leads {o : Except MigrationError Version} (h : Standing t e c m rows)
    (hrun : (openRun (logged database) t).run ⟨c, []⟩ = (o, log)) :
    Leads t job e m rows c none log e m rows ∧
      ∀ v, o = .ok v → v = m ∧ Present t e log.inner m rows := by
  obtain ⟨l, hl, ho⟩ := openRun_opening (logged database) t ⟨c, []⟩
  rw [hrun] at hl ho
  obtain ⟨hevents, htrace⟩ := hl.of_logged
  obtain rfl : log.events = l := hevents
  have htrail : Trail database (fun _ => False) c log.events log.inner := .of_trace htrace
  obtain ⟨hstand, hw⟩ := ((reopen_of_working h.working).symm ▸ h).looks_all ho.looks htrail
  rw [reopen_of_working (hw.mpr h.working)] at hstand
  refine ⟨⟨.idle ho.any_isCommit, hstand, ?_⟩, ?_⟩
  · -- an opening that finds the table changes nothing
    intro hp
    obtain ⟨o', hrun', -⟩ := openRun_of_has hp.isCreatable (hp.view h.working) h.working
    have hfollows := openRun_follows (logged_watches database) t ⟨c, []⟩
    rw [hrun, show Log.inner ⟨c, []⟩ = c from rfl, hrun', Prod.mk.injEq] at hfollows
    rwa [← hfollows.2]
  · rintro v rfl
    obtain ⟨rfl, -, hp⟩ := h.opened ho htrail
    exact ⟨rfl, hp⟩

/-- A step that is due in a run whose version is not above the one of the control table. -/
theorem Present.applyStep_leads {k : Version} {u : Step} {time : UInt64}
    {o : Except MigrationError Nat} (h : Present t e c m rows) (hw : c.working = none)
    (hk : k ≤ m) (hu : u.version.toNat = k.toNat + 1)
    (hs : ∀ statements, u.load job.1.read = .ok statements →
      ∀ sql ∈ statements, Connection.TextAvoids t.text sql)
    (hrun : (applyStep (logged database) t job.1 time u).run ⟨c, []⟩ = (o, log)) :
    ∃ e' m' rows', Leads t job e m rows c (some u) log e' m' rows' ∧
      ∀ l, o = .ok l → u.version ≤ m' := by
  have hstand : Standing t e c m rows := ⟨hw, .inr h⟩
  obtain ⟨l, hl, hcourse⟩ := applyStep_course (logged database) t job.1 time u ⟨c, []⟩
  rw [hrun] at hl hcourse
  obtain ⟨hevents, htrace⟩ := hl.of_logged
  obtain rfl : log.events = l := hevents
  have htrail : Trail database (fun _ => False) c log.events log.inner := .of_trace htrace
  clear hl htrace
  obtain ⟨c', events⟩ := log
  dsimp only at htrail hcourse
  by_cases hfree : u.version.toNat = m.toNat + 1
  · cases hcourse with
    | unreadable => exact ⟨e, m, rows, hstand.leads _ htrail rfl, fun _ hok => by cases hok⟩
    | @applied statements hload =>
      obtain ⟨e', hw', hex, hp⟩ := h.block hfree (hs _ hload) htrail
      have hloud : (Migration.block t (.inFlight u) statements time).any isCommit = true := by
        rw [Migration.block, List.any_append]
        exact Bool.or_true _
      refine ⟨e', u.version, _, ⟨?_, ⟨hw', .inr hp⟩, fun _ => hp⟩, fun _ _ => UInt16.le_refl _⟩
      exact .commits rfl hloud hfree (List.prefix_append _ _) hload hex
    | interrupted hload hi =>
      obtain ⟨hr, hopen⟩ := hi.reopen h.isCreatable hw (hs _ hload) htrail
      rw [reopen_of_working (hopen.resolve_right id)] at hr
      exact ⟨e, m, rows, hstand.leads _ hr hi.any_isCommit, fun _ hok => by cases hok⟩
  · -- another run has committed the version
    have hmem : u.version.toNat ∈ List.range' 1 m.toNat := by
      rw [UInt16.le_iff_toNat_le] at hk
      rw [List.mem_range'_1]
      omega
    cases hload : u.load job.1.read with
    | ok statements =>
      obtain ⟨cause, htaken⟩ := h.applyStep_taken hw hmem hload time
      rw [hrun, Prod.mk.injEq, Log.mk.injEq] at htaken
      obtain ⟨rfl, rfl, rfl⟩ := htaken
      exact ⟨e, m, rows, hstand.leads _ rfl rfl, fun _ hok => by cases hok⟩
    | error err =>
      cases hcourse with
      | unreadable => exact ⟨e, m, rows, hstand.leads _ htrail rfl, fun _ hok => by cases hok⟩
      | applied hload' | interrupted hload' =>
        rw [hload] at hload'
        cases hload'

/-- One part of a run in turn with others. -/
theorem Stage.advance_leads {st st' : Stage} (h : Standing t e c m rows)
    (hst : st.Within job m (Present t e c m rows)) (hs : job.1.Harmless t job.2)
    (hrun : st.advance (logged database) t job ⟨c, []⟩ = (st', log)) :
    ∃ e' m' rows', Leads t job e m rows c st.first? log e' m' rows' ∧
      st'.Within job m' (Present t e' log.inner m' rows') := by
  have hstay (hst' : st'.Within job m (Present t e c m rows)) (hlog : log = ⟨c, []⟩) :
      ∃ e' m' rows', Leads t job e m rows c st.first? log e' m' rows' ∧
        st'.Within job m' (Present t e' log.inner m' rows') := by
    subst hlog
    exact ⟨e, m, rows, h.leads _ rfl rfl, hst'⟩
  cases st with
  | opening =>
    rcases ho : (openRun (logged database) t).run ⟨c, []⟩ with ⟨o, log'⟩
    obtain ⟨hleads, hok⟩ := openRun_leads h ho
    simp only [Stage.advance, ho] at hrun
    cases o with
    | error err =>
      cases hrun
      exact ⟨e, m, rows, hleads, trivial⟩
    | ok v =>
      cases hrun
      obtain ⟨rfl, hp⟩ := hok v rfl
      exact ⟨e, v, rows, hleads, List.Subset.refl _, UInt16.le_refl _, hp⟩
  | ended o =>
    cases hrun
    exact hstay trivial rfl
  | stepping r p left =>
    obtain ⟨hleft, hr, hp⟩ := hst
    cases left with
    | nil =>
      cases hrun
      exact hstay trivial rfl
    | cons u rest =>
      have hrest : rest ⊆ job.2 := fun s hm => hleft (List.mem_cons_of_mem _ hm)
      simp only [Stage.advance] at hrun
      cases hd : isDue r.finalVersion p u.version with
      | error err =>
        rw [hd] at hrun
        cases hrun
        exact hstay trivial rfl
      | ok due =>
        rw [hd] at hrun
        cases due with
        | false =>
          cases hrun
          exact hstay ⟨hrest, hr, hp⟩ rfl
        | true =>
          dsimp only at hrun
          rcases ho : (applyStep (logged database) t job.1
            (job.1.completedAt r.applied.length) u).run ⟨c, []⟩ with ⟨o, log'⟩
          obtain ⟨e', m', rows', hleads, hok⟩ := hp.applyStep_leads h.working hr
            (toNat_of_isDue_true hd) (hs u (hleft List.mem_cons_self)) ho
          rw [ho] at hrun
          cases o with
          | error err =>
            cases hrun
            exact ⟨e', m', rows', hleads, trivial⟩
          | ok k =>
            cases hrun
            exact ⟨e', m', rows', hleads, hrest, hok k rfl, hleads.stays hp⟩

end Parts

/-! ### All runs -/

namespace Shared

variable {ι : Type} {jobs : ι → Job} {g : Shared ι} {rows' : List Row}

/-- Between the parts of runs that began with a database at version `n`: the connections have
one database, and the control table of it is at version `m`. The committed steps have the
versions between, and everything else is as their statements leave it. -/
structure Held (t : TableName) (jobs : ι → Job) (d : Database) (n : Version) (rows : List Row)
    (g : Shared ι) (e : Database) (m : Version) (rows' : List Row) : Prop where
  committed : ∀ i j, (g.connection i).committed = (g.connection j).committed
  standing : ∀ i, Standing t e (g.connection i) m rows'
  within : ∀ i, (g.stage i).Within (jobs i) m (Present t e (g.connection i) m rows')
  versions : g.commits.map (·.2.version.toNat) = List.range' (n.toNat + 1) g.commits.length
  version : m.toNat = n.toNat + g.commits.length
  rows : rows <+: rows'
  steps : ∀ k ∈ g.commits, k.2 ∈ (jobs k.1).2 ∧ ∃ l, k.2.load (jobs k.1).1.read = .ok l
  executes : Executes (prepared t d) (g.statements jobs) e

theorem held_start (jobs : ι → Job) (access : ι → Access) (h : IsComplete t d n rows) :
    Held t jobs d n rows (start d access) (prepared t d) n rows where
  committed _ _ := rfl
  standing _ := h.standing_start.congr rfl rfl
  within _ := trivial
  versions := rfl
  version := rfl
  rows := List.prefix_rfl
  steps := nofun
  executes := rfl

/-- The steps that are committed after a part have the versions up to the new one. -/
theorem Held.commits {l : List Event} {i : ι} {u? : Option Step} {e' : Database} {m' : Version}
    {rows'' : List Row} (h : Held t jobs d n rows g e m rows') (hu : ∀ u ∈ u?, u ∈ (jobs i).2)
    (hp : Part (jobs i) e m rows' u? l e' m' rows'') :
    let commits := g.commits ++ if l.any isCommit then u?.toList.map (i, ·) else []
    m ≤ m' ∧ commits.map (·.2.version.toNat) = List.range' (n.toNat + 1) commits.length ∧
      m'.toNat = n.toNat + commits.length ∧ rows <+: rows'' ∧
      (∀ k ∈ commits, k.2 ∈ (jobs k.1).2 ∧ ∃ l, k.2.load (jobs k.1).1.read = .ok l) ∧
      Executes (prepared t d) (Shared.statements jobs { g with commits := commits }) e' := by
  cases hp with
  | idle quiet =>
    simp only [quiet, Bool.false_eq_true, if_false, List.append_nil]
    exact ⟨UInt16.le_refl _, h.versions, h.version, h.rows, h.steps, h.executes⟩
  | @commits u statements _ _ first loud next grows load executes =>
    subst first
    have hversion := h.version
    simp only [loud, if_true, Option.toList_some, List.map_cons, List.map_nil, List.map_append,
      List.length_append, List.length_singleton, h.versions, List.range'_1_concat]
    refine ⟨?_, ?_, ?_, h.rows.trans grows, ?_, ?_⟩
    · rw [UInt16.le_iff_toNat_le]
      omega
    · rw [next, hversion]
      congr 2
      omega
    · omega
    · intro k hk
      rcases List.mem_append.mp hk with hk | hk
      · exact h.steps k hk
      · rw [List.mem_singleton.mp hk]
        exact ⟨hu u rfl, statements, load⟩
    · simp only [Shared.statements, List.flatMap_append, List.flatMap_singleton, load,
        Except.toOption, Option.getD_some]
      exact executes_append.mpr ⟨e, h.executes, executes⟩

/-- Between the parts of runs that began with a database at version `n`, no transaction is open
and the control table is complete. No version has been committed twice, and the other tables
are those that one gets by executing the statements of the committed steps in order. -/
structure CommitsOnce (t : TableName) (jobs : ι → Job) (d : Database) (n : Version)
    (rows : List Row) (g : Shared ι) : Prop where
  nodup : (g.commits.map (·.2.version)).Nodup
  versions : g.commits.map (·.2.version.toNat) = List.range' (n.toNat + 1) g.commits.length
  steps : ∀ k ∈ g.commits, k.2 ∈ (jobs k.1).2 ∧ ∃ l, k.2.load (jobs k.1).1.read = .ok l
  working : ∀ i, (g.connection i).working = none
  committed : ∀ i j, (g.connection i).committed = (g.connection j).committed
  complete : ∃ m rows', m.toNat = n.toNat + g.commits.length ∧ rows <+: rows' ∧
    ∀ i, IsComplete t (g.connection i).committed m rows'
  effect : ∃ e, Executes (prepared t d) (g.statements jobs) e ∧
    ∀ i, (g.connection i).committed.drop t.text = e.drop t.text

theorem Held.commitsOnce (h : Held t jobs d n rows g e m rows') :
    CommitsOnce t jobs d n rows g where
  nodup := by
    have hnodup : (g.commits.map (·.2.version.toNat)).Nodup := h.versions ▸ List.nodup_range'
    refine List.Nodup.of_map UInt16.toNat ?_
    rwa [List.map_map]
  versions := h.versions
  steps := h.steps
  working i := (h.standing i).working
  committed := h.committed
  complete := ⟨m, rows', h.version, h.rows, fun i => (h.standing i).isComplete⟩
  effect := ⟨e, h.executes, fun i => (h.standing i).drop⟩

variable [DecidableEq ι]

/-- One part of one run keeps the invariant. -/
theorem Held.advance (hs : ∀ i, (jobs i).1.Harmless t (jobs i).2)
    (h : Held t jobs d n rows g e m rows') (i : ι) :
    ∃ e' m' rows'', Held t jobs d n rows (g.advance t jobs i) e' m' rows'' := by
  obtain ⟨e', m', rows'', hleads, hwithin⟩ :=
    (g.stage i).advance_leads (h.standing i) (h.within i) (hs i)
      (show _ = ((g.part t jobs i).1, (g.part t jobs i).2) from rfl)
  obtain ⟨hm, hversions, hversion, hrows, hsteps, hexecutes⟩ :=
    h.commits (h.within i).first hleads.part
  refine ⟨e', m', rows'', ?_, ?_, ?_, hversions, hversion, hrows, hsteps, hexecutes⟩
  · intro j k
    rw [committed_advance, committed_advance]
  · intro j
    by_cases hj : j = i
    · rw [hj, connection_advance_self]
      exact hleads.standing
    · rw [connection_advance_of_ne t jobs g hj]
      exact hleads.standing.congr rfl (h.standing j).working
  · intro j
    by_cases hj : j = i
    · rw [hj, connection_advance_self, stage_advance_self]
      exact hwithin
    · rw [connection_advance_of_ne t jobs g hj, stage_advance_of_ne t jobs g hj]
      refine (h.within j).mono hm fun hp => ?_
      exact (hleads.stays (hp.congr (h.committed i j))).congr rfl

theorem Held.run (hs : ∀ i, (jobs i).1.Harmless t (jobs i).2)
    (h : Held t jobs d n rows g e m rows') (schedule : List ι) :
    ∃ e' m' rows'', Held t jobs d n rows (g.run t jobs schedule) e' m' rows'' := by
  induction schedule generalizing g e m rows' with
  | nil => exact ⟨e, m, rows', h⟩
  | cons i rest ih =>
    obtain ⟨e₁, m₁, rows₁, h₁⟩ := h.advance hs i
    exact ih h₁

/-- A run that attempts a version that has been committed fails at the insertion of its row,
and with that it ends. -/
theorem Held.taken (h : Held t jobs d n rows g e m rows') {i : ι} {r : Report}
    {p : Option Version} {u : Step} {rest : List Step} {statements : List String}
    (hst : g.stage i = .stepping r p (u :: rest))
    (hd : isDue r.finalVersion p u.version = .ok true)
    (hload : u.load (jobs i).1.read = .ok statements)
    (hu : u.version ∈ g.commits.map (·.2.version)) :
    ∃ cause, (applyStep (logged database) t (jobs i).1 ((jobs i).1.completedAt r.applied.length)
        u).run ⟨g.connection i, []⟩ =
        (.error (.executor cause), ⟨g.connection i, attemptEvents t u cause⟩) ∧
      g.advance t jobs i =
        { g with stage := Function.update g.stage i (.ended (.error (.executor cause))) } := by
  have hwithin := h.within i
  rw [hst] at hwithin
  have hmem : u.version.toNat ∈ List.range' 1 m.toNat := by
    obtain ⟨k, hk, hku⟩ := List.mem_map.mp hu
    have hv : k.2.version.toNat ∈ List.range' (n.toNat + 1) g.commits.length :=
      h.versions ▸ List.mem_map_of_mem hk
    have hm := h.version
    rw [hku, List.mem_range'_1] at hv
    rw [List.mem_range'_1]
    omega
  obtain ⟨cause, hrun⟩ := hwithin.2.2.applyStep_taken (h.standing i).working hmem hload
    ((jobs i).1.completedAt r.applied.length)
  refine ⟨cause, hrun, ?_⟩
  have hpart : g.part t jobs i =
      (.ended (.error (.executor cause)), ⟨g.connection i, attemptEvents t u cause⟩) := by
    simp only [part, hst, Stage.advance, hd, hrun]
  have hconnection : Function.update (fun j =>
      { g.connection j with committed := (g.connection i).committed }) i (g.connection i) =
      g.connection := by
    funext j
    by_cases hj : j = i
    · rw [hj, Function.update_self]
    · rw [Function.update_of_ne hj, h.committed i j]
  have hquiet : (attemptEvents t u cause).any isCommit = false := rfl
  unfold Shared.advance
  rw [hpart]
  dsimp only
  rw [hconnection, hquiet, if_neg Bool.false_ne_true, List.append_nil]

/-- A run that has ended stays so. -/
theorem stage_run_of_ended {i : ι} {o : Except MigrationError Report}
    (h : g.stage i = .ended o) (schedule : List ι) :
    (g.run t jobs schedule).stage i = .ended o := by
  induction schedule generalizing g with
  | nil => exact h
  | cons j rest ih =>
    refine ih (g := g.advance t jobs j) ?_
    by_cases hj : i = j
    · subst hj
      rw [stage_advance_self, part, h]
      rfl
    · rw [stage_advance_of_ne t jobs g hj, h]

end Shared

/-- Any number of runs share a database whose control table is not there or complete, and take
turns in any order. After every part no version has been committed twice, and the control
table is complete. A run that attempts a version that has been committed meanwhile fails at the
insertion of its row: it sends none of the statements, changes nothing, and has ended. -/
theorem interleaved_commitsOnce {ι : Type} [DecidableEq ι] (t : TableName) (d : Database)
    (n : Version) (rows : List Row) (h : IsComplete t d n rows) (access : ι → Access)
    (jobs : ι → Job) (hs : ∀ i, (jobs i).1.Harmless t (jobs i).2) (schedule : List ι) :
    let g := (Shared.start d access).run t jobs schedule
    g.CommitsOnce t jobs d n rows ∧
    ∀ i r p u rest statements, g.stage i = .stepping r p (u :: rest) →
      isDue r.finalVersion p u.version = .ok true → u.load (jobs i).1.read = .ok statements →
      u.version ∈ g.commits.map (·.2.version) →
      ∃ cause, (applyStep (logged database) t (jobs i).1
          ((jobs i).1.completedAt r.applied.length) u).run ⟨g.connection i, []⟩ =
          (.error (.executor cause), ⟨g.connection i, attemptEvents t u cause⟩) ∧
        g.advance t jobs i =
          { g with stage := Function.update g.stage i (.ended (.error (.executor cause))) } ∧
        ∀ later, ((g.advance t jobs i).run t jobs later).stage i =
          .ended (.error (.executor cause)) := by
  intro g
  obtain ⟨e, m, rows', hheld⟩ := (Shared.held_start jobs access h).run hs schedule
  refine ⟨hheld.commitsOnce, ?_⟩
  intro i r p u rest statements hst hd hload hu
  obtain ⟨cause, hrun, hadvance⟩ := hheld.taken hst hd hload hu
  refine ⟨cause, hrun, hadvance, fun later => Shared.stage_run_of_ended ?_ later⟩
  rw [hadvance]
  exact Function.update_self ..

/-- Two runs with the same steps. Both have opened, and the first one has applied its first
step; the second one is to apply it too. -/
theorem interleaved_commitsOnce_of_two :
    let jobs : Bool → Job := fun _ => (smallFiles, smallSteps)
    let g := (Shared.start .empty fun _ => .full).run .standard jobs [false, true, false]
    g.CommitsOnce .standard jobs .empty 0 [] ∧
    ∃ cause, (applyStep (logged database) .standard smallFiles 0 ⟨1, "table", "1_table.sql"⟩).run
        ⟨g.connection true, []⟩ = (.error (.executor cause), ⟨g.connection true,
          attemptEvents .standard ⟨1, "table", "1_table.sql"⟩ cause⟩) ∧
      g.advance .standard jobs true =
        { g with stage := Function.update g.stage true (.ended (.error (.executor cause))) } ∧
      ∀ later, ((g.advance .standard jobs true).run .standard jobs later).stage true =
        .ended (.error (.executor cause)) := by
  intro jobs g
  obtain ⟨hstage, hcommits⟩ : g.stage true = .stepping ⟨[], 0, 0, 0⟩ none smallSteps ∧
      (1 : Version) ∈ g.commits.map (·.2.version) := by
    decide +kernel
  obtain ⟨honce, htaken⟩ := interleaved_commitsOnce .standard .empty 0 [] (.inl ⟨rfl, rfl, rfl⟩)
    (fun _ => .full) jobs (fun _ => smallFiles_harmless) [false, true, false]
  exact ⟨honce, htaken true _ none _ _ _ hstage rfl rfl hcommits⟩

end SipMigrate.Migration
