import SipMigrate.Proofs.Migration.Resumption
import SipMigrate.Proofs.Sql.Passage

/-! Scripts that begin, commit and roll back on their own. The row of a step goes into
the transaction of the step, but the script may end this transaction and begin others.
What a run then reports of a step is true of the control table precisely if the script
has left the step whole: after a script that succeeds a transaction is open just if the
row is there, and after one that fails no transaction is open behind a committed row. -/

namespace SipMigrate.Migration

open Sql Executor ControlTable Files

/-! ### Rows of a version -/

def hasVersionRow (v : Version) (rows : List Row) : Bool :=
  rows.any fun s => s.get 0 = .integer v.toNat

/-- The rows are complete, and their versions are at most `n`. -/
def UpTo (n : Nat) (rows : List Row) : Prop :=
  ∀ s ∈ rows, (s.get 3).isNull = false ∧ ∃ k : Nat, k ≤ n ∧ s.get 0 = .integer k

/-- Whether the control table of a database has a row of a version. -/
def hasRow (t : TableName) (d : Database) (v : Version) : Bool :=
  (d.table? t.text).any fun u => hasVersionRow v u.rows

/-- Whether the control table of a database has a completed row of a version. -/
def hasCompletedRow (t : TableName) (d : Database) (v : Version) : Bool :=
  (d.table? t.text).any fun u => hasVersionRow v (u.rows.filter fun s => !(s.get 3).isNull)

variable {t : TableName} {c c' : Connection} {d : Database} {n : Nat} {rows : List Row}
  {r : Record} {v : Version}

theorem hasRow_of_has (h : d.Has t.text (table t rows)) (v : Version) :
    hasRow t d v = hasVersionRow v rows := by
  rw [hasRow, h.table?]
  rfl

theorem hasVersionRow_append (v : Version) (rows rows' : List Row) :
    hasVersionRow v (rows ++ rows') = (hasVersionRow v rows || hasVersionRow v rows') :=
  List.any_append

theorem hasVersionRow_row (r : Record) : hasVersionRow r.version [row r] = true := by
  simp [hasVersionRow, row, versionValue, Row.get]

theorem Complete.upTo (h : Complete n rows) : UpTo n rows := by
  intro s hs
  refine ⟨h.created s hs, ?_⟩
  have := h.versions.subset (List.mem_map_of_mem hs)
  obtain ⟨k, hk, hv⟩ := List.mem_map.mp this
  rw [List.mem_range'_1] at hk
  exact ⟨k, by omega, hv.symm⟩

namespace UpTo

theorem mono {m : Nat} (h : UpTo n rows) (hm : n ≤ m) : UpTo m rows := by
  intro s hs
  obtain ⟨hc, k, hk, hv⟩ := h s hs
  exact ⟨hc, k, hk.trans hm, hv⟩

theorem add (time : UInt64) (h : UpTo n rows) (hr : r.version.toNat = n + 1) :
    UpTo (n + 1) (rows ++ [row (r.complete time)]) := by
  intro s hs
  rcases List.mem_append.mp hs with hs | hs
  · exact h.mono (Nat.le_succ n) s hs
  · rw [List.mem_singleton.mp hs]
    exact ⟨isNull_row_complete, n + 1, le_rfl, congrArg (Value.integer ·) (by rw [← hr]; rfl)⟩

theorem hasVersionRow (h : UpTo n rows) (hv : n < v.toNat) : hasVersionRow v rows = false := by
  rw [Migration.hasVersionRow, List.any_eq_false]
  intro s hs
  obtain ⟨-, k, hk, hs⟩ := h s hs
  rw [hs]
  simp
  omega

/-- Statements on a later version find no row. -/
theorem not_matches (h : UpTo n rows) (hr : n < r.version.toNat) :
    (∀ s ∈ rows, matchesVersion r s = false) ∧ rows.any (hasVersion r) = false := by
  have hne {s : Row} (hs : s ∈ rows) : (s.get 0).equals (versionValue r) = false ∧
      (s.get 0).toNumber = s.get 0 := by
    obtain ⟨-, k, hk, hs⟩ := h s hs
    rw [hs]
    refine ⟨?_, rfl⟩
    simp [versionValue, Value.equals, Value.isNull, Value.order]
    omega
  refine ⟨fun s hs => ?_, List.any_eq_false.mpr fun s hs => ?_⟩
  · rw [matchesVersion, (hne hs).2, (hne hs).1]
  · rw [hasVersion, (hne hs).1]
    exact Bool.false_ne_true

end UpTo

/-! ### The statements on the row of a step -/

theorem refusal?_eq_none : c.refusal? = none ↔ c.isSound = true ∧ c.access = .full := by
  unfold Connection.refusal? Connection.obstacle? Connection.isSound
  cases c.working.any Transaction.isMalformed <;> cases c.access <;> simp

/-- A connection in which a step has been begun. The transaction of the step holds its row. -/
def begun (t : TableName) (c : Connection) (rows : List Row) (r : Record) : Connection :=
  c.within ⟨c.committed.replace (table t (rows ++ [row r])), false⟩

/-- Where the row of a step goes in, the transaction holds it and nothing else is changed. -/
theorem begin_insert {c₁ : Connection}
    (hx : (c.within ⟨c.committed, false⟩).execute (insert t.text r) = (.ok (), c₁))
    (ht : t.IsCreatable) (hd : c.committed.Has t.text (table t rows)) :
    c.access = .full ∧ c₁ = begun t c rows r := by
  by_cases hn : '\x00' ∈ r.description.toList ∨ '\x00' ∈ r.file.toList
  · obtain ⟨f, hf⟩ := insert_reads_error t r ht.isWord hn
    rw [Connection.execute_of_reads_error hf] at hx
    cases hx
  · rw [not_or] at hn
    rw [execute_insert ht (c := c.within ⟨c.committed, false⟩) hd hn.1 hn.2] at hx
    split at hx
    · cases hx
    · cases hr : (c.within ⟨c.committed, false⟩).refusal? with
      | some cause =>
        rw [hr] at hx
        cases hx
      | none =>
        rw [hr, Prod.mk.injEq] at hx
        exact ⟨(refusal?_eq_none.mp hr).2, hx.2.symm⟩

/-- The update completes the row of a step where it is seen, and else it changes nothing. -/
theorem execute_update_shown (time : UInt64) (shown : Bool) (ht : t.IsCreatable)
    (hd : c.view.Has t.text (table t (rows ++ if shown then [row r] else [])))
    (hr : (∀ s ∈ rows, matchesVersion r s = false) ∧ rows.any (hasVersion r) = false)
    (hc : c.refusal? = none) :
    ∃ e, c.execute (update t.text (r.complete time)) = (.ok (), c.store e) ∧
      e.Has t.text (table t (rows ++ if shown then [row (r.complete time)] else [])) := by
  cases shown with
  | true =>
    have hx := execute_update time ht hd hr.1 hr.2
    rw [hc] at hx
    exact ⟨_, hx, hd.replace_self sameName_table⟩
  | false =>
    simp only [Bool.false_eq_true, if_false, List.append_nil] at hd ⊢
    have hx := execute_update_of_none (r := r.complete time) ht hd hr.1
    rw [hc] at hx
    exact ⟨_, hx, hd.replace_self sameName_table⟩

/-- The deletion takes the row of a step away where it is seen. -/
theorem execute_delete_shown (shown : Bool) (ht : t.IsCreatable)
    (hd : c.view.Has t.text (table t (rows ++ if shown then [row r] else [])))
    (hr : ∀ s ∈ rows, matchesVersion r s = false) (hc : c.refusal? = none) :
    ∃ e, c.execute (delete t.text r) = (.ok (), c.store e) ∧ e.Has t.text (table t rows) := by
  have hx := execute_delete (r := r) ht hd
  have hrows : ((rows ++ if shown then [row r] else []).filter fun s => !matchesVersion r s) =
      rows := by
    rw [List.filter_append, List.filter_eq_self.mpr fun s hs => by simp [hr s hs]]
    cases shown <;> simp [matchesVersion_row]
  rw [hc, hrows] at hx
  exact ⟨_, hx, hd.replace_self sameName_table⟩

/-! ### The script of a step -/

section Script

variable {u u' : Table}

theorem passed_statements {l : List String} (h : Connection.Passage t.text u u' c)
    (hl : ∀ sql ∈ l, Connection.TextLeavesAlone t.text sql) (r : Record) :
    Connection.Passed t.text u u' c ((executeAll database r l).run c) := by
  induction l generalizing c with
  | nil => exact ⟨h, rfl, fun _ _ hc => hc⟩
  | cons sql rest ih =>
    have hx := h.passed_execute (hl sql (by simp))
    rcases he : c.execute sql with ⟨f | a, c₁⟩ <;> rw [he] at hx
    · rw [executeAll_cons_of_error (answer_execute_of_error he)]
      exact ⟨hx.passage, hx.access, by rintro _ ⟨⟩⟩
    · rw [executeAll_cons_of_ok (answer_execute_of_ok he)]
      have hrest := ih hx.passage fun sql hs => hl sql (by simp [hs])
      exact ⟨hrest.passage, hrest.access.trans hx.access,
        fun a ha hc => hrest.isSound a ha (hx.isSound _ rfl hc)⟩

end Script

/-! ### Whole steps -/

/-- Whether the script of a step leaves the step whole. A script that succeeds must leave a
transaction open just if the row of the step is seen; one that fails must not leave a
transaction open behind a committed row. -/
def leavesWhole (t : TableName) (v : Version) : Except MigrationError Unit × Connection → Bool
  | (.ok _, c) => c.working.isSome == hasRow t c.view v
  | (.error _, c) => !(c.working.isSome && hasRow t c.committed v)

/-- Whether a step that a run begins at a connection is whole. -/
def Step.isWhole (t : TableName) (read : String → Except FileError String) (s : Step)
    (c : Connection) : Bool :=
  match s.load read with
  | .error _ => true
  | .ok statements =>
    let r := Record.inFlight s
    match database.answer (.execute (insert t.text r)) (database.answer .begin c).2 with
    | (.error _, _) => true
    | (.ok _, c) => leavesWhole t s.version ((executeAll database r statements).run c)

/-- How a step ends that begins at some rows of the control table: no transaction is open,
and a step that succeeds has added its completed row, or one that fails none, if and only
if it is whole. -/
structure Ends (t : TableName) (rows : List Row) (r : Record) (time : UInt64) (isWhole : Bool)
    (o : Except MigrationError Nat × Connection) : Prop where
  working : o.2.working = none
  ok : ∀ k, o.1 = .ok k →
    o.2.committed.Has t.text (table t (rows ++ if isWhole then [row (r.complete time)] else []))
  error : ∀ e, o.1 = .error e → hasRow t o.2.committed r.version = !isWhole

/-- The rows of a control table as a step finds them. -/
structure Awaits (t : TableName) (c : Connection) (n : Nat) (rows : List Row) : Prop where
  working : c.working = none
  isCreatable : t.IsCreatable
  has : c.committed.Has t.text (table t rows)
  upTo : UpTo n rows

section Step

variable {w : Surroundings} {time : UInt64} {s : Step}

theorem Ends.of_error {isWhole : Bool} {e : MigrationError} (hw : c.working = none)
    (h : hasRow t c.committed r.version = !isWhole) : Ends t rows r time isWhole (.error e, c) :=
  ⟨hw, by rintro _ ⟨⟩, fun _ _ => h⟩

/-- A step that fails with nothing done has left nothing behind. -/
theorem Awaits.ends_error (h : Awaits t c n rows) (hr : n < r.version.toNat) (e : MigrationError) :
    Ends t rows r time true (.error e, c) :=
  .of_error h.working (by rw [hasRow_of_has h.has, h.upTo.hasVersionRow hr]; rfl)

theorem exists_shown (h : c.Passage t.text (table t rows) (table t (rows ++ [row r]))) :
    ∃ shown : Bool, c.view.Has t.text (table t (rows ++ if shown then [row r] else [])) := by
  cases h with
  | undone _ hv => exact ⟨false, by simpa using hv⟩
  | amid _ _ hv | stored _ hv => exact ⟨true, hv⟩

/-- Whether a table with the row of a step at its end, or without, has a row of its version. -/
theorem hasRow_shown (hu : UpTo n rows) (hr : n < r.version.toNat) {shown : Bool} {last : Row}
    (hlast : last.get 0 = versionValue r)
    (hd : d.Has t.text (table t (rows ++ if shown then [last] else []))) :
    hasRow t d r.version = shown := by
  have hrow : hasVersionRow r.version [last] = true := by
    simp [hasVersionRow, hlast, versionValue]
  rw [hasRow_of_has hd, hasVersionRow_append, hu.hasVersionRow hr]
  cases shown with
  | true => simpa using hrow
  | false => rfl

/-- After a script that fails the row of the step stays behind if it is committed and a
transaction is open, since the deletion is rolled back with it. -/
theorem hasRow_abandon (ht : t.IsCreatable) (hu : UpTo n rows) (hr : n < r.version.toNat)
    (hp : c.Passage t.text (table t rows) (table t (rows ++ [row r]))) (ha : c.access = .full) :
    (abandon database t r c).2.working = none ∧
      hasRow t (abandon database t r c).2.committed r.version =
        (c.working.isSome && hasRow t c.committed r.version) := by
  have hafter : (abandon database t r c).2 = (c.execute (delete t.text r)).2.reopen := by
    rw [abandon_snd, answer_rollback, answer_execute, ofConnection]
  rw [hafter]
  refine ⟨rfl, ?_⟩
  have hreopen (c : Connection) : c.reopen.committed = c.committed := rfl
  rw [hreopen]
  cases hw : c.working with
  | some w =>
    obtain ⟨o, w', hx⟩ := Connection.execute_within (c := c) (w := w)
      (delete_readsPlain t (r := r) ht.isWord)
    rw [show c.within w = c by rw [Connection.within, ← hw]] at hx
    rw [hx]
    rfl
  | none =>
    have hview := view_of_working hw
    have hrefusal : c.refusal? = none :=
      refusal?_eq_none.mpr ⟨by rw [Connection.isSound, hw]; rfl, ha⟩
    obtain ⟨shown, hd⟩ := exists_shown hp
    obtain ⟨e, hx, he⟩ := execute_delete_shown shown ht hd (hu.not_matches hr).1 hrefusal
    have hcommitted : (c.store e).committed = e := by rw [Connection.store, hw]
    rw [hx, hcommitted, hasRow_of_has he, hu.hasVersionRow hr]
    rfl

/-- After a script that succeeds the row of the step is completed where it is seen, and
committed where a transaction is open; else the step fails. -/
theorem ends_complete (k : Nat) (ht : t.IsCreatable) (hu : UpTo n rows) (hr : n < r.version.toNat)
    (hp : c.Passage t.text (table t rows) (table t (rows ++ [row r]))) (ha : c.access = .full)
    (hs : c.isSound = true) :
    Ends t rows r time (c.working.isSome == hasRow t c.view r.version) ((do
      (demand database (.execute (update t.text (r.complete time)))).cleaning
        (abandon database t r)
      (demand database .commit).cleaning (attempt database .rollback)
      return k : Run Connection Nat).run c) := by
  obtain ⟨shown, hd⟩ := exists_shown hp
  obtain ⟨e, hx, he⟩ := execute_update_shown time shown ht hd (hu.not_matches hr)
    (refusal?_eq_none.mpr ⟨hs, ha⟩)
  rw [hasRow_shown hu hr rfl hd,
    Run.run_bind_of_ok (Run.run_cleaning_of_ok (run_demand_of_ok (answer_execute_of_ok hx)) _)]
  cases hw : c.working with
  | some w =>
    have hsound : w.isMalformed = false := by simpa [Connection.isSound, hw] using hs
    have hstore : c.store e = c.within { w with database := e } := by
      rw [Connection.store, hw]
      rfl
    have hcommit : database.answer .commit (c.store e) =
        (.ok (), { c with committed := e, working := none }) := by
      rw [hstore, answer_commit, if_neg (by simp [hsound])]
    rw [Run.run_bind_of_ok (Run.run_cleaning_of_ok (run_demand_of_ok hcommit) _)]
    exact ⟨rfl, fun _ _ => by simpa using he, by rintro _ ⟨⟩⟩
  | none =>
    have hstore : c.store e = { c with committed := e } := by rw [Connection.store, hw]
    have hcommit : database.answer .commit (c.store e) =
        (.error (.database (.failure .commitOutside)), c.store e) := by
      rw [hstore]
      show transaction _ .commit = _
      simp [transaction, Connection.step, hw]
    have hrollback : (attempt database .rollback (c.store e)).2.committed = e := by
      rw [attempt_snd, answer_rollback, hstore]
      rfl
    rw [Run.run_bind_of_error (Run.run_cleaning_of_error (run_demand_of_error hcommit) _)]
    refine .of_error ?_ ?_
    · rw [attempt_snd, answer_rollback]
      rfl
    · rw [hrollback, hasRow_shown hu hr rfl he]
      cases shown <;> rfl

theorem Awaits.passage_begun (h : Awaits t c n rows) (r : Record) :
    Connection.Passage t.text (table t rows) (table t (rows ++ [row r])) (begun t c rows r) :=
  .amid (by simp [begun, Connection.within]) h.has (h.has.replace_self sameName_table)

/-- Rolling back undoes a step whose row does not go in. -/
theorem Awaits.rollback_insert (h : Awaits t c n rows) {a : Except ExecutorError Unit}
    (hx : database.answer (.execute (insert t.text r)) (c.within ⟨c.committed, false⟩) = (a, c')) :
    (attempt database .rollback c').2 = c := by
  obtain ⟨o, w, hw⟩ := Connection.execute_within (c := c) (w := ⟨c.committed, false⟩)
    (insert_readsPlain t (r := r) h.isCreatable.isWord)
  rw [answer_execute, hw] at hx
  obtain rfl : c.within w = c' := congrArg Prod.snd hx
  rw [attempt_snd, answer_rollback]
  exact reopen_of_working h.working

/-- A script that fails is abandoned, and after one that succeeds the row is completed. -/
theorem Awaits.ends_begun (time : UInt64) {l : List String} (h : Awaits t c n rows)
    (hr : n < r.version.toNat) (hl : ∀ sql ∈ l, Connection.TextLeavesAlone t.text sql)
    (ha : c.access = .full) :
    Ends t rows r time
      (leavesWhole t r.version ((executeAll database r l).run (begun t c rows r))) ((do
        (executeAll database r l).cleaning (abandon database t r)
        (demand database (.execute (update t.text (r.complete time)))).cleaning
          (abandon database t r)
        (demand database .commit).cleaning (attempt database .rollback)
        return l.length : Run Connection Nat).run (begun t c rows r)) := by
  have hscript := passed_statements (h.passage_begun r) hl r
  have haccess := hscript.access.trans ha
  rcases hx : (executeAll database r l).run (begun t c rows r) with ⟨e | u, c₁⟩ <;>
    rw [hx] at hscript haccess
  · rw [Run.run_bind_of_error (Run.run_cleaning_of_error hx _)]
    obtain ⟨hworking, hrow⟩ := hasRow_abandon (c := c₁) h.isCreatable h.upTo hr
      hscript.passage haccess
    exact .of_error hworking (by rw [hrow, leavesWhole, Bool.not_not])
  · rw [Run.run_bind_of_ok (Run.run_cleaning_of_ok hx _)]
    exact ends_complete l.length h.isCreatable h.upTo hr hscript.passage haccess
      (hscript.isSound _ rfl rfl)

/-- A step cannot begin, or its script is run in the transaction that holds its row. -/
theorem Awaits.applyStep_ends (time : UInt64) (h : Awaits t c n rows)
    (hv : s.version.toNat = n + 1)
    (hl : ∀ statements, s.load w.read = .ok statements →
      ∀ sql ∈ statements, Connection.TextLeavesAlone t.text sql) :
    Ends t rows (.inFlight s) time (s.isWhole t w.read c)
      ((applyStep database t w time s).run c) := by
  have hr : n < (Record.inFlight s).version.toNat := hv ▸ Nat.lt_succ_self n
  have hbegin := answer_begin h.working
  unfold applyStep
  cases hload : s.load w.read with
  | error e =>
    simp only [Step.isWhole, hload]
    exact h.ends_error hr e
  | ok statements =>
    rw [Run.run_bind_of_ok (Run.run_ofExcept _ c), Run.run_bind_of_ok (run_demand_of_ok hbegin)]
    simp only [Step.isWhole, hload, hbegin]
    rcases hinsert : database.answer (.execute (insert t.text (.inFlight s)))
      (c.within ⟨c.committed, false⟩) with ⟨e | u, c₁⟩
    · rw [Run.run_bind_of_error (Run.run_cleaning_of_error (run_demand_of_error hinsert) _),
        h.rollback_insert hinsert]
      exact h.ends_error hr (.executor e)
    · rw [Run.run_bind_of_ok (Run.run_cleaning_of_ok (run_demand_of_ok hinsert) _)]
      obtain ⟨haccess, rfl⟩ :=
        begin_insert (answer_execute_eq_ok.mp hinsert) h.isCreatable h.has
      exact h.ends_begun time hr (hl statements hload) haccess

end Step

/-- Statements that avoid the control table stay within a transaction. -/
theorem executeAll_within {x : Transaction} {u : Table} {l : List String}
    (hl : ∀ sql ∈ l, Connection.TextAvoids t.text sql) (h : x.database.Has t.text u) (r : Record) :
    ∃ o x', (executeAll database r l).run (c.within x) = (o, c.within x') ∧
      x'.database.Has t.text u := by
  induction l generalizing x with
  | nil => exact ⟨_, x, rfl, h⟩
  | cons sql rest ih =>
    obtain ⟨o, x₁, _, hx, -, h₁, -⟩ := Connection.executeAll_twins (c := c) (hl sql (by simp)) rfl
      (show x.Twins t.text u u x from ⟨h, h, rfl, rfl⟩)
    cases o with
    | error f =>
      rw [executeAll_cons_of_error (answer_execute_of_error hx)]
      exact ⟨_, x₁, rfl, h₁.left⟩
    | ok a =>
      rw [executeAll_cons_of_ok (answer_execute_of_ok hx)]
      exact ih (fun sql hs => hl sql (by simp [hs])) h₁.left

/-- A script without statements of transactions leaves its step whole. -/
theorem Awaits.isWhole_of_avoids {s : Step} {read : String → Except FileError String}
    (h : Awaits t c n rows) (hv : s.version.toNat = n + 1)
    (hl : ∀ statements, s.load read = .ok statements →
      ∀ sql ∈ statements, Connection.TextAvoids t.text sql) :
    s.isWhole t read c = true := by
  have hr : n < (Record.inFlight s).version.toNat := hv ▸ Nat.lt_succ_self n
  unfold Step.isWhole
  cases hload : s.load read with
  | error e => rfl
  | ok statements =>
    simp only [answer_begin h.working]
    rcases hinsert : database.answer (.execute (insert t.text (.inFlight s)))
      (c.within ⟨c.committed, false⟩) with ⟨e | u, c₁⟩
    · rfl
    obtain ⟨-, rfl⟩ := begin_insert (answer_execute_eq_ok.mp hinsert) h.isCreatable h.has
    obtain ⟨o, x', hx, hhas⟩ := executeAll_within (c := c) (hl statements hload)
      (x := ⟨c.committed.replace (table t (rows ++ [row (.inFlight s)])), false⟩)
      (h.has.replace_self sameName_table) (.inFlight s)
    have hcommitted : hasRow t c.committed s.version = false := by
      rw [hasRow_of_has h.has]
      exact h.upTo.hasVersionRow hr
    have hview : hasRow t x'.database s.version = true := by
      rw [hasRow_of_has hhas, hasVersionRow_append]
      exact Bool.or_eq_true_iff.mpr (.inr (hasVersionRow_row (.inFlight s)))
    dsimp only
    rw [begun, hx]
    cases o with
    | error e => simp [leavesWhole, Connection.within, hcommitted]
    | ok a =>
      show true == hasRow t x'.database s.version
      rw [hview]
      rfl

/-! ### Whole runs -/

/-- A step that a run begins, and what comes of it. -/
structure Attempt where
  step : Step
  /-- The connection that the step begins at. -/
  before : Connection
  outcome : Except MigrationError Nat

def Attempt.isWhole (t : TableName) (read : String → Except FileError String) (a : Attempt) :
    Bool :=
  a.step.isWhole t read a.before

/-- The steps that a run begins from a report on. -/
def attempts (t : TableName) (w : Surroundings) (r : Report) (p : Option Version) :
    List Step → Connection → List Attempt
  | [], _ => []
  | s :: rest, c =>
    match isDue r.finalVersion p s.version with
    | .error _ => []
    | .ok false => attempts t w r.skip (some s.version) rest c
    | .ok true =>
      match (applyStep database t w (w.completedAt r.applied.length) s).run c with
      | (.error e, _) => [⟨s, c, .error e⟩]
      | (.ok k, c') =>
        ⟨s, c, .ok k⟩ :: attempts t w (r.add s.version k) (some s.version) rest c'

/-- The scripts of some steps may begin and end transactions, but leave the control table
alone. A statement that is not understood, such as one of savepoints, is refused and counts as
one that does; what it does to a database that carries it out is not told. -/
def Surroundings.LeavesAlone (w : Surroundings) (t : TableName) (steps : List Step) : Prop :=
  ∀ s ∈ steps, ∀ statements, s.load w.read = .ok statements →
    ∀ sql ∈ statements, Connection.TextLeavesAlone t.text sql

theorem Surroundings.Harmless.leavesAlone {w : Surroundings} {steps : List Step}
    (h : w.Harmless t steps) : w.LeavesAlone t steps :=
  fun s hs statements hload sql hsql l hl x hx =>
    .inr (h s hs statements hload sql hsql l hl x hx)

/-- What steps come to that begin at a report and at some rows: those that are applied and
whole have added a row, and the one that has failed has left none if it is whole. -/
structure Accounts (t : TableName) (read : String → Except FileError String) (r : Report)
    (rows : List Row) (l : List Attempt) (o : Except MigrationError Report × Connection) :
    Prop where
  working : o.2.working = none
  versions : l.map (·.step.version.toNat) = List.range' (r.finalVersion.toNat + 1) l.length
  ok : ∀ report, o.1 = .ok report →
    report.applied = r.applied ++ l.map (·.step.version) ∧
    report.finalVersion.toNat = r.finalVersion.toNat + l.length ∧
    ∃ added : List Row, o.2.committed.Has t.text (table t (rows ++ added)) ∧
      added.map (·.get 0) =
        (l.filter (·.isWhole t read)).map (fun a => .integer a.step.version.toNat) ∧
      UpTo report.finalVersion.toNat (rows ++ added)
  failed : ∀ a ∈ l, ∀ e, a.outcome = .error e →
    o.1 = .error e ∧ hasRow t o.2.committed a.step.version = !a.isWhole t read

section Run

variable {w : Surroundings} {q : Report} {p : Option Version} {s : Step} {rest steps : List Step}
  {l : List Attempt} {o : Except MigrationError Report × Connection}

theorem Accounts.nil (h : Awaits t c q.finalVersion.toNat rows) :
    Accounts t w.read q rows [] (.ok q, c) where
  working := h.working
  versions := rfl
  ok := by
    rintro _ ⟨⟩
    exact ⟨by simp, rfl, [], by simpa using h.has, rfl, by simpa using h.upTo⟩
  failed := by simp

theorem Accounts.refused (h : Awaits t c q.finalVersion.toNat rows) (e : MigrationError) :
    Accounts t w.read q rows [] (.error e, c) :=
  ⟨h.working, rfl, by rintro _ ⟨⟩, by simp⟩

theorem Accounts.stopped {e : MigrationError} {time : UInt64}
    (hv : s.version.toNat = q.finalVersion.toNat + 1)
    (h : Ends t rows (.inFlight s) time (s.isWhole t w.read c) (.error e, c')) :
    Accounts t w.read q rows [⟨s, c, .error e⟩] (.error e, c') where
  working := h.working
  versions := by simp [hv]
  ok := by rintro _ ⟨⟩
  failed := by
    intro a ha f hf
    rw [List.mem_singleton.mp ha] at hf ⊢
    cases hf
    exact ⟨rfl, h.error e rfl⟩

theorem Awaits.of_applied {k : Nat} {time : UInt64} (h : Awaits t c n rows)
    (hv : s.version.toNat = n + 1)
    (he : Ends t rows (.inFlight s) time (s.isWhole t w.read c) (.ok k, c')) :
    Awaits t c' (n + 1) (rows ++ if s.isWhole t w.read c then
      [row ((Record.inFlight s).complete time)] else []) where
  working := he.working
  isCreatable := h.isCreatable
  has := he.ok k rfl
  upTo := by
    split
    · exact h.upTo.add time hv
    · simpa using h.upTo.mono (Nat.le_succ n)

/-- A step that is applied comes before those that are begun after it. -/
theorem Accounts.applied {k : Nat} {time : UInt64}
    (hv : s.version.toNat = q.finalVersion.toNat + 1)
    (h : Accounts t w.read (q.add s.version k) (rows ++ if s.isWhole t w.read c then
      [row ((Record.inFlight s).complete time)] else []) l o) :
    Accounts t w.read q rows (⟨s, c, .ok k⟩ :: l) o where
  working := h.working
  versions := by
    rw [List.map_cons, h.versions, List.length_cons, List.range'_succ, ← hv]
    rfl
  ok := by
    intro report hreport
    obtain ⟨happlied, hfinal, added, hhas, hadded, hupTo⟩ := h.ok report hreport
    refine ⟨by simp [happlied, Report.add], ?_, _, by rwa [List.append_assoc] at hhas, ?_,
      by rwa [List.append_assoc] at hupTo⟩
    · rw [hfinal, List.length_cons]
      show s.version.toNat + _ = _
      omega
    · rw [List.map_append, hadded, List.filter_cons]
      show _ = List.map _ (if s.isWhole t w.read c = true then _ else _)
      split <;> rfl
  failed := by
    intro a ha e he
    rcases List.mem_cons.mp ha with rfl | ha
    · cases he
    · exact h.failed a ha e he

/-- Step after step the rows of the control table grow by those of the whole steps, while the
report grows by all. -/
theorem applySteps_accounts (h : Awaits t c q.finalVersion.toNat rows)
    (hs : w.LeavesAlone t steps) :
    Accounts t w.read q rows (attempts t w q p steps c)
      ((applySteps database t w q p steps).run c) := by
  induction steps generalizing q p c rows with
  | nil => exact .nil h
  | cons s rest ih =>
    have hrest : w.LeavesAlone t rest := fun s hm => hs s (List.mem_cons_of_mem _ hm)
    unfold attempts
    cases hd : isDue q.finalVersion p s.version with
    | error e =>
      rw [applySteps_of_refused hd]
      exact .refused h e
    | ok due =>
      cases due with
      | false =>
        rw [applySteps_of_skipped hd]
        obtain ⟨hworking, hversions, hok, hfailed⟩ := ih (q := q.skip) (p := some s.version) h hrest
        exact ⟨hworking, hversions, hok, hfailed⟩
      | true =>
        have hv : s.version.toNat = q.finalVersion.toNat + 1 := toNat_of_isDue_true hd
        have hends := h.applyStep_ends (w.completedAt q.applied.length) hv
          (hs s List.mem_cons_self)
        rcases hx : (applyStep database t w (w.completedAt q.applied.length) s).run c with
          ⟨e | k, c'⟩ <;> rw [hx] at hends
        · rw [applySteps_of_failed hd hx]
          exact .stopped hv hends
        · rw [applySteps_of_applied hd hx]
          have hnext := h.of_applied hv hends
          rw [← hv] at hnext
          exact .applied hv (ih hnext hrest)

theorem attempts_whole (h : Awaits t c q.finalVersion.toNat rows) (hs : w.Harmless t steps) :
    ∀ a ∈ attempts t w q p steps c, a.isWhole t w.read = true := by
  induction steps generalizing q p c rows with
  | nil => simp [attempts]
  | cons s rest ih =>
    have hrest : w.Harmless t rest := fun s hm => hs s (List.mem_cons_of_mem _ hm)
    unfold attempts
    cases hd : isDue q.finalVersion p s.version with
    | error e => simp
    | ok due =>
      cases due with
      | false => exact ih (q := q.skip) (p := some s.version) h hrest
      | true =>
        have hv : s.version.toNat = q.finalVersion.toNat + 1 := toNat_of_isDue_true hd
        have hwhole := h.isWhole_of_avoids hv (hs s List.mem_cons_self)
        have hends := h.applyStep_ends (w.completedAt q.applied.length) hv
          (hs.leavesAlone s List.mem_cons_self)
        rcases hx : (applyStep database t w (w.completedAt q.applied.length) s).run c with
          ⟨e | k, c'⟩ <;> rw [hx] at hends
        · exact fun a ha => by rwa [List.mem_singleton.mp ha]
        · have hnext := h.of_applied hv hends
          rw [← hv] at hnext
          exact List.forall_mem_cons.mpr ⟨hwhole, ih hnext hrest⟩

/-- A failure of a statement is the outcome of a step that the run began. -/
theorem exists_attempt_of_statement {v : Version} {file sql : String} {e : ExecutorError}
    (h : ((applySteps database t w q p steps).run c).1 = .error (.statement v file sql e)) :
    ∃ a ∈ attempts t w q p steps c,
      a.step.version = v ∧ a.outcome = .error (.statement v file sql e) := by
  induction steps generalizing q p c with
  | nil => cases h
  | cons s rest ih =>
    unfold attempts
    cases hd : isDue q.finalVersion p s.version with
    | error e' =>
      rw [applySteps_of_refused hd] at h
      obtain ⟨expected, rfl⟩ := isDue_eq_error hd
      cases h
    | ok due =>
      cases due with
      | false =>
        rw [applySteps_of_skipped hd] at h
        exact ih h
      | true =>
        obtain ⟨l, -, hcourse⟩ := applyStep_course database t w
          (w.completedAt q.applied.length) s c
        rcases hx : (applyStep database t w (w.completedAt q.applied.length) s).run c with
          ⟨e' | k, c'⟩
        · rw [hx] at hcourse
          rw [applySteps_of_failed hd hx] at h
          obtain rfl : e' = .statement v file sql e := by simpa using h
          refine ⟨_, List.mem_singleton_self _, ?_, rfl⟩
          cases hcourse with
          | unreadable hload =>
            obtain ⟨cause, -, h⟩ := load_eq_error hload
            cases h
          | interrupted _ hl =>
            cases hl with
            | statement => rfl
        · rw [applySteps_of_applied hd hx] at h
          obtain ⟨a, ha, hv⟩ := ih h
          exact ⟨a, List.mem_cons_of_mem _ ha, hv⟩

end Run

/-! ### What a run tells of the control table -/

section Truth

variable {read : String → Except FileError String} {l : List Attempt} {m : Version}
  {o : Except MigrationError Report × Connection} {report : Report}

theorem hasCompletedRow_of_has (h : d.Has t.text (table t rows)) (hu : UpTo n rows) (v : Version) :
    hasCompletedRow t d v = hasVersionRow v rows := by
  rw [hasCompletedRow, h.table?]
  show hasVersionRow v (rows.filter _) = _
  rw [List.filter_eq_self.mpr fun s hs => by simp [(hu s hs).1]]

theorem Accounts.hasCompletedRow_iff (h : Accounts t read ⟨[], 0, 0, m⟩ rows l o)
    (hr : UpTo m.toNat rows) (ho : o.1 = .ok report) {a : Attempt} (ha : a ∈ l) :
    hasCompletedRow t o.2.committed a.step.version = true ↔ a.isWhole t read = true := by
  obtain ⟨-, -, added, hhas, hadded, hupTo⟩ := h.ok report ho
  have hlater : m.toNat < a.step.version.toNat := by
    have : a.step.version.toNat ∈ l.map (·.step.version.toNat) := List.mem_map_of_mem ha
    rw [h.versions, List.mem_range'_1] at this
    exact this.1
  -- no other step has the version
  have hinjective : ∀ b ∈ l, b.step.version = a.step.version → b = a := by
    have hnodup : (l.map (·.step.version.toNat)).Nodup := h.versions ▸ List.nodup_range'
    exact fun b hb hv => List.inj_on_of_nodup_map hnodup hb ha (congrArg UInt16.toNat hv)
  have hmem : hasVersionRow a.step.version added = true ↔
      Value.integer a.step.version.toNat ∈ added.map (·.get 0) := by
    simp [hasVersionRow]
  rw [hasCompletedRow_of_has hhas hupTo, hasVersionRow_append, hr.hasVersionRow hlater,
    Bool.false_or, hmem, hadded, List.mem_map]
  constructor
  · rintro ⟨b, hb, hv⟩
    obtain ⟨hbl, hwhole⟩ := List.mem_filter.mp hb
    rw [Value.integer.injEq, Nat.cast_inj] at hv
    rwa [← hinjective b hbl (UInt16.toNat_inj.mp hv)]
  · exact fun hwhole => ⟨a, List.mem_filter.mpr ⟨ha, hwhole⟩, rfl⟩

/-- Where all steps are whole, the control table is complete after them. -/
theorem Accounts.complete (h : Accounts t read ⟨[], 0, 0, m⟩ rows l o)
    (hr : Complete m.toNat rows) (ho : o.1 = .ok report)
    (hl : ∀ a ∈ l, a.isWhole t read = true) :
    ∃ rows', o.2.committed.Has t.text (table t rows') ∧
      Complete report.finalVersion.toNat rows' := by
  obtain ⟨-, hfinal, added, hhas, hadded, hupTo⟩ := h.ok report ho
  have hversions : added.map (·.get 0) =
      (List.range' (m.toNat + 1) l.length).map fun v : Nat => Value.integer v := by
    rw [hadded, List.filter_eq_self.mpr hl, ← h.versions, List.map_map]
    rfl
  refine ⟨_, hhas, ?_, fun s hs => (hupTo s hs).1⟩
  rw [List.map_append, hversions, hfinal, ← List.range'_append_1, List.map_append]
  show List.Perm _ _
  rw [Nat.add_comm 1]
  exact hr.versions.append_right _

theorem Accounts.tells_iff (h : Accounts t read ⟨[], 0, 0, m⟩ rows l o) (ht : t.IsCreatable)
    (hr : Complete m.toNat rows) (ho : o.1 = .ok report) :
    ((∀ v ∈ report.applied, hasCompletedRow t o.2.committed v = true) ∧
      (currentVersion database t).run o.2 = (.ok report.finalVersion, o.2)) ↔
      ∀ a ∈ l, a.isWhole t read = true := by
  have happlied : report.applied = l.map (·.step.version) := by simpa using (h.ok report ho).1
  rw [happlied]
  constructor
  · rintro ⟨hrows, -⟩ a ha
    exact (h.hasCompletedRow_iff hr.upTo ho ha).mp (hrows _ (List.mem_map_of_mem ha))
  · intro hl
    refine ⟨fun v hv => ?_, ?_⟩
    · obtain ⟨a, ha, rfl⟩ := List.mem_map.mp hv
      exact (h.hasCompletedRow_iff hr.upTo ho ha).mpr (hl a ha)
    · obtain ⟨rows', hhas, hcomplete⟩ := h.complete hr ho hl
      obtain ⟨b, hb, hv⟩ := hcomplete.atVersion.query_current ht
        (by rwa [view_of_working h.working])
      rw [currentVersion_run database t (answer_query_of_ok hb), hv]

end Truth

/-- The steps that a run begins, from its opening on. -/
def runAttempts (t : TableName) (w : Surroundings) (steps : List Step) (c : Connection) :
    List Attempt :=
  match (openRun database t).run c with
  | (.error _, _) => []
  | (.ok current, c) => attempts t w ⟨[], 0, 0, current⟩ none steps c

section Opening

variable {w : Surroundings} {steps : List Step} {m : Version} {e : Database}

theorem runAttempts_of_openRun (h : (openRun database t).run c = (.ok m, c')) :
    runAttempts t w steps c = attempts t w ⟨[], 0, 0, m⟩ none steps c' := by
  unfold runAttempts
  rw [h]

theorem runAttempts_of_openRun_error {f : MigrationError}
    (h : (openRun database t).run c = (.error f, c')) : runAttempts t w steps c = [] := by
  unfold runAttempts
  rw [h]

/-- An opening leads to the version of the control table with no transaction open, or it
fails with no step begun. -/
theorem Standing.openRun (h : Standing t e c m rows) :
    (∃ f c₁, (openRun database t).run c = (.error f, c₁) ∧ c₁.working = none ∧
      ∀ v file sql cause, f ≠ .statement v file sql cause) ∨
    ∃ c₁, (openRun database t).run c = (.ok m, c₁) ∧ Awaits t c₁ m.toNat rows ∧
      Complete m.toNat rows := by
  obtain ⟨l, hl, hopening⟩ := openRun_opening database t c
  have htrail : Trail database (fun _ => False) c l _ := .of_trace hl
  rcases hopen : (Migration.openRun database t).run c with ⟨f | v, c₁⟩ <;>
    rw [hopen] at htrail hopening
  · refine .inl ⟨f, c₁, rfl, ?_, ?_⟩
    · have hstand : Standing t e c.reopen m rows := by rwa [reopen_of_working h.working]
      exact (hstand.looks_all hopening.looks htrail).2.mpr h.working
    · rintro v file sql cause rfl
      cases hopening
  · obtain ⟨rfl, hw, hpresent⟩ := h.opened hopening htrail
    exact .inr ⟨c₁, rfl, ⟨hw, hpresent.isCreatable, hpresent.has, hpresent.complete.upTo⟩,
      hpresent.complete⟩

end Opening

/-- A run whose scripts are without statements of transactions leaves all its steps whole. -/
theorem runAttempts_whole {w : Surroundings} {steps : List Step} (hw : c.working = none)
    {n : Version} (h : IsComplete t c.committed n rows) (hs : w.Harmless t steps) :
    ∀ a ∈ runAttempts t w steps c, a.isWhole t w.read = true := by
  obtain ⟨e, hstand⟩ := h.standing hw
  rcases hstand.openRun with ⟨f, c₁, hopen, -, -⟩ | ⟨c₁, hopen, hawaits, -⟩
  · rw [runAttempts_of_openRun_error hopen]
    simp
  · rw [runAttempts_of_openRun hopen]
    exact attempts_whole hawaits hs

/-- Whatever transactions the scripts begin and end, no transaction is open after a run.
What the report of a run tells is true of the control table precisely if all steps that
the run has begun are whole, and a step that fails has left no row precisely if it is. Scripts
without statements of transactions leave every step whole. -/
theorem apply_tells_iff (t : TableName) (c : Connection) (hw : c.working = none) (n : Version)
    (rows : List Row) (h : IsComplete t c.committed n rows) (w : Surroundings)
    (steps : List Step) (hs : w.LeavesAlone t steps) :
    let run := (apply database t w steps).run c
    let tried := runAttempts t w steps c
    run.2.working = none ∧
    (∀ report, run.1 = .ok report →
      report.applied = tried.map (·.step.version) ∧
      ((∀ v ∈ report.applied, hasCompletedRow t run.2.committed v = true) ∧
        (currentVersion database t).run run.2 = (.ok report.finalVersion, run.2) ↔
        ∀ a ∈ tried, a.isWhole t w.read = true)) ∧
    (∀ a ∈ tried, ∀ e, a.outcome = .error e → run.1 = .error e ∧
      (hasRow t run.2.committed a.step.version = false ↔ a.isWhole t w.read = true)) ∧
    (∀ v file sql e, run.1 = .error (.statement v file sql e) →
      ∃ a ∈ tried, a.step.version = v ∧ a.outcome = .error (.statement v file sql e)) ∧
    (w.Harmless t steps → ∀ a ∈ tried, a.isWhole t w.read = true) := by
  obtain ⟨e, hstand⟩ := h.standing hw
  intro run tried
  have hwhole : w.Harmless t steps → ∀ a ∈ tried, a.isWhole t w.read = true :=
    runAttempts_whole hw h
  rcases hstand.openRun with ⟨f, c₁, hopen, hw₁, hf⟩ | ⟨c₁, hopen, hawaits, hcomplete⟩
  · have hrun : run = (.error f, c₁) := apply_of_openRun_error hopen
    have htried : tried = [] := runAttempts_of_openRun_error hopen
    rw [hrun, htried]
    refine ⟨hw₁, by rintro _ ⟨⟩, by simp, ?_, by simp⟩
    rintro v file sql cause ⟨⟩
    exact absurd rfl (hf v file sql cause)
  · have hrun : run = (applySteps database t w ⟨[], 0, 0, n⟩ none steps).run c₁ :=
      apply_of_openRun hopen
    have htried : tried = attempts t w ⟨[], 0, 0, n⟩ none steps c₁ :=
      runAttempts_of_openRun hopen
    have haccounts : Accounts t w.read ⟨[], 0, 0, n⟩ rows tried run := by
      rw [hrun, htried]
      exact applySteps_accounts hawaits hs
    refine ⟨haccounts.working, fun report hr => ⟨by simpa using (haccounts.ok report hr).1,
      haccounts.tells_iff hawaits.isCreatable hcomplete hr⟩, fun a ha f hf => ?_, ?_, hwhole⟩
    · obtain ⟨herror, hrow⟩ := haccounts.failed a ha f hf
      exact ⟨herror, by rw [hrow, Bool.not_eq_false']⟩
    · intro v file sql cause herror
      rw [hrun] at herror
      rw [htried]
      exact exists_attempt_of_statement herror

/-- The script of all steps rolls the transaction of its step back and begins another one. -/
def rollingBack : Surroundings := ⟨fun _ => .ok "ROLLBACK;\nBEGIN;\n", fun _ => 0⟩

theorem rollingBack_leavesAlone : rollingBack.LeavesAlone .standard (smallSteps.take 1) := by
  have h : Script.statements "ROLLBACK;\nBEGIN;\n" = ["ROLLBACK", "BEGIN"] := by decide +kernel
  intro s _ statements hl
  obtain rfl : _ = statements := Except.ok.inj hl
  rw [h]
  decide +kernel

theorem apply_tells_iff_after_rollback :
    let run := (apply database .standard rollingBack (smallSteps.take 1)).run (.start .empty)
    let tried := runAttempts .standard rollingBack (smallSteps.take 1) (.start .empty)
    run.2.working = none ∧
    (∀ report, run.1 = .ok report →
      report.applied = tried.map (·.step.version) ∧
      ((∀ v ∈ report.applied, hasCompletedRow .standard run.2.committed v = true) ∧
        (currentVersion database .standard).run run.2 = (.ok report.finalVersion, run.2) ↔
        ∀ a ∈ tried, a.isWhole .standard rollingBack.read = true)) ∧
    (∀ a ∈ tried, ∀ e, a.outcome = .error e → run.1 = .error e ∧
      (hasRow .standard run.2.committed a.step.version = false ↔
        a.isWhole .standard rollingBack.read = true)) ∧
    (∀ v file sql e, run.1 = .error (.statement v file sql e) →
      ∃ a ∈ tried, a.step.version = v ∧ a.outcome = .error (.statement v file sql e)) ∧
    (rollingBack.Harmless .standard (smallSteps.take 1) →
      ∀ a ∈ tried, a.isWhole .standard rollingBack.read = true) :=
  apply_tells_iff .standard (.start .empty) rfl 0 [] (.inl ⟨rfl, rfl, rfl⟩) rollingBack
    (smallSteps.take 1) rollingBack_leavesAlone

/-- The run reports version 1, but the control table has no row. -/
theorem apply_reports_lost_row :
    let run := (apply database .standard rollingBack (smallSteps.take 1)).run (.start .empty)
    run.1 = .ok ⟨[1], 0, 2, 1⟩ ∧ hasRow .standard run.2.committed 1 = false ∧
      ((currentVersion database .standard).run run.2).1 = .ok 0 := by
  decide +kernel

end SipMigrate.Migration
