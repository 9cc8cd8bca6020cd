import SipMigrate.Proofs.Migration.Bracketing
import SipMigrate.Proofs.Migration.Standing

/-! What a run does to a database whose control table is complete, whichever of its
calls fail. A block that is complete adds its row and the effect of its statements; a
block that breaks off leaves no trace in the committed database. -/

namespace SipMigrate.Migration

open Sql Executor ControlTable

/-- Texts are executed one after the other, without a transaction, and all succeed. -/
def Executes (d : Database) : List String → Database → Prop
  | [], d' => d' = d
  | sql :: rest, d' =>
    ∃ m, (Connection.start d).execute sql = (.ok (), .start m) ∧ Executes m rest d'

theorem executes_append {d d' : Database} {l₁ l₂ : List String} :
    Executes d (l₁ ++ l₂) d' ↔ ∃ m, Executes d l₁ m ∧ Executes m l₂ d' := by
  induction l₁ generalizing d with
  | nil => simp [Executes]
  | cons sql rest ih =>
    simp only [List.cons_append, Executes, ih]
    constructor
    · rintro ⟨m, he, n, h₁, h₂⟩
      exact ⟨n, ⟨m, he, h₁⟩, h₂⟩
    · rintro ⟨n, ⟨m, he, h₁⟩, h₂⟩
      exact ⟨m, he, n, h₁, h₂⟩

/-- The scripts of some steps leave the control table alone and are without
statements of transactions. Scripts are meant that keep to the statements that are understood:
any other statement is refused here, and counts as harmless for that. -/
def Surroundings.Harmless (w : Surroundings) (t : TableName) (steps : List Step) : Prop :=
  ∀ s ∈ steps, ∀ statements, s.load w.read = .ok statements →
    ∀ sql ∈ statements, Connection.TextAvoids t.text sql

variable {t : TableName} {c c' : Connection} {w w' : Transaction} {d e : Database} {n : Version}
  {rows : List Row} {r : Record} {mayFail : Call → Prop}

/-! ### Within a block -/

/-- Within a transaction the control table has some rows, and the rest is as in `e`. -/
structure Amid (t : TableName) (e : Database) (w : Transaction) (rows : List Row) : Prop where
  has : w.database.Has t.text (table t rows)
  agrees : Agrees t w.database e

namespace Amid

theorem replace (h : Amid t e w rows) (rows' : List Row) :
    Amid t e { w with database := w.database.replace (table t rows') } rows' where
  has := h.has.replace_self sameName_table
  agrees := (h.has.forget_replace rows').trans h.agrees

/-- A successful insertion of a record adds its row, which is the only one of its version. -/
theorem insert (h : Amid t e w rows) (ht : t.IsCreatable)
    (hx : (c.within w).execute (insert t.text r) = (.ok (), c')) :
    ∃ w', c' = c.within w' ∧ rows.any (hasVersion r) = false ∧
      Amid t e w' (rows ++ [row r]) := by
  by_cases hn : '\x00' ∈ r.description.toList ∨ '\x00' ∈ r.file.toList
  · obtain ⟨f, hf⟩ := insert_reads_error t r ht.isWord hn
    rw [Connection.execute_of_reads_error hf] at hx
    cases hx
  · rw [not_or] at hn
    rw [execute_insert ht (c := c.within w) h.has hn.1 hn.2] at hx
    cases hu : rows.any (hasVersion r) with
    | true =>
      rw [hu] at hx
      cases hx
    | false =>
      rw [hu, if_neg Bool.false_ne_true] at hx
      cases hr : (c.within w).refusal? with
      | some cause =>
        rw [hr] at hx
        cases hx
      | none =>
        rw [hr, Prod.mk.injEq] at hx
        exact ⟨_, hx.2.symm, rfl, h.replace _⟩

/-- A successful update completes the row of a record. -/
theorem update {time : UInt64} (h : Amid t e w (rows ++ [row r])) (ht : t.IsCreatable)
    (hr : ∀ s ∈ rows, matchesVersion r s = false) (hv : rows.any (hasVersion r) = false)
    (hx : (c.within w).execute (update t.text (r.complete time)) = (.ok (), c')) :
    ∃ w', c' = c.within w' ∧ Amid t e w' (rows ++ [row (r.complete time)]) := by
  rw [execute_update _ ht (c := c.within w) h.has hr hv] at hx
  cases hf : (c.within w).refusal? with
  | some cause =>
    rw [hf] at hx
    cases hx
  | none =>
    rw [hf, Prod.mk.injEq] at hx
    exact ⟨_, hx.2.symm, h.replace _⟩

/-- Statements that succeed within a block also succeed without one. -/
theorem statements {l : List String} (h : Amid t e w rows)
    (hl : ∀ sql ∈ l, Connection.TextAvoids t.text sql)
    (hp : Trail database mayFail (c.within w) (l.map executed) c') :
    ∃ w' e', c' = c.within w' ∧ Executes e l e' ∧ Amid t e' w' rows := by
  induction l generalizing w e with
  | nil => exact ⟨w, e, hp, rfl, h⟩
  | cons sql rest ih =>
    obtain ⟨m, hx, hrest⟩ := hp
    have hx := passes_executed.mp hx
    obtain ⟨w₁, e₁, rfl, he, hhas, hagrees⟩ :=
      Connection.executeAll_start (hl sql (by simp)) h.has h.agrees hx
    obtain ⟨w', e', hc', hex, h'⟩ :=
      ih ⟨hhas, hagrees⟩ (fun sql hs => hl sql (by simp [hs])) hrest
    exact ⟨w', e', hc', ⟨e₁, he, hex⟩, h'⟩

end Amid

/-- A complete block adds the row of its step, which is the only one of its version, and
does what its statements do. -/
theorem block_adds {s : Step} {statements : List String} {time : UInt64} {k : Nat}
    (ht : t.IsCreatable) (hd : c.committed.Has t.text (table t rows)) (he : Agrees t c.committed e)
    (hat : AtVersion k rows) (hl : ∀ sql ∈ statements, Connection.TextAvoids t.text sql)
    (hp : Trail database mayFail c (block t (.inFlight s) statements time) c') :
    rows.any (hasVersion (.inFlight s)) = false ∧ c'.working = none ∧
      ∃ e', Executes e statements e' ∧ Agrees t c'.committed e' ∧ c'.committed.Has t.text
        (table t (rows ++ [row ((Record.inFlight s).complete time)])) := by
  simp only [block, opened, Trail.append_iff, Trail.cons_iff, Trail.nil_iff] at hp
  obtain ⟨c₃, ⟨c₂, ⟨c₁, hbegin, _, hinsert, rfl⟩, hstatements⟩, c₄, hupdate, _, hcommit, rfl⟩ := hp
  obtain ⟨hw, rfl⟩ := passes_begin.mp hbegin
  have h₁ : Amid t e ⟨c.committed, false⟩ rows := ⟨hd, he⟩
  obtain ⟨w₂, rfl, hfree, h₂⟩ := h₁.insert ht (passes_executed.mp hinsert)
  obtain ⟨w₃, e', rfl, hex, h₃⟩ := h₂.statements hl hstatements
  obtain ⟨w₄, rfl, h₄⟩ := h₃.update ht (hat.matchesVersion hfree) hfree
    (passes_executed.mp hupdate)
  obtain ⟨-, rfl⟩ := passes_commit.mp hcommit
  exact ⟨hfree, rfl, e', hex, h₄.agrees, h₄.has⟩

theorem Present.block {s : Step} {statements : List String} {time : UInt64}
    (h : Present t e c n rows) (hv : s.version.toNat = n.toNat + 1)
    (hl : ∀ sql ∈ statements, Connection.TextAvoids t.text sql)
    (hp : Trail database mayFail c (block t (.inFlight s) statements time) c') :
    ∃ e', c'.working = none ∧ Executes e statements e' ∧
      Present t e' c' s.version (rows ++ [row ((Record.inFlight s).complete time)]) := by
  obtain ⟨-, hw, e', hex, hagrees, hhas⟩ :=
    block_adds h.isCreatable h.has h.agrees h.complete.atVersion hl hp
  refine ⟨e', hw, hex, h.isCreatable, hhas, ?_, hagrees⟩
  rw [hv]
  exact h.complete.add _ hv

/-! ### A block that breaks off -/

/-- A text whose execution leaves a transaction open. -/
def Stays (sql : String) : Prop :=
  ∀ (c : Connection) (w : Transaction), ∃ w', ((c.within w).execute sql).2 = c.within w'

theorem stays_of_readsPlain {sql : String} (h : Connection.ReadsPlain sql) : Stays sql := by
  intro c w
  obtain ⟨r, w', hw⟩ := Connection.execute_within (c := c) (w := w) h
  exact ⟨w', by rw [hw]⟩

theorem stays_of_textAvoids {sql : String} (h : Connection.TextAvoids t.text sql) : Stays sql := by
  intro c w
  obtain ⟨r, w', hw⟩ := Connection.executeAll_within (c := c) (w := w) h
  exact ⟨w', congrArg Prod.snd hw⟩

/-- A call whose answer, whatever it is, leaves a transaction open. -/
def Keeps (ev : Event) : Prop := ∃ sql, ev.call = .execute sql ∧ Stays sql

theorem keeps_execute {sql : String} (h : Stays sql) (a : Except ExecutorError Unit) :
    Keeps ⟨.execute sql, a⟩ := ⟨sql, rfl, h⟩

theorem keeps_executed {l : List String} (h : ∀ sql ∈ l, Stays sql) :
    ∀ ev ∈ l.map executed, Keeps ev := by
  intro ev hev
  obtain ⟨sql, hsql, rfl⟩ := List.mem_map.mp hev
  exact keeps_execute (h sql hsql) _

theorem trail_within {l : List Event} (hl : ∀ ev ∈ l, Keeps ev)
    (hp : Trail database mayFail (c.within w) l c') : ∃ w', c' = c.within w' := by
  induction l generalizing w with
  | nil => exact ⟨w, hp⟩
  | cons ev rest ih =>
    obtain ⟨m, he, hrest⟩ := hp
    obtain ⟨call, a⟩ := ev
    obtain ⟨sql, hc, hs⟩ := hl ⟨call, a⟩ (by simp)
    obtain rfl : call = .execute sql := hc
    have hm : ∃ w₁, m = c.within w₁ := by
      rcases he.execute with rfl | rfl
      · exact ⟨w, rfl⟩
      · exact hs c w
    obtain ⟨w₁, rfl⟩ := hm
    exact ih (fun ev hev => hl ev (by simp [hev])) hrest

/-- A rollback ends a transaction, unless it is failed. -/
theorem reopen_of_rollback {a : Except ExecutorError Unit}
    (hp : Passes database mayFail c ⟨.rollback, a⟩ c') :
    c'.reopen = c.reopen ∧ (c'.working = none ∨ mayFail .rollback) := by
  rcases hp.rollback with rfl | ⟨hf, rfl⟩
  · exact ⟨rfl, .inl rfl⟩
  · exact ⟨rfl, .inr hf⟩

/-- Events that begin a transaction, keep it open and end with a rollback change nothing. -/
theorem reopen_of_trail (middle : List Event) {a : Except ExecutorError Unit}
    (hm : ∀ ev ∈ middle, Keeps ev)
    (hp : Trail database mayFail c (⟨.begin, .ok ()⟩ :: (middle ++ [⟨.rollback, a⟩])) c') :
    c'.reopen = c ∧ (c'.working = none ∨ mayFail .rollback) := by
  simp only [Trail.cons_iff, Trail.append_iff, Trail.nil_iff] at hp
  obtain ⟨c₁, hbegin, c₂, hmid, _, hroll, rfl⟩ := hp
  obtain ⟨hw, rfl⟩ := passes_begin.mp hbegin
  obtain ⟨w₂, rfl⟩ := trail_within hm hmid
  obtain ⟨hr, hn⟩ := reopen_of_rollback hroll
  exact ⟨hr.trans (reopen_of_working hw), hn⟩

/-- A block that breaks off changes nothing. -/
theorem Interrupted.reopen {statements : List String} {time : UInt64} {l : List Event}
    {cause : MigrationError} (h : Interrupted t r statements time l cause) (ht : t.IsCreatable)
    (hw : c.working = none) (hl : ∀ sql ∈ statements, Connection.TextAvoids t.text sql)
    (hp : Trail database mayFail c l c') :
    c'.reopen = c ∧ (c'.working = none ∨ mayFail .rollback) := by
  have hinsert := stays_of_readsPlain (insert_readsPlain t (r := r) ht.isWord)
  have hdelete := stays_of_readsPlain (delete_readsPlain t (r := r) ht.isWord)
  have hupdate := stays_of_readsPlain (update_readsPlain t (r := r.complete time) ht.isWord)
  have hstay (sql : String) (h : sql ∈ statements) : Stays sql := stays_of_textAvoids (hl sql h)
  cases h with
  | begin cause =>
    rw [Trail.single_iff] at hp
    obtain rfl := hp.begin_error
    exact ⟨reopen_of_working hw, .inl hw⟩
  | insert cause a =>
    refine reopen_of_trail [_] ?_ hp
    simpa using keeps_execute hinsert _
  | @statement before after sql hs cause a b =>
    refine reopen_of_trail (executed (ControlTable.insert t.text r) ::
      (before.map executed ++ [⟨.execute sql, .error cause⟩,
        ⟨.execute (ControlTable.delete t.text r), a⟩])) (a := b) ?_ (by simpa [opened] using hp)
    have hbefore := keeps_executed fun s h => hstay s (by rw [hs]; exact List.mem_append_left _ h)
    simp only [List.forall_mem_cons, List.forall_mem_append]
    exact ⟨keeps_execute hinsert _, hbefore, keeps_execute (hstay sql (by simp [hs])) _,
      keeps_execute hdelete _, List.forall_mem_nil _⟩
  | update cause a b =>
    refine reopen_of_trail (executed (ControlTable.insert t.text r) ::
      (statements.map executed ++
        [⟨.execute (ControlTable.update t.text (r.complete time)), .error cause⟩,
          ⟨.execute (ControlTable.delete t.text r), a⟩])) (a := b) ?_ (by simpa [opened] using hp)
    simp only [List.forall_mem_cons, List.forall_mem_append]
    exact ⟨keeps_execute hinsert _, keeps_executed hstay, keeps_execute hupdate _,
      keeps_execute hdelete _, List.forall_mem_nil _⟩
  | commit cause a =>
    simp only [opened, Trail.append_iff, Trail.cons_iff, Trail.nil_iff] at hp
    obtain ⟨c₃, ⟨c₂, ⟨c₁, hbegin, _, hins, rfl⟩, hmid⟩, c₄, hupd, c₅, hcommit, _, hroll, rfl⟩ := hp
    obtain ⟨-, rfl⟩ := passes_begin.mp hbegin
    have hmiddle : Trail database mayFail (c.within ⟨c.committed, false⟩)
        (executed (ControlTable.insert t.text r) :: (statements.map executed ++
          [executed (ControlTable.update t.text (r.complete time))])) c₄ := by
      simp only [Trail.cons_iff, Trail.append_iff]
      exact ⟨_, hins, _, hmid, _, hupd, rfl⟩
    obtain ⟨w₄, rfl⟩ := trail_within (by
      simp only [List.forall_mem_cons, List.forall_mem_append]
      exact ⟨keeps_execute hinsert _, keeps_executed hstay, keeps_execute hupdate _,
        List.forall_mem_nil _⟩) hmiddle
    obtain ⟨hr, hn⟩ := reopen_of_rollback hroll
    refine ⟨?_, hn⟩
    rw [hr]
    rcases hcommit.commit_error with rfl | rfl <;> exact reopen_of_working hw

/-! ### Whole runs -/

theorem Present.blocks {v : Surroundings} {k : Nat} {done : List (Step × List String)}
    (h : Present t e c n rows) (hw : c.working = none)
    (hv : done.map (·.1.version.toNat) = List.range' (n.toNat + 1) done.length)
    (hl : ∀ d ∈ done, ∀ sql ∈ d.2, Connection.TextAvoids t.text sql)
    (hp : Trail database mayFail c (blocks t v k done) c') :
    ∃ e' n' rows', c'.working = none ∧ Executes e (done.flatMap (·.2)) e' ∧
      Present t e' c' n' rows' ∧ rows <+: rows' ∧ n'.toNat = n.toNat + done.length := by
  induction done generalizing c e n rows k with
  | nil =>
    obtain rfl : c' = c := hp
    exact ⟨e, n, rows, hw, rfl, h, List.prefix_rfl, rfl⟩
  | cons d rest ih =>
    obtain ⟨s, statements⟩ := d
    simp only [List.map_cons, List.length_cons, List.range'_succ, List.cons.injEq] at hv
    obtain ⟨hs, hrest⟩ := hv
    obtain ⟨c₁, hblock, htail⟩ := Trail.append_iff.mp hp
    obtain ⟨e₁, hw₁, he₁, h₁⟩ := h.block hs (hl (s, statements) (by simp)) hblock
    obtain ⟨e', n', rows', hw', he', h', hpre, hn⟩ :=
      ih h₁ hw₁ (by rw [hrest, hs]) (fun d hd => hl d (by simp [hd])) htail
    refine ⟨e', n', rows', hw', ?_, h', (List.prefix_append _ _).trans hpre, ?_⟩
    · exact executes_append.mpr ⟨e₁, he₁, he'⟩
    · rw [hn, hs, List.length_cons]
      omega

/-- Where a transaction is open, no block gets beyond its beginning. -/
theorem Interrupted.eq_of_open {statements : List String} {time : UInt64} {l : List Event}
    {cause : MigrationError} (h : Interrupted t r statements time l cause)
    (hw : c.working ≠ none) (hp : Trail database mayFail c l c') : c' = c := by
  have hbegin (rest : List Event) :
      ¬Trail database mayFail c (⟨.begin, .ok ()⟩ :: rest) c' := by
    rintro ⟨m, hm, -⟩
    exact hw (passes_begin.mp hm).1
  cases h with
  | begin cause => exact (Trail.single_iff.mp hp).begin_error
  | insert | statement | update | commit => exact absurd hp (hbegin _)

section Ending

variable {v : Surroundings} {report : Report} {done : List (Step × List String)} {left : List Step}
  {tail : List Event} {o : Except MigrationError Report}

/-- After the blocks of the steps that it applies, a run changes nothing. -/
theorem Ending.reopen (h : Ending t v report done left tail o) (ht : t.IsCreatable)
    (hw : c.working = none) (hs : v.Harmless t left) (hp : Trail database mayFail c tail c') :
    c'.reopen = c ∧ (c'.working = none ∨ mayFail .rollback) := by
  cases h with
  | complete | refused | unreadable =>
    obtain rfl : c' = c := hp
    exact ⟨reopen_of_working hw, .inl hw⟩
  | interrupted _ _ hload h => exact h.reopen ht hw (hs _ List.mem_cons_self _ hload) hp

theorem Ending.eq_of_open (h : Ending t v report done left tail o) (hw : c.working ≠ none)
    (hp : Trail database mayFail c tail c') : c' = c := by
  cases h with
  | complete | refused | unreadable => exact hp
  | interrupted _ _ _ h => exact h.eq_of_open hw hp

end Ending

/-- What a run has done: the steps it has applied, with their statements. -/
structure Effect (t : TableName) (v : Surroundings) (steps : List Step) (e : Database) (n : Version)
    (rows : List Row) (done : List (Step × List String)) (e' : Database) (n' : Version)
    (rows' : List Row) : Prop where
  steps : ∀ d ∈ done, steps.find? (·.version = d.1.version) = some d.1 ∧ d.1.load v.read = .ok d.2
  versions : done.map (·.1.version.toNat) = List.range' (n.toNat + 1) done.length
  version : n'.toNat = n.toNat + done.length
  rows : rows <+: rows'
  executes : Executes e (done.flatMap (·.2)) e'

theorem Effect.none (v : Surroundings) (steps : List Step) (e : Database) (n : Version)
    (rows : List Row) : Effect t v steps e n rows [] e n rows :=
  ⟨nofun, rfl, rfl, List.prefix_rfl, rfl⟩

/-- What a run does, whichever calls fail. It applies some steps, and leaves a transaction
open only if one was open before or a rollback was failed. -/
theorem RunCourse.effect {v : Surroundings} {steps : List Step} {l : List Event}
    {o : Except MigrationError Report} (h : Standing t e c.reopen n rows) (hs : v.Harmless t steps)
    (hc : RunCourse t v steps l o) (hp : Trail database mayFail c l c') :
    ∃ done e' n' rows', Effect t v steps e n rows done e' n' rows' ∧
      Standing t e' c'.reopen n' rows' ∧
      (c.working = none → c'.working = none ∨ mayFail .rollback) ∧
      ∀ report, o = .ok report → report.applied = done.map (·.1.version) := by
  cases hc with
  | @notOpened l err ho =>
    obtain ⟨h', hw⟩ := h.looks_all ho.looks hp
    exact ⟨[], e, n, rows, .none .., h', fun hc => .inl (hw.mpr hc), nofun⟩
  | @opened opening rest current o ho hcourse =>
    obtain ⟨c₁, h₁, h₂⟩ := Trail.append_iff.mp hp
    obtain ⟨hstand, hw₁⟩ := h.looks_all ho.looks h₁
    obtain ⟨passed, left, done, tail, rfl, -, rfl, hdone, hend⟩ := hcourse.bracketed
    obtain ⟨c₂, hblocks, htail⟩ := Trail.append_iff.mp h₂
    have hreport : ∀ report, o = .ok report → report.applied = done.map (·.1.version) := by
      rintro report rfl
      cases hend with
      | complete hr => simpa using hr
    by_cases hw : c.working = none
    · rw [reopen_of_working hw] at h
      obtain ⟨rfl, hw₁, hpresent⟩ := h.opened ho h₁
      have hload (d : Step × List String) (hd : d ∈ done) :
          (passed ++ left).find? (·.version = d.1.version) = some d.1 ∧
            d.1.load v.read = .ok d.2 :=
        ⟨by rw [List.find?_append, hdone.find? hd, Option.some_or], hdone.statements d hd⟩
      obtain ⟨e', n', rows', hw₂, hex, hpresent', hpre, hn⟩ := hpresent.blocks hw₁ hdone.versions
        (fun d hd => hs d.1 (List.mem_of_find?_eq_some (hload d hd).1) d.2 (hload d hd).2) hblocks
      refine ⟨done, e', n', rows', ⟨hload, hdone.versions, hn, hpre, hex⟩, ?_⟩
      obtain ⟨hc', hopen⟩ := hend.reopen hpresent.isCreatable hw₂
        (fun s hm => hs s (List.mem_append_right _ hm)) htail
      rw [hc']
      exact ⟨⟨hw₂, .inr hpresent'⟩, fun _ => hopen, hreport⟩
    · have hw₁ : c₁.working ≠ none := fun hn => hw (hw₁.mp hn)
      obtain rfl : done = [] := by
        cases done with
        | nil => rfl
        | cons d rest =>
          obtain ⟨m, hm, -⟩ := hblocks
          exact absurd (passes_begin.mp hm).1 hw₁
      obtain rfl : c₂ = c₁ := hblocks
      obtain rfl : c' = c₂ := hend.eq_of_open hw₁ htail
      exact ⟨[], e, n, rows, .none .., hstand, fun hn => absurd hn hw, hreport⟩

/-! ### A small migration -/

def TableName.standard : TableName := ⟨"schema_version", by decide⟩

theorem isCreatable_standard : TableName.standard.IsCreatable where
  isWord := by
    unfold TableName.IsWord
    decide
  isReservedTable := by decide
  isReadable := by decide

/-- Two steps, one that creates a table and one that fills it. -/
def smallSteps : List Step := [⟨1, "table", "1_table.sql"⟩, ⟨2, "rows", "2_rows.sql"⟩]

def smallFiles : Surroundings where
  read path :=
    .ok (if path = "1_table.sql" then "CREATE TABLE a (x INTEGER);\n"
      else "INSERT INTO a VALUES (1);\nINSERT INTO a VALUES (2);\n")
  completedAt _ := 0

theorem load_smallFiles {s : Step} {statements : List String}
    (h : s.load smallFiles.read = .ok statements) :
    statements = ["CREATE TABLE a (x INTEGER)"] ∨
      statements = ["INSERT INTO a VALUES (1)", "INSERT INTO a VALUES (2)"] := by
  have h₁ : Script.statements "CREATE TABLE a (x INTEGER);\n" = ["CREATE TABLE a (x INTEGER)"] := by
    decide +kernel
  have h₂ : Script.statements "INSERT INTO a VALUES (1);\nINSERT INTO a VALUES (2);\n" =
      ["INSERT INTO a VALUES (1)", "INSERT INTO a VALUES (2)"] := by
    decide +kernel
  obtain rfl : _ = statements := Except.ok.inj h
  split
  · exact .inl h₁
  · exact .inr h₂

theorem smallFiles_harmless {steps : List Step} : smallFiles.Harmless .standard steps := by
  intro s _ statements hl
  rcases load_smallFiles hl with rfl | rfl <;> decide +kernel

end SipMigrate.Migration
