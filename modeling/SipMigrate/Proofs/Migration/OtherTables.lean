import SipMigrate.Proofs.Executor.Trail
import SipMigrate.Proofs.Migration.Resumption
import SipMigrate.Proofs.Migration.Watching
import SipMigrate.Proofs.Sql.Paired

/-! Control tables beside each other. A run names no table but its own, so the tables of
any other name stay as they are unless a script touches them, and nothing that they hold
has a part in the run: on databases that differ there alone, two runs make the same calls,
get the same answers and do the same to everything else. -/

namespace SipMigrate.Migration

open Sql Executor ControlTable Connection

variable {t u : TableName} {r : Record} {name : String}

/-! ### The statements on a control table -/

namespace ControlTable

/-- A name that a control table can have, other than a given one. The statements on the table
are apart from that one. -/
structure IsBeside (t : TableName) (name : String) : Prop where
  isWord : t.IsWord
  isReservedTable : isReservedTable t.text = false
  ne : sameName t.text name = false

namespace IsBeside

variable (h : IsBeside t name)

include h

theorem notMem_names : lowerAscii t.text ∉ Schema.names := by
  have := schema?_eq_none h.isReservedTable .empty
  intro hmem
  simp [Database.schema?, hmem] at this

theorem create : EachStatement (Statement.IsApart name) (create t.text) := by
  obtain ⟨o, ho⟩ := create_reads t h.isWord
  refine .of_reads ho ⟨⟨.inr trivial, ?_⟩, nofun⟩
  rintro _ ⟨⟩
  exact h.ne

theorem query {sql : String} {complete : Bool} {rc : (Nat → Nat) → ResultColumn}
    (hr : ReadsQuery t sql complete rc) : EachStatement (Statement.IsApart name) sql := by
  obtain ⟨o, ho⟩ := hr.reads h.isWord
  refine .of_reads ho ⟨⟨.inr ?_, nofun⟩, ?_⟩
  · rintro _ ⟨⟩
    exact h.ne
  · rintro _ ⟨⟩
    exact h.notMem_names

theorem delete : EachStatement (Statement.IsApart name) (delete t.text r) := by
  obtain ⟨o, ho⟩ := delete_reads t r h.isWord
  exact .of_reads ho ⟨⟨.inr h.ne, nofun⟩, nofun⟩

theorem update : EachStatement (Statement.IsApart name) (update t.text r) := by
  obtain ⟨o, ho⟩ := update_reads t r h.isWord
  exact .of_reads ho ⟨⟨.inr h.ne, nofun⟩, nofun⟩

theorem insert : EachStatement (Statement.IsApart name) (insert t.text r) := by
  by_cases hn : '\x00' ∈ r.description.toList ∨ '\x00' ∈ r.file.toList
  · obtain ⟨f, hf⟩ := insert_reads_error t r h.isWord hn
    exact .of_reads_error hf
  · rw [not_or] at hn
    obtain ⟨o, ho⟩ := insert_reads t r h.isWord hn.1 hn.2
    exact .of_reads ho ⟨⟨.inr h.ne, nofun⟩, nofun⟩

end IsBeside

end ControlTable

/-! ### Two runs side by side -/

/-- A call executes and queries statements with a property alone. It looks up no name. -/
def ExecutesOnly (P : Statement → Prop) : Call → Prop
  | .execute sql => EachStatement P sql
  | .query sql => EachStatement P sql
  | .tableExists _ => False
  | .begin | .commit | .rollback => True

/-- The statements in the scripts of some steps have a property. -/
def Surroundings.EachStatement (w : Surroundings) (steps : List Step) (P : Statement → Prop) :
    Prop :=
  ∀ s ∈ steps, ∀ statements, s.load w.read = .ok statements →
    ∀ sql ∈ statements, Connection.EachStatement P sql

variable {R : Database → Database → Prop} {w : Surroundings} {steps : List Step}
  {c e : Connection} {P Q : Statement → Prop}

namespace Surroundings.EachStatement

theorem mono (h : w.EachStatement steps P) (hPQ : ∀ s, P s → Q s) : w.EachStatement steps Q :=
  fun s hs l hl sql hsql => (h s hs l hl sql hsql).mono hPQ

theorem and (h : w.EachStatement steps P) (h' : w.EachStatement steps Q) :
    w.EachStatement steps fun s => P s ∧ Q s :=
  fun s hs l hl sql hsql k hk r hr =>
    ⟨h s hs l hl sql hsql k hk r hr, h' s hs l hl sql hsql k hk r hr⟩

end Surroundings.EachStatement

theorem RunCall.executesOnly {call : Call} (h : RunCall t w steps call) (ht : IsBeside t name)
    (hP : ∀ s, s.IsApart name → P s) (hs : w.EachStatement steps P) : ExecutesOnly P call := by
  cases h with
  | opening h =>
    cases h with
    | create => exact ht.create.mono hP
    | current => exact (ht.query (selectCurrent_reads t)).mono hP
    | lock => exact (ht.query (selectLock_reads t)).mono hP
  | @step s _ hmem h =>
    cases h with
    | begin | commit | rollback => trivial
    | insert => exact ht.insert.mono hP
    | statement hload hsql => exact hs s hmem _ hload _ hsql
    | update time => exact ht.update.mono hP
    | delete => exact ht.delete.mono hP

theorem transaction_paired {p : Plan} (hp : p.isControl = true) (h : Paired R c e) :
    (transaction c p).1 = (transaction e p).1 ∧
      Paired R (transaction c p).2 (transaction e p).2 := by
  have hends := h.step_of_isControl hp
  unfold transaction
  rcases hc : c.step p with ⟨o, c'⟩
  rcases he : e.step p with ⟨o', e'⟩
  rw [hc, he] at hends
  obtain ⟨rfl, hends⟩ := hends
  cases o with
  | error cause => exact ⟨rfl, hends⟩
  | ok a => exact ⟨rfl, hends⟩

theorem matchesAt_database {call : Call} (h : ExecutesOnly (Statement.Respects R) call) :
    MatchesAt (Paired R) database database call := by
  intro c e hp
  cases call with
  | execute sql =>
    obtain ⟨ha, hp⟩ := hp.execute h
    exact ⟨congrArg (Except.mapError _) ha, hp⟩
  | query sql =>
    obtain ⟨ha, hp⟩ := hp.query h
    exact ⟨congrArg (Except.mapError _) ha, hp⟩
  | tableExists name => exact h.elim
  | begin | commit | rollback => exact transaction_paired rfl hp

/-- Connections whose databases are related, after the same events. -/
def Abreast (R : Database → Database → Prop) (l l' : Log Connection) : Prop :=
  Paired R l.inner l'.inner ∧ l.events = l'.events

/-- A run that cannot have its control table ends at once. -/
theorem apply_of_reserved (h : t.IsWord → isReservedTable t.text = true) (w : Surroundings)
    (steps : List Step) :
    ∃ f, ∀ l, (apply (logged database) t w steps).run l =
      (.error (.executor (.database f)),
        ⟨l.inner, l.events ++ [⟨.execute (create t.text), .error (.database f)⟩]⟩) := by
  obtain ⟨f, hf⟩ := execute_create_of_reserved h
  refine ⟨f, fun l => ?_⟩
  have hanswer : (logged database).answer (.execute (create t.text)) l =
      (.error (.database f),
        ⟨l.inner, l.events ++ [⟨.execute (create t.text), .error (.database f)⟩]⟩) := by
    simp [logged, answer_execute_of_error (hf l.inner)]
  exact apply_of_openRun_error (Run.run_bind_of_error (run_demand_of_error hanswer) _)

/-- Where all that is apart from a name respects a relation, and the scripts respect it, so
does a run with a control table of another name. -/
theorem apply_abreast (hne : sameName t.text name = false)
    (hR : ∀ s : Statement, s.IsApart name → s.Respects R)
    (hs : w.EachStatement steps (Statement.Respects R)) :
    Run.Alongside (Abreast R) (apply (logged database) t w steps)
      (apply (logged database) t w steps) := by
  -- statements on the table of tables need not respect the relation; no run comes to them
  by_cases hreserved : t.IsWord → isReservedTable t.text = true
  · obtain ⟨f, hf⟩ := apply_of_reserved hreserved w steps
    rintro l l' ⟨hpaired, hevents⟩
    rw [hf l, hf l', hevents]
    exact ⟨rfl, hpaired, rfl⟩
  · rw [Classical.not_imp, Bool.not_eq_true] at hreserved
    have ht : IsBeside t name := ⟨hreserved.1, hreserved.2, hne⟩
    exact apply_alongside fun call hcall =>
      (matchesAt_database (hcall.executesOnly ht hR hs)).logged

/-- A run from a connection, and its calls with their answers. -/
def runFrom (t : TableName) (w : Surroundings) (steps : List Step) (c : Connection) :
    Except MigrationError Report × Log Connection :=
  (apply (logged database) t w steps).run ⟨c, []⟩

/-- Two runs with one result and the same events, after which everything is the same behind
a mask. -/
structure SameBehind (F : Database → Database)
    (r q : Except MigrationError Report × Log Connection) : Prop where
  result : r.1 = q.1
  events : r.2.events = q.2.events
  mask : r.2.inner.mask F = q.2.inner.mask F

/-- Control tables are independent. A run whose scripts leave the tables of another name out
leaves them as they are, in what is committed and in what is open. And whatever rows they
have, it has the same result, makes the same calls with the same answers and does the same
to everything else. This is so as well if there are other tables of that name, or none, unless
a script looks at the table of tables. -/
theorem apply_independent (t u : TableName) (hne : sameName t.text u.text = false)
    (w : Surroundings) (steps : List Step)
    (hs : w.EachStatement steps (Statement.IsForeign u.text)) (c : Connection)
    (hc : c.working = none) :
    let run := runFrom t w steps
    (∀ d ∈ [(run c).2.inner.committed, (run c).2.inner.view],
      d.named u.text = c.committed.named u.text ∧
      d.hasTable u.text = c.committed.hasTable u.text ∧
      (lowerAscii u.text ∉ Schema.names → d.readable? u.text = c.committed.readable? u.text)) ∧
    (∀ e, e.mask (Database.forget u.text) = c.mask (Database.forget u.text) →
      SameBehind (Database.forget u.text) (run c) (run e)) ∧
    (w.EachStatement steps Statement.SkipsSchema →
      ∀ e, e.mask (fun d => d.drop u.text) = c.mask (fun d => d.drop u.text) →
        SameBehind (fun d => d.drop u.text) (run c) (run e)) := by
  intro run
  have hforget (e : Connection)
      (he : e.mask (Database.forget u.text) = c.mask (Database.forget u.text)) :
      (run c).1 = (run e).1 ∧ Abreast (Database.Behind (Database.forget u.text) u.text
        (c.committed.named u.text) (e.committed.named u.text)) (run c).2 (run e).2 :=
    apply_abreast hne (fun s hs => hs.1.respects_forget)
      (hs.mono fun s hs => hs.respects_forget) ⟨c, []⟩ ⟨e, []⟩ ⟨.of_mask u.text hc he, rfl⟩
  have hdrop (hskips : w.EachStatement steps Statement.SkipsSchema) (e : Connection)
      (he : e.mask (fun d => d.drop u.text) = c.mask (fun d => d.drop u.text)) :
      (run c).1 = (run e).1 ∧ Abreast (Database.Behind (fun d => d.drop u.text) u.text
        (c.committed.named u.text) (e.committed.named u.text)) (run c).2 (run e).2 :=
    apply_abreast hne (fun s hs => hs.1.respects_drop hs.2)
      ((hs.and hskips).mono fun s hs => hs.1.respects_drop hs.2) ⟨c, []⟩ ⟨e, []⟩
      ⟨.of_mask u.text hc he, rfl⟩
  clear_value run
  refine ⟨fun d hd => ?_, fun e he => ?_, fun hskips e he => ?_⟩
  · obtain ⟨-, hpaired, -⟩ := hforget c rfl
    have hnamed : d.named u.text = c.committed.named u.text := by
      simp only [List.mem_cons, List.not_mem_nil, or_false] at hd
      rcases hd with rfl | rfl
      · exact hpaired.committed.left
      · exact hpaired.view.left
    exact ⟨hnamed, Database.hasTable_of_named hnamed,
      fun hn => Database.readable?_of_named hn hnamed⟩
  · obtain ⟨hresult, hpaired, hevents⟩ := hforget e he
    exact ⟨hresult, hevents, hpaired.mask⟩
  · obtain ⟨hresult, hpaired, hevents⟩ := hdrop hskips e he
    exact ⟨hresult, hevents, hpaired.mask⟩

/-- Another control table, whose name begins with the name of the standard one. -/
def TableName.second : TableName := ⟨"schema_version_2", by decide⟩

/-- A version that is out of range, and a step in flight. -/
def oddRows : List Row :=
  [[.integer 70000, .text "odd", .text "odd.sql", .integer 1],
    row (.inFlight ⟨1, "table", "1_table.sql"⟩)]

/-- A database with a second control table alone. -/
def beside (rows : List Row) : Connection := .start ⟨[table .second rows]⟩

/-- A run beside a table that would stop a run of its own. -/
theorem apply_independent_of_second :
    let c := beside oddRows
    (runFrom .standard smallFiles smallSteps c).2.inner.committed.named TableName.second.text =
        [table .second oddRows] ∧
      SameBehind (Database.forget TableName.second.text)
        (runFrom .standard smallFiles smallSteps c)
        (runFrom .standard smallFiles smallSteps (beside [])) ∧
      SameBehind (fun d => d.drop TableName.second.text)
        (runFrom .standard smallFiles smallSteps c)
        (runFrom .standard smallFiles smallSteps (.start .empty)) := by
  have hforeign :
      smallFiles.EachStatement smallSteps (Statement.IsForeign TableName.second.text) := by
    intro s _ statements hl
    rcases load_smallFiles hl with rfl | rfl <;> decide +kernel
  have hskips : smallFiles.EachStatement smallSteps Statement.SkipsSchema := by
    intro s _ statements hl
    rcases load_smallFiles hl with rfl | rfl <;> decide +kernel
  obtain ⟨hkept, hforget, hdrop⟩ := apply_independent .standard .second (by decide) smallFiles
    smallSteps hforeign (beside oddRows) rfl
  obtain ⟨hnamed, -⟩ := hkept _ List.mem_cons_self
  have hbefore : (beside oddRows).committed.named TableName.second.text =
      [table .second oddRows] := by
    decide
  exact ⟨hnamed.trans hbefore, hforget (beside []) (by decide),
    hdrop hskips (.start .empty) (by decide)⟩

/-- The table of tables is no table of its own: it tells of the control table that a run
creates, and of its index. -/
theorem listing_grows :
    let c : Connection := .start .empty
    let c' := ((apply database .standard smallFiles []).run c).2
    isTableName "sqlite_master" = true ∧
      sameName TableName.standard.text "sqlite_master" = false ∧
      (c.committed.readable? "sqlite_master").map (·.rows.length) = some 0 ∧
      (c'.committed.readable? "sqlite_master").map (·.rows.length) = some 2 := by
  intro c c'
  have hcreate := execute_create_of_none isCreatable_standard (c := c) rfl
  have hhas : Connection.view (.start ⟨[table .standard []]⟩) |>.Has TableName.standard.text
    (table .standard []) := rfl
  have hopen : (openRun database .standard).run c = (.ok 0, .start ⟨[table .standard []]⟩) :=
    openRun_of_answers (answer_execute_of_ok hcreate)
      (answer_query_of_ok (query_selectCurrent isCreatable_standard hhas))
      (answer_query_of_ok (query_selectLock isCreatable_standard hhas)) rfl
  have hc' : c' = .start ⟨[table .standard []]⟩ := congrArg Prod.snd (apply_of_openRun hopen)
  rw [hc']
  decide

end SipMigrate.Migration
