import SipMigrate.Proofs.Executor.Trail
import SipMigrate.Proofs.Migration.Course
import SipMigrate.Proofs.Migration.Versions

/-! Databases with a control table in which everything is complete, and what single
calls do to them. The table is there with the versions up to some version, or it is
not there yet. -/

namespace SipMigrate.Migration

open Sql Executor ControlTable

/-! ### Control tables -/

/-- The database with the control table created in it, if that is possible. -/
def prepared (t : TableName) (d : Database) : Database :=
  ((Connection.start d).execute (create t.text)).2.committed

/-- The control table of the database, which is the one that is created, has some rows. -/
def Holds (t : TableName) (d : Database) (rows : List Row) : Prop :=
  ∃ u, (prepared t .empty).tables = [u] ∧ d.Has t.text { u with rows := rows }

/-- The rows of the control table. One that is not there has none. -/
def Stores (t : TableName) (d : Database) (rows : List Row) : Prop :=
  d.table? t.text = none ∧ rows = [] ∨ Holds t d rows

/-- Nothing but the control table of one database differs from another one, and
neither do the columns of the control table. -/
abbrev Agrees (t : TableName) (d e : Database) : Prop := d.forget t.text = e.forget t.text

variable {t : TableName} {c c' : Connection} {d e : Database} {n : Version} {rows : List Row}

theorem execute_create_start (hc : t.IsCreatable) (h : d.table? t.text = none) :
    (Connection.start d).execute (create t.text) = (.ok (), .start (d.add (table t []))) :=
  execute_create_of_none (c := .start d) hc h

theorem prepared_of_isCreatable (hc : t.IsCreatable) (h : d.table? t.text = none) :
    prepared t d = d.add (table t []) := by
  rw [prepared, execute_create_start hc h]
  rfl

theorem prepared_of_not (hc : ¬t.IsCreatable) (h : d.table? t.text = none) : prepared t d = d := by
  obtain ⟨f, hf⟩ := execute_create_of_not (c := .start d) hc rfl h
  rw [prepared, hf]
  rfl

theorem holds_iff : Holds t d rows ↔ t.IsCreatable ∧ d.Has t.text (table t rows) := by
  have hnone : Database.empty.table? t.text = none := rfl
  unfold Holds
  by_cases hc : t.IsCreatable
  · rw [prepared_of_isCreatable hc hnone]
    simp [hc, Database.add, Database.empty, table]
  · rw [prepared_of_not hc hnone]
    simp [hc, Database.empty]

/-- Tables other than the control table are the same. -/
theorem drop_forget (d : Database) (name : String) : (d.forget name).drop name = d.drop name := by
  simp only [Database.drop, Database.forget, List.filter_map, Database.mk.injEq]
  rw [List.map_congr_left (g := id), List.map_id]
  · exact List.filter_congr fun u _ => by simp
  · intro u hu
    exact Table.forget_of_ne (by simpa using (List.mem_filter.mp hu).2)

theorem Agrees.drop (h : Agrees t d e) : d.drop t.text = e.drop t.text := by
  rw [← drop_forget d, ← drop_forget e, h]

/-! ### Standing -/

/-- The control table is there, its rows are complete, and their versions are those
up to `n`. Everything else in the database is as in `e`. -/
structure Present (t : TableName) (e : Database) (c : Connection) (n : Version)
    (rows : List Row) : Prop where
  isCreatable : t.IsCreatable
  has : c.committed.Has t.text (table t rows)
  complete : Complete n.toNat rows
  agrees : Agrees t c.committed e

/-- The control table is not there. With it, everything else in the database is as in `e`. -/
structure Absent (t : TableName) (e : Database) (c : Connection) (n : Version)
    (rows : List Row) : Prop where
  table? : c.committed.table? t.text = none
  version : n = 0
  rows : rows = []
  eq : e = prepared t c.committed

/-- No transaction is open, and every row of the control table is complete. -/
structure Standing (t : TableName) (e : Database) (c : Connection) (n : Version)
    (rows : List Row) : Prop where
  working : c.working = none
  state : Absent t e c n rows ∨ Present t e c n rows

theorem reopen_of_working (h : c.working = none) : c.reopen = c := by
  obtain ⟨d, w, a⟩ := c
  obtain rfl : w = none := h
  rfl

theorem view_of_working (h : c.working = none) : c.view = c.committed := by
  rw [Connection.view, h]
  rfl

theorem exists_within (h : c.working ≠ none) : ∃ w, c = c.reopen.within w := by
  obtain ⟨d, w | w, a⟩ := c
  · exact absurd rfl h
  · exact ⟨w, rfl⟩

/-! ### What is promised of a committed database -/

/-- The control table is not there, or its rows are complete and have the versions up to `n`. -/
def IsComplete (t : TableName) (d : Database) (n : Version) (rows : List Row) : Prop :=
  d.table? t.text = none ∧ n = 0 ∧ rows = [] ∨ Holds t d rows ∧ Complete n.toNat rows

theorem IsComplete.standing (h : IsComplete t c.committed n rows) (hw : c.working = none) :
    ∃ e, Standing t e c n rows := by
  rcases h with ⟨hd, rfl, rfl⟩ | ⟨hh, hc⟩
  · exact ⟨_, hw, .inl ⟨hd, rfl, rfl, rfl⟩⟩
  · obtain ⟨ht, hd⟩ := holds_iff.mp hh
    exact ⟨c.committed, hw, .inr ⟨ht, hd, hc, rfl⟩⟩

theorem Standing.isComplete (h : Standing t e c n rows) : IsComplete t c.committed n rows := by
  rcases h.state with ha | hp
  · exact .inl ⟨ha.table?, ha.version, ha.rows⟩
  · exact .inr ⟨holds_iff.mpr ⟨hp.isCreatable, hp.has⟩, hp.complete⟩

/-! ### Looking at the control table -/

/-- The calls that look at the control table, or create it. -/
def Looks (t : TableName) : Call → Prop
  | .execute sql => sql = create t.text
  | .query sql => sql ∈ [selectCurrent t.text, selectLock t.text, selectCount t.text]
  | .tableExists _ => True
  | _ => False

theorem readsQuery_of_mem {sql : String}
    (h : sql ∈ [selectCurrent t.text, selectLock t.text, selectCount t.text]) :
    ∃ complete rc, ReadsQuery t sql complete rc := by
  simp only [List.mem_cons, List.not_mem_nil, or_false] at h
  rcases h with rfl | rfl | rfl
  · exact ⟨_, _, selectCurrent_reads t⟩
  · exact ⟨_, _, selectLock_reads t⟩
  · exact ⟨_, _, selectCount_reads t⟩

namespace Standing

theorem execute_create (h : Standing t e c n rows) :
    Standing t e (c.execute (create t.text)).2 n rows ∧
      ((c.execute (create t.text)).1 = .ok () →
        Present t e (c.execute (create t.text)).2 n rows) := by
  have hv := view_of_working h.working
  rcases h.state with ha | hp
  · by_cases hc : t.IsCreatable
    · rw [execute_create_of_none hc (by rw [hv, ha.table?])]
      cases c.refusal? with
      | some cause => exact ⟨h, by rintro ⟨⟩⟩
      | none =>
        have hs : c.store (c.view.add (table t [])) =
            { c with committed := c.committed.add (table t []) } := by
          rw [Connection.store, h.working, hv]
        have : Present t e (c.store (c.view.add (table t []))) n rows := by
          rw [hs, ha.version, ha.rows, ha.eq, prepared_of_isCreatable hc ha.table?]
          exact ⟨hc, Database.has_add_self ha.table? sameName_table, .zero, rfl⟩
        refine ⟨⟨?_, .inr this⟩, fun _ => this⟩
        dsimp only
        rw [hs]
        exact h.working
    · obtain ⟨f, hf⟩ := execute_create_of_not hc h.working (by rw [hv, ha.table?])
      rw [hf]
      exact ⟨h, by rintro ⟨⟩⟩
  · rw [execute_create_of_isSome hp.isCreatable (by rw [hv, hp.has.table?]; rfl)]
    exact ⟨h, fun _ => hp⟩

/-- A query changes nothing. -/
theorem query (h : Standing t e c n rows) {sql : String}
    (hs : sql ∈ [selectCurrent t.text, selectLock t.text, selectCount t.text]) :
    (c.query sql).2 = c := by
  have hv := view_of_working h.working
  rcases h.state with ha | hp
  · obtain ⟨complete, rc, hr⟩ := readsQuery_of_mem hs
    obtain ⟨f, hf⟩ := hr.query_error (by rw [hv, ha.table?])
    rw [hf]
  · have hd : c.view.Has t.text (table t rows) := by
      rw [hv]
      exact hp.has
    simp only [List.mem_cons, List.not_mem_nil, or_false] at hs
    rcases hs with rfl | rfl | rfl
    · rw [query_selectCurrent hp.isCreatable hd]
    · rw [query_selectLock hp.isCreatable hd]
    · rw [query_selectCount hp.isCreatable hd]

/-- Looking at the control table leaves its rows as they are, also within a transaction. -/
theorem looks {mayFail : Call → Prop} {ev : Event} (h : Standing t e c.reopen n rows)
    (hl : Looks t ev.call) (hp : Passes database mayFail c ev c') :
    Standing t e c'.reopen n rows ∧ (c'.working = none ↔ c.working = none) := by
  obtain ⟨call, a⟩ := ev
  have hstay : c' = c → Standing t e c'.reopen n rows ∧ (c'.working = none ↔ c.working = none) := by
    rintro rfl
    exact ⟨h, .rfl⟩
  have hwithin (w' : Transaction) (hc : c.working ≠ none) (hw : c' = c.reopen.within w') :
      Standing t e c'.reopen n rows ∧ (c'.working = none ↔ c.working = none) := by
    subst hw
    exact ⟨h, by simp [Connection.within, hc]⟩
  cases call with
  | execute sql =>
    obtain rfl : sql = create t.text := hl
    rcases hp.execute with hc | hc
    · exact hstay hc
    · by_cases hw : c.working = none
      · rw [reopen_of_working hw] at h
        have h' := h.execute_create.1
        rw [← hc] at h'
        rw [reopen_of_working h'.working]
        exact ⟨h', by simp [h'.working, hw]⟩
      · obtain ⟨w, hcw⟩ := exists_within hw
        obtain ⟨r, w', hw'⟩ :=
          Connection.execute_within (c := c.reopen) (w := w) (create_readsPlain t)
        rw [← hcw] at hw'
        exact hwithin w' hw (by rw [hc, hw'])
  | query sql =>
    rcases hp.query with hc | hc
    · exact hstay hc
    · by_cases hw : c.working = none
      · rw [reopen_of_working hw] at h
        exact hstay (hc.trans (h.query hl))
      · obtain ⟨complete, rc, hr⟩ := readsQuery_of_mem hl
        obtain ⟨w, hcw⟩ := exists_within hw
        obtain ⟨r, w', hw'⟩ := Connection.query_within (c := c.reopen) (w := w) hr.readsPlain
        rw [← hcw] at hw'
        exact hwithin w' hw (by rw [hc, hw'])
  | tableExists name => exact hstay hp.tableExists
  | begin | commit | rollback => exact hl.elim

theorem looks_all {mayFail : Call → Prop} {l : List Event} (h : Standing t e c.reopen n rows)
    (hl : ∀ ev ∈ l, Looks t ev.call) (hp : Trail database mayFail c l c') :
    Standing t e c'.reopen n rows ∧ (c'.working = none ↔ c.working = none) := by
  induction l generalizing c with
  | nil =>
    rw [Trail.nil_iff] at hp
    subst hp
    exact ⟨h, .rfl⟩
  | cons ev rest ih =>
    obtain ⟨m, he, hr⟩ := hp
    obtain ⟨hm, hwm⟩ := h.looks (hl ev (by simp)) he
    obtain ⟨h', hw'⟩ := ih hm (fun ev hev => hl ev (by simp [hev])) hr
    exact ⟨h', hw'.trans hwm⟩

end Standing

/-! ### What a look at the control table shows -/

namespace AtVersion

variable {m : Version}

/-- The answer to the query for the current version stands for the current version. -/
theorem query_current (h : AtVersion m.toNat rows) (ht : t.IsCreatable)
    (hd : c.view.Has t.text (table t rows)) :
    ∃ a, c.query (selectCurrent t.text) = (.ok a, c) ∧ versionOfAnswer a = .ok m := by
  have hv : versionOfAnswer (some m.toNat) = .ok m := by
    have := m.toNat_lt
    rw [versionOfAnswer, Option.elim_some, versionOfInt_of (by omega)]
    simp
  rw [query_selectCurrent ht hd]
  rcases h.current with he | ⟨he, hm⟩
  · exact ⟨some m.toNat, by simp only [he, Connection.integerAnswer], hv⟩
  · obtain rfl : m = 0 := UInt16.toNat_inj.mp hm
    exact ⟨none, by simp only [he, Connection.integerAnswer], rfl⟩

theorem query_lock (h : AtVersion m.toNat rows) (ht : t.IsCreatable)
    (hd : c.view.Has t.text (table t rows)) : c.query (selectLock t.text) = (.ok none, c) := by
  rw [query_selectLock ht hd, h.lock]
  rfl

end AtVersion

theorem Opening.looks {l : List Event} {o : Except MigrationError Version} (h : Opening t l o) :
    ∀ ev ∈ l, Looks t ev.call := by
  cases h <;> simp [looked, executed, Looks]

theorem Present.view (h : Present t e c n rows) (hw : c.working = none) :
    c.view.Has t.text (table t rows) := by
  rw [view_of_working hw]
  exact h.has

/-- After an opening that succeeds the control table is there, and the version that it
tells is the current one. -/
theorem Standing.opened {mayFail : Call → Prop} {l : List Event} {v : Version}
    (h : Standing t e c n rows) (ho : Opening t l (.ok v))
    (hp : Trail database mayFail c l c') : v = n ∧ c'.working = none ∧ Present t e c' n rows := by
  cases ho with
  | @free a v hv =>
    simp only [looked, List.cons_append, List.nil_append, Trail.cons_iff, Trail.nil_iff] at hp
    obtain ⟨c₁, hcreate, c₂, hcurrent, c₃, hlock, rfl⟩ := hp
    have hcreate := passes_executed.mp hcreate
    have hcurrent := passes_answered.mp hcurrent
    have hlock := passes_answered.mp hlock
    obtain ⟨hs, hpresent⟩ := h.execute_create
    rw [hcreate] at hs hpresent
    have hpresent := hpresent rfl
    have hview := hpresent.view hs.working
    have hat := hpresent.complete.atVersion
    obtain ⟨b, hb, hbv⟩ := hat.query_current hpresent.isCreatable hview
    rw [hb, Prod.mk.injEq, Except.ok.injEq] at hcurrent
    obtain ⟨rfl, rfl⟩ := hcurrent
    rw [hat.query_lock hpresent.isCreatable hview, Prod.mk.injEq] at hlock
    obtain ⟨-, rfl⟩ := hlock
    rw [hbv, Except.ok.injEq] at hv
    exact ⟨hv.symm, hs.working, hpresent⟩

end SipMigrate.Migration
