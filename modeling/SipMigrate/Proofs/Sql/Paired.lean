import SipMigrate.Proofs.Sql.Passage

/-! Two connections side by side, whose databases are related. A statement respects the
relation if it means the same in related databases, and does the same there but for what the
relation leaves open. A text of such statements gives one answer on both connections, and
their databases are related afterwards. -/

namespace SipMigrate.Sql

variable {name : String} {R : Database → Database → Prop}

/-- On related databases a plan fails with one cause, or it succeeds with one answer and
the databases are related afterwards. -/
def Plan.Respects (R : Database → Database → Prop) (p : Plan) : Prop :=
  ∀ d e, R d e →
    (∃ cause, p.run d = .error cause ∧ p.run e = .error cause) ∨
      ∃ d' e' a, p.run d = .ok (d', a) ∧ p.run e = .ok (e', a) ∧ R d' e'

/-- A statement means one plan in related databases, and the plan respects the relation. -/
def Statement.Respects (R : Database → Database → Prop) (s : Statement) : Prop :=
  ∀ d e, R d e → s.plan d = s.plan e ∧ ∀ p, s.plan d = .ok p → p.Respects R

/-- The plans of transactions leave the databases alone. -/
theorem Plan.respects_of_isControl {p : Plan} (hp : p.isControl = true) : p.Respects R := by
  intro d e h
  cases p with
  | begin | commit | rollback => exact .inr ⟨d, e, none, rfl, rfl, h⟩
  | nothing | create | drop | insert | delete | update | select => cases hp

/-! ### Connections -/

structure Transaction.Paired (R : Database → Database → Prop) (w x : Transaction) : Prop where
  database : R w.database x.database
  isMalformed : w.isMalformed = x.isMalformed

namespace Connection

/-- The committed databases are related, and so are those of the open transactions. -/
structure Paired (R : Database → Database → Prop) (c e : Connection) : Prop where
  committed : R c.committed e.committed
  working : Option.Rel (Transaction.Paired R) c.working e.working
  access : c.access = e.access

/-- The connection with both its databases behind a mask. -/
def mask (F : Database → Database) (c : Connection) : Connection :=
  ⟨F c.committed, c.working.map fun w => { w with database := F w.database }, c.access⟩

/-- One answer, with connections whose databases are related. -/
structure PairedEnds {α : Type} (R : Database → Database → Prop) (r q : α × Connection) :
    Prop where
  answer : r.1 = q.1
  paired : Paired R r.2 q.2

variable {c e : Connection} {p : Plan}

namespace Paired

theorem of_working (hc : c.working = none) (he : e.working = none)
    (h : R c.committed e.committed) (ha : c.access = e.access) : Paired R c e :=
  ⟨h, by rw [hc, he]; exact .none, ha⟩

theorem view (h : Paired R c e) : R c.view e.view := by
  obtain ⟨d, w, a⟩ := c
  obtain ⟨d', w', a'⟩ := e
  cases h.working with
  | none => exact h.committed
  | some hw => exact hw.database

theorem obstacle? (h : Paired R c e) : c.obstacle? = e.obstacle? := by
  obtain ⟨d, w, a⟩ := c
  obtain ⟨d', w', a'⟩ := e
  have hw : w.any Transaction.isMalformed = w'.any Transaction.isMalformed := by
    cases h.working with
    | none => rfl
    | some hw => exact hw.isMalformed
  unfold Connection.obstacle?
  rw [hw, show a = a' from h.access]

theorem store (h : Paired R c e) {d d' : Database} (hd : R d d') :
    Paired R (c.store d) (e.store d') := by
  obtain ⟨d₁, w, a⟩ := c
  obtain ⟨d₂, x, b⟩ := e
  cases h.working with
  | none => exact ⟨hd, .none, h.access⟩
  | some hw => exact ⟨h.committed, .some ⟨hd, hw.isMalformed⟩, h.access⟩

theorem reopen (h : Paired R c e) : Paired R c.reopen e.reopen :=
  ⟨h.committed, .none, h.access⟩

theorem afterFailure (h : Paired R c e) (cause : Cause) :
    Paired R (c.afterFailure cause) (e.afterFailure cause) := by
  obtain ⟨d, w, a⟩ := c
  obtain ⟨d', w', a'⟩ := e
  unfold Connection.afterFailure
  split
  · refine ⟨h.committed, ?_, h.access⟩
    cases h.working with
    | none => exact .none
    | some hw => exact .some ⟨hw.database, rfl⟩
  · exact h

theorem perform (h : Paired R c e) (hp : p.Respects R) :
    PairedEnds R (c.perform p) (e.perform p) := by
  unfold Connection.perform
  rcases hp c.view e.view h.view with ⟨cause, hc, he⟩ | ⟨d, d', a, hc, he, hd⟩
  · rw [hc, he]
    exact ⟨rfl, h.afterFailure cause⟩
  · rw [hc, he]
    dsimp only
    rw [h.access]
    split
    · exact ⟨rfl, h⟩
    · exact ⟨rfl, h.store hd⟩

/-- A transaction begins and ends on both connections alike. -/
theorem step_of_isControl (h : Paired R c e) (hp : p.isControl = true) :
    PairedEnds R (c.step p) (e.step p) := by
  obtain ⟨d, w, a⟩ := c
  obtain ⟨d', w', a'⟩ := e
  cases p with
  | begin =>
    cases h.working with
    | none => exact ⟨rfl, h.committed, .some ⟨h.committed, rfl⟩, h.access⟩
    | some hw => exact ⟨rfl, h⟩
  | commit =>
    cases h.working with
    | none => exact ⟨rfl, h⟩
    | some hw =>
      simp only [Connection.step, hw.isMalformed]
      split
      · exact ⟨rfl, h.reopen⟩
      · exact ⟨rfl, hw.database, .none, h.access⟩
  | rollback =>
    cases h.working with
    | none => exact ⟨rfl, h⟩
    | some hw => exact ⟨rfl, h.reopen⟩
  | nothing | create | drop | insert | delete | update | select => cases hp

theorem step (h : Paired R c e) (hp : p.Respects R) : PairedEnds R (c.step p) (e.step p) := by
  cases hw : p.writes with
  | true =>
    rw [step_eq_of_writes hw, step_eq_of_writes hw, h.obstacle?]
    cases e.obstacle? with
    | some cause => exact ⟨rfl, h⟩
    | none => exact h.perform hp
  | false =>
    cases p with
    | nothing | select => exact h.perform hp
    | begin | commit | rollback => exact h.step_of_isControl rfl
    | create | drop | insert | delete | update => cases hw

end Paired

/-! ### Texts -/

/-- Every statement of a text has a property, as far as the text is read as statements. -/
def EachStatement (P : Statement → Prop) (sql : String) : Prop :=
  ∀ l ∈ Lexeme.statements (Lexeme.cut (visible sql.toList)), ∀ s,
    Parser.read l = .ok (some s) → P s

/-- What holds of the statement that lexemes are read as, if they are. -/
def holdsOfRead (P : Statement → Prop) [DecidablePred P] (l : List Lexeme) : Bool :=
  match Parser.read l with
  | .ok (some s) => P s
  | _ => true

theorem holdsOfRead_iff {P : Statement → Prop} [DecidablePred P] {l : List Lexeme} :
    holdsOfRead P l = true ↔ ∀ s, Parser.read l = .ok (some s) → P s := by
  unfold holdsOfRead
  rcases Parser.read l with f | (_ | s) <;> simp

instance {P : Statement → Prop} [DecidablePred P] (sql : String) :
    Decidable (EachStatement P sql) :=
  decidable_of_iff
    ((Lexeme.statements (Lexeme.cut (visible sql.toList))).all (holdsOfRead P) = true)
    (List.all_eq_true.trans (forall₂_congr fun _ _ => holdsOfRead_iff))

theorem EachStatement.mono {P Q : Statement → Prop} {sql : String} (h : EachStatement P sql)
    (hPQ : ∀ s, P s → Q s) : EachStatement Q sql := fun l hl s hs => hPQ s (h l hl s hs)

theorem EachStatement.of_reads {P : Statement → Prop} {sql : String} {s : Statement}
    (h : Reads sql (.ok s)) (hs : P s) : EachStatement P sql := by
  obtain ⟨l, hl, -, hr⟩ := h
  intro l' hl' s' hs'
  rw [hl, List.mem_singleton] at hl'
  subst hl'
  rw [hr] at hs'
  cases hs'
  exact hs

theorem EachStatement.of_reads_error {P : Statement → Prop} {sql : String} {f : Fault}
    (h : Reads sql (.error f)) : EachStatement P sql := by
  obtain ⟨l, hl, -, hr⟩ := h
  intro l' hl' s' hs'
  rw [hl, List.mem_singleton] at hl'
  subst hl'
  rw [hr] at hs'
  cases hs'

namespace Paired

theorem prepare (h : Paired R c e) {l : List Lexeme}
    (hl : ∀ s, Parser.read l = .ok (some s) → s.Respects R) :
    c.prepare l = e.prepare l ∧ ∀ p, c.prepare l = .ok (some p) → p.Respects R := by
  rw [prepare_eq, prepare_eq]
  generalize Parser.read l = r at hl ⊢
  rcases r with f | (_ | s) <;> dsimp only [Except.bind, Option.elim]
  · exact ⟨rfl, fun p hp => by cases hp⟩
  · exact ⟨rfl, fun p hp => by cases hp⟩
  · obtain ⟨hplan, hrespects⟩ := hl s rfl c.view e.view h.view
    rw [← hplan]
    refine ⟨rfl, fun p hp => hrespects p ?_⟩
    cases hs : s.plan c.view with
    | error f =>
      rw [hs] at hp
      cases hp
    | ok q =>
      rw [hs] at hp
      cases hp
      rfl

theorem executeAll (h : Paired R c e) {hidden : List Char} {l : List (List Lexeme)}
    (hl : ∀ s ∈ l, ∀ r, Parser.read s = .ok (some r) → r.Respects R) :
    PairedEnds R (c.executeAll hidden l) (e.executeAll hidden l) := by
  induction l generalizing c e with
  | nil => exact ⟨rfl, h⟩
  | cons s rest ih =>
    have ih {c e : Connection} (h : Paired R c e) := ih h fun s hs => hl s (by simp [hs])
    obtain ⟨hprepare, hrespects⟩ := h.prepare (hl s (by simp))
    unfold Connection.executeAll
    rw [← hprepare]
    rcases hp : c.prepare s with f | (_ | p)
    · exact ⟨rfl, h⟩
    · exact ih h
    · dsimp only
      have hstep := h.step (hrespects p hp)
      rcases hc : c.step p with ⟨r, c'⟩
      rcases he : e.step p with ⟨q, e'⟩
      rw [hc, he] at hstep
      obtain ⟨rfl, h'⟩ := hstep
      cases r with
      | error cause => exact ⟨rfl, h'⟩
      | ok a => exact ih h'

variable {sql : String}

theorem execute (h : Paired R c e) (hs : EachStatement (Statement.Respects R) sql) :
    PairedEnds R (c.execute sql) (e.execute sql) := h.executeAll hs

theorem query (h : Paired R c e) (hs : EachStatement (Statement.Respects R) sql) :
    PairedEnds R (c.query sql) (e.query sql) := by
  unfold Connection.query
  have hfirst : ∀ s, Parser.read
      ((Lexeme.statements (Lexeme.cut (visible sql.toList))).headD []) = .ok (some s) →
      s.Respects R := by
    intro s hr
    cases hl : Lexeme.statements (Lexeme.cut (visible sql.toList)) with
    | nil =>
      rw [hl] at hr
      cases hr
    | cons l rest =>
      rw [hl] at hr
      exact hs l (by rw [hl]; simp) s hr
  generalize (Lexeme.statements (Lexeme.cut (visible sql.toList))).headD [] = first at hfirst ⊢
  obtain ⟨hprepare, hrespects⟩ := h.prepare hfirst
  dsimp only
  rw [← hprepare]
  rcases hp : c.prepare first with f | (_ | p)
  · exact ⟨rfl, h⟩
  · exact ⟨rfl, h⟩
  · dsimp only
    have hstep := h.step (hrespects p hp)
    rcases hc : c.step p with ⟨r, c'⟩
    rcases he : e.step p with ⟨q, e'⟩
    rw [hc, he] at hstep
    obtain ⟨rfl, h'⟩ := hstep
    cases r with
    | error cause => exact ⟨rfl, h'⟩
    | ok a => exact ⟨rfl, h'⟩

end Paired

end Connection

/-! ### Statements that leave the tables of a name out -/

/-- A statement of a transaction, or one that neither changes, reads nor creates a table
of a name. -/
def Statement.IsForeign (name : String) (s : Statement) : Prop :=
  s.LeavesAlone name ∧ ∀ n ∈ s.created?, sameName n.text name = false

instance (s : Statement) : Decidable (s.IsForeign name) :=
  inferInstanceAs (Decidable (_ ∧ _))

/-- A statement that does not read the table of tables. -/
def Statement.SkipsSchema (s : Statement) : Prop :=
  ∀ n ∈ s.read?, lowerAscii n.text ∉ Schema.names

instance (s : Statement) : Decidable s.SkipsSchema :=
  inferInstanceAs (Decidable (∀ n ∈ s.read?, _))

/-- A statement that leaves the tables of a name out, and the table of tables as well. -/
def Statement.IsApart (name : String) (s : Statement) : Prop := s.IsForeign name ∧ s.SkipsSchema

/-- A name that means no table of lasting tables means the same in all databases. -/
theorem Database.schema?_of_notMem (d e : Database) {n : String}
    (h : lowerAscii n ∉ Schema.names) : d.schema? n = e.schema? n := by
  have hn : ¬Schema.names.contains (lowerAscii n) = true := by simpa using h
  unfold schema?
  rw [if_neg hn, if_neg hn]

namespace Database

variable {d e : Database} {n : String}

/-! Whether a table is there, and what can be read of it, is told by the tables of its name. -/

theorem hasTable_of_named (h : d.named n = e.named n) : d.hasTable n = e.hasTable n := by
  have hany (d : Database) : d.hasTable n = (d.named n).any fun v => v.name = n := by
    rw [hasTable, named, List.any_filter]
    congr 1
    funext v
    by_cases hv : v.name = n <;> simp [hv, sameName]
  rw [hany, hany, h]

theorem readable?_of_named (hn : lowerAscii n ∉ Schema.names) (h : d.named n = e.named n) :
    d.readable? n = e.readable? n := by
  rw [readable?, readable?, schema?_of_notMem d e hn, table?_eq_head?, table?_eq_head?, h]

end Database

/-- Two databases are the same behind a mask, and each has its own tables of a name. -/
structure Database.Behind (F : Database → Database) (name : String) (T U : List Table)
    (d e : Database) : Prop where
  rest : F d = F e
  left : d.named name = T
  right : e.named name = U

namespace Database.Behind

variable {F : Database → Database} {T U : List Table} {d e : Database}

theorem table? (h : Behind F name T U d e) (hF : Masks name F) {n : String}
    (hn : sameName n name = false) : d.table? n = e.table? n := by
  rw [← hF.table? d hn, ← hF.table? e hn, h.rest]

end Database.Behind

variable {F : Database → Database} {T U : List Table} {c e : Connection}

namespace Connection

/-- Connections that are the same behind a mask, without open transactions. -/
theorem Paired.of_mask (name : String) (hc : c.working = none) (h : e.mask F = c.mask F) :
    Paired (Database.Behind F name (c.committed.named name) (e.committed.named name)) c e := by
  obtain ⟨hcommitted, hworking, haccess⟩ := Connection.mk.inj h
  rw [hc, Option.map_none, Option.map_eq_none_iff] at hworking
  exact .of_working hc hworking ⟨hcommitted.symm, rfl, rfl⟩ haccess.symm

theorem Paired.mask (h : Paired (Database.Behind F name T U) c e) : c.mask F = e.mask F := by
  obtain ⟨d, w, a⟩ := c
  obtain ⟨d', w', a'⟩ := e
  have hw : w.map (fun w => { w with database := F w.database }) =
      w'.map fun w => { w with database := F w.database } := by
    cases h.working with
    | none => rfl
    | some hw =>
      rw [Option.map_some, Option.map_some, hw.database.rest, hw.isMalformed]
  show Connection.mk (F d) _ a = Connection.mk (F d') _ a'
  rw [h.committed.rest, hw, show a = a' from h.access]

end Connection

theorem Plan.Spares.respects {p : Plan} (hp : p.Spares name) (hF : Database.Masks name F) :
    p.Respects (Database.Behind F name T U) := by
  intro d e h
  rcases run_congr hF hp h.rest with hfails | ⟨d', e', a, hd, he, hrest⟩
  · exact .inl hfails
  · exact .inr ⟨d', e', a, hd, he, hrest, (run_named hp hd).trans h.left,
      (run_named hp he).trans h.right⟩

theorem Statement.IsForeign.respects {s : Statement} (hs : s.IsForeign name)
    (hF : Database.Masks name F)
    (hr : ∀ n ∈ s.read?, ∀ d e, F d = F e → d.schema? n.text = e.schema? n.text) :
    s.Respects (Database.Behind F name T U) := by
  intro d e h
  obtain ⟨hcontrol | havoids, hcreated⟩ := hs
  · cases s with
    | begin | commit | rollback =>
      refine ⟨rfl, fun p hp => ?_⟩
      cases hp
      exact Plan.respects_of_isControl rfl
    | createTable | dropTable | insert | delete | update | select => cases hcontrol
  · refine ⟨plan_congr havoids (fun n hn => h.table? hF hn) (fun n hn => ?_)
      fun n hn => hr n hn d e h.rest, fun p hp => ?_⟩
    · rw [h.table? hF (hcreated n hn)]
    · exact (plan_spares_of_created havoids (fun n hn _ => hcreated n hn) hp).respects hF

/-- The rows of a table are nothing to a statement that leaves it out. -/
theorem Statement.IsForeign.respects_forget {s : Statement} (hs : s.IsForeign name) :
    s.Respects (Database.Behind (Database.forget name) name T U) :=
  hs.respects Database.masks_forget fun n _ d e h => by
    have hd : (d.forget name).schema? n.text = d.schema? n.text := d.schema?_forget n.text
    have he : (e.forget name).schema? n.text = e.schema? n.text := e.schema?_forget n.text
    rw [← hd, h, he]

/-- Nor is the table itself, unless the statement looks at the table of tables. -/
theorem Statement.IsForeign.respects_drop {s : Statement} (hs : s.IsForeign name)
    (hl : s.SkipsSchema) :
    s.Respects (Database.Behind (fun d => d.drop name) name T U) :=
  hs.respects Database.masks_drop fun n hn d e _ => d.schema?_of_notMem e (hl n hn)

end SipMigrate.Sql
