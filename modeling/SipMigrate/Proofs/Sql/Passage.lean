import SipMigrate.Proofs.Sql.Within

/-! Scripts that may also begin, commit and roll back. A table that was changed within a
transaction, and that the statements of the script leave alone, is found as it was before
or as it is after the change, according to how the script has ended the transaction. -/

namespace SipMigrate.Sql

variable {name : String}

namespace Connection

/-- A table has passed from `u` to `v` in the committed database, or in the transaction
that is open alone, or it has not. -/
inductive Passage (name : String) (u v : Table) (c : Connection) : Prop
  | undone (hc : c.committed.Has name u) (hv : c.view.Has name u)
  | amid (hw : c.working ≠ none) (hc : c.committed.Has name u) (hv : c.view.Has name v)
  | stored (hc : c.committed.Has name v) (hv : c.view.Has name v)

/-- Nothing malformed has been found in the transaction that is open. -/
def isSound (c : Connection) : Bool := !c.working.any Transaction.isMalformed

variable {u v : Table} {c c' : Connection} {p : Plan}

theorem Passage.isSome_table? (h : Passage name u v c) : (c.view.table? name).isSome = true := by
  cases h with
  | undone _ hv | amid _ _ hv | stored _ hv =>
    rw [hv.table?]
    rfl

/-! ### Plans -/

/-- A plan that spares a table leaves the connection as it is, but for finding something
malformed, or stores a database. -/
theorem step_snd_of_spares (hp : p.Spares name) (c : Connection) :
    (c.step p).2 = c ∨ (∃ cause, c.step p = (.error cause, c.afterFailure cause)) ∨
      ∃ d a, p.run c.view = .ok (d, a) ∧ (c.step p).2 = c.store d := by
  rw [step_of_spares hp]
  cases c.bar? p with
  | some cause => exact .inl rfl
  | none =>
    dsimp only
    unfold perform
    cases p.run c.view with
    | error cause => exact .inr (.inl ⟨cause, rfl⟩)
    | ok r =>
      dsimp only
      split
      · exact .inl rfl
      · exact .inr (.inr ⟨r.1, r.2, rfl, rfl⟩)

theorem view_store (c : Connection) (d : Database) : (c.store d).view = d := by
  obtain ⟨e, w, a⟩ := c
  cases w <;> rfl

theorem isSound_store (c : Connection) (d : Database) : (c.store d).isSound = c.isSound := by
  obtain ⟨e, w, a⟩ := c
  cases w <;> rfl

theorem afterFailure_eq (c : Connection) (cause : Cause) :
    (c.afterFailure cause).committed = c.committed ∧ (c.afterFailure cause).view = c.view ∧
      ((c.afterFailure cause).working = none ↔ c.working = none) ∧
      (c.afterFailure cause).access = c.access := by
  obtain ⟨d, w, a⟩ := c
  unfold afterFailure
  split
  · cases w <;> exact ⟨rfl, rfl, by simp, rfl⟩
  · exact ⟨rfl, rfl, .rfl, rfl⟩

theorem Passage.afterFailure (h : Passage name u v c) (cause : Cause) :
    Passage name u v (c.afterFailure cause) := by
  obtain ⟨hcommitted, hview, hworking, -⟩ := c.afterFailure_eq cause
  cases h with
  | undone hc hv => exact .undone (by rwa [hcommitted]) (by rwa [hview])
  | amid hw hc hv => exact .amid (hworking.not.mpr hw) (by rwa [hcommitted]) (by rwa [hview])
  | stored hc hv => exact .stored (by rwa [hcommitted]) (by rwa [hview])

/-- What is stored goes into the transaction that is open, or is committed at once. -/
theorem Passage.store (h : Passage name u v c) {d : Database}
    (hd : ∀ w : Table, c.view.Has name w → d.Has name w) : Passage name u v (c.store d) := by
  have hview := c.view_store d
  cases hw : c.working with
  | none =>
    have hcommitted : (c.store d).committed = d := by rw [Connection.store, hw]
    cases h with
    | undone _ hv =>
      exact .undone (by rw [hcommitted]; exact hd u hv) (by rw [hview]; exact hd u hv)
    | amid h _ _ => exact absurd hw h
    | stored _ hv =>
      exact .stored (by rw [hcommitted]; exact hd v hv) (by rw [hview]; exact hd v hv)
  | some w =>
    have hcommitted : (c.store d).committed = c.committed := by rw [Connection.store, hw]
    have hworking : (c.store d).working ≠ none := by simp [Connection.store, hw]
    cases h with
    | undone hc hv => exact .undone (by rwa [hcommitted]) (by rw [hview]; exact hd u hv)
    | amid _ hc hv => exact .amid hworking (by rwa [hcommitted]) (by rw [hview]; exact hd v hv)
    | stored hc hv => exact .stored (by rwa [hcommitted]) (by rw [hview]; exact hd v hv)

theorem Passage.step_of_spares (h : Passage name u v c) (hp : p.Spares name) :
    Passage name u v (c.step p).2 := by
  rcases step_snd_of_spares hp c with hs | ⟨cause, hs⟩ | ⟨d, a, hr, hs⟩ <;> rw [hs]
  · exact h
  · exact h.afterFailure cause
  · exact h.store fun w hw => run_has hp hw hr

/-- Rolling back finds the table as it is committed. -/
theorem Passage.reopen (h : Passage name u v c) : Passage name u v c.reopen := by
  cases h with
  | undone hc _ | amid _ hc _ => exact .undone hc hc
  | stored hc _ => exact .stored hc hc

theorem Passage.step_of_isControl (h : Passage name u v c) (hp : p.isControl = true) :
    Passage name u v (c.step p).2 := by
  cases hw : c.working with
  | none =>
    cases p with
    | begin =>
      have hs : (c.step .begin).2 = c.within ⟨c.committed, false⟩ := by
        simp [Connection.step, hw, within]
      rw [hs]
      cases h with
      | undone hc _ => exact .undone hc hc
      | amid h _ _ => exact absurd hw h
      | stored hc _ => exact .stored hc hc
    | commit | rollback =>
      simp only [Connection.step, hw]
      exact h
    | nothing | create | drop | insert | delete | update | select => cases hp
  | some w =>
    cases p with
    | begin =>
      simp only [Connection.step, hw]
      exact h
    | commit =>
      simp only [Connection.step, hw]
      cases w.isMalformed with
      | true => exact h.reopen
      | false =>
        have hview : c.view = w.database := by
          rw [view, hw]
          rfl
        rw [if_neg Bool.false_ne_true]
        cases h with
        | undone _ hv => exact .undone (hview ▸ hv) (hview ▸ hv)
        | amid _ _ hv | stored _ hv => exact .stored (hview ▸ hv) (hview ▸ hv)
    | rollback =>
      simp only [Connection.step, hw]
      exact h.reopen
    | nothing | create | drop | insert | delete | update | select => cases hp

theorem access_store (c : Connection) (d : Database) : (c.store d).access = c.access := by
  obtain ⟨e, w, a⟩ := c
  cases w <;> rfl

/-- A connection after something was done in it that may have failed: the table has
passed on or has not, and what has succeeded has found nothing malformed. -/
structure Passed {ε α : Type} (name : String) (u v : Table) (c : Connection)
    (r : Except ε α × Connection) : Prop where
  passage : Passage name u v r.2
  access : r.2.access = c.access
  isSound : ∀ a, r.1 = .ok a → c.isSound = true → r.2.isSound = true

theorem Passage.passed_error {ε α : Type} (h : Passage name u v c) (e : ε) :
    Passed name u v c ((.error e : Except ε α), c) := ⟨h, rfl, by rintro _ ⟨⟩⟩

theorem Passage.passed_step_of_spares (h : Passage name u v c) (hp : p.Spares name) :
    Passed name u v c (c.step p) := by
  refine ⟨h.step_of_spares hp, ?_, fun a ha hc => ?_⟩
  · rcases step_snd_of_spares hp c with hs | ⟨cause, hs⟩ | ⟨d, a, -, hs⟩ <;> rw [hs]
    · exact (c.afterFailure_eq cause).2.2.2
    · exact c.access_store d
  · rcases step_snd_of_spares hp c with hs | ⟨cause, hs⟩ | ⟨d, a, -, hs⟩
    · rwa [hs]
    · rw [hs] at ha
      cases ha
    · rwa [hs, isSound_store]

theorem Passage.passed_step_of_isControl (h : Passage name u v c) (hp : p.isControl = true) :
    Passed name u v c (c.step p) := by
  refine ⟨h.step_of_isControl hp, ?_, fun a ha hc => ?_⟩ <;>
    cases p with
    | begin | commit | rollback =>
      cases hw : c.working <;> grind [Connection.step, Connection.reopen, isSound]
    | nothing | create | drop | insert | delete | update | select => cases hp

/-! ### Texts -/

end Connection

/-- A statement of a transaction, or one that avoids a table. -/
def Statement.LeavesAlone (name : String) (s : Statement) : Prop :=
  s.isControl = true ∨ s.Avoids name

instance (s : Statement) : Decidable (s.LeavesAlone name) :=
  inferInstanceAs (Decidable (_ ∨ _))

namespace Connection

/-- Lexemes that are read as no statement, or as one that leaves a table alone. What is not
understood is read as no statement, though it may be one. -/
def LeavesAlone (name : String) (l : List Lexeme) : Prop :=
  ∀ s, Parser.read l = .ok (some s) → s.LeavesAlone name

instance (l : List Lexeme) : Decidable (LeavesAlone name l) :=
  match h : Parser.read l with
  | .ok (some s) => decidable_of_iff (s.LeavesAlone name) (by simp [LeavesAlone, h])
  | .ok none => isTrue (by simp [LeavesAlone, h])
  | .error f => isTrue (by simp [LeavesAlone, h])

/-- A text all of whose statements leave a table alone, as far as they are understood. -/
def TextLeavesAlone (name sql : String) : Prop :=
  ∀ l ∈ Lexeme.statements (Lexeme.cut (visible sql.toList)), LeavesAlone name l

instance (sql : String) : Decidable (TextLeavesAlone name sql) :=
  inferInstanceAs (Decidable (∀ l ∈ Lexeme.statements _, LeavesAlone name l))

variable {u v : Table} {c : Connection}

theorem Passage.passed_step (h : Passage name u v c) {s : Statement} (hs : s.LeavesAlone name)
    {p : Plan} (hp : s.plan c.view = .ok p) : Passed name u v c (c.step p) := by
  rcases hs with hs | hs
  · refine h.passed_step_of_isControl ?_
    cases s with
    | begin | commit | rollback =>
      cases hp
      rfl
    | createTable | dropTable | insert | delete | update | select => cases hs
  · exact h.passed_step_of_spares (plan_spares hs h.isSome_table? hp)

theorem Passage.passed_executeAll {hidden : List Char} {l : List (List Lexeme)}
    (hl : ∀ s ∈ l, LeavesAlone name s) (h : Passage name u v c) :
    Passed name u v c (c.executeAll hidden l) := by
  induction l generalizing c with
  | nil => exact ⟨h, rfl, fun _ _ hc => hc⟩
  | cons s rest ih =>
    have ih {c : Connection} := ih (c := c) fun s hs => hl s (by simp [hs])
    cases hr : Parser.read s with
    | error f =>
      rw [executeAll_of_error hr]
      exact h.passed_error _
    | ok o =>
      cases o with
      | none =>
        rw [executeAll_of_none hr]
        exact ih h
      | some s =>
        rw [executeAll_of_some hr]
        cases hp : s.plan c.view with
        | error f => exact h.passed_error _
        | ok p =>
          have hstep := h.passed_step (hl _ (by simp) s hr) hp
          dsimp only
          rcases hp : c.step p with ⟨cause | a, c₁⟩ <;> rw [hp] at hstep
          · exact ⟨hstep.passage, hstep.access, by rintro _ ⟨⟩⟩
          · have hrest := ih hstep.passage
            exact ⟨hrest.passage, hrest.access.trans hstep.access,
              fun a ha hc => hrest.isSound a ha (hstep.isSound _ rfl hc)⟩

theorem Passage.passed_execute {sql : String} (hl : TextLeavesAlone name sql)
    (h : Passage name u v c) : Passed name u v c (c.execute sql) := h.passed_executeAll hl

end Connection

end SipMigrate.Sql
