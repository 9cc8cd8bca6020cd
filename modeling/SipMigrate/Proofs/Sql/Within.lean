import SipMigrate.Proofs.Sql.Frame

/-! Statements within a transaction. One that avoids a table does the same in two open
transactions that differ in the rows of that table alone, and it succeeds outside of a
transaction if it does within one. What is none of a transaction leaves the transaction open. -/

namespace SipMigrate.Sql

variable {name : String}

/-! ### Plans on a connection -/

namespace Connection

/-- What keeps a connection from running a plan before it has looked at the rows. -/
def bar? (c : Connection) (p : Plan) : Option Cause := if p.writes then c.obstacle? else none

theorem step_of_spares {p : Plan} (h : p.Spares name) (c : Connection) :
    c.step p =
      match c.bar? p with
      | some cause => (.error cause, c)
      | none => c.perform p := by
  cases p with
  | begin | commit | rollback => exact h.elim
  | nothing | select => rfl
  | create | drop | insert | delete | update =>
    rw [step_eq_of_writes rfl, bar?]
    rfl

/-- The connection with an open transaction. -/
def within (c : Connection) (w : Transaction) : Connection := { c with working := some w }

end Connection

/-- Two open transactions that differ at most in the rows of one table, which is `u`
in the one and `v` in the other. -/
structure Transaction.Twins (name : String) (u v : Table) (w x : Transaction) : Prop where
  left : w.database.Has name u
  right : x.database.Has name v
  forget : w.database.forget name = x.database.forget name
  isMalformed : w.isMalformed = x.isMalformed

namespace Connection

variable {u v : Table} {c e : Connection} {w x : Transaction}

theorem obstacle?_within (hc : c.access = e.access) (h : w.isMalformed = x.isMalformed) :
    (c.within w).obstacle? = (e.within x).obstacle? := by
  unfold obstacle? within
  simp only [Option.any_some, hc, h]

/-- A plan that spares a table does the same in both transactions. -/
theorem step_twins {p : Plan} (hp : p.Spares name) (hc : c.access = e.access)
    (h : w.Twins name u v x) :
    ∃ r w' x', (c.within w).step p = (r, c.within w') ∧ (e.within x).step p = (r, e.within x') ∧
      w'.Twins name u v x' ∧ ∀ a, r = .ok a → w'.isMalformed = w.isMalformed := by
  have hbar : (c.within w).bar? p = (e.within x).bar? p := by
    unfold bar?
    rw [obstacle?_within hc h.isMalformed]
  rw [step_of_spares hp, step_of_spares hp, hbar]
  cases (e.within x).bar? p with
  | some cause => exact ⟨_, w, x, rfl, rfl, h, by rintro _ ⟨⟩⟩
  | none =>
    dsimp only
    unfold perform
    rw [show (c.within w).view = w.database from rfl, show (e.within x).view = x.database from rfl]
    rcases run_congr Database.masks_forget hp h.forget with ⟨cause, hw, hx⟩ | ⟨d, d', a, hw, hx, hd⟩
    · rw [hw, hx]
      cases hm : cause.isMalformed with
      | false =>
        exact ⟨.error cause, w, x, by simp [afterFailure, hm], by simp [afterFailure, hm], h,
          by rintro _ ⟨⟩⟩
      | true =>
        exact ⟨.error cause, { w with isMalformed := true }, { x with isMalformed := true },
          by simp [afterFailure, hm, within], by simp [afterFailure, hm, within],
          ⟨h.left, h.right, h.forget, rfl⟩, by rintro _ ⟨⟩⟩
    · rw [hw, hx]
      dsimp only
      rw [show (c.within w).access = e.access from hc,
        show (e.within x).access = e.access from rfl]
      cases p.writes && decide (e.access = .unrecorded) with
      | true => exact ⟨.error .cannotOpenCompanion, w, x, rfl, rfl, h, by rintro _ ⟨⟩⟩
      | false =>
        exact ⟨.ok a, { w with database := d }, { x with database := d' }, rfl, rfl,
          ⟨run_has hp h.left hw, run_has hp h.right hx, hd, h.isMalformed⟩, fun _ _ => rfl⟩

/-- A plan that succeeds within a transaction also succeeds outside of one, and with
full access, if the database is the same but for the rows of a table that it spares. -/
theorem step_start {p : Plan} (hp : p.Spares name) {d : Database} (hd : w.database.Has name u)
    (h : w.database.forget name = d.forget name) {a : Answer} {f : Connection}
    (hs : (c.within w).step p = (.ok a, f)) :
    ∃ w' d', f = c.within w' ∧ (start d).step p = (.ok a, start d') ∧
      w'.database.Has name u ∧ w'.database.forget name = d'.forget name := by
  rw [step_of_spares hp] at hs ⊢
  have hbar : (start d).bar? p = none := by
    unfold bar?
    split <;> rfl
  rw [hbar]
  cases hw : (c.within w).bar? p with
  | some cause =>
    rw [hw] at hs
    cases hs
  | none =>
    rw [hw] at hs
    dsimp only at hs ⊢
    unfold perform at hs ⊢
    rw [show (c.within w).view = w.database from rfl] at hs
    rw [show (start d).view = d from rfl]
    rcases run_congr Database.masks_forget hp h with ⟨cause, hv, -⟩ | ⟨d₁, d₂, a₁, hv, hx, hforget⟩
    · rw [hv] at hs
      cases hs
    · rw [hv] at hs
      rw [hx]
      dsimp only at hs ⊢
      split at hs
      · cases hs
      · cases hs
        refine ⟨{ w with database := d₁ }, d₂, rfl, ?_, run_has hp hd hv, hforget⟩
        simp [start, store]

/-! ### Statements within a transaction -/

/-- A statement that is none of a transaction leaves the transaction open. -/
theorem step_within {p : Plan} (hp : p.isControl = false) :
    ∃ r w', (c.within w).step p = (r, c.within w') := by
  have hperform : ∃ r w', (c.within w).perform p = (r, c.within w') := by
    unfold perform
    cases p.run (c.within w).view with
    | error cause =>
      cases hm : cause.isMalformed with
      | false => exact ⟨.error cause, w, by simp [afterFailure, hm]⟩
      | true =>
        exact ⟨.error cause, { w with isMalformed := true }, by simp [afterFailure, hm, within]⟩
    | ok r =>
      dsimp only
      split
      · exact ⟨_, w, rfl⟩
      · exact ⟨_, { w with database := r.1 }, rfl⟩
  cases hw : p.writes with
  | true =>
    rw [step_eq_of_writes hw]
    cases (c.within w).obstacle? with
    | some cause => exact ⟨_, w, rfl⟩
    | none => exact hperform
  | false =>
    cases p with
    | create | drop | insert | delete | update => cases hw
    | nothing | select => exact hperform
    | begin | commit | rollback => cases hp

theorem carryOut_within {s : Statement} (h : s.isControl = false)
    (sql : String) : ∃ r w', (c.within w).carryOut sql s = (r, c.within w') := by
  unfold carryOut
  cases hp : s.plan (c.within w).view with
  | error f => exact ⟨_, w, rfl⟩
  | ok p =>
    obtain ⟨r, w', hw⟩ := step_within (c := c) (w := w) (isControl_of_plan h hp)
    exact ⟨_, w', by dsimp only; rw [hw]⟩

/-- A text that is read as one statement, if as any, and as none of a transaction. -/
def ReadsPlain (sql : String) : Prop :=
  ∃ r, Reads sql r ∧ ∀ s, r = .ok s → s.isControl = false

theorem ReadsPlain.of_error {sql : String} {f : Fault} (h : Reads sql (.error f)) :
    ReadsPlain sql := by
  refine ⟨_, h, fun s hs => ?_⟩
  simp at hs

theorem ReadsPlain.of_ok {sql : String} {s : Statement} (h : Reads sql (.ok s))
    (hs : s.isControl = false) : ReadsPlain sql := by
  refine ⟨_, h, ?_⟩
  rintro _ ⟨⟩
  exact hs

theorem execute_within {sql : String} (h : ReadsPlain sql) :
    ∃ r w', (c.within w).execute sql = (r, c.within w') := by
  obtain ⟨f | s, hr, hs⟩ := h
  · exact ⟨_, w, execute_of_reads_error hr _⟩
  · obtain ⟨r, w', hw⟩ := carryOut_within (c := c) (w := w) (hs s rfl) sql
    exact ⟨_, w', by rw [execute_of_reads hr, hw]⟩

theorem query_within {sql : String} (h : ReadsPlain sql) :
    ∃ r w', (c.within w).query sql = (r, c.within w') := by
  obtain ⟨f | s, hr, hs⟩ := h
  · exact ⟨_, w, query_of_reads_error hr _⟩
  · obtain ⟨r, w', hw⟩ := carryOut_within (c := c) (w := w) (hs s rfl) sql
    exact ⟨_, w', by rw [query_of_reads hr, hw]⟩

/-! ### Scripts -/

/-- Lexemes that are read as no statement, or as one that avoids a table. What is not understood
is read as no statement, though it may be one. -/
def Harmless (name : String) (l : List Lexeme) : Prop :=
  ∀ s, Parser.read l = .ok (some s) → s.Avoids name

instance (l : List Lexeme) : Decidable (Harmless name l) :=
  match h : Parser.read l with
  | .ok (some s) => decidable_of_iff (s.Avoids name) (by simp [Harmless, h])
  | .ok none => isTrue (by simp [Harmless, h])
  | .error f => isTrue (by simp [Harmless, h])

/-- A text all of whose statements avoid a table, as far as they are understood. -/
def TextAvoids (name sql : String) : Prop :=
  ∀ l ∈ Lexeme.statements (Lexeme.cut (visible sql.toList)), Harmless name l

instance (sql : String) : Decidable (TextAvoids name sql) :=
  inferInstanceAs (Decidable (∀ l ∈ Lexeme.statements _, Harmless name l))

/-- Statements that avoid a table leave a transaction open. -/
theorem executeAll_within {hidden : List Char} {l : List (List Lexeme)}
    (hl : ∀ s ∈ l, Harmless name s) :
    ∃ r w', (c.within w).executeAll hidden l = (r, c.within w') := by
  induction l generalizing w with
  | nil => exact ⟨_, w, rfl⟩
  | cons s rest ih =>
    have ih {w : Transaction} := ih (w := w) fun s hs => hl s (by simp [hs])
    cases hr : Parser.read s with
    | error f => exact ⟨_, w, executeAll_of_error hr _ _ _⟩
    | ok o =>
      cases o with
      | none =>
        rw [executeAll_of_none hr]
        exact ih
      | some s =>
        have hs := (hl _ (by simp) s hr).isControl
        rw [executeAll_of_some hr]
        cases hp : s.plan (c.within w).view with
        | error f => exact ⟨_, w, rfl⟩
        | ok p =>
          obtain ⟨r, w', hw⟩ := step_within (c := c) (w := w) (isControl_of_plan hs hp)
          dsimp only
          rw [hw]
          cases r with
          | error cause => exact ⟨_, w', rfl⟩
          | ok a => exact ih

/-- Statements that avoid a table do the same in both transactions. -/
theorem executeAll_twins {hidden : List Char} {l : List (List Lexeme)}
    (hl : ∀ s ∈ l, Harmless name s) (hc : c.access = e.access) (h : w.Twins name u v x) :
    ∃ r w' x', (c.within w).executeAll hidden l = (r, c.within w') ∧
      (e.within x).executeAll hidden l = (r, e.within x') ∧ w'.Twins name u v x' ∧
      (r = .ok () → w'.isMalformed = w.isMalformed) := by
  induction l generalizing w x with
  | nil => exact ⟨_, w, x, rfl, rfl, h, fun _ => rfl⟩
  | cons s rest ih =>
    have ih {w x : Transaction} (h : w.Twins name u v x) := ih (fun s hs => hl s (by simp [hs])) h
    cases hr : Parser.read s with
    | error f =>
      rw [executeAll_of_error hr, executeAll_of_error hr]
      exact ⟨_, w, x, rfl, rfl, h, by rintro ⟨⟩⟩
    | ok o =>
      cases o with
      | none =>
        rw [executeAll_of_none hr, executeAll_of_none hr]
        exact ih h
      | some s =>
        have hs := hl _ (by simp) s hr
        rw [executeAll_of_some hr, executeAll_of_some hr,
          show s.plan (c.within w).view = s.plan (e.within x).view by
            rw [← plan_forget hs, ← plan_forget hs (e.within x).view]
            exact congrArg s.plan h.forget]
        cases hp : s.plan (e.within x).view with
        | error f => exact ⟨_, w, x, rfl, rfl, h, by rintro ⟨⟩⟩
        | ok p =>
          have hspares := plan_spares hs
            (by rw [show (e.within x).view = x.database from rfl, h.right.table?]; rfl) hp
          obtain ⟨r, w', x', hw, hx, h', hm⟩ := step_twins hspares hc h
          dsimp only
          rw [hw, hx]
          cases r with
          | error cause => exact ⟨_, w', x', rfl, rfl, h', by rintro ⟨⟩⟩
          | ok a =>
            obtain ⟨r, w₂, x₂, hw₂, hx₂, h₂, hm₂⟩ := ih h'
            exact ⟨r, w₂, x₂, hw₂, hx₂, h₂, fun hr => (hm₂ hr).trans (hm a rfl)⟩

/-- Statements that avoid a table succeed outside of a transaction if they do within one. -/
theorem executeAll_start {hidden : List Char} {l : List (List Lexeme)} {f : Connection}
    {d : Database} (hl : ∀ s ∈ l, Harmless name s) (hd : w.database.Has name u)
    (h : w.database.forget name = d.forget name)
    (hs : (c.within w).executeAll hidden l = (.ok (), f)) :
    ∃ w' d', f = c.within w' ∧ (start d).executeAll hidden l = (.ok (), start d') ∧
      w'.database.Has name u ∧ w'.database.forget name = d'.forget name := by
  induction l generalizing w d with
  | nil =>
    cases hs
    exact ⟨w, d, rfl, rfl, hd, h⟩
  | cons s rest ih =>
    have ih {w : Transaction} {d : Database} := ih (w := w) (d := d) fun s hs => hl s (by simp [hs])
    cases hr : Parser.read s with
    | error f =>
      rw [executeAll_of_error hr] at hs
      cases hs
    | ok o =>
      cases o with
      | none =>
        rw [executeAll_of_none hr] at hs ⊢
        exact ih hd h hs
      | some s =>
        have havoids := hl _ (by simp) s hr
        rw [executeAll_of_some hr] at hs ⊢
        rw [show s.plan (start d).view = s.plan (c.within w).view by
          rw [← plan_forget havoids, ← plan_forget havoids (c.within w).view]
          exact congrArg s.plan h.symm]
        cases hp : s.plan (c.within w).view with
        | error f =>
          rw [hp] at hs
          cases hs
        | ok p =>
          rw [hp] at hs
          have hspares := plan_spares havoids
            (by rw [show (c.within w).view = w.database from rfl, hd.table?]; rfl) hp
          dsimp only at hs ⊢
          rcases hstep : (c.within w).step p with ⟨cause | a, f'⟩
          · rw [hstep] at hs
            cases hs
          · rw [hstep] at hs
            obtain ⟨w', d', rfl, hd', hw', hf'⟩ := step_start hspares hd h hstep
            rw [hd']
            exact ih hw' hf' hs

end Connection

end SipMigrate.Sql
