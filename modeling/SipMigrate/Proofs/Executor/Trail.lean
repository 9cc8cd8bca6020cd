import SipMigrate.Executor.Database
import SipMigrate.Executor.Faults
import SipMigrate.Proofs.Executor.Trace
import SipMigrate.Proofs.Sql.Within

/-! Executors some of whose calls fail before they reach the executor inside. What
such calls do to the executor inside is a trail: each event of it either is an
answer of this executor or a failure that leaves it as it was. For databases it is
told what each kind of call does. -/

namespace SipMigrate.Executor

variable {σ : Type} {x : Executor σ} {mayFail : Call → Prop}

/-- Keeps each call, and fails a call if `fault` says so, which knows the calls
before it. A call that is failed goes no further. -/
def failing (fault : List Call → Call → Option ExecutorError) (x : Executor σ) :
    Executor (Recorder σ) where
  answer c r :=
    match fault r.calls c with
    | some e => (.error e, { r with calls := r.calls ++ [c] })
    | none =>
      let (a, s) := x.answer c r.inner
      (a, ⟨s, r.calls ++ [c]⟩)

/-- A list of faults is one way to fail calls. -/
theorem recorded_eq_failing (faults : List Fault) (x : Executor σ) :
    recorded faults x = failing (fun calls c =>
      (faults.find? fun f => f.hits ((calls ++ [c]).countP fun d => d.kind = c.kind) c).map
        fun f => .driver f.message) x := by
  unfold recorded failing
  congr 1
  funext c r
  dsimp only
  cases faults.find? fun f => f.hits ((r.calls ++ [c]).countP fun d => d.kind = c.kind) c <;> rfl

/-- Without faults every call reaches the executor inside. -/
theorem answer_recorded {s s' : σ} {c : Call} {a : Except ExecutorError c.Answer}
    (h : x.answer c s = (a, s')) (calls : List Call) :
    (recorded [] x).answer c ⟨s, calls⟩ = (a, ⟨s', calls ++ [c]⟩) := by
  show ((x.answer c s).1, (⟨(x.answer c s).2, calls ++ [c]⟩ : Recorder σ)) = _
  rw [h]

/-- An event at an executor whose calls may fail before they reach it. -/
def Passes (x : Executor σ) (mayFail : Call → Prop) (s : σ) (e : Event) (s' : σ) : Prop :=
  (mayFail e.call ∧ (∃ cause, e.answer = .error cause) ∧ s' = s) ∨
    x.answer e.call s = (e.answer, s')

/-- A call that succeeds has reached the executor. -/
theorem passes_ok {s s' : σ} {c : Call} {a : c.Answer} :
    Passes x mayFail s ⟨c, .ok a⟩ s' ↔ x.answer c s = (.ok a, s') := by
  simp [Passes]

/-- Events one after the other at an executor whose calls may fail before they reach it. -/
def Trail (x : Executor σ) (mayFail : Call → Prop) : σ → List Event → σ → Prop
  | s, [], s' => s' = s
  | s, e :: rest, s' => ∃ m, Passes x mayFail s e m ∧ Trail x mayFail m rest s'

namespace Trail

@[simp] theorem nil_iff {s s' : σ} : Trail x mayFail s [] s' ↔ s' = s := .rfl

theorem cons_iff {s s' : σ} {e : Event} {rest : List Event} :
    Trail x mayFail s (e :: rest) s' ↔
      ∃ m, Passes x mayFail s e m ∧ Trail x mayFail m rest s' := .rfl

theorem append_iff {s s' : σ} {l₁ l₂ : List Event} :
    Trail x mayFail s (l₁ ++ l₂) s' ↔
      ∃ m, Trail x mayFail s l₁ m ∧ Trail x mayFail m l₂ s' := by
  induction l₁ generalizing s with
  | nil => simp
  | cons e rest ih =>
    simp only [List.cons_append, cons_iff, ih]
    constructor
    · rintro ⟨m, he, n, h₁, h₂⟩
      exact ⟨n, ⟨m, he, h₁⟩, h₂⟩
    · rintro ⟨n, ⟨m, he, h₁⟩, h₂⟩
      exact ⟨m, he, n, h₁, h₂⟩

@[simp] theorem single_iff {s s' : σ} {e : Event} :
    Trail x mayFail s [e] s' ↔ Passes x mayFail s e s' := by
  simp [cons_iff]

/-- Calls that leave a state as it is do so one after the other. -/
theorem stays {s s' : σ} {l : List Event} {p : Call → Prop}
    (hstay : ∀ e m, p e.call → Passes x mayFail s e m → m = s) (hl : ∀ e ∈ l, p e.call)
    (h : Trail x mayFail s l s') : s' = s := by
  induction l with
  | nil => exact h
  | cons e rest ih =>
    obtain ⟨m, he, hrest⟩ := h
    obtain rfl := hstay e m (hl e (by simp)) he
    exact ih (fun e he => hl e (by simp [he])) hrest

/-- Where no call fails before it reaches the executor. -/
theorem of_trace {s s' : σ} {l : List Event} (h : Trace x s l s') : Trail x mayFail s l s' := by
  induction h with
  | nil s => rfl
  | cons c s _ ih => exact ⟨_, .inr rfl, ih⟩

/-- The events at an executor that fails some calls are a trail of the one inside. -/
theorem of_failing {fault : List Call → Call → Option ExecutorError}
    (hf : ∀ calls c e, fault calls c = some e → mayFail c) {r r' : Recorder σ} {l : List Event}
    (h : Trace (failing fault x) r l r') : Trail x mayFail r.inner l r'.inner := by
  induction h with
  | nil r => rfl
  | cons c r _ ih =>
    refine ⟨_, ?_, ih⟩
    unfold Passes failing
    dsimp only
    cases hc : fault r.calls c with
    | some e => exact .inl ⟨hf _ _ _ hc, ⟨e, rfl⟩, rfl⟩
    | none => exact .inr rfl

end Trail

section Database

open Sql

variable {c c' : Connection}

/-! ### Calls on a database -/

theorem answer_execute (sql : String) (c : Connection) :
    database.answer (.execute sql) c = ofConnection (c.execute sql) := rfl

theorem answer_query (sql : String) (c : Connection) :
    database.answer (.query sql) c = ofConnection (c.query sql) := rfl

theorem answer_execute_of_ok {sql : String} (h : c.execute sql = (.ok (), c')) :
    database.answer (.execute sql) c = (.ok (), c') := by
  rw [answer_execute, h]
  rfl

theorem answer_execute_of_error {sql : String} {f : SqlError} (h : c.execute sql = (.error f, c')) :
    database.answer (.execute sql) c = (.error (.database f), c') := by
  rw [answer_execute, h]
  rfl

theorem answer_query_of_ok {sql : String} {a : Option Int} (h : c.query sql = (.ok a, c')) :
    database.answer (.query sql) c = (.ok a, c') := by
  rw [answer_query, h]
  rfl

theorem answer_query_of_error {sql : String} {f : SqlError} (h : c.query sql = (.error f, c')) :
    database.answer (.query sql) c = (.error (.database f), c') := by
  rw [answer_query, h]
  rfl

theorem answer_execute_eq_ok {sql : String} :
    database.answer (.execute sql) c = (.ok (), c') ↔ c.execute sql = (.ok (), c') := by
  rw [answer_execute]
  rcases c.execute sql with ⟨e | u, d⟩ <;> simp [ofConnection, Except.mapError]

theorem answer_query_eq_ok {sql : String} {a : Option Int} :
    database.answer (.query sql) c = (.ok a, c') ↔ c.query sql = (.ok a, c') := by
  rw [answer_query]
  rcases c.query sql with ⟨e | u, d⟩ <;> simp [ofConnection, Except.mapError]

theorem answer_begin (h : c.working = none) :
    database.answer .begin c = (.ok (), c.within ⟨c.committed, false⟩) := by
  show transaction c .begin = _
  unfold transaction Connection.step
  rw [h]
  rfl

theorem answer_rollback (c : Connection) : (database.answer .rollback c).2 = c.reopen := by
  show (transaction c .rollback).2 = _
  unfold transaction Connection.step
  obtain ⟨d, w, a⟩ := c
  cases w <;> rfl

theorem answer_commit (c : Connection) (w : Transaction) :
    database.answer .commit (c.within w) =
      if w.isMalformed then (.error (.database (.failure .malformed)), c.reopen)
      else (.ok (), { c with committed := w.database, working := none }) := by
  show transaction (c.within w) .commit = _
  unfold transaction Connection.step Connection.within
  dsimp only
  cases w.isMalformed <;> rfl

/-! ### Events at a database -/

theorem passes_executed {sql : String} :
    Passes database mayFail c ⟨.execute sql, .ok ()⟩ c' ↔ c.execute sql = (.ok (), c') := by
  rw [passes_ok, answer_execute_eq_ok]

theorem passes_answered {sql : String} {a : Option Int} :
    Passes database mayFail c ⟨.query sql, .ok a⟩ c' ↔ c.query sql = (.ok a, c') := by
  rw [passes_ok, answer_query_eq_ok]

/-- The connection after a call to execute a text, whatever the answer. -/
theorem Passes.execute {sql : String} {a : Except ExecutorError Unit}
    (h : Passes database mayFail c ⟨.execute sql, a⟩ c') : c' = c ∨ c' = (c.execute sql).2 := by
  rcases h with ⟨-, -, h⟩ | h
  · exact .inl h
  · exact .inr (congrArg Prod.snd h).symm

theorem Passes.query {sql : String} {a : Except ExecutorError (Option Int)}
    (h : Passes database mayFail c ⟨.query sql, a⟩ c') : c' = c ∨ c' = (c.query sql).2 := by
  rcases h with ⟨-, -, h⟩ | h
  · exact .inl h
  · exact .inr (congrArg Prod.snd h).symm

/-- To look up a name changes nothing. -/
theorem Passes.tableExists {name : String} {a : Except ExecutorError Bool}
    (h : Passes database mayFail c ⟨.tableExists name, a⟩ c') : c' = c := by
  rcases h with ⟨-, -, h⟩ | h
  · exact h
  · exact (congrArg Prod.snd h).symm

/-- A transaction begins only where none is open. -/
theorem passes_begin :
    Passes database mayFail c ⟨.begin, .ok ()⟩ c' ↔
      c.working = none ∧ c' = c.within ⟨c.committed, false⟩ := by
  rw [passes_ok]
  show transaction c .begin = _ ↔ _
  unfold transaction Connection.step
  cases hw : c.working with
  | none => simp [Connection.within, eq_comm]
  | some w => simp

theorem Passes.begin_error {e : ExecutorError}
    (h : Passes database mayFail c ⟨.begin, .error e⟩ c') : c' = c := by
  rcases h with ⟨-, -, h⟩ | h
  · exact h
  · have h : transaction c .begin = (.error e, c') := h
    unfold transaction Connection.step at h
    grind

theorem passes_commit {w : Transaction} :
    Passes database mayFail (c.within w) ⟨.commit, .ok ()⟩ c' ↔
      w.isMalformed = false ∧ c' = { c with committed := w.database, working := none } := by
  rw [passes_ok]
  show transaction (c.within w) .commit = _ ↔ _
  unfold transaction Connection.step Connection.within
  dsimp only
  cases w.isMalformed with
  | true => simp
  | false =>
    simp only [Bool.false_eq_true, if_false, Prod.mk.injEq, true_and]
    exact eq_comm

theorem Passes.commit_error {w : Transaction} {e : ExecutorError}
    (h : Passes database mayFail (c.within w) ⟨.commit, .error e⟩ c') :
    c' = c.within w ∨ c' = c.reopen := by
  rcases h with ⟨-, -, h⟩ | h
  · exact .inl h
  · have h : transaction (c.within w) .commit = (.error e, c') := h
    unfold transaction Connection.step Connection.within at h
    dsimp only at h
    grind [Connection.reopen]

/-- A rollback that is not failed leaves no transaction open. -/
theorem Passes.rollback {a : Except ExecutorError Unit}
    (h : Passes database mayFail c ⟨.rollback, a⟩ c') :
    c' = c.reopen ∨ mayFail .rollback ∧ c' = c := by
  rcases h with ⟨hf, -, h⟩ | h
  · exact .inr ⟨hf, h⟩
  · have h : transaction c .rollback = (a, c') := h
    unfold transaction Connection.step at h
    obtain ⟨d, w, a⟩ := c
    cases w <;> grind [Connection.reopen]

end Database

end SipMigrate.Executor
