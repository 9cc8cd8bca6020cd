import SipMigrate.Executor.Event
import SipMigrate.Proofs.Migration.Run

/-! Two runs side by side, each against its own executor. Where the calls of a run get one
answer from both, and keep their states related, the runs have one result. So a run against
an executor that hands every call on and gives back the answer is the run against the one
inside. -/

namespace SipMigrate.Migration

open Executor

variable {σ τ α β : Type} {S : τ → σ → Prop} {f : τ → σ}

/-! ### Calls of a run -/

/-- The calls that open a run. -/
inductive OpeningCall (t : TableName) : Call → Prop
  | create : OpeningCall t (.execute (ControlTable.create t.text))
  | current : OpeningCall t (.query (ControlTable.selectCurrent t.text))
  | lock : OpeningCall t (.query (ControlTable.selectLock t.text))

/-- The calls that a step may make. -/
inductive StepCall (t : TableName) (w : Surroundings) (s : Step) : Call → Prop
  | begin : StepCall t w s .begin
  | insert : StepCall t w s (.execute (ControlTable.insert t.text (.inFlight s)))
  | statement {statements : List String} {sql : String} (h : s.load w.read = .ok statements)
      (hsql : sql ∈ statements) : StepCall t w s (.execute sql)
  | update (time : UInt64) :
    StepCall t w s (.execute (ControlTable.update t.text ((Record.inFlight s).complete time)))
  | delete : StepCall t w s (.execute (ControlTable.delete t.text (.inFlight s)))
  | commit : StepCall t w s .commit
  | rollback : StepCall t w s .rollback

/-- The calls that a run may make. -/
inductive RunCall (t : TableName) (w : Surroundings) (steps : List Step) : Call → Prop
  | opening {c : Call} (h : OpeningCall t c) : RunCall t w steps c
  | step {s : Step} {c : Call} (hs : s ∈ steps) (h : StepCall t w s c) : RunCall t w steps c

/-! ### Computations -/

/-- From related states two executors give one answer to a call, and go on to related states. -/
def MatchesAt (S : τ → σ → Prop) (y : Executor τ) (x : Executor σ) (c : Call) : Prop :=
  ∀ s s', S s s' → (y.answer c s).1 = (x.answer c s').1 ∧ S (y.answer c s).2 (x.answer c s').2

/-- Two executors match at the calls of a kind. -/
def Matches (S : τ → σ → Prop) (p : Call → Prop) (y : Executor τ) (x : Executor σ) : Prop :=
  ∀ c, p c → MatchesAt S y x c

/-- From related states two computations have one result, and go on to related states. -/
def Run.Alongside (S : τ → σ → Prop) (r : Run τ α) (q : Run σ α) : Prop :=
  ∀ s s', S s s' → (r.run s).1 = (q.run s').1 ∧ S (r.run s).2 (q.run s').2

namespace Run.Alongside

theorem pure (a : α) : Alongside S (Pure.pure a : Run τ α) (Pure.pure a) :=
  fun _ _ h => ⟨rfl, h⟩

theorem throw (e : MigrationError) :
    Alongside S (MonadExcept.throw e : Run τ α) (MonadExcept.throw e) := fun _ _ h => ⟨rfl, h⟩

theorem ofExcept (r : Except MigrationError α) :
    Alongside S (Run.ofExcept r : Run τ α) (Run.ofExcept r) := fun _ _ h => ⟨rfl, h⟩

theorem bind {r : Run τ α} {q : Run σ α} {k : α → Run τ β} {l : α → Run σ β}
    (h : Alongside S r q) (hk : ∀ a, Alongside S (k a) (l a)) :
    Alongside S (r >>= k) (q >>= l) := by
  intro s s' hs
  have hs := h s s' hs
  rcases hr : r.run s with ⟨o, s₁⟩
  rcases hq : q.run s' with ⟨o', s₁'⟩
  rw [hr, hq] at hs
  obtain ⟨rfl, hs⟩ := hs
  cases o with
  | error e =>
    rw [run_bind_of_error hr, run_bind_of_error hq]
    exact ⟨rfl, hs⟩
  | ok a =>
    rw [run_bind_of_ok hr, run_bind_of_ok hq]
    exact hk a s₁ s₁' hs

theorem ofExcept_bind {o : Except MigrationError α} {k : α → Run τ β} {l : α → Run σ β}
    (hk : ∀ a, o = .ok a → Alongside S (k a) (l a)) :
    Alongside S (Run.ofExcept o >>= k) (Run.ofExcept o >>= l) := by
  cases o with
  | error e => exact fun _ _ h => ⟨rfl, h⟩
  | ok a => exact hk a rfl

theorem cleaning {r : Run τ α} {q : Run σ α} {c : StateM τ Unit} {d : StateM σ Unit}
    (h : Alongside S r q) (hc : ∀ s s', S s s' → S (c s).2 (d s').2) :
    Alongside S (r.cleaning c) (q.cleaning d) := by
  intro s s' hs
  have hs := h s s' hs
  rcases hr : r.run s with ⟨o, s₁⟩
  rcases hq : q.run s' with ⟨o', s₁'⟩
  rw [hr, hq] at hs
  obtain ⟨rfl, hs⟩ := hs
  cases o with
  | error e =>
    rw [run_cleaning_of_error hr, run_cleaning_of_error hq]
    exact ⟨rfl, hc s₁ s₁' hs⟩
  | ok a =>
    rw [run_cleaning_of_ok hr, run_cleaning_of_ok hq]
    exact ⟨rfl, hs⟩

end Run.Alongside

/-! ### Every part of a run -/

variable {y : Executor τ} {x : Executor σ} {t : TableName} {w : Surroundings}

theorem MatchesAt.demand {c : Call} (h : MatchesAt S y x c) :
    Run.Alongside S (demand y c) (demand x c) := by
  intro s s' hs
  have hs := h s s' hs
  rcases hy : y.answer c s with ⟨o, s₁⟩
  rcases hx : x.answer c s' with ⟨o', s₁'⟩
  rw [hy, hx] at hs
  obtain ⟨rfl, hs⟩ := hs
  cases o with
  | error e =>
    rw [run_demand_of_error hy, run_demand_of_error hx]
    exact ⟨rfl, hs⟩
  | ok a =>
    rw [run_demand_of_ok hy, run_demand_of_ok hx]
    exact ⟨rfl, hs⟩

theorem MatchesAt.attempt {c : Call} (h : MatchesAt S y x c) (s : τ) (s' : σ) (hs : S s s') :
    S (attempt y c s).2 (attempt x c s').2 := (h s s' hs).2

/-- Two executors that match also do so while their calls are noted. -/
theorem MatchesAt.logged {c : Call} (h : MatchesAt S y x c) :
    MatchesAt (fun l l' => S l.inner l'.inner ∧ l.events = l'.events) (logged y) (logged x) c := by
  rintro ⟨s, events⟩ ⟨s', _⟩ ⟨hs, rfl⟩
  obtain ⟨ha, hs⟩ := h s s' hs
  exact ⟨ha, hs, by rw [Executor.logged, Executor.logged]; simp only [ha]⟩

theorem executeAll_alongside (r : Record) {statements : List String}
    (h : ∀ sql ∈ statements, MatchesAt S y x (.execute sql)) :
    Run.Alongside S (executeAll y r statements) (executeAll x r statements) := by
  induction statements with
  | nil => exact .pure ()
  | cons sql rest ih =>
    intro s s' hs
    have hs := h sql (by simp) s s' hs
    rcases hy : y.answer (.execute sql) s with ⟨o, s₁⟩
    rcases hx : x.answer (.execute sql) s' with ⟨o', s₁'⟩
    rw [hy, hx] at hs
    obtain ⟨rfl, hs⟩ := hs
    cases o with
    | error e =>
      rw [executeAll_cons_of_error hy, executeAll_cons_of_error hx]
      exact ⟨rfl, hs⟩
    | ok u =>
      rw [executeAll_cons_of_ok hy, executeAll_cons_of_ok hx]
      exact ih (fun sql hsql => h sql (by simp [hsql])) s₁ s₁' hs

theorem applyStep_alongside (time : UInt64) {s : Step} (h : Matches S (StepCall t w s) y x) :
    Run.Alongside S (applyStep y t w time s) (applyStep x t w time s) := by
  have habandon (s₁ : τ) (s₂ : σ) (hs : S s₁ s₂) :
      S (abandon y t (.inFlight s) s₁).2 (abandon x t (.inFlight s) s₂).2 :=
    (h _ .rollback).attempt _ _ ((h _ .delete).attempt _ _ hs)
  refine .ofExcept_bind fun statements hload => ?_
  have hstatements := executeAll_alongside (.inFlight s) fun sql hsql => h _ (.statement hload hsql)
  refine .bind (h _ .begin).demand fun _ => ?_
  refine .bind ((h _ .insert).demand.cleaning (h _ .rollback).attempt) fun _ => ?_
  refine .bind (hstatements.cleaning habandon) fun _ => ?_
  refine .bind ((h _ (.update time)).demand.cleaning habandon) fun _ => ?_
  exact .bind ((h _ .commit).demand.cleaning (h _ .rollback).attempt) fun _ => .pure _

theorem applySteps_alongside (r : Report) (p : Option Version) {steps : List Step}
    (h : ∀ s ∈ steps, Matches S (StepCall t w s) y x) :
    Run.Alongside S (applySteps y t w r p steps) (applySteps x t w r p steps) := by
  induction steps generalizing r p with
  | nil => exact .pure r
  | cons s rest ih =>
    have ih {r p} := ih r p fun s hs => h s (by simp [hs])
    unfold applySteps
    refine .bind (.ofExcept _) fun due => ?_
    cases due with
    | false => exact ih
    | true => exact .bind (applyStep_alongside _ (h s (by simp))) fun n => ih

theorem openRun_alongside (h : Matches S (OpeningCall t) y x) :
    Run.Alongside S (openRun y t) (openRun x t) := by
  refine .bind (h _ .create).demand fun _ => ?_
  refine .bind ?_ fun current => ?_
  · refine .bind (h _ .current).demand fun a => ?_
    cases a
    · exact .pure _
    · exact .ofExcept _
  · refine .bind ?_ fun locked => ?_
    · refine .bind (h _ .lock).demand fun a => ?_
      cases a
      · exact .pure _
      · exact .ofExcept _
    · cases locked
      · exact .pure _
      · exact .throw _

theorem apply_alongside {steps : List Step} (h : Matches S (RunCall t w steps) y x) :
    Run.Alongside S (apply y t w steps) (apply x t w steps) :=
  .bind (openRun_alongside fun c hc => h c (.opening hc)) fun _ =>
    applySteps_alongside _ _ fun _ hs c hc => h c (.step hs hc)

/-! ### Watching -/

/-- An executor hands every call on to the one inside and gives back its answer. -/
def Watches (f : τ → σ) (y : Executor τ) (x : Executor σ) : Prop :=
  ∀ c s, x.answer c (f s) = ((y.answer c s).1, f (y.answer c s).2)

/-- A computation acts on the state inside as another one does. -/
def Run.Follows (f : τ → σ) (r : Run τ α) (q : Run σ α) : Prop :=
  ∀ s, q.run (f s) = ((r.run s).1, f (r.run s).2)

theorem Watches.matches (h : Watches f y x) (p : Call → Prop) :
    Matches (fun s s' => f s = s') p y x := by
  rintro c - s s' rfl
  rw [h c s]
  exact ⟨rfl, rfl⟩

theorem Run.Alongside.follows {r : Run τ α} {q : Run σ α}
    (h : Alongside (fun s s' => f s = s') r q) : Follows f r q :=
  fun s => Prod.ext (h s (f s) rfl).1.symm (h s (f s) rfl).2.symm

theorem openRun_follows (h : Watches f y x) (t : TableName) :
    Run.Follows f (openRun y t) (openRun x t) := (openRun_alongside (h.matches _)).follows

theorem apply_follows (h : Watches f y x) (t : TableName) (w : Surroundings)
    (steps : List Step) : Run.Follows f (apply y t w steps) (apply x t w steps) :=
  (apply_alongside (h.matches _)).follows

theorem logged_watches (x : Executor σ) : Watches Log.inner (logged x) x := fun _ _ => rfl

end SipMigrate.Migration
