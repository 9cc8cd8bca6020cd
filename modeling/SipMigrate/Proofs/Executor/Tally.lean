import SipMigrate.Executor.Tally
import SipMigrate.Proofs.Executor.Trace

/-! The counts of a tally are those of the events at the executor inside: each call is
counted once, whatever its answer, and reaches that executor once. -/

namespace SipMigrate.Text

theorem occursIn_iff {pattern text : List Char} :
    occursIn pattern text = true ↔ pattern <:+: text := by
  induction text with
  | nil => simp [occursIn]
  | cons c rest ih => simp [occursIn, ih, List.infix_cons_iff]

end SipMigrate.Text

namespace SipMigrate.Executor

/-! ### Counting events -/

def Call.text? : Call → Option String
  | .execute sql => some sql
  | _ => none

/-- The texts that were to be executed, in order. -/
def texts (l : List Event) : List String := l.filterMap (·.call.text?)

/-- How often a call was made. -/
def made (c : Call) (l : List Event) : Nat := l.countP (·.call = c)

@[simp] theorem texts_nil : texts [] = [] := rfl

@[simp] theorem texts_append (l₁ l₂ : List Event) : texts (l₁ ++ l₂) = texts l₁ ++ texts l₂ :=
  List.filterMap_append

@[simp] theorem made_nil (c : Call) : made c [] = 0 := rfl

@[simp] theorem made_append (c : Call) (l₁ l₂ : List Event) :
    made c (l₁ ++ l₂) = made c l₁ + made c l₂ := List.countP_append

/-! ### The counts of a tally -/

variable {σ : Type} {x : Executor σ}

/-- The events are what a tally has counted on its way from one state to another. -/
structure Tally.Counts (l : List Event) (c c' : Tally σ) : Prop where
  executed : c'.executed = c.executed ++ texts l
  begins : c'.begins = c.begins + made .begin l
  commits : c'.commits = c.commits + made .commit l
  rollbacks : c'.rollbacks = c.rollbacks + made .rollback l

theorem Tally.counts_answer (x : Executor σ) (c : Call) (s : Tally σ) :
    Counts [⟨c, ((tally x).answer c s).1⟩] s ((tally x).answer c s).2 := by
  cases c <;> constructor <;> simp [tally, count, texts, Call.text?, made]

theorem Tally.Counts.append {l₁ l₂ : List Event} {c₁ c₂ c₃ : Tally σ} (h₁ : Counts l₁ c₁ c₂)
    (h₂ : Counts l₂ c₂ c₃) : Counts (l₁ ++ l₂) c₁ c₃ where
  executed := by rw [h₂.executed, h₁.executed, texts_append, List.append_assoc]
  begins := by rw [h₂.begins, h₁.begins, made_append, Nat.add_assoc]
  commits := by rw [h₂.commits, h₁.commits, made_append, Nat.add_assoc]
  rollbacks := by rw [h₂.rollbacks, h₁.rollbacks, made_append, Nat.add_assoc]

theorem answer_tally (x : Executor σ) (c : Call) (s : Tally σ) :
    (tally x).answer c s =
      ((x.answer c s.inner).1, { s.count c with inner := (x.answer c s.inner).2 }) := by
  cases c <;> rfl

/-- A tally counts every event, and the executor inside answers all of them. -/
theorem Trace.of_tally {c c' : Tally σ} {l : List Event} (h : Trace (tally x) c l c') :
    Tally.Counts l c c' ∧ Trace x c.inner l c'.inner := by
  induction h with
  | nil c => exact ⟨⟨by simp, by simp, by simp, by simp⟩, .nil _⟩
  | @cons call c rest c' _ ih =>
    obtain ⟨hcounts, htrace⟩ := ih
    rw [answer_tally] at htrace
    refine ⟨(Tally.counts_answer x call c).append hcounts, ?_⟩
    rw [answer_tally]
    exact .cons call c.inner htrace

end SipMigrate.Executor
