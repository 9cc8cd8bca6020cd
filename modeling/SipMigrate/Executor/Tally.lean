import SipMigrate.Executor.Basic
import SipMigrate.Text.Basic

/-! An executor that counts the calls before it passes them on. -/

namespace SipMigrate.Executor

structure Tally (σ : Type) where
  inner : σ
  /-- The texts executed, in order. -/
  executed : List String
  begins : Nat
  commits : Nat
  rollbacks : Nat

namespace Tally

variable {σ : Type}

def start (s : σ) : Tally σ := ⟨s, [], 0, 0, 0⟩

def reset (t : Tally σ) : Tally σ := start t.inner

def count (t : Tally σ) : Call → Tally σ
  | .execute sql => { t with executed := t.executed ++ [sql] }
  | .begin => { t with begins := t.begins + 1 }
  | .commit => { t with commits := t.commits + 1 }
  | .rollback => { t with rollbacks := t.rollbacks + 1 }
  | _ => t

/-- The number of executed texts that do not mention a table. -/
def statementsOutside (t : Tally σ) (table : String) : Nat :=
  t.executed.countP fun sql => !Text.occursIn table.toList sql.toList

end Tally

def tally {σ : Type} (x : Executor σ) : Executor (Tally σ) where
  answer c t :=
    let counted := t.count c
    let (a, s) := x.answer c counted.inner
    (a, { counted with inner := s })

end SipMigrate.Executor
