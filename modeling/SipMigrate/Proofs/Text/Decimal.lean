import Mathlib
import SipMigrate.Text.Decimal

/-! Numbers that are written in decimal digits are read back. -/

namespace SipMigrate.Text

theorem digitsValue_toDigits (n : Nat) : digitsValue (Nat.toDigits 10 n) = n := by
  have h := Nat.ofDigitChars_ten_toDigits (n := n)
  rwa [Nat.ofDigitChars_eq_foldl] at h

theorem isDigit_of_mem_toDigits {n : Nat} {c : Char} (h : c ∈ Nat.toDigits 10 n) :
    c.isDigit = true := Nat.isDigit_of_mem_toDigits (by decide) (by decide) h

theorem natural?_toDigits (n : Nat) : natural? (Nat.toDigits 10 n) = some n := by
  have hall : (Nat.toDigits 10 n).all Char.isDigit = true :=
    List.all_eq_true.mpr fun _ => isDigit_of_mem_toDigits
  rw [natural?, if_pos ⟨Nat.toDigits_ne_nil, hall⟩, digitsValue_toDigits]

theorem natural?_toString (n : Nat) : natural? (toString n).toList = some n := by
  rw [Nat.toString_eq_repr, Nat.toList_repr, natural?_toDigits]

/-- An integer below zero is written with a hyphen in front of its digits. -/
theorem toList_toString_negSucc (n : Nat) :
    (toString (Int.negSucc n)).toList = '-' :: Nat.toDigits 10 (n + 1) := by
  rw [← Nat.toList_repr, ← Nat.toString_eq_repr]
  exact String.toList_append

theorem integer?_of_digits {l : List Char} (h : ∀ c ∈ l, c.isDigit = true) :
    integer? l = (natural? l).map fun n => (n : Int) := by
  unfold integer?
  split
  · exact absurd (h '-' (by simp)) (by decide)
  · exact absurd (h '+' (by simp)) (by decide)
  · rfl

theorem integer?_toString (n : Int) : integer? (toString n).toList = some n := by
  cases n with
  | ofNat n =>
    show integer? (toString n).toList = _
    rw [Nat.toString_eq_repr, Nat.toList_repr, integer?_of_digits fun _ => isDigit_of_mem_toDigits,
      natural?_toDigits]
    rfl
  | negSucc n =>
    rw [toList_toString_negSucc, integer?, natural?_toDigits]
    rfl

end SipMigrate.Text
