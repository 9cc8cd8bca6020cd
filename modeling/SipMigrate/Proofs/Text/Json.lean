import Mathlib
import SipMigrate.Text.Json

/-! A string literal is read as the text that it was written for, whatever characters are
in it. -/

namespace SipMigrate.Text.Json

/-! ### Reading one character -/

/-- A character given by its code, which is no surrogate. -/
theorem readBody_unit {a b c d : Char} {n : Nat} (h : unit? a b c d = some n) (hn : n < 0xD800)
    (rest : List Char) : readBody ('\\' :: 'u' :: a :: b :: c :: d :: rest) =
      (readBody rest).map fun p => (Char.ofNat n :: p.1, p.2) := by
  rw [readBody.eq_def]
  split
  · simp_all
  · simp_all
  -- The code after this one is looked at only behind a surrogate.
  · rename_i heq
    simp only [List.cons.injEq, true_and] at heq
    obtain ⟨rfl, rfl, rfl, rfl, rfl⟩ := heq
    simp only [h, Option.bind_eq_bind, Option.bind_some]
    rw [if_neg (by omega), if_neg (by omega)]
    cases readBody ('\\' :: 'u' :: _) <;> rfl
  · rename_i heq
    simp only [List.cons.injEq, true_and] at heq
    obtain ⟨rfl, rfl, rfl, rfl, rfl⟩ := heq
    simp only [h, Option.bind_eq_bind, Option.bind_some]
    rw [if_neg (by omega)]
    cases readBody rest <;> rfl
  · rename_i hno heq
    simp only [List.cons.injEq, true_and] at heq
    exact absurd heq.2.symm (hno _ _ _ _ _ heq.1.symm)
  · rename_i hno heq
    simp only [List.cons.injEq] at heq
    exact absurd heq.2.symm (hno _ _ heq.1.symm)

theorem readBody_shortEscape {e c : Char} (h : shortEscape? e = some c) (rest : List Char) :
    readBody ('\\' :: e :: rest) = (readBody rest).map fun p => (c :: p.1, p.2) := by
  have hu : e ≠ 'u' := by
    rintro rfl
    cases h
  rw [readBody.eq_def]
  split
  · simp_all
  · simp_all
  · simp_all
  · simp_all
  · rename_i heq
    simp only [List.cons.injEq, true_and] at heq
    obtain ⟨rfl, rfl⟩ := heq
    rw [h]
    cases readBody rest <;> rfl
  · rename_i hno heq
    simp only [List.cons.injEq] at heq
    exact absurd heq.2.symm (hno _ _ heq.1.symm)

theorem readBody_plain {c : Char} (hquote : c ≠ '"') (hbackslash : c ≠ '\\')
    (hcontrol : ¬ c.toNat < 0x20) (rest : List Char) :
    readBody (c :: rest) = (readBody rest).map fun p => (c :: p.1, p.2) := by
  rw [readBody.eq_def]
  split
  · simp_all
  · simp_all
  · simp_all
  · simp_all
  · simp_all
  · rename_i heq
    obtain ⟨rfl, rfl⟩ := List.cons.inj heq
    rw [if_neg hcontrol]
    cases readBody rest <;> rfl

/-! ### Literals -/

theorem unit?_table : ∀ n < 32,
    (n < 16 → Nat.toDigits 16 n = [Nat.digitChar n] ∧
      unit? '0' '0' '0' (Nat.digitChar n) = some n) ∧
    (16 ≤ n → Nat.toDigits 16 n = ['1', Nat.digitChar (n - 16)] ∧
      unit? '0' '0' '1' (Nat.digitChar (n - 16)) = some n) := by
  decide +kernel

/-- A character is escaped by a letter or by its code, or it stands for itself. -/
theorem escapeChar_cases (c : Char) :
    (∃ e, escapeChar c = ['\\', e] ∧ shortEscape? e = some c) ∨
      (∃ a b, escapeChar c = ['\\', 'u', '0', '0', a, b] ∧ c.toNat < 0x20 ∧
        unit? '0' '0' a b = some c.toNat) ∨
      escapeChar c = [c] ∧ c ≠ '"' ∧ c ≠ '\\' ∧ ¬ c.toNat < 0x20 := by
  by_cases hshort : c = '"' ∨ c = '\\' ∨ c = '\n' ∨ c = '\r' ∨ c = '\t' ∨ c = '\x08' ∨ c = '\x0c'
  · rcases hshort with rfl | rfl | rfl | rfl | rfl | rfl | rfl <;> exact .inl ⟨_, rfl, rfl⟩
  simp only [not_or] at hshort
  simp only [escapeChar, hshort, if_false]
  by_cases hcontrol : c.toNat < 0x20
  · by_cases hlow : c.toNat < 0x10
    · obtain ⟨hdigits, hunit⟩ := (unit?_table c.toNat hcontrol).1 hlow
      exact .inr (.inl ⟨'0', Nat.digitChar c.toNat, by simp [hlow, hdigits], hcontrol, hunit⟩)
    · obtain ⟨hdigits, hunit⟩ := (unit?_table c.toNat hcontrol).2 (by omega)
      exact .inr (.inl ⟨'1', Nat.digitChar (c.toNat - 16), by simp [hlow, hcontrol, hdigits],
        hcontrol, hunit⟩)
  · have hlow : ¬ c.toNat < 0x10 := by omega
    exact .inr (.inr ⟨by simp [hlow, hcontrol], hshort.1, hshort.2.1, hcontrol⟩)

theorem readBody_escapeChar (c : Char) (rest : List Char) : readBody (escapeChar c ++ rest) =
    (readBody rest).map fun p => (c :: p.1, p.2) := by
  rcases escapeChar_cases c with ⟨e, hc, h⟩ | ⟨a, b, hc, hlt, h⟩ | ⟨hc, hquote, hbackslash, h⟩
  · rw [hc]
    exact readBody_shortEscape h rest
  · have hread := readBody_unit h (by omega) rest
    rw [Char.ofNat_toNat] at hread
    rw [hc]
    exact hread
  · rw [hc]
    exact readBody_plain hquote hbackslash h rest

theorem readBody_flatMap_escapeChar (l rest : List Char) :
    readBody (l.flatMap escapeChar ++ '"' :: rest) = some (l, rest) := by
  induction l with
  | nil => rfl
  | cons c l ih =>
    rw [List.flatMap_cons, List.append_assoc, readBody_escapeChar, ih, Option.map_some]

theorem readString?_literal (s : String) : readString? (literal s).toList = some s := by
  have hopen : (literal s).toList.dropWhile isSpace =
      '"' :: (s.toList.flatMap escapeChar ++ ['"']) := by
    rw [literal, String.toList_ofList]
    rfl
  rw [readString?, hopen]
  simp only [readBody_flatMap_escapeChar, List.all_nil, if_true, String.ofList_toList]

end SipMigrate.Text.Json
