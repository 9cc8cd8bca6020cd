import SipMigrate.Migration.Step

/-! The names of scripts. A name is read precisely if it is a version in digits, an
underscore, a description and the ending, and then it is read as that. -/

namespace SipMigrate.Migration.FileName

open Text

/-- What a name spells: ASCII digits whose value is the version, an underscore, a text
that is the description with underscores for spaces, and the ending. -/
def Spells (name : String) (v : Version) (description : String) : Prop :=
  ∃ digits rest : String, name = digits ++ "_" ++ rest ++ ".sql" ∧
    digits ≠ "" ∧ (∀ c ∈ digits.toList, '0' ≤ c ∧ c ≤ '9') ∧
    Nat.ofDigitChars 10 digits.toList 0 = v.toNat ∧ 1 ≤ v.toNat ∧
    rest ≠ "" ∧ description = rest.map fun c => if c = '_' then ' ' else c

variable {name description : String} {v : Version} {l s digits rest : List Char}

/-! ### The parts of a name -/

theorem stem?_eq_some_iff : stem? l = some s ↔ l = s ++ ending := by
  unfold stem?
  constructor
  · intro h
    split at h
    · rename_i hs
      obtain ⟨t, rfl⟩ := List.isSuffixOf_iff_suffix.mp hs
      simpa using h
    · cases h
  · rintro rfl
    simp

theorem version?_eq_some_iff :
    version? digits = some v ↔ digits ≠ [] ∧ (∀ c ∈ digits, c.isDigit = true) ∧
      Nat.ofDigitChars 10 digits 0 = v.toNat ∧ 1 ≤ v.toNat := by
  have hvalue : digitsValue digits = Nat.ofDigitChars 10 digits 0 := by
    rw [Nat.ofDigitChars_eq_foldl]
    rfl
  have hlt : v.toNat < UInt16.size := v.toNat_lt
  unfold version? natural?
  rw [hvalue]
  by_cases hd : digits ≠ [] ∧ digits.all Char.isDigit = true
  · rw [if_pos hd]
    have hall : ∀ c ∈ digits, c.isDigit = true := by simpa using hd.2
    by_cases hn : 0 < Nat.ofDigitChars 10 digits 0 ∧ Nat.ofDigitChars 10 digits 0 < UInt16.size
    · dsimp only
      rw [if_pos hn, Option.some.injEq, ← UInt16.toNat_inj, UInt16.toNat_ofNat_of_lt' hn.2]
      constructor
      · rintro h
        exact ⟨hd.1, hall, h, by omega⟩
      · exact fun h => h.2.2.1
    · dsimp only
      rw [if_neg hn]
      constructor
      · nofun
      · rintro ⟨-, -, h, hone⟩
        exact absurd ⟨by omega, by omega⟩ hn
  · rw [if_neg hd]
    constructor
    · nofun
    · rintro ⟨hne, hall, -, -⟩
      exact absurd ⟨hne, by simpa using hall⟩ hd

/-- Digits end at the first underscore. -/
theorem span_underscore (rest : List Char) (h : ∀ c ∈ digits, c.isDigit = true) :
    (digits ++ '_' :: rest).takeWhile (· ≠ '_') = digits ∧
      (digits ++ '_' :: rest).dropWhile (· ≠ '_') = '_' :: rest := by
  have hne : ∀ c ∈ digits, (decide (c ≠ '_')) = true := by
    intro c hc
    have := h c hc
    rw [decide_eq_true_iff]
    rintro rfl
    exact absurd this (by decide)
  constructor
  · rw [List.takeWhile_append_of_pos hne, List.takeWhile_cons_of_neg (by simp), List.append_nil]
  · rw [List.dropWhile_append_of_pos hne, List.dropWhile_cons_of_neg (by simp)]

theorem eq_of_dropWhile {c : Char} (h : s.dropWhile (· ≠ '_') = c :: rest) :
    s = s.takeWhile (· ≠ '_') ++ '_' :: rest := by
  have hc : c = '_' := by
    have := List.head?_dropWhile_not (fun c : Char => decide (c ≠ '_')) s
    rw [h] at this
    simpa using this
  subst hc
  rw [← h, List.takeWhile_append_dropWhile]

/-! ### Reading a name -/

theorem read?_eq_some_iff :
    read? l = some (v, s) ↔ ∃ digits rest, l = digits ++ '_' :: rest ++ ending ∧
      version? digits = some v ∧ rest ≠ [] ∧ s = spaced rest := by
  unfold read?
  constructor
  · intro h
    obtain ⟨stem, hstem, h⟩ := Option.bind_eq_some_iff.mp h
    obtain ⟨w, hw, h⟩ := Option.bind_eq_some_iff.mp h
    split at h
    · rename_i c d rest hdrop
      cases h
      refine ⟨_, d :: rest, ?_, hw, List.cons_ne_nil d rest, rfl⟩
      rw [← eq_of_dropWhile hdrop]
      exact stem?_eq_some_iff.mp hstem
    · cases h
  · rintro ⟨digits, rest, rfl, hv, hrest, rfl⟩
    obtain ⟨htake, hdrop⟩ := span_underscore rest (version?_eq_some_iff.mp hv).2.1
    obtain ⟨c, more, rfl⟩ := List.exists_cons_of_ne_nil hrest
    rw [stem?_eq_some_iff.mpr rfl]
    simp only [Option.bind_eq_bind, Option.bind_some, htake, hdrop, hv]

theorem isDigit_iff_le {c : Char} : c.isDigit = true ↔ '0' ≤ c ∧ c ≤ '9' := by
  simp [Char.isDigit, Char.le_def]

theorem parse_eq_ok_iff : parse name = .ok (v, description) ↔ Spells name v description := by
  have hread : parse name = .ok (v, description) ↔
      read? name.toList = some (v, description.toList) := by
    unfold parse
    cases read? name.toList with
    | none => simp
    | some r =>
      obtain ⟨w, d⟩ := r
      simp [← String.toList_inj]
  rw [hread, read?_eq_some_iff]
  constructor
  · rintro ⟨digits, rest, hname, hv, hrest, hs⟩
    obtain ⟨hne, hdigits, hvalue, hone⟩ := version?_eq_some_iff.mp hv
    refine ⟨.ofList digits, .ofList rest, ?_, by simpa using hne, ?_, ?_, hone,
      by simpa using hrest, ?_⟩
    · rw [← String.toList_inj, hname]
      simp [ending]
    · intro c hc
      rw [String.toList_ofList] at hc
      exact isDigit_iff_le.mp (hdigits c hc)
    · rw [String.toList_ofList, hvalue]
    · rw [← String.toList_inj, hs]
      simp [spaced]
  · rintro ⟨digits, rest, rfl, hne, hdigits, hvalue, hone, hrest, rfl⟩
    refine ⟨digits.toList, rest.toList, by simp [ending], ?_, by simpa using hrest,
      by simp [spaced]⟩
    exact version?_eq_some_iff.mpr ⟨by simpa using hne,
      fun c hc => isDigit_iff_le.mpr (hdigits c hc), hvalue, hone⟩

/-- A name that cannot be read is told as it is. -/
theorem parse_cases (name : String) :
    (∃ r, parse name = .ok r) ∨ parse name = .error (.invalidFileName name) := by
  unfold parse
  cases read? name.toList with
  | none => exact .inr rfl
  | some r => exact .inl ⟨_, rfl⟩

theorem parse_eq_error_iff :
    parse name = .error (.invalidFileName name) ↔ ∀ v description, ¬Spells name v description := by
  constructor
  · intro h v description hs
    rw [parse_eq_ok_iff.mpr hs] at h
    cases h
  · intro h
    refine (parse_cases name).resolve_left ?_
    rintro ⟨⟨v, description⟩, hr⟩
    exact h v description (parse_eq_ok_iff.mp hr)

end SipMigrate.Migration.FileName
