import Mathlib
import SipMigrate.Text.Lowercase

/-! Letter case. Full lowercasing does not see the case of ASCII letters, although the form
of a sigma depends on the letters around it: an ASCII letter is cased in either case, and
never case-ignorable. What is lowercased is left as it is by lowercasing it again, since no
lowercase form is a letter that has one of its own. -/

namespace SipMigrate.Text

/-- A text that comes from another one by changing the case of some ASCII letters. -/
def Recased : List Char → List Char → Prop :=
  List.Forall₂ fun c d => d = c ∨ d = c.toLower ∨ d = c.toUpper

instance (l l' : List Char) : Decidable (Recased l l') :=
  inferInstanceAs (Decidable (List.Forall₂ _ l l'))

theorem Recased.map_toLower {l l' : List Char} (h : Recased l l') :
    l'.map Char.toLower = l.map Char.toLower := by
  induction h with
  | nil => rfl
  | cons hcd _ ih =>
    rw [List.map_cons, List.map_cons, ih]
    rcases hcd with rfl | rfl | rfl <;> simp

/-! ### Case and context -/

theorem asciiLetter_table : ∀ n < 26,
    (Char.ofNat (65 + n)).toLower = Char.ofNat (97 + n) ∧
      isCased (Char.ofNat (97 + n)) = isCased (Char.ofNat (65 + n)) ∧
      lowerChar (Char.ofNat (97 + n)) = lowerChar (Char.ofNat (65 + n)) ∧
      Char.ofNat (97 + n) ≠ capitalSigma ∧ Char.ofNat (65 + n) ≠ capitalSigma := by
  decide +kernel

/-- No ASCII letter is case-ignorable. -/
theorem caseIgnorable_table : ∀ r ∈ caseIgnorableRanges,
    r.2 < 65 ∨ 90 < r.1 ∧ r.2 < 97 ∨ 122 < r.1 := by
  decide +kernel

theorem isCaseIgnorable_letter {n first : Nat} (hn : n < 26) (hfirst : first = 65 ∨ first = 97) :
    isCaseIgnorable (Char.ofNat (first + n)) = false := by
  have hc : (Char.ofNat (first + n)).toNat = first + n := by
    rw [Char.toNat_ofNat, if_pos (.inl (by omega))]
  rw [isCaseIgnorable, CodeRanges.contains, List.any_eq_false]
  intro r hr
  have := caseIgnorable_table r hr
  rw [hc, Bool.and_eq_true, decide_eq_true_iff, decide_eq_true_iff]
  omega

theorem toLower_eq_or (c : Char) : c.toLower = c ∨ ∃ n < 26, c = Char.ofNat (65 + n) := by
  by_cases h : c.isUpper
  · have hc : 65 ≤ c.toNat ∧ c.toNat ≤ 90 := by
      simpa [Char.isUpper, UInt32.le_iff_toNat_le] using h
    refine .inr ⟨c.toNat - 65, by omega, ?_⟩
    rw [show 65 + (c.toNat - 65) = c.toNat by omega, Char.ofNat_toNat]
  · exact .inl (Char.toLower_eq_of_not_isUpper h)

theorem isCased_toLower (c : Char) : isCased c.toLower = isCased c := by
  rcases toLower_eq_or c with h | ⟨n, hn, rfl⟩
  · rw [h]
  · rw [(asciiLetter_table n hn).1, (asciiLetter_table n hn).2.1]

theorem isCaseIgnorable_toLower (c : Char) : isCaseIgnorable c.toLower = isCaseIgnorable c := by
  rcases toLower_eq_or c with h | ⟨n, hn, rfl⟩
  · rw [h]
  · rw [(asciiLetter_table n hn).1, isCaseIgnorable_letter hn (.inr rfl),
      isCaseIgnorable_letter hn (.inl rfl)]

theorem lowerChar_toLower (c : Char) : lowerChar c.toLower = lowerChar c := by
  rcases toLower_eq_or c with h | ⟨n, hn, rfl⟩
  · rw [h]
  · rw [(asciiLetter_table n hn).1, (asciiLetter_table n hn).2.2.1]

theorem toLower_eq_capitalSigma_iff (c : Char) : c.toLower = capitalSigma ↔ c = capitalSigma := by
  rcases toLower_eq_or c with h | ⟨n, hn, rfl⟩
  · rw [h]
  · obtain ⟨hlower, -, -, hsmall, hcapital⟩ := asciiLetter_table n hn
    rw [hlower]
    exact iff_of_false hsmall hcapital

theorem startsCased_cons (c : Char) (l : List Char) :
    startsCased (c :: l) = if isCaseIgnorable c then startsCased l else isCased c := by
  simp only [startsCased, List.dropWhile_cons]
  by_cases h : isCaseIgnorable c <;> simp [h]

theorem startsCased_map_toLower (l : List Char) :
    startsCased (l.map Char.toLower) = startsCased l := by
  induction l with
  | nil => rfl
  | cons c l ih =>
    rw [List.map_cons, startsCased_cons, startsCased_cons, isCaseIgnorable_toLower, isCased_toLower,
      ih]

theorem lowercaseAfter_map_toLower (before l : List Char) :
    lowercaseAfter (before.map Char.toLower) (l.map Char.toLower) = lowercaseAfter before l := by
  induction l generalizing before with
  | nil => rfl
  | cons c l ih =>
    have hrest := ih (c :: before)
    rw [List.map_cons] at hrest
    simp only [List.map_cons, lowercaseAfter, hrest, toLower_eq_capitalSigma_iff,
      startsCased_map_toLower, lowerChar_toLower]

theorem lowercase_of_recased {s t : String} (h : Recased s.toList t.toList) :
    lowercase t = lowercase s := by
  rw [lowercase, lowercase, ← lowercaseAfter_map_toLower [] t.toList, h.map_toLower,
    lowercaseAfter_map_toLower]

example : lowercase "Os\u03a3 a\u03a3'B" = "os\u03c2 a\u03c3'b" := by decide +kernel

/-! ### Lowercasing what is lowercase -/

namespace CaseRun

/-- What a letter of a run becomes. -/
def lower (r : CaseRun) (n : Nat) : Nat := (n + r.shift).toNat

/-- What the letters of a run become lies before or behind the letters of another run, or
between them. -/
def apart (r r' : CaseRun) : Bool :=
  r.lower r.last < r'.first || r'.last < r.lower r.first ||
    (r.step = 2 || r.first = r.last) && r'.step = 2 && (r.lower r.first - r'.first) % 2 = 1

theorem lower?_bounds {r : CaseRun} {n m : Nat} (h : r.lower? n = some m) :
    r.lower r.first ≤ m ∧ m ≤ r.lower r.last := by
  unfold lower? at h
  unfold lower
  split at h
  · cases h
    omega
  · cases h

theorem lower?_eq_none_of_apart {r r' : CaseRun} (h : r.apart r' = true) {n m : Nat}
    (hn : r.lower? n = some m) : r'.lower? m = none := by
  simp only [apart, Bool.or_eq_true, Bool.and_eq_true, decide_eq_true_eq] at h
  unfold lower at h
  unfold lower? at hn ⊢
  split at hn
  · rename_i hrun
    cases hn
    refine if_neg fun hrun' => ?_
    rcases h with (h | h) | ⟨⟨hstep | hsingle, hstep'⟩, hodd⟩
    · omega
    · omega
    · rw [hstep] at hrun
      rw [hstep'] at hrun'
      omega
    · rw [hstep'] at hrun'
      omega
  · cases hn

end CaseRun

theorem caseRuns_apart : (caseRuns.all fun r => caseRuns.all r.apart) = true := by
  decide +kernel

/-- What letters become are characters, and none is the capital I with a dot. -/
theorem caseRuns_valid : ∀ r ∈ caseRuns, r.lower r.last < 0x130 ∨
    0x130 < r.lower r.first ∧ r.lower r.last < 0xd800 ∨
    0xdfff < r.lower r.first ∧ r.lower r.last < 0x110000 := by
  decide +kernel

theorem lowerChar_of_findSome? {n m : Nat} (h : caseRuns.findSome? (·.lower? n) = some m) :
    lowerChar (Char.ofNat m) = [Char.ofNat m] := by
  obtain ⟨r, hr, hrun⟩ := List.exists_of_findSome?_eq_some h
  have hbounds := CaseRun.lower?_bounds hrun
  have hvalid := caseRuns_valid r hr
  have hm : (Char.ofNat m).toNat = m := by
    rw [Char.toNat_ofNat, if_pos]
    unfold Nat.isValidChar
    omega
  have hdotted : Char.ofNat m ≠ '\u0130' := by
    intro heq
    rw [heq] at hm
    have : m = 0x130 := hm.symm
    omega
  have hnone : caseRuns.findSome? (·.lower? m) = none := by
    rw [List.findSome?_eq_none_iff]
    intro r' hr'
    have hapart := List.all_eq_true.mp (List.all_eq_true.mp caseRuns_apart r hr) r' hr'
    exact CaseRun.lower?_eq_none_of_apart hapart hrun
  rw [lowerChar, if_neg hdotted, hm, hnone]

/-- A lowercase form is made of characters that are their own. -/
theorem lowerChar_of_mem {c d : Char} (h : d ∈ lowerChar c) : lowerChar d = [d] := by
  by_cases hc : c = '\u0130'
  · rw [lowerChar, if_pos hc, List.mem_cons, List.mem_singleton] at h
    have hletter : lowerChar 'i' = ['i'] := by decide +kernel
    have hdot : lowerChar '\u0307' = ['\u0307'] := by decide +kernel
    rcases h with rfl | rfl
    · exact hletter
    · exact hdot
  rw [lowerChar, if_neg hc] at h
  cases hrun : caseRuns.findSome? (·.lower? c.toNat) with
  | none =>
    rw [hrun, List.mem_singleton] at h
    rw [h, lowerChar, if_neg hc, hrun]
  | some n =>
    rw [hrun, List.mem_singleton] at h
    rw [h]
    exact lowerChar_of_findSome? hrun

theorem lowerChar_sigmas : lowerChar finalSigma = [finalSigma] ∧
    lowerChar smallSigma = [smallSigma] ∧ lowerChar capitalSigma ≠ [capitalSigma] := by
  decide +kernel

theorem lowerChar_of_mem_lowercaseAfter {before l : List Char} {d : Char}
    (h : d ∈ lowercaseAfter before l) : lowerChar d = [d] := by
  induction l generalizing before with
  | nil => cases h
  | cons c l ih =>
    rw [lowercaseAfter, List.mem_append] at h
    rcases h with h | h
    · split at h
      · split at h
        · rw [List.mem_singleton.mp h]
          exact lowerChar_sigmas.1
        · rw [List.mem_singleton.mp h]
          exact lowerChar_sigmas.2.1
      · exact lowerChar_of_mem h
    · exact ih h

theorem lowercaseAfter_of_lower {l : List Char} (h : ∀ c ∈ l, lowerChar c = [c])
    (before : List Char) : lowercaseAfter before l = l := by
  induction l generalizing before with
  | nil => rfl
  | cons c l ih =>
    have hc := h c List.mem_cons_self
    have hsigma : c ≠ capitalSigma := by
      rintro rfl
      exact lowerChar_sigmas.2.2 hc
    rw [lowercaseAfter, if_neg hsigma, hc, ih fun d hd => h d (List.mem_cons_of_mem c hd),
      List.singleton_append]

theorem lowercase_lowercase (s : String) : lowercase (lowercase s) = lowercase s := by
  have h : (lowercase s).toList = lowercaseAfter [] s.toList := String.toList_ofList
  rw [lowercase, h, lowercaseAfter_of_lower fun _ hd => lowerChar_of_mem_lowercaseAfter hd,
    lowercase]

end SipMigrate.Text
