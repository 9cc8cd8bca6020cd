import Mathlib
import SipMigrate.Text.Blank

/-! Trimming takes blanks away at the ends of a text, and nothing else. -/

namespace SipMigrate.Text

variable {b l : List Char} {c : Char}

/-- A text of blanks only. -/
def AllBlank (l : List Char) : Prop := ∀ c ∈ l, isBlank c = true

theorem allBlank_iff : AllBlank l ↔ l.all isBlank = true := List.all_eq_true.symm

instance (l : List Char) : Decidable (AllBlank l) := decidable_of_iff' _ allBlank_iff

theorem AllBlank.append {b' : List Char} (h : AllBlank b) (h' : AllBlank b') :
    AllBlank (b ++ b') := by
  intro c hc
  rcases List.mem_append.mp hc with hc | hc
  · exact h c hc
  · exact h' c hc

theorem trimStart_append_left (h : AllBlank b) (l : List Char) :
    trimStart (b ++ l) = trimStart l :=
  List.dropWhile_append_of_pos h

theorem trimEnd_append_right (h : AllBlank b) (l : List Char) : trimEnd (l ++ b) = trimEnd l := by
  unfold trimEnd
  rw [List.reverse_append, List.dropWhile_append_of_pos]
  intro c hc
  exact h c (List.mem_reverse.mp hc)

theorem trim_append_left (h : AllBlank b) (l : List Char) : trim (b ++ l) = trim l := by
  rw [trim, trimStart_append_left h, trim]

theorem trim_append_right (h : AllBlank b) (l : List Char) : trim (l ++ b) = trim l := by
  unfold trim trimStart
  rw [List.dropWhile_append]
  split
  · rename_i hl
    rw [List.isEmpty_iff.mp hl, List.dropWhile_eq_nil_iff.mpr h]
  · exact trimEnd_append_right h _

theorem trim_of_allBlank (h : AllBlank b) : trim b = [] := by
  have := trim_append_left h []
  rwa [List.append_nil] at this

theorem trim_of_no_blank (h : ∀ c ∈ l, isBlank c = false) : trim l = l := by
  have hstart (l' : List Char) (h' : ∀ c ∈ l', isBlank c = false) : l'.dropWhile isBlank = l' := by
    cases l' with
    | nil => rfl
    | cons c l' => rw [List.dropWhile_cons_of_neg (by simp [h' c List.mem_cons_self])]
  have hreverse (c : Char) (hc : c ∈ l.reverse) : isBlank c = false := h c (List.mem_reverse.mp hc)
  rw [trim, trimStart, hstart l h, trimEnd, hstart l.reverse hreverse, List.reverse_reverse]

/-- What is trimmed at the end of a text are blanks. -/
theorem exists_trimEnd_append (l : List Char) : ∃ b, AllBlank b ∧ l = trimEnd l ++ b := by
  refine ⟨(l.reverse.takeWhile isBlank).reverse, ?_, ?_⟩
  · intro c hc
    exact List.mem_takeWhile_imp (List.mem_reverse.mp hc)
  · rw [trimEnd, ← List.reverse_append, List.takeWhile_append_dropWhile, List.reverse_reverse]

theorem exists_append_trimStart (l : List Char) : ∃ b, AllBlank b ∧ l = b ++ trimStart l :=
  ⟨l.takeWhile isBlank, fun _ hc => List.mem_takeWhile_imp hc,
    List.takeWhile_append_dropWhile.symm⟩

theorem exists_trim (l : List Char) :
    ∃ b b', AllBlank b ∧ AllBlank b' ∧ l = b ++ (trim l ++ b') := by
  obtain ⟨b, hb, hl⟩ := exists_append_trimStart l
  obtain ⟨b', hb', ht⟩ := exists_trimEnd_append (trimStart l)
  exact ⟨b, b', hb, hb', by rw [trim, ← ht, ← hl]⟩

theorem trim_trim (l : List Char) : trim (trim l) = trim l := by
  obtain ⟨b, b', hb, hb', hl⟩ := exists_trim l
  have h := congrArg trim hl
  rw [trim_append_left hb, trim_append_right hb'] at h
  exact h.symm

/-- A trimmed text ends with no blank. -/
theorem isBlank_of_trimEnd_eq {front : List Char} (h : trimEnd l = front ++ [c]) :
    isBlank c = false := by
  have hd := List.head?_dropWhile_not isBlank l.reverse
  have hr : l.reverse.dropWhile isBlank = c :: front.reverse := by
    rw [List.reverse_eq_iff.mp h, List.reverse_append]
    rfl
  rw [hr] at hd
  exact hd

/-- The characters of a text that are not blank. -/
def visibleChars (l : List Char) : List Char := l.filter fun c => !isBlank c

theorem visibleChars_append (l l' : List Char) :
    visibleChars (l ++ l') = visibleChars l ++ visibleChars l' := List.filter_append ..

theorem visibleChars_of_allBlank (h : AllBlank b) : visibleChars b = [] := by
  rw [visibleChars, List.filter_eq_nil_iff]
  intro c hc
  simp [h c hc]

theorem visibleChars_trim (l : List Char) : visibleChars (trim l) = visibleChars l := by
  obtain ⟨b, hb, hl⟩ := exists_append_trimStart l
  obtain ⟨b', hb', ht⟩ := exists_trimEnd_append (trimStart l)
  calc visibleChars (trim l)
      = visibleChars (trim l ++ b') := by
        rw [visibleChars_append, visibleChars_of_allBlank hb', List.append_nil]
    _ = visibleChars (b ++ trimStart l) := by
        rw [visibleChars_append b, visibleChars_of_allBlank hb, List.nil_append, trim, ← ht]
    _ = visibleChars l := by rw [← hl]

end SipMigrate.Text
