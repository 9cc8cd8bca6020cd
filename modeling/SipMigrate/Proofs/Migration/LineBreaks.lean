import SipMigrate.Proofs.Migration.Splitting

/-! Line feeds with something before them. A carriage return in front of every line
feed of a script moves no terminator: the statements stay the same, but for a
space in front of every line feed within them. -/

namespace SipMigrate.Migration.Script

open Text

/-- The text with `feed` in the place of every line feed. -/
def withFeed (feed : List Char) (l : List Char) : List Char :=
  l.flatMap fun c => if c = '\n' then feed else [c]

variable {feed : List Char}

@[simp] theorem withFeed_nil (feed : List Char) : withFeed feed [] = [] := rfl

theorem withFeed_cons (feed : List Char) (c : Char) (l : List Char) :
    withFeed feed (c :: l) = (if c = '\n' then feed else [c]) ++ withFeed feed l := rfl

theorem withFeed_append (feed l l' : List Char) :
    withFeed feed (l ++ l') = withFeed feed l ++ withFeed feed l' := List.flatMap_append

theorem withFeed_eq_nil (h : feed ≠ []) {l : List Char} : withFeed feed l = [] ↔ l = [] := by
  cases l with
  | nil => simp
  | cons c l =>
    rw [withFeed_cons]
    split <;> simp [h]

theorem map_withFeed (l : List Char) :
    (withFeed ['\r', '\n'] l).map spaceForReturn =
      withFeed [' ', '\n'] (l.map spaceForReturn) := by
  induction l with
  | nil => rfl
  | cons c l ih =>
    rw [withFeed_cons, List.map_append, ih, List.map_cons, withFeed_cons]
    by_cases hc : c = '\n'
    · subst hc
      rfl
    · by_cases hr : c = '\r'
      · subst hr
        rfl
      · simp [hc, spaceForReturn, hr]

/-! ### Trimming -/

theorem trimStart_withFeed (h : AllBlank feed) (l : List Char) :
    trimStart (withFeed feed l) = withFeed feed (trimStart l) := by
  induction l with
  | nil => rfl
  | cons c l ih =>
    rw [withFeed_cons]
    cases hc : isBlank c with
    | true =>
      have hb : AllBlank (if c = '\n' then feed else [c]) := by
        split
        · exact h
        · simpa [AllBlank] using hc
      rw [trimStart_append_left hb, ih]
      simp [trimStart, hc]
    | false =>
      have hn : c ≠ '\n' := by
        rintro rfl
        cases hc
      rw [if_neg hn, List.singleton_append, trimStart_of_not_isBlank hc,
        trimStart_of_not_isBlank hc, withFeed_cons, if_neg hn]
      rfl

theorem reverse_withFeed (l : List Char) :
    (withFeed feed l).reverse = withFeed feed.reverse l.reverse := by
  induction l with
  | nil => rfl
  | cons c l ih =>
    rw [withFeed_cons, List.reverse_append, ih, List.reverse_cons, withFeed_append]
    congr 1
    by_cases hc : c = '\n' <;> simp [hc, withFeed]

theorem trim_withFeed (h : AllBlank feed) (l : List Char) :
    trim (withFeed feed l) = withFeed feed (trim l) := by
  have hr : AllBlank feed.reverse := fun c hc => h c (List.mem_reverse.mp hc)
  have hend : ∀ l, trimEnd (withFeed feed l) = withFeed feed (trimEnd l) := by
    intro l
    have := trimStart_withFeed hr l.reverse
    unfold trimStart at this
    unfold trimEnd
    rw [reverse_withFeed, this, reverse_withFeed, List.reverse_reverse]
  rw [trim, trimStart_withFeed h, hend, trim]

/-! ### Cutting -/

theorem endsLine_withFeed (l : List Char) : endsLine (withFeed [' ', '\n'] l) = endsLine l := by
  induction l with
  | nil => rfl
  | cons c l ih =>
    rw [withFeed_cons]
    by_cases hc : c = '\n'
    · subst hc
      rfl
    · have h (rest : List Char) : endsLine (c :: rest) = (isBlank c && endsLine rest) := by
        simp [endsLine, hc]
      rw [if_neg hc, List.singleton_append, h, h, ih]

/-- A text is cut where it was cut without the spaces. -/
theorem cut_withFeed (l : List Char) :
    cut (marked (withFeed [' ', '\n'] l)) = (cut (marked l)).map (withFeed [' ', '\n']) := by
  have hhead (u : List Char) (pieces : List (List Char)) :
      (pieces.modifyHead (u ++ ·)).map (withFeed [' ', '\n']) =
        (pieces.map (withFeed [' ', '\n'])).modifyHead (withFeed [' ', '\n'] u ++ ·) := by
    cases pieces <;> simp [withFeed_append]
  induction l with
  | nil => rfl
  | cons c l ih =>
    have hmarked : marked (c :: l) = (c, c = ';' && endsLine l) :: marked l := rfl
    cases hm : (c = ';' && endsLine l : Bool) with
    | true =>
      have hc : c = ';' := by simp_all
      have hfeed : withFeed [' ', '\n'] (c :: l) = c :: withFeed [' ', '\n'] l := by
        rw [withFeed_cons, hc]
        rfl
      rw [hfeed, marked, endsLine_withFeed, hmarked, hm, cut_terminator, cut_terminator, ih]
      rfl
    | false =>
      have hu : marked (withFeed [' ', '\n'] (c :: l)) =
          unmarked (withFeed [' ', '\n'] [c]) ++ marked (withFeed [' ', '\n'] l) := by
        rw [withFeed_cons]
        by_cases hc : c = '\n'
        · subst hc
          rfl
        · rw [if_neg hc, List.singleton_append, marked, endsLine_withFeed, hm]
          simp [withFeed, hc, unmarked]
      rw [hu, cut_unmarked_append, ih, hmarked, hm, ← hhead]
      congr 1
      exact (cut_unmarked_append [c] (marked l)).symm

/-- Carriage returns in front of all line feeds leave the statements alone, but for a space in
front of every line feed within them. -/
theorem statements_withFeed (text : String) :
    statements (String.ofList (withFeed ['\r', '\n'] text.toList)) =
      (statements text).map fun s => String.ofList (withFeed [' ', '\n'] s.toList) := by
  have hb : AllBlank [' ', '\n'] := by decide
  have hempty : (fun p : List Char => !p.isEmpty) ∘ withFeed [' ', '\n'] =
      fun p => !p.isEmpty := by
    funext p
    rw [Function.comp_apply, Bool.not_inj_iff, Bool.eq_iff_iff, List.isEmpty_iff, List.isEmpty_iff]
    exact withFeed_eq_nil (by simp)
  have htrim : trim ∘ withFeed [' ', '\n'] = withFeed [' ', '\n'] ∘ trim :=
    funext fun l => trim_withFeed hb l
  rw [statements_eq, statements_eq, String.toList_ofList, map_withFeed, cut_withFeed,
    List.map_map, htrim, ← List.map_map, List.filter_map, hempty]
  simp [Function.comp_def]

example : statements (String.ofList (withFeed ['\r', '\n'] "a\n\n b; \n;\nc".toList)) =
    ["a \n \n b", "c"] := by
  decide +kernel

end SipMigrate.Migration.Script
