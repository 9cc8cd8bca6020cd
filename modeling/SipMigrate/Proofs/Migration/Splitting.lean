import SipMigrate.Migration.Script
import SipMigrate.Proofs.Text.Trimming

/-! Where a script is cut. The splitter reads a script line by line; what it finds
is told here by the places of single characters. A terminator is a semicolon with
nothing but blanks between it and the end of its line, and the statements are the
trimmed pieces between terminators. -/

namespace SipMigrate.Migration.Script

open Text

/-! ### Terminators -/

/-- Whether nothing but blanks stands before the next line feed. -/
def endsLine (rest : List Char) : Bool := (rest.takeWhile (· ≠ '\n')).all isBlank

/-- The characters of a text, and whether each of them is a terminator. -/
def marked : List Char → List (Char × Bool)
  | [] => []
  | c :: rest => (c, c = ';' && endsLine rest) :: marked rest

/-- The pieces between the marked characters of a text, which are left out. -/
def cut (text : List (Char × Bool)) : List (List Char) :=
  (text.splitOnP Prod.snd).map (·.map Prod.fst)

/-- Characters none of which is a terminator. -/
def unmarked (l : List Char) : List (Char × Bool) := l.map (·, false)

variable {l line rest b : List Char} {c : Char}

theorem isBlank_semicolon : isBlank ';' = false := by decide

theorem endsLine_append (h : '\n' ∉ line) (rest : List Char) :
    endsLine (line ++ rest) = (line.all isBlank && endsLine rest) := by
  have hl : ∀ c ∈ line, decide (c ≠ '\n') = true := by
    intro c hc
    rw [decide_eq_true_eq]
    rintro rfl
    exact h hc
  rw [endsLine, List.takeWhile_append_of_pos hl, List.all_append, endsLine]

theorem endsLine_cons_of_not_isBlank (hc : isBlank c = false) (hn : c ≠ '\n')
    (rest : List Char) : endsLine (c :: rest) = false := by
  simp [endsLine, hn, hc]

theorem marked_append_of_allBlank (h : AllBlank b) (rest : List Char) :
    marked (b ++ rest) = unmarked b ++ marked rest := by
  induction b with
  | nil => rfl
  | cons c b ih =>
    have hc : c ≠ ';' := by
      rintro rfl
      have := h ';' List.mem_cons_self
      rw [isBlank_semicolon] at this
      cases this
    rw [List.cons_append, marked, ih fun c hb => h c (List.mem_cons_of_mem _ hb)]
    simp [unmarked, hc]

/-- Before a character that keeps the line from ending there is no terminator. -/
theorem marked_append_of_not_endsLine (h : '\n' ∉ line) (hr : endsLine rest = false) :
    marked (line ++ rest) = unmarked line ++ marked rest := by
  induction line with
  | nil => rfl
  | cons c line ih =>
    have hl : '\n' ∉ line := fun hm => h (List.mem_cons_of_mem _ hm)
    rw [List.cons_append, marked, ih hl, endsLine_append hl, hr]
    simp [unmarked]

/-! ### Cutting -/

theorem splitOnP_unmarked_append (l : List Char) (text : List (Char × Bool)) :
    (unmarked l ++ text).splitOnP Prod.snd =
      (text.splitOnP Prod.snd).modifyHead (unmarked l ++ ·) := by
  induction l with
  | nil =>
    show text.splitOnP Prod.snd = _
    cases text.splitOnP Prod.snd <;> rfl
  | cons c l ih =>
    show ((c, false) :: (unmarked l ++ text)).splitOnP Prod.snd = _
    rw [List.splitOnP_cons_eq_if_modifyHead, if_neg Bool.false_ne_true, ih,
      List.modifyHead_modifyHead]
    rfl

theorem map_fst_unmarked (l : List Char) : (unmarked l).map Prod.fst = l := by
  simp [unmarked, Function.comp_def]

theorem cut_unmarked_append (l : List Char) (text : List (Char × Bool)) :
    cut (unmarked l ++ text) = (cut text).modifyHead (l ++ ·) := by
  rw [cut, splitOnP_unmarked_append, cut]
  cases text.splitOnP Prod.snd with
  | nil => rfl
  | cons piece more => simp [map_fst_unmarked]

theorem cut_terminator (c : Char) (text : List (Char × Bool)) :
    cut ((c, true) :: text) = [] :: cut text := by
  rw [cut, List.splitOnP_cons_eq_if_modifyHead, if_pos rfl]
  rfl

theorem modifyHead_append_append (u v : List Char) (pieces : List (List Char)) :
    (pieces.modifyHead (v ++ ·)).modifyHead (u ++ ·) = pieces.modifyHead ((u ++ v) ++ ·) := by
  cases pieces with
  | nil => rfl
  | cons piece more => simp

theorem map_trim_modifyHead (h : AllBlank b) (pieces : List (List Char)) :
    (pieces.modifyHead (b ++ ·)).map trim = pieces.map trim := by
  cases pieces with
  | nil => rfl
  | cons piece more => simp [trim_append_left h]

/-! ### Lines -/

theorem lines_of_not_mem (h : '\n' ∉ line) : lines line = [line] := by
  induction line with
  | nil => rfl
  | cons c line ih =>
    rw [List.mem_cons, not_or] at h
    rw [lines, if_neg (Ne.symm h.1), ih h.2]

theorem lines_append (h : '\n' ∉ line) (rest : List Char) :
    lines (line ++ '\n' :: rest) = line :: lines rest := by
  induction line with
  | nil => simp [lines]
  | cons c line ih =>
    rw [List.mem_cons, not_or] at h
    rw [List.cons_append, lines, if_neg (Ne.symm h.1), ih h.2]

/-- A text is a line, or a line with a line feed and a text behind it. -/
theorem line_induction {P : List Char → Prop} (last : ∀ line, '\n' ∉ line → P line)
    (step : ∀ line rest, '\n' ∉ line → P rest → P (line ++ '\n' :: rest)) (l : List Char) :
    P l := by
  induction hn : l.length using Nat.strong_induction_on generalizing l with
  | h n ih =>
    by_cases h : '\n' ∈ l
    · obtain ⟨line, rest, rfl, hline⟩ := List.eq_append_cons_of_mem h
      have hlt : rest.length < n := by
        rw [← hn, List.length_append, List.length_cons]
        omega
      exact step line rest hline (ih _ hlt rest rfl)
    · exact last l h

theorem exists_of_beforeTerminator? {body : List Char} (h : beforeTerminator? line = some body) :
    ∃ b, AllBlank b ∧ line = body ++ ';' :: b := by
  obtain ⟨b, hb, hl⟩ := exists_trimEnd_append line
  unfold beforeTerminator? at h
  split at h
  · rename_i hlast
    obtain ⟨front, hfront⟩ := List.getLast?_eq_some_iff.mp hlast
    rw [hfront, List.dropLast_concat] at h
    refine ⟨b, hb, ?_⟩
    rw [hl, hfront, Option.some.inj h, List.append_assoc]
    rfl
  · cases h

/-- What stands behind a line: nothing, or a line feed. -/
def IsLineEnd (rest : List Char) : Prop := rest = [] ∨ ∃ more, rest = '\n' :: more

theorem IsLineEnd.endsLine (h : IsLineEnd rest) : endsLine rest = true := by
  rcases h with rfl | ⟨more, rfl⟩ <;> rfl

/-- A line whose last character but for blanks is a semicolon is cut there. -/
theorem cut_line_of_terminator {body : List Char} (hn : '\n' ∉ line) (hr : IsLineEnd rest)
    (h : beforeTerminator? line = some body) :
    ∃ b, AllBlank b ∧
      cut (marked (line ++ rest)) = body :: (cut (marked rest)).modifyHead (b ++ ·) := by
  obtain ⟨b, hb, hline⟩ := exists_of_beforeTerminator? h
  have hbody : '\n' ∉ body := fun hm => hn (by rw [hline]; exact List.mem_append_left _ hm)
  have hbn : '\n' ∉ b := fun hm => hn (by rw [hline]; simp [hm])
  have hend : endsLine (b ++ rest) = true := by
    rw [endsLine_append hbn, hr.endsLine, Bool.and_true, List.all_eq_true]
    exact hb
  have hsemicolon : endsLine (';' :: (b ++ rest)) = false :=
    endsLine_cons_of_not_isBlank isBlank_semicolon (by decide) _
  refine ⟨b, hb, ?_⟩
  rw [hline, List.append_assoc, List.cons_append, marked_append_of_not_endsLine hbody hsemicolon,
    cut_unmarked_append, marked, hend, marked_append_of_allBlank hb]
  simp [cut_terminator, cut_unmarked_append]

/-- Any other line is not cut. -/
theorem cut_line_of_none (hn : '\n' ∉ line) (h : beforeTerminator? line = none)
    (rest : List Char) :
    cut (marked (line ++ rest)) = (cut (marked rest)).modifyHead (line ++ ·) := by
  obtain ⟨b, hb, hl⟩ := exists_trimEnd_append line
  suffices hm : marked (line ++ rest) = unmarked line ++ marked rest by
    rw [hm, cut_unmarked_append]
  rcases List.eq_nil_or_concat (trimEnd line) with ht | ⟨front, c, ht⟩
  · rw [ht, List.nil_append] at hl
    rw [hl]
    exact marked_append_of_allBlank hb rest
  · rw [List.concat_eq_append] at ht
    have hc : c ≠ ';' := by
      rintro rfl
      simp [beforeTerminator?, ht] at h
    have hline : line = front ++ c :: b := by
      rw [hl, ht, List.append_assoc]
      rfl
    have hfront : '\n' ∉ front := fun hm => hn (by rw [hline]; exact List.mem_append_left _ hm)
    have hcn : c ≠ '\n' := by
      rintro rfl
      exact hn (by rw [hline]; simp)
    have hend := endsLine_cons_of_not_isBlank (isBlank_of_trimEnd_eq ht) hcn (b ++ rest)
    rw [hline, List.append_assoc, List.cons_append, marked_append_of_not_endsLine hfront hend,
      marked, marked_append_of_allBlank hb]
    simp [unmarked, hc]

/-- What is gathered from the lines of a text, and what has been read before it, are the
pieces of the text but for blanks at their ends. -/
theorem map_trim_gather (l current : List Char) :
    (gather current (lines l)).map trim =
      ((cut (marked l)).modifyHead (current ++ ·)).map trim := by
  induction l using line_induction generalizing current with
  | last line hn =>
    rw [lines_of_not_mem hn]
    have hnil : cut (marked []) = [[]] := rfl
    cases h : beforeTerminator? line with
    | some body =>
      obtain ⟨b, hb, hcut⟩ := cut_line_of_terminator hn (.inl rfl) h
      rw [List.append_nil, hnil] at hcut
      simp [gather, h, hcut, trim_of_allBlank hb, trim_of_allBlank (b := []) (by nofun)]
    | none =>
      have hcut := cut_line_of_none hn h []
      rw [List.append_nil, hnil] at hcut
      have hb : AllBlank ['\n'] := by simp [AllBlank, isBlank]
      simpa [gather, h, hcut] using trim_append_right hb (current ++ line)
  | step line rest hn ih =>
    rw [lines_append hn]
    have hfeed : cut (marked ('\n' :: rest)) = (cut (marked rest)).modifyHead (['\n'] ++ ·) :=
      cut_unmarked_append ['\n'] (marked rest)
    cases h : beforeTerminator? line with
    | some body =>
      obtain ⟨b, hb, hcut⟩ := cut_line_of_terminator hn (.inr ⟨rest, rfl⟩) h
      have hb' : AllBlank (b ++ ['\n']) := hb.append (by simp [AllBlank, isBlank])
      have hrest : (gather [] (lines rest)).map trim = (cut (marked rest)).map trim := by
        rw [ih, map_trim_modifyHead (b := []) nofun]
      rw [hfeed, modifyHead_append_append] at hcut
      rw [hcut, gather, h, List.modifyHead_cons, List.map_cons, List.map_cons, hrest,
        map_trim_modifyHead hb']
    | none =>
      rw [cut_line_of_none hn h, hfeed, modifyHead_append_append, modifyHead_append_append,
        gather, h, ih, List.append_assoc]

/-! ### Statements -/

theorem map_spaceForReturn {l : List Char} (h : '\r' ∉ l) : l.map spaceForReturn = l := by
  refine (List.map_congr_left fun c hc => ?_).trans l.map_id
  exact if_neg fun hr : c = '\r' => h (hr ▸ hc)

theorem isBlank_spaceForReturn (c : Char) : isBlank (spaceForReturn c) = isBlank c := by
  unfold spaceForReturn
  split
  · rename_i hc
    rw [hc]
    decide
  · rfl

/-- A space in place of a carriage return changes no terminator. -/
theorem endsLine_map (rest : List Char) :
    endsLine (rest.map spaceForReturn) = endsLine rest := by
  have hfeed : (fun c => decide (c ≠ '\n')) ∘ spaceForReturn = fun c => decide (c ≠ '\n') := by
    funext c
    rw [Function.comp_apply, spaceForReturn]
    split
    · rename_i hc
      rw [hc]
      decide
    · rfl
  have hblank : isBlank ∘ spaceForReturn = isBlank := funext isBlank_spaceForReturn
  rw [endsLine, List.takeWhile_map, hfeed, List.all_map, hblank, endsLine]

theorem marked_map (l : List Char) :
    marked (l.map spaceForReturn) = (marked l).map (Prod.map spaceForReturn id) := by
  induction l with
  | nil => rfl
  | cons c l ih =>
    have hc : spaceForReturn c = ';' ↔ c = ';' := by
      unfold spaceForReturn
      split <;> simp_all
    simp [marked, ih, endsLine_map, hc]

theorem visibleChars_flatten (pieces : List (List Char)) :
    visibleChars ((pieces.map trim).filter fun p => !p.isEmpty).flatten =
      visibleChars pieces.flatten := by
  induction pieces with
  | nil => rfl
  | cons piece more ih =>
    have htrim := visibleChars_trim piece
    rw [List.flatten_cons, visibleChars_append, ← ih, List.map_cons]
    cases hp : trim piece with
    | nil =>
      rw [hp] at htrim
      rw [← htrim, List.filter_cons_of_neg (by simp)]
      rfl
    | cons c rest =>
      rw [hp] at htrim
      rw [← htrim, List.filter_cons_of_pos (by simp), List.flatten_cons, visibleChars_append]

/-- Nothing but the marked characters is lost in a cut. -/
theorem flatten_cut (text : List (Char × Bool)) :
    (cut text).flatten = (text.filter fun p => !p.2).map Prod.fst := by
  induction text with
  | nil => rfl
  | cons p text ih =>
    obtain ⟨c, isTerminator⟩ := p
    cases isTerminator with
    | true => simp [cut_terminator, ih]
    | false =>
      have hc : cut ((c, false) :: text) = (cut text).modifyHead ([c] ++ ·) :=
        cut_unmarked_append [c] text
      have hne : cut text ≠ [] := by simp [cut]
      rw [hc]
      cases hcut : cut text with
      | nil => exact absurd hcut hne
      | cons piece more =>
        rw [hcut] at ih
        simpa using ih

/-- A character that is not blank stays as it is. -/
theorem visibleChars_map_spaceForReturn (l : List Char) :
    visibleChars (l.map spaceForReturn) = visibleChars l := by
  induction l with
  | nil => rfl
  | cons c l ih =>
    unfold visibleChars at ih ⊢
    rw [List.map_cons, List.filter_cons, List.filter_cons, isBlank_spaceForReturn, ih]
    by_cases hc : c = '\r'
    · rw [hc]
      rfl
    · rw [spaceForReturn, if_neg hc]

theorem map_fst_marked (l : List Char) : (marked l).map Prod.fst = l := by
  induction l with
  | nil => rfl
  | cons c l ih => rw [marked, List.map_cons, ih]

theorem mem_of_mem_cut {l piece : List Char} {c : Char} (h : piece ∈ cut (marked l))
    (hc : c ∈ piece) : c ∈ l := by
  have hm : c ∈ (cut (marked l)).flatten := List.mem_flatten.mpr ⟨piece, h, hc⟩
  rw [flatten_cut] at hm
  rw [← map_fst_marked l]
  exact List.map_subset _ (List.filter_subset_self _) hm

/-- The statements as the trimmed pieces of the text in which spaces stand for carriage returns. -/
theorem statements_eq (text : String) :
    statements text = (((cut (marked (text.toList.map spaceForReturn))).map trim).filter
      fun p => !p.isEmpty).map String.ofList := by
  rw [statements, map_trim_gather, map_trim_modifyHead (b := []) nofun]

/-- The statements of a script are its pieces between terminators, with spaces for carriage
returns, trimmed, and without the empty ones. So the characters that are not blank are
those of the script but for the terminators, each once and in order. -/
theorem statements_eq_cut (text : String) :
    statements text =
        (((cut ((marked text.toList).map (Prod.map spaceForReturn id))).map trim).filter
          fun p => !p.isEmpty).map String.ofList ∧
      ((statements text).flatMap fun s => visibleChars s.toList) =
        ((marked text.toList).filter fun p => !p.2 && !isBlank p.1).map Prod.fst := by
  have hpieces : (gather [] (lines (text.toList.map spaceForReturn))).map trim =
      (cut ((marked text.toList).map (Prod.map spaceForReturn id))).map trim := by
    rw [map_trim_gather, map_trim_modifyHead (b := []) nofun, marked_map]
  have hstatements : statements text = (((cut ((marked text.toList).map
      (Prod.map spaceForReturn id))).map trim).filter fun p => !p.isEmpty).map String.ofList := by
    rw [statements, hpieces]
  refine ⟨hstatements, ?_⟩
  have hflat (pieces : List (List Char)) :
      ((pieces.map String.ofList).flatMap fun s => visibleChars s.toList) =
        visibleChars pieces.flatten := by
    simp [visibleChars, List.filter_flatten, List.flatMap_def, Function.comp_def]
  have hmap : (((marked text.toList).map (Prod.map spaceForReturn id)).filter
      fun p => !p.2).map Prod.fst =
        (((marked text.toList).filter fun p => !p.2).map Prod.fst).map spaceForReturn := by
    rw [List.filter_map, List.map_map, List.map_map]
    rfl
  rw [hstatements, hflat, visibleChars_flatten, flatten_cut, hmap, visibleChars_map_spaceForReturn,
    visibleChars, List.filter_map, List.filter_filter]
  congr 2
  funext p
  simp [Bool.and_comm]

example : statements "a;;\nb; ;\r\n;\nc ;d" = ["a;", "b;", "c ;d"] := by decide +kernel

end SipMigrate.Migration.Script
