import SipMigrate.Proofs.Migration.Splitting

/-! Scripts that are written down statement by statement. What the splitter finds
are canonical texts, and canonical texts are found again when each is written
with a semicolon at the end of a line behind it, whatever white space stands
around them. -/

namespace SipMigrate.Migration.Script

open Text

/-- A statement as the splitter finds it. No semicolon ends one of its lines but the last. -/
structure IsCanonical (s : String) : Prop where
  nonempty : s ≠ ""
  trimmed : trim s.toList = s.toList
  noReturn : '\r' ∉ s.toList
  goesOn : ∀ line ∈ (lines s.toList).dropLast, (trimEnd line).getLast? ≠ some ';'

instance (s : String) : Decidable (IsCanonical s) :=
  decidable_of_iff (s ≠ "" ∧ trim s.toList = s.toList ∧ '\r' ∉ s.toList ∧
      ∀ line ∈ (lines s.toList).dropLast, (trimEnd line).getLast? ≠ some ';')
    ⟨fun ⟨h₁, h₂, h₃, h₄⟩ => ⟨h₁, h₂, h₃, h₄⟩, fun ⟨h₁, h₂, h₃, h₄⟩ => ⟨h₁, h₂, h₃, h₄⟩⟩

/-- The white space around a statement: in front of it, between it and its semicolon, and
behind the semicolon. -/
structure Spacing where
  front : List Char
  gap : List Char
  tail : List Char
  front_blank : AllBlank front
  gap_blank : AllBlank gap
  tail_blank : AllBlank tail
  gap_line : '\n' ∉ gap
  tail_line : '\n' ∉ tail

def Spacing.none : Spacing := ⟨[], [], [], nofun, nofun, nofun, nofun, nofun⟩

/-- A statement with its semicolon and the line feed. -/
def Spacing.write (w : Spacing) (s : String) : List Char :=
  w.front ++ (s.toList ++ (w.gap ++ ';' :: (w.tail ++ ['\n'])))

/-- A script that is written statement by statement. -/
def written (l : List (Spacing × String)) : String :=
  String.ofList (l.flatMap fun p => p.1.write p.2)

variable {l u v b gap tail rest : List Char}

/-! ### Texts that are not cut -/

/-- A semicolon that ends a line stands on the last line. -/
def IsUncut (l : List Char) : Prop := ∀ u v, l = u ++ ';' :: v → endsLine v = true → '\n' ∉ v

theorem IsUncut.of_append (h : IsUncut (u ++ l)) : IsUncut l := by
  rintro u' v rfl
  exact h (u ++ u') v (by simp)

/-- Behind a line feed nothing keeps the line in front of it from ending. -/
theorem endsLine_append_of_mem (h : '\n' ∈ v) (rest : List Char) :
    endsLine (v ++ rest) = endsLine v := by
  obtain ⟨line, more, rfl, hline⟩ := List.eq_append_cons_of_mem h
  rw [List.append_assoc, endsLine_append hline, endsLine_append hline]
  rfl

theorem IsUncut.of_append_right (h : IsUncut (l ++ b)) : IsUncut l := by
  rintro u v rfl hv hn
  refine h u (v ++ b) (by simp) ?_ (List.mem_append_left _ hn)
  rw [endsLine_append_of_mem hn, hv]

theorem IsUncut.trim (h : IsUncut l) : IsUncut (Text.trim l) := by
  obtain ⟨b, -, hl⟩ := exists_append_trimStart l
  obtain ⟨b', -, ht⟩ := exists_trimEnd_append (trimStart l)
  have hs : IsUncut (trimStart l) := .of_append (u := b) (hl ▸ h)
  exact .of_append_right (b := b') (ht ▸ hs)

theorem beforeTerminator?_eq_none {line : List Char} :
    beforeTerminator? line = none ↔ (trimEnd line).getLast? ≠ some ';' := by
  unfold beforeTerminator?
  split <;> simp_all

theorem lines_ne_nil (l : List Char) : lines l ≠ [] := by
  cases l with
  | nil => simp [lines]
  | cons c l =>
    rw [lines]
    split
    · simp
    · split <;> simp

/-- A line with a semicolon behind which nothing but blanks stands. -/
theorem beforeTerminator?_of_allBlank (h : AllBlank b) (u : List Char) :
    beforeTerminator? (u ++ ';' :: b) = some u := by
  have ht : trimEnd (u ++ ';' :: b) = u ++ [';'] := by
    rw [show u ++ ';' :: b = (u ++ [';']) ++ b by simp, trimEnd_append_right h,
      trimEnd_of_not_isBlank isBlank_semicolon]
  simp [beforeTerminator?, ht]

theorem isUncut_iff (l : List Char) :
    IsUncut l ↔ ∀ line ∈ (lines l).dropLast, beforeTerminator? line = none := by
  induction l using line_induction with
  | last line hn =>
    rw [lines_of_not_mem hn]
    refine iff_of_true ?_ (by simp)
    rintro u v rfl - hv
    exact hn (by simp [hv])
  | step line rest hn ih =>
    rw [lines_append hn, List.dropLast_cons_of_ne_nil (lines_ne_nil rest), List.forall_mem_cons,
      ← ih]
    constructor
    · intro h
      refine ⟨?_, .of_append (u := line ++ ['\n']) (by simpa using h)⟩
      rw [Option.eq_none_iff_forall_ne_some]
      intro body hbody
      obtain ⟨b, hb, rfl⟩ := exists_of_beforeTerminator? hbody
      have hbn : '\n' ∉ b := fun hm => hn (by simp [hm])
      refine h body (b ++ '\n' :: rest) (by simp) ?_ (by simp)
      rw [endsLine_append hbn, Bool.and_eq_true, List.all_eq_true]
      exact ⟨hb, rfl⟩
    · rintro ⟨hline, hrest⟩ u v huv hv hm
      rcases List.append_eq_append_iff.mp huv with ⟨w, rfl, hw⟩ | ⟨w, rfl, hw⟩
      · cases w with
        | nil => simp at hw
        | cons c w =>
          simp only [List.cons_append, List.cons.injEq] at hw
          obtain ⟨rfl, rfl⟩ := hw
          exact hrest w v rfl hv hm
      · cases w with
        | nil => simp at hw
        | cons c w =>
          simp only [List.cons_append, List.cons.injEq] at hw
          obtain ⟨rfl, rfl⟩ := hw
          have hwn : '\n' ∉ w := fun hm => hn (by simp [hm])
          rw [endsLine_append hwn, Bool.and_eq_true, List.all_eq_true] at hv
          rw [beforeTerminator?_of_allBlank hv.1] at hline
          cases hline

theorem IsCanonical.isUncut {s : String} (h : IsCanonical s) : IsUncut s.toList :=
  (isUncut_iff _).mpr fun line hl => beforeTerminator?_eq_none.mpr (h.goesOn line hl)

/-! ### Pieces -/

theorem exists_cut_eq_cons (l : List Char) :
    ∃ piece more, cut (marked l) = piece :: more ∧ piece <+: l := by
  induction l with
  | nil => exact ⟨[], [], rfl, List.nil_prefix⟩
  | cons c l ih =>
    obtain ⟨piece, more, h, hp⟩ := ih
    rw [marked]
    cases (c = ';' && endsLine l : Bool) with
    | true => exact ⟨[], _, cut_terminator c _, List.nil_prefix⟩
    | false =>
      refine ⟨c :: piece, more, ?_, List.cons_prefix_cons.mpr ⟨rfl, hp⟩⟩
      rw [show (c, false) :: marked l = unmarked [c] ++ marked l from rfl, cut_unmarked_append, h]
      rfl

/-- The text is cut at every semicolon that ends a line, so none is left in a piece. -/
theorem isUncut_of_mem_cut {piece : List Char} (h : piece ∈ cut (marked l)) : IsUncut piece := by
  have hnil : IsUncut [] := by
    intro u v huv
    simp at huv
  induction l generalizing piece with
  | nil =>
    obtain rfl : piece = [] := by simpa [marked, cut] using h
    exact hnil
  | cons c l ih =>
    obtain ⟨first, more, hcut, t, hl⟩ := exists_cut_eq_cons l
    rw [marked] at h
    cases hc : (c = ';' && endsLine l : Bool) with
    | true =>
      rw [hc, cut_terminator, List.mem_cons] at h
      rcases h with rfl | h
      · exact hnil
      · exact ih h
    | false =>
      rw [hc, show (c, false) :: marked l = unmarked [c] ++ marked l from rfl,
        cut_unmarked_append, hcut, List.modifyHead_cons, List.mem_cons] at h
      rcases h with rfl | h
      · intro u v huv hv hm
        cases u with
        | nil =>
          simp only [List.singleton_append, List.nil_append, List.cons.injEq] at huv
          obtain ⟨rfl, rfl⟩ := huv
          rw [← hl, endsLine_append_of_mem hm, hv] at hc
          cases hc
        | cons d u =>
          simp only [List.cons_append, List.cons.injEq] at huv
          obtain ⟨-, rfl⟩ := huv
          exact ih (hcut ▸ List.mem_cons_self) u v rfl hv hm
      · exact ih (hcut ▸ List.mem_cons_of_mem _ h)

theorem spaceForReturn_ne (c : Char) : spaceForReturn c ≠ '\r' := by
  unfold spaceForReturn
  split
  · decide
  · assumption

theorem isCanonical_of_mem_statements {s text : String} (h : s ∈ statements text) :
    IsCanonical s := by
  rw [statements_eq] at h
  obtain ⟨p, hp, rfl⟩ := List.mem_map.mp h
  obtain ⟨hp, hne⟩ := List.mem_filter.mp hp
  obtain ⟨piece, hpiece, rfl⟩ := List.mem_map.mp hp
  obtain ⟨b, b', -, -, hl⟩ := exists_trim piece
  constructor
  · intro h
    rw [← String.toList_inj, String.toList_ofList] at h
    simp [h] at hne
  · rw [String.toList_ofList, trim_trim]
  · rw [String.toList_ofList]
    intro hr
    have hr : '\r' ∈ piece := by
      rw [hl]
      simp [hr]
    obtain ⟨c, -, hc⟩ := List.mem_map.mp (mem_of_mem_cut hpiece hr)
    exact spaceForReturn_ne c hc
  · rw [String.toList_ofList]
    intro line hline
    exact beforeTerminator?_eq_none.mp
      ((isUncut_iff _).mp (isUncut_of_mem_cut hpiece).trim line hline)

/-! ### Writing -/

/-- In front of a text on whose line there is more, the semicolons of an uncut text end nothing. -/
theorem marked_append_of_isUncut (h : IsUncut l) (hr : endsLine rest = false) :
    marked (l ++ rest) = unmarked l ++ marked rest := by
  induction l with
  | nil => rfl
  | cons c l ih =>
    have hl : IsUncut l := .of_append (u := [c]) h
    rw [List.cons_append, marked, ih hl]
    suffices hc : (c = ';' && endsLine (l ++ rest) : Bool) = false by
      rw [hc]
      rfl
    rw [Bool.and_eq_false_iff]
    by_cases hc : c = ';'
    · subst hc
      right
      by_cases hn : '\n' ∈ l
      · rw [endsLine_append_of_mem hn, ← Bool.not_eq_true]
        exact fun he => h [] l rfl he hn
      · rw [endsLine_append hn, hr, Bool.and_false]
    · left
      simpa using hc

theorem allBlank_map (h : AllBlank b) : AllBlank (b.map spaceForReturn) := by
  intro c hc
  obtain ⟨d, hd, rfl⟩ := List.mem_map.mp hc
  rw [isBlank_spaceForReturn]
  exact h d hd

theorem feed_not_mem_map (h : '\n' ∉ l) : '\n' ∉ l.map spaceForReturn := by
  intro hm
  obtain ⟨c, hc, hs⟩ := List.mem_map.mp hm
  unfold spaceForReturn at hs
  split at hs
  · cases hs
  · exact h (hs ▸ hc)

/-- A statement is a piece of the script by itself, but for white space. -/
theorem map_trim_cut_write {s : String} (hs : IsCanonical s) (w : Spacing) (rest : List Char) :
    (cut (marked (w.write s ++ rest))).map trim = s.toList :: (cut (marked rest)).map trim := by
  have hend : endsLine (w.tail ++ '\n' :: rest) = true := by
    rw [endsLine_append w.tail_line, Bool.and_eq_true, List.all_eq_true]
    exact ⟨w.tail_blank, rfl⟩
  have hgap : endsLine (w.gap ++ ';' :: (w.tail ++ '\n' :: rest)) = false := by
    rw [endsLine_append w.gap_line, endsLine_cons_of_not_isBlank isBlank_semicolon (by decide),
      Bool.and_false]
  have htail : AllBlank (w.tail ++ ['\n']) := w.tail_blank.append (by simp [AllBlank, isBlank])
  have hrest : marked (w.tail ++ '\n' :: rest) = unmarked (w.tail ++ ['\n']) ++ marked rest := by
    rw [← marked_append_of_allBlank htail, List.append_assoc]
    rfl
  have hwrite : w.write s ++ rest =
      w.front ++ (s.toList ++ (w.gap ++ ';' :: (w.tail ++ '\n' :: rest))) := by
    simp [Spacing.write]
  rw [hwrite, marked_append_of_allBlank w.front_blank, cut_unmarked_append,
    map_trim_modifyHead w.front_blank, marked_append_of_isUncut hs.isUncut hgap,
    marked_append_of_allBlank w.gap_blank, marked, hend, hrest, cut_unmarked_append,
    cut_unmarked_append]
  rw [← map_trim_modifyHead htail (cut (marked rest))]
  simp [cut_terminator, cut_unmarked_append, hs.trimmed, trim_append_right w.gap_blank]

def Spacing.spaced (w : Spacing) : Spacing where
  front := w.front.map spaceForReturn
  gap := w.gap.map spaceForReturn
  tail := w.tail.map spaceForReturn
  front_blank := allBlank_map w.front_blank
  gap_blank := allBlank_map w.gap_blank
  tail_blank := allBlank_map w.tail_blank
  gap_line := feed_not_mem_map w.gap_line
  tail_line := feed_not_mem_map w.tail_line

theorem map_write {s : String} (hs : IsCanonical s) (w : Spacing) :
    (w.write s).map spaceForReturn = w.spaced.write s := by
  simp [Spacing.write, Spacing.spaced, map_spaceForReturn hs.noReturn, spaceForReturn]

theorem statements_written {l : List (Spacing × String)} (h : ∀ p ∈ l, IsCanonical p.2) :
    statements (written l) = l.map Prod.snd := by
  have hcut : (cut (marked ((written l).toList.map spaceForReturn))).map trim =
      l.map (fun p => p.2.toList) ++ [[]] := by
    unfold written
    rw [String.toList_ofList]
    induction l with
    | nil => rfl
    | cons p l ih =>
      have hp := h p List.mem_cons_self
      rw [List.flatMap_cons, List.map_append, map_write hp, map_trim_cut_write hp,
        ih fun q hq => h q (List.mem_cons_of_mem _ hq)]
      rfl
  rw [statements_eq, hcut, List.filter_append, List.filter_eq_self.mpr]
  · simp
  · intro s hs
    obtain ⟨p, hp, rfl⟩ := List.mem_map.mp hs
    simpa using (h p hp).nonempty

/-- What the splitter finds are canonical texts, and canonical texts that are written one after
the other are what it finds, so the statements of a script are found again when they are
written with nothing but a semicolon and a line feed behind each. -/
theorem statements_roundTrip :
    (∀ text, ∀ s ∈ statements text, IsCanonical s) ∧
      (∀ l : List (Spacing × String), (∀ p ∈ l, IsCanonical p.2) →
        statements (written l) = l.map Prod.snd) ∧
      ∀ text, statements (String.join ((statements text).map (· ++ ";\n"))) = statements text := by
  refine ⟨fun text s => isCanonical_of_mem_statements, fun l => statements_written, fun text => ?_⟩
  have h := statements_written (l := (statements text).map (Spacing.none, ·)) fun p hp => by
    obtain ⟨s, hs, rfl⟩ := List.mem_map.mp hp
    exact isCanonical_of_mem_statements hs
  have hw : written ((statements text).map (Spacing.none, ·)) =
      String.join ((statements text).map (· ++ ";\n")) := by
    rw [← String.toList_inj, String.toList_join, written, String.toList_ofList, List.flatMap_map,
      List.flatMap_map]
    simp [Spacing.write, Spacing.none]
  rw [← hw, h]
  simp

/-- A statement of two lines with a semicolon amid the second, and one that ends in a semicolon. -/
theorem statements_roundTrip_of_two :
    IsCanonical "INSERT INTO a\n  VALUES (1); SELECT 2" ∧ IsCanonical "b;" ∧
      statements (written [(⟨['\n', '\t'], ['\r'], ['\u00a0', '\r'], by decide, by decide,
        by decide, by decide, by decide⟩, "INSERT INTO a\n  VALUES (1); SELECT 2"),
        (Spacing.none, "b;")]) = ["INSERT INTO a\n  VALUES (1); SELECT 2", "b;"] :=
  ⟨by decide +kernel, by decide +kernel, statements_roundTrip.2.1 _ (by decide +kernel)⟩

end SipMigrate.Migration.Script
