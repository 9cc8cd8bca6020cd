import SipMigrate.Proofs.Sql.Truncation
import SipMigrate.Proofs.Text.Trimming

/-! What is left of the lexemes of a text when blanks are taken away at its ends. -/

namespace SipMigrate.Sql.Lexeme

open Text

/-- Lexemes between which no statement can be: spaces and comments. -/
def AreGaps (l : List Lexeme) : Prop := ∀ x ∈ l, x.kind = .blank

theorem areGaps_nil : AreGaps [] := List.forall_mem_nil _

/-- The characters of the gaps in front of all other lexemes. -/
def leading (l : List Lexeme) : List Char :=
  (l.takeWhile fun x => x.kind = .blank).flatMap (·.chars)

/-- The characters of the gaps behind all other lexemes. -/
def trailing (l : List Lexeme) : List Char :=
  (l.rtakeWhile fun x => x.kind = .blank).flatMap (·.chars)

/-- The quotes that open a literal. -/
def quotes : List Char := ['\x27', '"', '\x60', '[']

/-- A literal that is not closed. -/
def isOpen (x : Lexeme) : Bool := x.kind = .malformed && x.chars.head?.any (· ∈ quotes)

variable {c : Char} {l w lost : List Char}

/-! ### How a gap begins -/

theorem kind_decimal (l : List Char) : (decimal l).1 ≠ .blank := by
  rw [decimal_eq]
  dsimp only
  split
  · nofun
  · split <;> nofun

theorem kind_number (l : List Char) : (number l).1 ≠ .blank := by
  rcases number_cases l with h | ⟨x, d, rest, rfl, hx, hd⟩
  · rw [h]
    exact kind_decimal l
  · rw [number_of_hex hx hd]
    nofun

theorem kind_closed (kind : LexemeKind) (hk : kind ≠ .blank) (l : List Char) (n : Option Nat) :
    (closed kind l n).1 ≠ .blank := by
  cases n with
  | none => nofun
  | some n => exact hk

theorem kind_symbol (c : Char) (l : List Char) : (symbol c l).1 ≠ .blank := by
  unfold symbol
  split
  · nofun
  · split <;> nofun

theorem kind_parameter (l : List Char) : (parameter l).1 ≠ .blank := by
  unfold parameter
  split <;> nofun

/-- A gap is a byte order mark, or spaces, or a comment. -/
theorem first_cases (c : Char) (l : List Char) :
    (beginsBlank c = true ∧ first c l = (.blank, (l.takeWhile isSpace).length)) ∨
      (c = '\ufeff' ∧ first c l = (.blank, 0)) ∨ first c l = comment c l ∨
        (first c l).1 ≠ .blank := by
  by_cases hb : beginsBlank c = true
  · exact .inl ⟨hb, if_pos hb⟩
  refine .inr ?_
  have hif {p : Prop} [Decidable p] {x y : LexemeKind × Nat} (hx : x.1 ≠ .blank)
      (hy : y = comment c l ∨ y.1 ≠ .blank) :
      (if p then x else y) = comment c l ∨ (if p then x else y).1 ≠ .blank := by
    split
    · exact .inr hx
    · exact hy
  unfold first
  rw [if_neg hb]
  by_cases hm : c = '\ufeff'
  · exact .inl ⟨hm, if_pos hm⟩
  refine .inr ?_
  rw [if_neg hm]
  refine hif nofun ?_
  refine hif (kind_number _) ?_
  refine hif (kind_number _) ?_
  refine hif (kind_closed .text nofun _ _) ?_
  refine hif (kind_closed .quotedName nofun _ _) ?_
  refine hif (kind_closed .quotedName nofun _ _) ?_
  refine hif nofun ?_
  exact hif (kind_parameter _) (.inl rfl)

theorem isBlank_of_isSpace {c : Char} (h : isSpace c = true) : Text.isBlank c = true := by
  rw [isSpace_iff] at h
  simp only [isBlank, Bool.or_eq_true, Bool.and_eq_true, decide_eq_true_eq, beq_iff_eq]
  omega

/-- A gap that begins with a blank is a run of spaces. -/
theorem first_of_isBlank (hc : isBlank c = true) (h : (first c l).1 = .blank) :
    beginsBlank c = true ∧ first c l = (.blank, (l.takeWhile isSpace).length) := by
  rcases first_cases c l with hf | ⟨rfl, -⟩ | hf | hf
  · exact hf
  · cases hc
  · rcases comment_cases c l with hs | ⟨line, rfl, -⟩ | ⟨d, body, rfl, -⟩
    · rw [hf, hs] at h
      exact absurd h (kind_symbol c l)
    · cases hc
    · cases hc
  · exact absurd h hf

/-! ### Blanks at the start -/

theorem leading_cons (x : Lexeme) (l : List Lexeme) :
    leading (x :: l) = if x.kind = .blank then x.chars ++ leading l else [] := by
  unfold leading
  rw [List.takeWhile_cons]
  split <;> simp_all

theorem drop_takeWhile (p : Char → Bool) (l : List Char) :
    l.drop (l.takeWhile p).length = l.dropWhile p := by
  have h := List.takeWhile_append_dropWhile (p := p) (l := l)
  calc l.drop (l.takeWhile p).length
      = (l.takeWhile p ++ l.dropWhile p).drop (l.takeWhile p).length := by rw [h]
    _ = l.dropWhile p := List.drop_left

theorem cut_of_spaces (h : first c l = (.blank, (l.takeWhile isSpace).length)) :
    cut (c :: l) = ⟨.blank, c :: l.takeWhile isSpace⟩ :: cut (l.dropWhile isSpace) := by
  rw [cut_cons, h]
  dsimp only
  rw [drop_takeWhile, ← List.prefix_iff_eq_take.mp (List.takeWhile_prefix isSpace)]

/-- Behind a run of spaces no blank is in a gap. -/
theorem trimStart_of_leading {l : List Char} (hs : ∀ d ∈ l.head?, isSpace d = false)
    (h : (l.takeWhile isBlank).length ≤ (leading (cut l)).length) : trimStart l = l := by
  cases l with
  | nil => rfl
  | cons d l =>
    cases hd : isBlank d with
    | false => exact trimStart_of_not_isBlank hd l
    | true =>
      rw [cut_cons, leading_cons, List.takeWhile_cons, if_pos hd] at h
      split at h
      · rename_i hk
        have hb := (first_of_isBlank hd hk).1
        rw [beginsBlank, hs d rfl] at hb
        cases hb
      · simp at h

/-- If all blanks at the start belong to gaps, nothing but gaps is lost there. -/
theorem cut_of_leading (h : (l.takeWhile isBlank).length ≤ (leading (cut l)).length) :
    ∃ B, AreGaps B ∧ cut l = B ++ cut (trimStart l) := by
  cases l with
  | nil => exact ⟨[], areGaps_nil, rfl⟩
  | cons c l =>
    cases hc : isBlank c with
    | false => exact ⟨[], areGaps_nil, by rw [trimStart_of_not_isBlank hc, List.nil_append]⟩
    | true =>
      by_cases hk : (first c l).1 = .blank
      · have hcut := cut_of_spaces (first_of_isBlank hc hk).2
        have hsplit := List.takeWhile_append_dropWhile (p := isSpace) (l := l)
        generalize hu : l.takeWhile isSpace = u at hcut hsplit
        generalize hr : l.dropWhile isSpace = r at hcut hsplit
        subst hsplit
        have hblank : AllBlank (c :: u) := by
          intro d hd
          rcases List.mem_cons.mp hd with rfl | hd
          · exact hc
          · rw [← hu] at hd
            exact isBlank_of_isSpace (List.mem_takeWhile_imp hd)
        have hhead : ∀ d ∈ r.head?, isSpace d = false := by
          intro d hd
          have hdrop := List.head?_dropWhile_not isSpace (u ++ r)
          rw [hr, hd] at hdrop
          exact hdrop
        rw [← List.cons_append] at hcut h ⊢
        rw [hcut, leading_cons, if_pos rfl, List.takeWhile_append_of_pos hblank,
          List.length_append, List.length_append] at h
        refine ⟨[⟨.blank, c :: u⟩], by simp [AreGaps], ?_⟩
        rw [hcut, trimStart_append_left hblank,
          trimStart_of_leading hhead (Nat.le_of_add_le_add_left h)]
        rfl
      · rw [cut_cons, leading_cons, if_neg hk, List.takeWhile_cons, if_pos hc] at h
        simp at h

/-! ### Blanks at the end -/

theorem commentLength_of_not_mem {l : List Char} (h : '*' ∉ l) : commentLength l = l.length := by
  induction l with
  | nil => rfl
  | cons c l ih =>
    rw [List.mem_cons, not_or] at h
    rw [commentLength_cons, if_neg (fun hc => h.1 hc.1.symm), ih h.2, List.length_cons]

theorem length_takeWhile_of_lt {p : Char → Bool} {l rest : List Char}
    (h : l.length < ((l ++ rest).takeWhile p).length) : (l.takeWhile p).length = l.length := by
  rw [List.takeWhile_append] at h
  split at h
  · assumption
  · exact absurd h (Nat.not_lt.mpr (List.takeWhile_sublist _).length_le)

theorem first_line (line : List Char) : first '-' ('-' :: line) =
    (.blank, 1 + (line.takeWhile (· ≠ '\n')).length) := rfl

theorem first_body (d : Char) (body : List Char) : first '/' ('*' :: d :: body) =
    (.blank, 1 + commentLength (d :: body)) := rfl

/-- A comment of blanks that is not closed takes up all the rest. -/
theorem cut_of_openComment (hl : AllBlank lost) (hne : lost ≠ []) :
    cut ('/' :: '*' :: lost) = [⟨.blank, '/' :: '*' :: lost⟩] := by
  have hstar : '*' ∉ lost := fun h => absurd (hl '*' h) (by decide)
  obtain ⟨d, body, rfl⟩ := List.exists_cons_of_ne_nil hne
  rw [cut_cons, first_body, commentLength_of_not_mem hstar]
  have hlength : ('*' :: d :: body).length ≤ 1 + (d :: body).length := by simp [Nat.add_comm]
  rw [List.take_of_length_le hlength, List.drop_eq_nil_of_le hlength]
  rfl

/-- A gap that reaches beyond the place where a text breaks off is a gap that ends there. -/
theorem first_of_gap {e : List Char} (hk : (first c (e ++ lost)).1 = .blank)
    (hn : e.length < (first c (e ++ lost)).2) (hl : AllBlank lost)
    (hc : c :: (e ++ lost) ≠ '/' :: '*' :: lost) : first c e = (.blank, e.length) := by
  have hhead (d : Char) (hd : isBlank d = false) (more : List Char) : lost ≠ d :: more := by
    rintro rfl
    rw [hl d List.mem_cons_self] at hd
    cases hd
  rcases first_cases c (e ++ lost) with ⟨hb, hf⟩ | ⟨rfl, hf⟩ | hf | hf
  · have he : first c e = (.blank, (e.takeWhile isSpace).length) := if_pos hb
    rw [hf] at hn
    rw [he, length_takeWhile_of_lt hn]
  · rw [hf] at hn
    exact absurd hn (Nat.not_lt_zero _)
  · rcases comment_cases c (e ++ lost) with hs | ⟨line, rfl, hs⟩ | ⟨d, body, rfl, hs⟩
    · rw [hf, hs] at hk
      exact absurd hk (kind_symbol _ _)
    · cases e with
      | nil => exact absurd hs (hhead '-' (by decide) line)
      | cons d e =>
        obtain ⟨rfl, -⟩ := List.cons.inj hs
        rw [List.cons_append, first_line, List.length_cons] at hn
        have hline : e.length < ((e ++ lost).takeWhile (· ≠ '\n')).length := by
          dsimp only at hn
          omega
        rw [first_line, length_takeWhile_of_lt hline, List.length_cons, Nat.add_comm]
    · rcases e with _ | ⟨f, _ | ⟨g, e⟩⟩
      · exact absurd hs (hhead '*' (by decide) (d :: body))
      · obtain ⟨rfl, -⟩ := List.cons.inj hs
        exact absurd rfl hc
      · obtain ⟨rfl, -⟩ := List.cons.inj hs
        have hmin := commentLength_eq_min (g :: e) lost
        rw [List.cons_append, List.cons_append, first_body, List.length_cons, List.length_cons]
          at hn
        rw [List.cons_append, List.length_cons] at hmin
        dsimp only at hn
        rw [first_body, hmin, Nat.min_eq_left (by omega), List.length_cons, List.length_cons,
          Nat.add_comm]
  · exact absurd hk hf

/-- What is left of gaps at the end are gaps, unless nothing but the two characters is left
that open a comment. -/
theorem areGaps_truncated {e : List Char} (he : AreGaps (cut (e ++ lost))) (hl : AllBlank lost)
    (hc : ∀ x ∈ (cut (e ++ lost)).getLast?, x.chars ≠ '/' :: '*' :: lost) : AreGaps (cut e) := by
  induction hn : e.length using Nat.strong_induction_on generalizing e with
  | h n ih =>
    cases e with
    | nil => exact areGaps_nil
    | cons c e =>
      have hcomment : c :: (e ++ lost) ≠ '/' :: '*' :: lost := by
        intro h
        rw [List.cons_append, h] at he hc
        cases lost with
        | nil => exact absurd (he ⟨.symbol, ['/']⟩ (by decide)) (by decide)
        | cons d body =>
          rw [cut_of_openComment hl (by simp)] at hc
          exact hc _ rfl rfl
      rw [List.cons_append, cut_cons] at he hc
      have hk : (first c (e ++ lost)).1 = .blank := he _ List.mem_cons_self
      by_cases hle : (first c (e ++ lost)).2 ≤ e.length
      · rw [List.drop_append_of_le_length hle] at he hc
        rw [cut_cons, isSettled_first c e lost hle]
        intro x hx
        rcases List.mem_cons.mp hx with rfl | hx
        · exact hk
        · refine ih _ ?_ (fun y hy => he y (List.mem_cons_of_mem _ hy)) (fun y hy => ?_) rfl x hx
          · rw [← hn, List.length_drop, List.length_cons]
            omega
          · refine hc y ?_
            rw [List.getLast?_cons, show _ = some y from hy]
            rfl
      · rw [cut_cons, first_of_gap hk (by omega) hl hcomment, List.drop_length]
        intro x hx
        rcases List.mem_cons.mp hx with rfl | hx
        · rfl
        · cases hx

/-- If all blanks at the end belong to gaps, nothing but gaps is lost there. -/
theorem cut_of_trailing (hl : AllBlank lost)
    (ht : lost.length ≤ (trailing (cut (w ++ lost))).length)
    (hc : ∀ x ∈ (cut (w ++ lost)).getLast?, x.chars ≠ '/' :: '*' :: lost) :
    ∃ K E E', AreGaps E ∧ AreGaps E' ∧ cut (w ++ lost) = K ++ E ∧ cut w = K ++ E' := by
  have hsplit := List.rdropWhile_append_rtakeWhile
    (p := fun x : Lexeme => decide (x.kind = .blank)) (l := cut (w ++ lost))
  have hgaps : AreGaps ((cut (w ++ lost)).rtakeWhile fun x => x.kind = .blank) := fun x hx => by
    simpa using List.mem_rtakeWhile_imp hx
  unfold trailing at ht
  generalize (cut (w ++ lost)).rdropWhile (fun x => x.kind = .blank) = K at hsplit
  generalize (cut (w ++ lost)).rtakeWhile (fun x => x.kind = .blank) = E at hsplit hgaps ht
  have htext := flatMap_cut (w ++ lost)
  rw [← hsplit, List.flatMap_append] at htext
  obtain ⟨e, he⟩ : lost <:+ E.flatMap (·.chars) :=
    List.suffix_of_suffix_length_le ⟨w, rfl⟩ ⟨_, htext⟩ ht
  have hw : w = K.flatMap (·.chars) ++ e := by
    rw [← he, ← List.append_assoc] at htext
    exact (List.append_cancel_right htext).symm
  have hE : cut (e ++ lost) = E := by
    rw [he]
    exact cut_of_append hsplit.symm
  refine ⟨K, E, cut e, hgaps, ?_, hsplit.symm, ?_⟩
  · refine areGaps_truncated (by rw [hE]; exact hgaps) hl fun x hx => hc x ?_
    rw [hE, Option.mem_def] at hx
    rw [← hsplit, List.getLast?_append, hx]
    rfl
  · rw [hw]
    exact cut_truncated hsplit.symm he.symm

/-! ### Literals that are not closed -/

theorem quotedLength_of_append_eq_none {quote : Char}
    (h : quotedLength? quote (l ++ lost) = none) (hr : ∀ d ∈ lost.head?, d ≠ quote) :
    quotedLength? quote l = none := by
  cases hq : quotedLength? quote l with
  | none => rfl
  | some n =>
    rw [quotedLength_append hq fun _ => hr] at h
    cases h

/-- A literal that is not closed before a text breaks off is not closed there. -/
theorem first_of_isOpen (hc : c ∈ quotes) (hk : (first c (l ++ lost)).1 = .malformed)
    (hl : AllBlank lost) : first c l = (.malformed, l.length) := by
  have hclosed (kind : LexemeKind) (hkind : kind ≠ .malformed) (f : List Char → Option Nat)
      (hf : ∀ l, first c l = closed kind l (f l)) (hnone : f (l ++ lost) = none → f l = none) :
      first c l = (.malformed, l.length) := by
    rw [hf] at hk ⊢
    cases hq : f (l ++ lost) with
    | none => rw [hnone hq]; rfl
    | some n =>
      rw [hq] at hk
      exact absurd hk hkind
  have hquoted (hb : isBlank c = false) (h : quotedLength? c (l ++ lost) = none) :
      quotedLength? c l = none := by
    refine quotedLength_of_append_eq_none h ?_
    rintro d hd rfl
    rw [hl d (List.mem_of_mem_head? hd)] at hb
    cases hb
  simp only [quotes, List.mem_cons, List.not_mem_nil, or_false] at hc
  rcases hc with rfl | rfl | rfl | rfl
  · exact hclosed .text nofun _ (fun _ => rfl) (hquoted (by decide))
  · exact hclosed .quotedName nofun _ (fun _ => rfl) (hquoted (by decide))
  · exact hclosed .quotedName nofun _ (fun _ => rfl) (hquoted (by decide))
  · refine hclosed .quotedName nofun _ (fun _ => rfl) fun h => ?_
    simp only [Option.map_eq_none_iff, List.idxOf?_eq_none_iff, List.mem_append, not_or] at h ⊢
    exact h.1

/-- If a literal is not closed at the end, it is not closed without the blanks at the end. -/
theorem cut_of_isOpen (hl : AllBlank lost) {K : List Lexeme} {x : Lexeme}
    (h : cut (w ++ lost) = K ++ [x]) (hx : x.isOpen = true) :
    ∃ x', x'.kind = .malformed ∧ cut w = K ++ [x'] := by
  obtain ⟨kind, chars⟩ := x
  simp only [isOpen, Bool.and_eq_true, decide_eq_true_eq, Option.any_eq_true,
    List.head?_eq_some_iff] at hx
  obtain ⟨rfl, c, ⟨body, rfl⟩, hc⟩ := hx
  have hblank : isBlank c = false := by
    simp only [quotes, List.mem_cons, List.not_mem_nil, or_false] at hc
    rcases hc with rfl | rfl | rfl | rfl <;> decide
  have hcut := cut_of_append h
  have htext := flatMap_cut (w ++ lost)
  rw [h, List.flatMap_append] at htext
  simp only [List.flatMap_cons, List.flatMap_nil, List.append_nil] at hcut htext
  -- The quote is no blank, so the blanks at the end are within the literal.
  obtain ⟨body', rfl⟩ : ∃ body', body = body' ++ lost := by
    rcases List.suffix_or_suffix_of_suffix ⟨_, htext⟩ ⟨w, rfl⟩ with hs | hs
    · rw [hl c (hs.subset List.mem_cons_self)] at hblank
      cases hblank
    · rcases List.suffix_cons_iff.mp hs with rfl | ⟨body', rfl⟩
      · rw [hl c List.mem_cons_self] at hblank
        cases hblank
      · exact ⟨body', rfl⟩
  have hw : w = K.flatMap (·.chars) ++ c :: body' := by
    rw [← List.cons_append, ← List.append_assoc] at htext
    exact (List.append_cancel_right htext).symm
  have hk : (first c (body' ++ lost)).1 = .malformed := by
    rw [cut_cons] at hcut
    exact congrArg Lexeme.kind (List.cons.inj hcut).1
  refine ⟨⟨.malformed, c :: body'⟩, rfl, ?_⟩
  have hbody : cut (c :: body') = [⟨.malformed, c :: body'⟩] := by
    rw [cut_cons, first_of_isOpen hc hk hl, List.take_length, List.drop_length]
    rfl
  rw [hw, ← hbody]
  exact cut_truncated h (v := lost) (by simp)

end SipMigrate.Sql.Lexeme
