import SipMigrate.Proofs.Sql.Gaps

/-! Spaces at the ends of a text. No lexeme goes on over a space behind it but a gap or a
literal that is not closed, so the spaces at the ends of a text belong to these. -/

namespace SipMigrate.Sql.Lexeme

open Text

/-- The spaces that may begin a blank. -/
def spaces : List Char := ['\t', '\n', '\x0c', '\r', ' ']

def AreSpaces (b : List Char) : Prop := ∀ d ∈ b, beginsBlank d = true

variable {c d : Char} {e b l w : List Char}

theorem of_beginsBlank {p : Char → Bool} (h : spaces.all p = true)
    (hd : beginsBlank d = true) : p d = true := by
  refine List.all_eq_true.mp h d ?_
  have hv : d ≠ '\x0b' := by
    rintro rfl
    cases hd
  simp only [beginsBlank, Bool.and_eq_true, isSpace_iff] at hd
  simp only [spaces, List.mem_cons, List.not_mem_nil, or_false, Ne, eq_iff_toNat] at hv ⊢
  simp only [Char.reduceToNat] at hv ⊢
  omega

theorem isSpace_of_beginsBlank (hd : beginsBlank d = true) : isSpace d = true := by
  rw [beginsBlank, Bool.and_eq_true] at hd
  exact hd.1

theorem ne_of_beginsBlank (hc : beginsBlank c = false) (hd : beginsBlank d = true) : d ≠ c := by
  rintro rfl
  rw [hc] at hd
  cases hd

/-! ### Lengths -/

/-- A length that no space behind adds to. -/
def Stops (f : List Char → Nat) : Prop :=
  ∀ e d b, AreSpaces (d :: b) → f (e ++ d :: b) ≤ e.length

theorem stops_takeWhile {p : Char → Bool}
    (hp : (spaces.all fun d => !p d) = true) :
    Stops fun l => (l.takeWhile p).length := by
  intro e d b hb
  have hd := of_beginsBlank hp (hb d List.mem_cons_self)
  rw [Bool.not_eq_true'] at hd
  dsimp only
  rw [List.takeWhile_append]
  split
  · rw [List.takeWhile_cons_of_neg (by simp [hd]), List.append_nil]
  · exact (List.takeWhile_sublist _).length_le

theorem Stops.add {f g : List Char → Nat} (hf : Stops f) (hg : Stops g) :
    Stops fun l => f l + g (l.drop (f l)) := by
  intro e d b hb
  have hle := hf e d b hb
  dsimp only
  rw [List.drop_append_of_le_length hle]
  have := hg (e.drop (f (e ++ d :: b))) d b hb
  rw [List.length_drop] at this
  omega

theorem stops_digits : Stops fun l => (l.takeWhile Char.isDigit).length :=
  stops_takeWhile (by decide)

theorem stops_nameChars : Stops fun l => (l.takeWhile isNameChar).length :=
  stops_takeWhile (by decide)

theorem stops_fractionLength : Stops fractionLength := by
  intro e d b hb
  have hpoint := ne_of_beginsBlank (c := '.') (by decide) (hb d List.mem_cons_self)
  cases e with
  | nil => simp [fractionLength, hpoint]
  | cons c e =>
    by_cases hc : c = '.'
    · subst hc
      have := stops_digits e d b hb
      dsimp only at this
      rw [List.cons_append, fractionLength, List.length_cons]
      omega
    · simp [fractionLength, hc]

theorem stops_signLength : Stops signLength := by
  intro e d b hb
  have hplus := ne_of_beginsBlank (c := '+') (by decide) (hb d List.mem_cons_self)
  have hminus := ne_of_beginsBlank (c := '-') (by decide) (hb d List.mem_cons_self)
  unfold signLength
  cases e with
  | nil => simp [hplus, hminus]
  | cons c e => split <;> simp

theorem stops_exponentLength : Stops exponentLength := by
  intro e d b hb
  have hlower := ne_of_beginsBlank (c := 'e') (by decide) (hb d List.mem_cons_self)
  have hupper := ne_of_beginsBlank (c := 'E') (by decide) (hb d List.mem_cons_self)
  cases e with
  | nil => simp [exponentLength_cons, hlower, hupper]
  | cons c e =>
    have := stops_signLength.add stops_digits e d b hb
    rw [List.cons_append, exponentLength_cons, List.length_cons]
    dsimp only at this
    split <;> omega

theorem stops_decimal : Stops fun l => (decimal l).2 := by
  intro e d b hb
  dsimp only
  rw [decimal_eq]
  exact ((stops_digits.add stops_fractionLength).add stops_exponentLength).add stops_nameChars
    e d b hb

theorem stops_number : Stops fun l => (number l).2 := by
  intro e d b hb
  have hd := hb d List.mem_cons_self
  have hhex : Stops fun l => (l.takeWhile isHexDigit).length := stops_takeWhile (by decide)
  dsimp only
  rcases number_cases (e ++ d :: b) with h | ⟨x, y, rest, h, hx, hy⟩
  · rw [h]
    exact stops_decimal e d b hb
  · rcases e with _ | ⟨c₁, _ | ⟨c₂, _ | ⟨c₃, e⟩⟩⟩
    · obtain ⟨rfl, -⟩ := List.cons.inj h
      cases hd
    · obtain ⟨rfl, -⟩ := List.cons.inj (List.cons.inj h).2
      rcases hx with rfl | rfl <;> cases hd
    · obtain ⟨rfl, -⟩ := List.cons.inj (List.cons.inj (List.cons.inj h).2).2
      have := of_beginsBlank (p := fun d => !isHexDigit d) (by decide) hd
      rw [hy] at this
      cases this
    · simp only [List.cons_append, List.cons.injEq] at h
      obtain ⟨rfl, rfl, rfl, -⟩ := h
      have := hhex e d b hb
      rw [List.cons_append, List.cons_append, List.cons_append, number_of_hex hx hy]
      simp only [List.length_cons]
      dsimp only at this
      omega

theorem stops_symbol (c : Char) : Stops fun l => (symbol c l).2 := by
  intro e d b hb
  have hlong : (longSymbols.flatten.all fun x => !beginsBlank x) = true := by decide
  dsimp only
  unfold symbol
  split
  · rename_i s hs
    have hpre := List.find?_some hs
    rw [List.isPrefixOf_iff_prefix] at hpre
    rcases List.prefix_or_prefix_of_prefix hpre (⟨d :: b, rfl⟩ : c :: e <+: c :: (e ++ d :: b))
      with h | ⟨t, rfl⟩
    · have := h.length_le
      rw [List.length_cons] at this
      dsimp only
      omega
    · cases t with
      | nil => simp
      | cons x t =>
        -- The symbol would hold the space.
        rw [List.cons_append, List.cons_prefix_cons, List.prefix_append_right_inj,
          List.cons_prefix_cons] at hpre
        obtain ⟨-, rfl, -⟩ := hpre
        have := List.all_eq_true.mp hlong x
          (List.mem_flatten_of_mem (List.mem_of_find?_eq_some hs) (by simp))
        rw [hb x List.mem_cons_self] at this
        cases this
  · split <;> exact Nat.zero_le _

theorem stops_parameter : Stops fun l => (parameter l).2 := by
  intro e d b hb
  have := stops_nameChars e d b hb
  dsimp only at this ⊢
  unfold parameter
  split
  · exact Nat.zero_le _
  · exact this

/-! ### Closing characters -/

theorem getElem?_quotedLength {quote : Char} {n : Nat} (h : quotedLength? quote l = some n) :
    l[n - 1]? = some quote := by
  induction l using quotedLength?.induct quote generalizing n with
  | case1 => simp [quotedLength?] at h
  | case2 =>
    obtain rfl : 1 = n := by simpa [quotedLength?] using h
    rfl
  | case3 c hc => simp [quotedLength?, hc] at h
  | case4 l ih =>
    simp only [quotedLength?, if_true, Option.map_eq_some_iff] at h
    obtain ⟨m, hm, rfl⟩ := h
    obtain ⟨m, rfl⟩ := Nat.exists_eq_add_one_of_ne_zero (quotedLength_pos hm).ne'
    exact ih hm
  | case5 d l hd =>
    obtain rfl : 1 = n := by simpa [quotedLength?, hd] using h
    rfl
  | case6 c d l hc ih =>
    simp only [quotedLength?, hc, if_false, Option.map_eq_some_iff] at h
    obtain ⟨m, hm, rfl⟩ := h
    obtain ⟨m, rfl⟩ := Nat.exists_eq_add_one_of_ne_zero (quotedLength_pos hm).ne'
    exact ih hm

theorem le_of_getElem? {quote : Char} {n : Nat} (hb : AreSpaces b)
    (hq : beginsBlank quote = false) (h : (e ++ b)[n - 1]? = some quote) : n ≤ e.length := by
  by_contra hn
  rw [List.getElem?_append_right (by omega)] at h
  rw [hb quote (List.mem_of_getElem? h)] at hq
  cases hq

/-! ### Lexemes in front of spaces -/

/-- How a lexeme ends when nothing but spaces follow: before them, unless it is a gap or a
literal that is not closed. -/
def EndsBefore (c : Char) (e b : List Char) (x : LexemeKind × Nat) : Prop :=
  x.2 ≤ e.length ∨ x.1 = .blank ∨ (c ∈ quotes ∧ x = (.malformed, (e ++ b).length))

theorem endsBefore_closed {kind : LexemeKind} {n : Option Nat} (hc : c ∈ quotes)
    (hn : ∀ k ∈ n, k ≤ e.length) : EndsBefore c e b (closed kind (e ++ b) n) := by
  cases n with
  | none => exact .inr (.inr ⟨hc, rfl⟩)
  | some k => exact .inl (hn k rfl)

theorem endsBefore_first (c : Char) (e : List Char) (hb : AreSpaces (d :: b)) :
    EndsBefore c e (d :: b) (first c (e ++ d :: b)) := by
  have hquoted (hq : beginsBlank c = false) :
      ∀ k ∈ quotedLength? c (e ++ d :: b), k ≤ e.length :=
    fun _ hk => le_of_getElem? hb hq (getElem?_quotedLength hk)
  have hnumber : (number (c :: (e ++ d :: b))).2 - 1 ≤ e.length := by
    have := stops_number (c :: e) d b hb
    simp only [List.cons_append, List.length_cons] at this
    omega
  have hif {p : Prop} [Decidable p] {x y : LexemeKind × Nat}
      (hx : p → EndsBefore c e (d :: b) x) (hy : EndsBefore c e (d :: b) y) :
      EndsBefore c e (d :: b) (if p then x else y) := by
    split
    · exact hx ‹p›
    · exact hy
  unfold first
  refine hif (fun _ => .inr (.inl rfl)) ?_
  refine hif (fun _ => .inr (.inl rfl)) ?_
  refine hif (fun _ => .inl (stops_nameChars e d b hb)) ?_
  refine hif (fun _ => .inl hnumber) ?_
  refine hif (fun _ => .inl hnumber) ?_
  refine hif (fun hc => ?_) (hif (fun hc => ?_) (hif (fun hc => ?_) ?_))
  · subst hc
    exact endsBefore_closed (by decide) (hquoted (by decide))
  · simp only [Bool.or_eq_true, decide_eq_true_eq] at hc
    rcases hc with rfl | rfl <;> exact endsBefore_closed (by decide) (hquoted (by decide))
  · subst hc
    refine endsBefore_closed (by decide) fun k hk => ?_
    obtain ⟨i, hi, rfl⟩ := Option.map_eq_some_iff.mp hk
    obtain ⟨hlt, hi, -⟩ := List.findIdx?_eq_some_iff_getElem.mp hi
    refine le_of_getElem? hb (show beginsBlank ']' = false by decide) ?_
    exact List.getElem?_eq_some_iff.mpr ⟨hlt, by simpa using hi⟩
  refine hif (fun _ => .inl (stops_digits e d b hb)) ?_
  refine hif (fun _ => .inl (stops_parameter e d b hb)) ?_
  show EndsBefore c e (d :: b) (comment c (e ++ d :: b))
  rcases comment_cases c (e ++ d :: b) with h | ⟨line, rfl, h⟩ | ⟨f, body, rfl, h⟩
  · rw [h]
    exact .inl (stops_symbol c e d b hb)
  · rw [h]
    exact .inr (.inl rfl)
  · rw [h]
    exact .inr (.inl rfl)

/-! ### Texts -/

theorem cut_of_areSpaces (hb : AreSpaces b) : AreGaps (cut b) := by
  cases b with
  | nil => exact areGaps_nil
  | cons d b =>
    have hall : ∀ x ∈ b, isSpace x = true :=
      fun x hx => isSpace_of_beginsBlank (hb x (List.mem_cons_of_mem _ hx))
    rw [cut_of_spaces (if_pos (hb d List.mem_cons_self)), List.dropWhile_eq_nil_iff.mpr hall]
    simp [AreGaps, cut, cutAfter]

theorem trailing_of_areGaps {l : List Lexeme} (h : AreGaps l) :
    trailing l = l.flatMap (·.chars) := by
  rw [trailing, List.rtakeWhile_eq_self_iff.mpr]
  exact fun x hx => by simpa using h x hx

theorem trailing_cons (x : Lexeme) (l : List Lexeme) :
    (trailing l).length ≤ (trailing (x :: l)).length := by
  unfold trailing List.rtakeWhile
  rw [List.reverse_cons, List.takeWhile_append]
  split
  · rename_i h
    rw [(List.takeWhile_prefix _).eq_of_length h]
    simp
  · exact le_rfl

/-- The spaces at the end of a text are in gaps or in a literal that is not closed. -/
theorem le_trailing (w : List Char) (hb : AreSpaces b) :
    b.length ≤ (trailing (cut (w ++ b))).length ∨ (cut (w ++ b)).getLast?.any isOpen := by
  cases b with
  | nil => exact .inl (Nat.zero_le _)
  | cons d b =>
    induction hn : w.length using Nat.strong_induction_on generalizing w with
    | h n ih =>
      have hgaps {w : List Char} (h : AreGaps (cut (w ++ d :: b))) :
          (d :: b).length ≤ (trailing (cut (w ++ d :: b))).length := by
        rw [trailing_of_areGaps h, flatMap_cut, List.length_append]
        omega
      cases w with
      | nil => exact .inl (hgaps (w := []) (cut_of_areSpaces hb))
      | cons c e =>
        by_cases hle : (first c (e ++ d :: b)).2 ≤ e.length
        · have hlt : (e.drop (first c (e ++ d :: b)).2).length < n := by
            rw [← hn, List.length_drop, List.length_cons]
            omega
          rw [List.cons_append, cut_cons, List.drop_append_of_le_length hle]
          rcases ih _ hlt _ rfl with h | h
          · exact .inl (h.trans (trailing_cons _ _))
          · obtain ⟨x, hx, ho⟩ := (Option.any_eq_true _ _).mp h
            rw [List.getLast?_cons, hx]
            exact .inr ho
        rcases (endsBefore_first c e hb).resolve_left hle with hk | ⟨hq, hf⟩
        · refine .inl (hgaps fun x hx => ?_)
          rw [List.cons_append, cut_cons, List.drop_append,
            List.drop_eq_nil_of_le (by omega), List.nil_append] at hx
          rcases List.mem_cons.mp hx with rfl | hx
          · exact hk
          · exact cut_of_areSpaces (fun y hy => hb y (List.mem_of_mem_drop hy)) x hx
        · refine .inr ?_
          rw [List.cons_append, cut_cons, hf, List.drop_length]
          simpa [cut, cutAfter, isOpen] using hq

theorem length_takeWhile_le {p q : Char → Bool} (h : ∀ d ∈ l.takeWhile p, q d = true) :
    (l.takeWhile p).length ≤ (l.takeWhile q).length := by
  conv_rhs => rw [← List.takeWhile_append_dropWhile (p := p) (l := l)]
  rw [List.takeWhile_append_of_pos h, List.length_append]
  exact Nat.le_add_right _ _

/-- If the blanks at the start of a text are spaces, they are in gaps. -/
theorem le_leading (h : AreSpaces (l.takeWhile isBlank)) :
    (l.takeWhile isBlank).length ≤ (leading (cut l)).length := by
  cases l with
  | nil => exact Nat.zero_le _
  | cons c l =>
    cases hc : isBlank c with
    | false =>
      rw [List.takeWhile_cons_of_neg (by simp [hc])]
      exact Nat.zero_le _
    | true =>
      rw [List.takeWhile_cons_of_pos hc] at h ⊢
      rw [cut_of_spaces (if_pos (h c List.mem_cons_self)), leading_cons, if_pos rfl,
        List.length_append, List.length_cons, List.length_cons]
      have := length_takeWhile_le (q := isSpace) fun d hd =>
        isSpace_of_beginsBlank (h d (List.mem_cons_of_mem _ hd))
      omega

end SipMigrate.Sql.Lexeme
