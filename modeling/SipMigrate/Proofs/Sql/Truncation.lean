import SipMigrate.Proofs.Sql.Lexing

/-! Cutting the beginning of a text. A lexeme depends on the characters that it takes up
and on none behind them but where the text goes on with it. So a text that breaks off
behind a lexeme has the same lexemes up to there. -/

namespace SipMigrate.Sql.Lexeme

variable {l rest u v : List Char} {c : Char}

/-! ### Lengths -/

/-- A length that no character behind it changes. -/
def IsLocal (f : List Char → Nat) : Prop :=
  ∀ l rest, f (l ++ rest) ≤ l.length → f l = f (l ++ rest)

theorem isLocal_takeWhile (p : Char → Bool) : IsLocal fun l => (l.takeWhile p).length := by
  intro l rest h
  dsimp only at h ⊢
  rw [List.takeWhile_append] at h ⊢
  split at h
  · rename_i hl
    rw [if_pos hl, hl]
    rw [List.length_append] at h ⊢
    omega
  · rename_i hl
    rw [if_neg hl]

/-- One length behind another one. -/
theorem IsLocal.add {f g : List Char → Nat} (hf : IsLocal f) (hg : IsLocal g) :
    IsLocal fun l => f l + g (l.drop (f l)) := by
  intro l rest h
  dsimp only at h ⊢
  have hfl := hf l rest (by omega)
  rw [← hfl] at h ⊢
  have hle : f l ≤ l.length := by omega
  rw [List.drop_append_of_le_length hle] at h ⊢
  rw [hg (l.drop (f l)) rest (by rw [List.length_drop]; omega)]

theorem isLocal_fractionLength : IsLocal fractionLength := by
  intro l rest h
  cases l with
  | nil => exact (Nat.le_zero.mp h).symm
  | cons c l =>
    by_cases hc : c = '.'
    · subst hc
      have := isLocal_takeWhile Char.isDigit l rest
      simp only [fractionLength, List.cons_append, List.length_cons] at this h ⊢
      omega
    · simp [fractionLength, hc]

/-- The number of characters of a sign. -/
def signLength (l : List Char) : Nat :=
  if l.head? = some '+' || l.head? = some '-' then 1 else 0

theorem isLocal_signLength : IsLocal signLength := by
  intro l rest h
  cases l with
  | nil => exact (Nat.le_zero.mp h).symm
  | cons c l => rfl

theorem exponentLength_cons (c : Char) (l : List Char) : exponentLength (c :: l) =
    if (c = 'e' || c = 'E') && ((l.drop (signLength l)).takeWhile Char.isDigit).length ≠ 0 then
      1 + (signLength l + ((l.drop (signLength l)).takeWhile Char.isDigit).length) else 0 := by
  rw [← Nat.add_assoc]
  rfl

theorem isLocal_exponentLength : IsLocal exponentLength := by
  intro l rest h
  cases l with
  | nil => exact (Nat.le_zero.mp h).symm
  | cons c l =>
    have hall := isLocal_signLength.add (isLocal_takeWhile Char.isDigit) l rest
    have hsign := isLocal_signLength l rest
    have hone : signLength (l ++ rest) ≤ 1 := by unfold signLength; split <;> omega
    have hdigits : ((l.drop (signLength l)).takeWhile Char.isDigit).length ≤ l.length :=
      (List.takeWhile_sublist _).length_le.trans (by simp)
    rw [List.cons_append, exponentLength_cons, List.length_cons] at h
    rw [List.cons_append, exponentLength_cons, exponentLength_cons]
    cases hc : (decide (c = 'e') || decide (c = 'E')) with
    | false => rfl
    | true =>
      simp only [hc, Bool.true_and, decide_eq_true_eq] at h ⊢
      dsimp only at hall
      split at h <;> rename_i hm
      · rw [if_pos (by omega), if_pos hm, hall (by omega)]
      · rw [if_neg (by omega), if_neg hm]

theorem commentLength_cons (c : Char) (l : List Char) : commentLength (c :: l) =
    if c = '*' ∧ l.head? = some '/' then 2 else commentLength l + 1 := by
  rw [commentLength.eq_def]
  split
  · rename_i h; cases h
  · rename_i h; cases h; rfl
  · rename_i hne h
    cases h
    rw [if_neg]
    rintro ⟨rfl, hl⟩
    obtain ⟨l, rfl⟩ := List.head?_eq_some_iff.mp hl
    exact hne l rfl rfl

theorem commentLength_eq_min (l rest : List Char) :
    commentLength l = min l.length (commentLength (l ++ rest)) := by
  induction l with
  | nil => simp [commentLength]
  | cons c l ih =>
    rw [List.cons_append, commentLength_cons, commentLength_cons, List.length_cons]
    cases l with
    | nil =>
      rw [if_neg (by simp), commentLength, List.nil_append]
      split <;> simp
    | cons d l =>
      rw [List.cons_append, List.head?_cons, List.head?_cons, ← List.cons_append]
      split
      · simp
      · omega

theorem isLocal_commentLength : IsLocal commentLength := by
  intro l rest h
  rw [commentLength_eq_min l rest]
  omega

/-! ### Lexemes -/

/-- A kind of lexeme and its length that no character behind it changes. -/
def IsSettled (f : List Char → LexemeKind × Nat) : Prop :=
  ∀ l rest, (f (l ++ rest)).2 ≤ l.length → f l = f (l ++ rest)

theorem decimal_eq (l : List Char) : decimal l =
    let whole := (l.takeWhile Char.isDigit).length
    let fraction := fractionLength (l.drop whole)
    let exponent := exponentLength (l.drop (whole + fraction))
    let trailing := ((l.drop (whole + fraction + exponent)).takeWhile isNameChar).length
    (if trailing ≠ 0 then .malformed else if fraction + exponent = 0 then .integer else .real,
      whole + fraction + exponent + trailing) := by
  unfold decimal
  dsimp only
  split
  · rename_i h
    rw [h]
    rfl
  · rename_i h
    rw [if_pos h]

namespace IsSettled

variable {f g : List Char → LexemeKind × Nat}

theorem of_isLocal (kind : LexemeKind) {f : List Char → Nat} (hf : IsLocal f) :
    IsSettled fun l => (kind, f l) :=
  fun l rest h => congrArg (Prod.mk kind) (hf l rest h)

theorem ite {p : Prop} [Decidable p] (hf : IsSettled f) (hg : IsSettled g) :
    IsSettled fun l => if p then f l else g l := by
  split
  · exact hf
  · exact hg

end IsSettled

theorem isSettled_decimal : IsSettled decimal := by
  intro l rest h
  have hwhole := isLocal_takeWhile Char.isDigit
  have hfraction := hwhole.add isLocal_fractionLength
  have hexponent := hfraction.add isLocal_exponentLength
  have htrailing := hexponent.add (isLocal_takeWhile isNameChar)
  have h₁ := hwhole l rest
  have h₂ := hfraction l rest
  have h₃ := hexponent l rest
  have h₄ := htrailing l rest
  rw [decimal_eq] at h
  rw [decimal_eq, decimal_eq]
  dsimp only at h h₁ h₂ h₃ h₄ ⊢
  generalize (l.takeWhile Char.isDigit).length = w at *
  generalize ((l ++ rest).takeWhile Char.isDigit).length = w' at *
  generalize fractionLength (l.drop w) = f at *
  generalize fractionLength ((l ++ rest).drop w') = f' at *
  generalize exponentLength (l.drop (w + f)) = e at *
  generalize exponentLength ((l ++ rest).drop (w' + f')) = e' at *
  generalize ((l.drop (w + f + e)).takeWhile isNameChar).length = t at *
  generalize (((l ++ rest).drop (w' + f' + e')).takeWhile isNameChar).length = t' at *
  obtain rfl : w = w' := h₁ (by omega)
  obtain rfl : f = f' := Nat.add_left_cancel (h₂ (by omega))
  obtain rfl : e = e' := Nat.add_left_cancel (h₃ (by omega))
  obtain rfl : t = t' := Nat.add_left_cancel (h₄ (by omega))
  rfl

theorem number_of_hex {x d : Char} (hx : x = 'x' ∨ x = 'X') (hd : isHexDigit d = true)
    (l : List Char) : number ('0' :: x :: d :: l) =
      (.hexadecimal, 3 + (l.takeWhile isHexDigit).length) := by
  simp [number, hx, hd]

theorem number_cases (l : List Char) : number l = decimal l ∨
    ∃ x d rest, l = '0' :: x :: d :: rest ∧ (x = 'x' ∨ x = 'X') ∧ isHexDigit d = true := by
  unfold number
  split
  · rename_i x d rest
    split
    · rename_i h
      simp only [Bool.and_eq_true, Bool.or_eq_true, decide_eq_true_eq] at h
      exact .inr ⟨x, d, rest, rfl, h⟩
    · exact .inl rfl
  · exact .inl rfl

theorem isSettled_number : IsSettled number := by
  have hex {x d : Char} (hx : x = 'x' ∨ x = 'X') (hd : isHexDigit d = true) (l rest : List Char)
      (h : (number ('0' :: x :: d :: (l ++ rest))).2 ≤ l.length + 3) :
      number ('0' :: x :: d :: l) = number ('0' :: x :: d :: (l ++ rest)) := by
    have hlocal := isLocal_takeWhile isHexDigit l rest
    rw [number_of_hex hx hd] at h
    rw [number_of_hex hx hd, number_of_hex hx hd]
    dsimp only at h hlocal
    rw [hlocal (by omega)]
  intro l rest h
  rcases number_cases l with hl | ⟨x, d, l, rfl, hx, hd⟩
  · rcases number_cases (l ++ rest) with hr | ⟨x, d, more, hr, hx, hd⟩
    · rw [hr] at h
      rw [hl, hr, isSettled_decimal l rest h]
    · rw [hr, number_of_hex hx hd] at h
      match l with
      | [] | [_] | [_, _] =>
        simp only [List.length_nil, List.length_cons] at h
        omega
      | c :: y :: e :: l =>
        simp only [List.cons_append, List.cons.injEq] at hr
        obtain ⟨rfl, rfl, rfl, rfl⟩ := hr
        refine hex hx hd l rest ?_
        rw [number_of_hex hx hd]
        exact h
  · exact hex hx hd l rest (by simpa using h)

theorem quotedLength_pos {quote : Char} {n : Nat} (h : quotedLength? quote l = some n) :
    0 < n := by
  induction l using quotedLength?.induct quote generalizing n with
  | case1 => simp [quotedLength?] at h
  | case2 => simp [quotedLength?] at h; omega
  | case3 c hc => simp [quotedLength?, hc] at h
  | case4 l ih => simp [quotedLength?] at h; omega
  | case5 d l hd => simp [quotedLength?, hd] at h; omega
  | case6 c d l hc ih => simp [quotedLength?, hc] at h; omega

theorem quotedLength_of_append {quote : Char} {n : Nat}
    (h : quotedLength? quote (l ++ rest) = some n) (hn : n ≤ l.length) :
    quotedLength? quote l = some n := by
  induction l using quotedLength?.induct quote generalizing n with
  | case1 => exact absurd (quotedLength_pos h) (by simpa using hn)
  | case2 =>
    cases rest with
    | nil => simpa using h
    | cons d rest =>
      by_cases hd : d = quote
      · subst hd
        simp only [List.singleton_append, quotedLength?, if_true, Option.map_eq_some_iff] at h
        obtain ⟨m, -, rfl⟩ := h
        simp at hn
      · simpa [quotedLength?, hd] using h
  | case3 c hc =>
    cases rest with
    | nil => simpa using h
    | cons d rest =>
      simp only [List.singleton_append, quotedLength?, hc, if_false, Option.map_eq_some_iff] at h
      obtain ⟨m, hm, rfl⟩ := h
      have := quotedLength_pos hm
      simp only [List.length_singleton] at hn
      omega
  | case4 l ih =>
    simp only [List.cons_append, quotedLength?, if_true, Option.map_eq_some_iff] at h
    obtain ⟨m, hm, rfl⟩ := h
    simp [quotedLength?, ih hm (by simpa using hn)]
  | case5 d l hd => simpa [quotedLength?, hd] using h
  | case6 c d l hc ih =>
    simp only [List.cons_append, quotedLength?, hc, if_false, Option.map_eq_some_iff] at h
    obtain ⟨m, hm, rfl⟩ := h
    simp [quotedLength?, hc, ih hm (by simpa using hn)]

theorem idxOf?_of_append {c : Char} {n : Nat}
    (h : ((l ++ rest).idxOf? c).map (· + 1) = some n) (hn : n ≤ l.length) :
    (l.idxOf? c).map (· + 1) = some n := by
  unfold List.idxOf? at h ⊢
  rw [List.findIdx?_append] at h
  cases hl : l.findIdx? (· == c) with
  | some k => simpa [hl] using h
  | none =>
    simp only [hl, Option.none_or, Option.map_map, Option.map_eq_some_iff] at h
    obtain ⟨k, -, rfl⟩ := h
    simp only [Function.comp_apply] at hn
    omega

theorem isSettled_closed (kind : LexemeKind) {f : List Char → Option Nat}
    (hf : ∀ l rest n, f (l ++ rest) = some n → n ≤ l.length → f l = some n) :
    IsSettled fun l => closed kind l (f l) := by
  intro l rest h
  dsimp only at h ⊢
  cases hr : f (l ++ rest) with
  | none =>
    rw [hr] at h
    obtain rfl : rest = [] := by simpa [closed] using h
    rw [List.append_nil] at hr ⊢
    rw [hr]
  | some n =>
    rw [hr] at h
    rw [hf l rest n hr h]
    rfl

theorem isSettled_symbol (c : Char) : IsSettled (symbol c) := by
  intro l rest h
  have hbegins (s : List Char) (hs : s.isPrefixOf (c :: l) = true) :
      s.isPrefixOf (c :: (l ++ rest)) = true := by
    rw [List.isPrefixOf_iff_prefix] at hs ⊢
    exact hs.trans ⟨rest, rfl⟩
  unfold symbol at h ⊢
  cases hs : longSymbols.find? (·.isPrefixOf (c :: (l ++ rest))) with
  | none =>
    have hl : longSymbols.find? (·.isPrefixOf (c :: l)) = none := by
      rw [List.find?_eq_none] at hs ⊢
      exact fun s hm hp => hs s hm (hbegins s hp)
    rw [hl]
  | some s =>
    rw [hs] at h
    have hl : longSymbols.find? (·.isPrefixOf (c :: l)) = some s := by
      rw [List.find?_eq_some_iff_append] at hs ⊢
      obtain ⟨hp, before, after, hsplit, hbefore⟩ := hs
      refine ⟨?_, before, after, hsplit, fun s' hm => ?_⟩
      · rw [List.isPrefixOf_iff_prefix] at hp ⊢
        refine List.prefix_of_prefix_length_le hp ⟨rest, rfl⟩ ?_
        dsimp only at h
        rw [List.length_cons]
        omega
      · have hs' := hbefore s' hm
        cases hp' : s'.isPrefixOf (c :: l) with
        | true =>
          rw [hbegins s' hp'] at hs'
          cases hs'
        | false => rfl
    rw [hl]

theorem isSettled_parameter : IsSettled parameter := by
  intro l rest h
  have hlocal := isLocal_takeWhile isNameChar l rest
  have hlength (l : List Char) : (parameter l).2 = (l.takeWhile isNameChar).length := by
    unfold parameter
    split <;> rename_i hn
    · exact hn.symm
    · rfl
  rw [hlength] at h
  unfold parameter
  rw [show (l.takeWhile isNameChar).length = _ from hlocal h]

/-- A comment, or a symbol. -/
def comment (c : Char) (rest : List Char) : LexemeKind × Nat :=
  match c, rest with
  | '-', '-' :: line => (.blank, 1 + (line.takeWhile (· ≠ '\n')).length)
  | '/', '*' :: d :: body => (.blank, 1 + commentLength (d :: body))
  | c, rest => symbol c rest

theorem comment_line (line : List Char) : comment '-' ('-' :: line) =
    (.blank, 1 + (line.takeWhile (· ≠ '\n')).length) := rfl

theorem comment_body (d : Char) (body : List Char) : comment '/' ('*' :: d :: body) =
    (.blank, 1 + commentLength (d :: body)) := rfl

theorem comment_cases (c : Char) (l : List Char) : comment c l = symbol c l ∨
    (∃ line, c = '-' ∧ l = '-' :: line) ∨ ∃ d body, c = '/' ∧ l = '*' :: d :: body := by
  unfold comment
  split
  · rename_i line
    exact .inr (.inl ⟨line, rfl, rfl⟩)
  · rename_i d body
    exact .inr (.inr ⟨d, body, rfl, rfl⟩)
  · exact .inl rfl

theorem commentLength_pos (c : Char) (l : List Char) : 0 < commentLength (c :: l) := by
  rw [commentLength_cons]
  split <;> omega

theorem isSettled_comment (c : Char) : IsSettled (comment c) := by
  have hline (l rest : List Char) (h : (comment '-' ('-' :: (l ++ rest))).2 ≤ l.length + 1) :
      comment '-' ('-' :: l) = comment '-' ('-' :: (l ++ rest)) := by
    have := isLocal_takeWhile (· ≠ '\n') l rest
    rw [comment_line] at h
    rw [comment_line, comment_line]
    dsimp only at h this
    rw [this (by omega)]
  have hbody (d : Char) (l rest : List Char)
      (h : (comment '/' ('*' :: d :: (l ++ rest))).2 ≤ l.length + 2) :
      comment '/' ('*' :: d :: l) = comment '/' ('*' :: d :: (l ++ rest)) := by
    have := isLocal_commentLength (d :: l) rest
    rw [List.cons_append, List.length_cons] at this
    rw [comment_body] at h
    rw [comment_body, comment_body]
    dsimp only at h
    rw [this (by omega)]
  intro l rest h
  rcases comment_cases c (l ++ rest) with hr | ⟨line, rfl, hr⟩ | ⟨d, body, rfl, hr⟩
  · rcases comment_cases c l with hl | ⟨line, rfl, rfl⟩ | ⟨d, body, rfl, rfl⟩
    · rw [hr] at h
      rw [hl, hr, isSettled_symbol c l rest h]
    · exact hline line rest h
    · exact hbody d body rest h
  · cases l with
    | nil =>
      obtain rfl : rest = _ := hr
      simp [comment] at h
    | cons e l =>
      obtain ⟨rfl, rfl⟩ := List.cons.inj hr
      exact hline l rest h
  · match l with
    | [] =>
      obtain rfl : rest = _ := hr
      simp [comment] at h
    | [e] =>
      obtain ⟨rfl, rfl⟩ := List.cons.inj hr
      have := commentLength_pos d body
      simp only [comment, List.singleton_append, List.length_singleton] at h
      omega
    | e :: f :: l =>
      simp only [List.cons_append, List.cons.injEq] at hr
      obtain ⟨rfl, rfl, rfl⟩ := hr
      exact hbody _ l rest h

theorem isSettled_numberAt (c : Char) :
    IsSettled fun rest => ((number (c :: rest)).1, (number (c :: rest)).2 - 1) := by
  intro l rest h
  have := isSettled_number (c :: l) rest
  dsimp only at h ⊢
  rw [this (by rw [List.length_cons, List.cons_append]; omega)]
  rfl

/-- The length of a number that begins with a point. -/
theorem number_point {d : Char} (hd : d.isDigit = true) (l : List Char) :
    0 < (number ('.' :: d :: l)).2 - 1 := by
  have hnumber : number ('.' :: d :: l) = decimal ('.' :: d :: l) := by
    rcases number_cases ('.' :: d :: l) with h | ⟨x, e, rest, h, -⟩
    · exact h
    · cases h
  rw [hnumber, decimal_eq]
  have hpoint : Char.isDigit '.' = false := by decide
  simp only [List.takeWhile_cons, hpoint, hd, fractionLength, Bool.false_eq_true, if_false, if_true,
    List.length_nil, List.drop_zero, List.length_cons]
  omega

/-- A point begins something else if a digit follows it. -/
theorem isSettled_point {f g : List Char → LexemeKind × Nat} (c : Char) (hf : IsSettled f)
    (hg : IsSettled g) (hpos : c = '.' → ∀ d l, d.isDigit = true → 0 < (f (d :: l)).2) :
    IsSettled fun l => if c = '.' && l.head?.any Char.isDigit then f l else g l := by
  intro l rest h
  cases l with
  | cons d l => exact hf.ite (p := (c = '.' && d.isDigit) = true) hg (d :: l) rest h
  | nil =>
    simp only [List.nil_append] at h ⊢
    rw [if_neg (by simp)]
    split at h <;> rename_i hc
    · cases rest with
      | nil => simp at hc
      | cons d rest =>
        simp only [Bool.and_eq_true, decide_eq_true_eq, List.head?_cons, Option.any_some] at hc
        have := hpos hc.1 d rest hc.2
        rw [List.length_nil] at h
        omega
    · rw [if_neg hc]
      exact hg [] rest h

/-- A lexeme that ends before a text breaks off is there in what is left. -/
theorem isSettled_first (c : Char) : IsSettled (first c) := by
  have hquoted (kind : LexemeKind) : IsSettled fun l => closed kind l (quotedLength? c l) :=
    isSettled_closed kind fun l rest n => quotedLength_of_append
  refine .ite (.of_isLocal _ (isLocal_takeWhile isSpace)) ?_
  refine .ite (fun _ _ _ => rfl) ?_
  refine .ite (.of_isLocal _ (isLocal_takeWhile isNameChar)) ?_
  refine .ite (isSettled_numberAt c) ?_
  refine isSettled_point c (isSettled_numberAt c) ?_ ?_
  · refine .ite (hquoted _) ?_
    refine .ite (hquoted _) ?_
    refine .ite (isSettled_closed _ fun l rest n => idxOf?_of_append) ?_
    refine .ite (.of_isLocal _ (isLocal_takeWhile Char.isDigit)) ?_
    exact .ite isSettled_parameter (isSettled_comment c)
  · rintro rfl d l hd
    exact number_point hd l

/-! ### Texts -/

theorem cutAfter_eq (n : Nat) (l : List Char) : cutAfter n l = cut (l.drop n) := by
  induction l generalizing n with
  | nil => rw [List.drop_nil]; cases n <;> rfl
  | cons c l ih =>
    cases n with
    | zero => rfl
    | succ n => exact ih n

theorem cut_cons (c : Char) (l : List Char) :
    cut (c :: l) = ⟨(first c l).1, c :: l.take (first c l).2⟩ :: cut (l.drop (first c l).2) := by
  rw [← cutAfter_eq]
  rfl

/-- The lexemes of a text make up the text. -/
theorem flatMap_cut (l : List Char) : (cut l).flatMap (·.chars) = l := by
  induction hn : l.length using Nat.strong_induction_on generalizing l with
  | h n ih =>
    cases l with
    | nil => rfl
    | cons c l =>
      have hlt : (l.drop (first c l).2).length < n := by
        rw [← hn, List.length_drop, List.length_cons]
        omega
      rw [cut_cons, List.flatMap_cons, ih _ hlt _ rfl, List.cons_append, List.take_append_drop]

/-- Lexemes behind others are those of their own text. -/
theorem cut_of_append {L M : List Lexeme} (h : cut l = L ++ M) :
    cut (M.flatMap (·.chars)) = M := by
  induction L generalizing l with
  | nil =>
    rw [List.nil_append] at h
    rw [← h, flatMap_cut]
  | cons x L ih =>
    cases l with
    | nil => cases h
    | cons c l =>
      rw [cut_cons, List.cons_append, List.cons.injEq] at h
      exact ih h.2

/-- A text that breaks off behind some lexemes begins with them. -/
theorem cut_truncated {L M : List Lexeme} (h : cut l = L ++ M)
    (hv : M.flatMap (·.chars) = u ++ v) :
    cut (L.flatMap (·.chars) ++ u) = L ++ cut u := by
  induction L generalizing l with
  | nil => rfl
  | cons x L ih =>
    cases l with
    | nil => cases h
    | cons c l =>
      have hfirst := isSettled_first c (l.take (first c l).2 ++ (L.flatMap (·.chars) ++ u)) v
      rw [cut_cons, List.cons_append, List.cons.injEq] at h
      obtain ⟨rfl, hrest⟩ := h
      generalize hn : (first c l).2 = n at hfirst hrest
      have hl : l = l.take n ++ (L.flatMap (·.chars) ++ u) ++ v := by
        have := flatMap_cut (l.drop n)
        rw [hrest, List.flatMap_append, hv, ← List.append_assoc] at this
        rw [List.append_assoc, this, List.take_append_drop]
      rw [← hl, hn] at hfirst
      show cut (c :: (l.take n ++ L.flatMap (·.chars) ++ u)) = _ :: (L ++ cut u)
      rw [List.append_assoc, cut_cons]
      by_cases hle : n ≤ l.length
      · have htake : (l.take n).length = n := by rw [List.length_take]; omega
        rw [hfirst (by rw [List.length_append]; omega), hn, ← ih hrest]
        rw [List.take_append_of_le_length htake.ge, List.drop_append_of_le_length htake.ge,
          List.take_take, Nat.min_self, List.drop_eq_nil_of_le htake.le, List.nil_append]
      · have hle : l.length ≤ n := by omega
        rw [List.drop_eq_nil_of_le hle] at hrest
        obtain ⟨rfl, rfl⟩ := List.append_eq_nil_iff.mp hrest.symm
        obtain ⟨rfl, rfl⟩ := List.append_eq_nil_iff.mp hv.symm
        rw [List.flatMap_nil, List.append_nil, List.append_nil, List.take_of_length_le hle, hn,
          List.take_of_length_le hle, List.drop_eq_nil_of_le hle]
        rfl

end SipMigrate.Sql.Lexeme
