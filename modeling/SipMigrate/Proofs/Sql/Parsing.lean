import SipMigrate.Proofs.Sql.Reading
import SipMigrate.Proofs.Text.Decimal

/-! How parsers run on the tokens of plain statements. Whether a parser takes a
token is decided by the word or the symbol alone, so that closed words are
settled by computation wherever the statement stands. -/

namespace SipMigrate.Sql

/-! ### Results -/

section

variable {ε α β : Type}

@[simp] theorem ok_bind (a : α) (f : α → Except ε β) : (Except.ok a >>= f) = f a := rfl

@[simp] theorem error_bind (e : ε) (f : α → Except ε β) : (Except.error e >>= f) = .error e := rfl

@[simp] theorem map_ok (a : α) (f : α → β) : f <$> (Except.ok a : Except ε α) = .ok (f a) := rfl

@[simp] theorem map_error (e : ε) (f : α → β) :
    f <$> (Except.error e : Except ε α) = .error e := rfl

@[simp] theorem pure_eq_ok (a : α) : (pure a : Except ε α) = .ok a := rfl

end

/-! ### Numbers -/

/-- A number that is written in digits. -/
def Numeral.ofNat (n : Nat) : Numeral := ⟨false, Nat.toDigits 10 n, [], 0, true⟩

theorem Value.ofNumeral_ofNat {n : Nat} (h : Text.isInt64 n = true) :
    ofNumeral (.ofNat n) = .integer n := by
  simp [ofNumeral, Numeral.integer?, Numeral.signed, Numeral.ofNat, Text.digitsValue_toDigits, h]

theorem Value.ofNumeral_ne_null (n : Numeral) : ofNumeral n ≠ .null := by
  unfold ofNumeral
  split <;> simp

/-- A name without quotes. -/
def Name.ofWord (s : String) (offset : Nat) : Name := ⟨s, s, offset⟩

/-! ### Lexemes of plain statements -/

namespace Lexeme

variable (s : String) (c : Char) (n : Nat) (l : List Char)

def ofWord : Lexeme := ⟨.word, s.toList⟩

def ofSymbol : Lexeme := ⟨.symbol, [c]⟩

def ofNat : Lexeme := ⟨.integer, Nat.toDigits 10 n⟩

/-- A string literal. -/
def ofText : Lexeme := ⟨.text, '\x27' :: (doubled '\x27' s.toList ++ ['\x27'])⟩

/-- A string literal that lacks its last quote. -/
def unclosed : Lexeme := ⟨.malformed, '\x27' :: doubled '\x27' l⟩

def space : Lexeme := ⟨.blank, [' ']⟩

@[simp] theorem kind_ofWord : (ofWord s).kind = .word := rfl

@[simp] theorem kind_ofSymbol : (ofSymbol c).kind = .symbol := rfl

@[simp] theorem kind_ofNat : (ofNat n).kind = .integer := rfl

@[simp] theorem kind_ofText : (ofText s).kind = .text := rfl

@[simp] theorem kind_unclosed : (unclosed l).kind = .malformed := rfl

@[simp] theorem kind_space : space.kind = .blank := rfl

@[simp] theorem chars_ofWord : (ofWord s).chars = s.toList := rfl

@[simp] theorem chars_ofSymbol : (ofSymbol c).chars = [c] := rfl

@[simp] theorem chars_ofNat : (ofNat n).chars = Nat.toDigits 10 n := rfl

@[simp] theorem chars_ofText :
    (ofText s).chars = '\x27' :: (doubled '\x27' s.toList ++ ['\x27']) := rfl

@[simp] theorem chars_unclosed : (unclosed l).chars = '\x27' :: doubled '\x27' l := rfl

@[simp] theorem chars_space : space.chars = [' '] := rfl

@[simp] theorem isPlain_ofWord : (ofWord s).isPlain = isPlainWord s.toList := by
  cases h : s.toList <;> simp [isPlain, h]

@[simp] theorem isPlain_ofSymbol : (ofSymbol c).isPlain = decide (c ∈ plainSymbols) := rfl

@[simp] theorem isPlain_ofNat : (ofNat n).isPlain = true := by
  have hd : ∀ c ∈ Nat.toDigits 10 n, c.isDigit = true := fun c hc =>
    Nat.isDigit_of_mem_toDigits (by decide) (by decide) hc
  cases h : Nat.toDigits 10 n with
  | nil => exact absurd h Nat.toDigits_ne_nil
  | cons c l =>
    rw [h] at hd
    simpa [isPlain, h] using hd

@[simp] theorem isPlain_ofText : (ofText s).isPlain = true := by
  simp [isPlain, quotedLength_doubled_append]

@[simp] theorem isUnclosed_unclosed : (unclosed l).isUnclosed = true := by
  simp [isUnclosed, quotedLength_doubled]

@[simp] theorem isPlain_space : space.isPlain = true := rfl

/-- A lexeme without a NUL, which would end the text. -/
def isVisible (x : Lexeme) : Bool := x.chars.all (· ≠ '\x00')

theorem visible_flatMap_append {l : List Lexeme} (h : l.all isVisible = true)
    (rest : List Char) :
    Connection.visible (l.flatMap (·.chars) ++ rest) =
      l.flatMap (·.chars) ++ Connection.visible rest := by
  unfold Connection.visible
  apply List.takeWhile_append_of_pos
  intro c hc
  obtain ⟨x, hx, hc⟩ := List.mem_flatMap.mp hc
  exact List.all_eq_true.mp (List.all_eq_true.mp h x hx) c hc

theorem visible_flatMap {l : List Lexeme} (h : l.all isVisible = true) :
    Connection.visible (l.flatMap (·.chars)) = l.flatMap (·.chars) := by
  simpa [Connection.visible] using visible_flatMap_append h []

theorem isVisible_ofWord_of_isPlainWord {s : String} (h : isPlainWord s.toList = true) :
    (ofWord s).isVisible = true := by
  have hc : ∀ c, isPlainWordChar c = true → decide (c ≠ '\x00') = true := by
    intro c hc
    rw [isPlainWordChar_iff, beginsPlainWord_iff, isDigit_iff] at hc
    rw [decide_eq_true_eq, Ne, eq_iff_toNat]
    simp only [Char.reduceToNat]
    omega
  simp only [isVisible, chars_ofWord]
  cases hs : s.toList with
  | nil => rfl
  | cons c l =>
    simp only [hs, isPlainWord, Bool.and_eq_true, List.all_eq_true] at h
    rw [List.all_cons, hc c (isPlainWordChar_iff.mpr (.inl h.1)), Bool.true_and, List.all_eq_true]
    exact fun d hd => hc d (h.2 d hd)

@[simp] theorem isVisible_ofNat : (ofNat n).isVisible = true := by
  simp only [isVisible, chars_ofNat, List.all_eq_true]
  intro c hc
  have := isDigit_iff.mp (Nat.isDigit_of_mem_toDigits (by decide) (by decide) hc)
  rw [decide_eq_true_eq, Ne, eq_iff_toNat]
  simp only [Char.reduceToNat]
  omega

@[simp] theorem isVisible_space : space.isVisible = true := rfl

theorem isVisible_ofText (h : '\x00' ∉ s.toList) : (ofText s).isVisible = true := by
  simp only [isVisible, chars_ofText, List.all_eq_true, List.mem_cons, List.mem_append,
    doubled, List.mem_flatMap]
  rintro c (rfl | ⟨d, hd, hc⟩ | rfl | hc)
  · rfl
  · split at hc
    · simp only [List.mem_cons, List.not_mem_nil, or_false, or_self] at hc
      rw [hc]
      rfl
    · obtain rfl : c = d := by simpa using hc
      simp only [ne_eq, decide_eq_true_eq]
      rintro rfl
      exact h hd
  · rfl
  · simp at hc

theorem visible_doubled_append (quote : Char) (hq : quote ≠ '\x00') {l : List Char}
    (h : '\x00' ∈ l) (rest : List Char) :
    Connection.visible (doubled quote l ++ rest) = doubled quote (Connection.visible l) := by
  induction l with
  | nil => simp at h
  | cons c l ih =>
    by_cases hc : c = '\x00'
    · simp [Connection.visible, hc, hq.symm, doubled]
    · have ih := ih (by simpa [Ne.symm hc] using h)
      unfold Connection.visible at ih ⊢
      rw [List.takeWhile_cons_of_pos (by simpa using hc), doubled_cons, doubled_cons]
      split <;> simpa [hq, hc] using ih

/-- A NUL in a literal cuts off its end. -/
theorem visible_ofText_append (h : '\x00' ∈ s.toList) (rest : List Char) :
    Connection.visible ((ofText s).chars ++ rest) =
      (unclosed (Connection.visible s.toList)).chars := by
  have := visible_doubled_append '\x27' (by decide) h (['\x27'] ++ rest)
  unfold Connection.visible at this ⊢
  simpa using this

end Lexeme

/-! ### Tokens of plain statements -/

namespace Token

variable (s k : String) (c : Char) (n : Nat) (gap : List Char) (offset : Nat) (words : List String)

def ofWord : Token := ⟨.word, s.toList, gap, offset⟩

def ofSymbol : Token := ⟨.symbol, [c], gap, offset⟩

def ofNat : Token := ⟨.integer, Nat.toDigits 10 n, gap, offset⟩

def ofText : Token := ⟨.text, '\x27' :: (doubled '\x27' s.toList ++ ['\x27']), gap, offset⟩

def unclosed (l : List Char) : Token := ⟨.malformed, '\x27' :: doubled '\x27' l, gap, offset⟩

@[simp] theorem kind_ofWord : (ofWord s gap offset).kind = .word := rfl

@[simp] theorem text_ofWord : (ofWord s gap offset).text = s := by simp [ofWord, text]

@[simp] theorem nameOf_ofWord :
    Parser.nameOf (ofWord s gap offset) = .ofWord s offset := by
  simp [Parser.nameOf, Name.ofWord, ofWord, text]

@[simp] theorem isKeyword_ofWord : (ofWord s gap offset).isKeyword k = sameName s k := by
  simp [isKeyword, ofWord, text]

@[simp] theorem isKeyword_ofSymbol : (ofSymbol c gap offset).isKeyword k = false := rfl

@[simp] theorem isKeyword_ofNat : (ofNat n gap offset).isKeyword k = false := rfl

@[simp] theorem isKeyword_ofText : (ofText s gap offset).isKeyword k = false := rfl

@[simp] theorem isSymbol_ofWord : (ofWord s gap offset).isSymbol k = false := rfl

@[simp] theorem isSymbol_ofSymbol :
    (ofSymbol c gap offset).isSymbol k = decide (String.singleton c = k) := by
  simp [isSymbol, ofSymbol, text]

@[simp] theorem isSymbol_ofNat : (ofNat n gap offset).isSymbol k = false := rfl

@[simp] theorem isSymbol_ofText : (ofText s gap offset).isSymbol k = false := rfl

@[simp] theorem isOneOf_ofWord :
    (ofWord s gap offset).isOneOf words = words.contains (lowerAscii s) := by
  simp [isOneOf, ofWord, text]

@[simp] theorem isOneOf_ofSymbol : (ofSymbol c gap offset).isOneOf words = false := rfl

@[simp] theorem isOneOf_ofNat : (ofNat n gap offset).isOneOf words = false := rfl

@[simp] theorem isOneOf_ofText : (ofText s gap offset).isOneOf words = false := rfl

@[simp] theorem isIdentifier_ofWord :
    (ofWord s gap offset).isIdentifier = !reservedWords.contains (lowerAscii s) := by
  simp [isIdentifier, ofWord, isOneOf, text]

@[simp] theorem isName_ofWord :
    (ofWord s gap offset).isName = !reservedWords.contains (lowerAscii s) := by
  simp [isName]

@[simp] theorem isName_ofSymbol : (ofSymbol c gap offset).isName = false := rfl

@[simp] theorem isPlainName_ofSymbol : (ofSymbol c gap offset).isPlainName = false := rfl

@[simp] theorem isName_ofNat : (ofNat n gap offset).isName = false := rfl

@[simp] theorem isOperator_ofWord :
    (ofWord s gap offset).isOperator = operatorWords.contains (lowerAscii s) := by
  simp [isOperator]

@[simp] theorem isOperator_ofSymbol :
    (ofSymbol c gap offset).isOperator = operatorSymbols.contains (String.singleton c) := by
  simp [isOperator, ofSymbol, isOneOf, text]

@[simp] theorem isOperator_ofNat : (ofNat n gap offset).isOperator = false := rfl

@[simp] theorem isOperator_ofText : (ofText s gap offset).isOperator = false := rfl

@[simp] theorem isPlainName_ofWord : (ofWord s gap offset).isPlainName =
    (!reservedWords.contains (lowerAscii s) && !joiningWords.contains (lowerAscii s)) := by
  simp [isPlainName]

@[simp] theorem opensOperand_ofWord :
    Parser.opensOperand (ofWord s gap offset) = openingWords.contains (lowerAscii s) := by
  simp [Parser.opensOperand]

@[simp] theorem isNumber_ofSymbol : Parser.isNumber (ofSymbol c gap offset) = false := rfl

@[simp] theorem isNumber_ofNat : Parser.isNumber (ofNat n gap offset) = true := rfl

@[simp] theorem numberValue_ofNat :
    Parser.numberValue (ofNat n gap offset) false = .ofNumeral (.ofNat n) := by
  have hd : ∀ c ∈ Nat.toDigits 10 n, c.isDigit = true := fun c hc =>
    Nat.isDigit_of_mem_toDigits (by decide) (by decide) hc
  have ht : (Nat.toDigits 10 n).takeWhile Char.isDigit = Nat.toDigits 10 n := by
    exact List.takeWhile_eq_self_iff.mpr hd
  have hr : (Nat.toDigits 10 n).dropWhile Char.isDigit = [] := by
    exact List.dropWhile_eq_nil_iff.mpr hd
  simp [Parser.numberValue, ofNat, Numeral.unsigned?, ht, hr, Numeral.splitFraction,
    Numeral.exponent?, Numeral.ofNat]

theorem content_ofText : (ofText s gap offset).content = s := by
  simp [content, ofText, unquote_doubled]

/-! Tokens of lexemes. -/

variable (l : List Lexeme) (o : Nat → Nat) (rest : List Token)

@[simp] theorem unplaced_nil : unplaced gap [] = [] := rfl

@[simp] theorem unplaced_space : unplaced gap (.space :: l) = unplaced (gap ++ [' ']) l := rfl

@[simp] theorem unplaced_ofWord :
    unplaced gap (.ofWord s :: l) = ofWord s gap 0 :: unplaced [] l := rfl

@[simp] theorem unplaced_ofSymbol :
    unplaced gap (.ofSymbol c :: l) = ofSymbol c gap 0 :: unplaced [] l := rfl

@[simp] theorem unplaced_ofNat :
    unplaced gap (.ofNat n :: l) = ofNat n gap 0 :: unplaced [] l := rfl

@[simp] theorem unplaced_ofText :
    unplaced gap (.ofText s :: l) = ofText s gap 0 :: unplaced [] l := rfl

@[simp] theorem unplaced_unclosed (m : List Char) :
    unplaced gap (.unclosed m :: l) = unclosed gap 0 m :: unplaced [] l := rfl

@[simp] theorem place_nil : place o [] = [] := rfl

@[simp] theorem place_ofWord : place o (ofWord s gap offset :: rest) =
    ofWord s gap (o 0) :: place (fun n => o (n + 1)) rest := rfl

@[simp] theorem place_ofSymbol : place o (ofSymbol c gap offset :: rest) =
    ofSymbol c gap (o 0) :: place (fun n => o (n + 1)) rest := rfl

@[simp] theorem place_ofNat : place o (ofNat n gap offset :: rest) =
    ofNat n gap (o 0) :: place (fun n => o (n + 1)) rest := rfl

@[simp] theorem place_ofText : place o (ofText s gap offset :: rest) =
    ofText s gap (o 0) :: place (fun n => o (n + 1)) rest := rfl

@[simp] theorem place_unclosed (m : List Char) : place o (unclosed gap offset m :: rest) =
    unclosed gap (o 0) m :: place (fun n => o (n + 1)) rest := rfl

end Token

/-! ### Parsers -/

namespace Parser

variable {α : Type} (p : Token → Bool) (t : Token) (rest : List Token) (k : String)

@[simp] theorem run_reject (l : List Token) :
    (reject : Parser α).run l = .error (.unexpected l) := rfl

@[simp] theorem run_take : (take p).run (t :: rest) =
    if p t then .ok (t, rest) else .error (.unexpected (t :: rest)) := rfl

@[simp] theorem run_take? : (take? p).run (t :: rest) =
    if p t then .ok (some t, rest) else .ok (none, t :: rest) := rfl

@[simp] theorem run_take?_nil : (take? p).run [] = .ok (none, []) := rfl

@[simp] theorem run_takeAll (l : List Token) :
    (takeAll p).run l = .ok (l.takeWhile p, l.dropWhile p) := rfl

@[simp] theorem run_discard (q : Parser α) (l : List Token) :
    (discard q).run l = (fun r => ((), r.2)) <$> q.run l := by
  show (q >>= fun _ => pure ()).run l = _
  rw [StateT.run_bind]
  rcases q.run l with _ | _ <;> rfl

@[simp] theorem run_accept : (accept p).run (t :: rest) =
    if p t then .ok (true, rest) else .ok (false, t :: rest) := by
  simp only [accept, StateT.run_bind, run_take?]
  split <;> rfl

@[simp] theorem run_accept_nil : (accept p).run [] = .ok (false, []) := rfl

@[simp] theorem run_keyword : (keyword k).run (t :: rest) =
    if t.isKeyword k then .ok ((), rest) else .error (.unexpected (t :: rest)) := by
  simp only [keyword, run_discard, run_take]
  split <;> rfl

@[simp] theorem run_symbol : (symbol k).run (t :: rest) =
    if t.isSymbol k then .ok ((), rest) else .error (.unexpected (t :: rest)) := by
  simp only [symbol, run_discard, run_take]
  split <;> rfl

@[simp] theorem run_acceptKeyword : (acceptKeyword k).run (t :: rest) =
    if t.isKeyword k then .ok (true, rest) else .ok (false, t :: rest) := run_accept _ t rest

@[simp] theorem run_acceptKeyword_nil : (acceptKeyword k).run [] = .ok (false, []) := rfl

@[simp] theorem run_acceptSymbol : (acceptSymbol k).run (t :: rest) =
    if t.isSymbol k then .ok (true, rest) else .ok (false, t :: rest) := run_accept _ t rest

@[simp] theorem run_acceptSymbol_nil : (acceptSymbol k).run [] = .ok (false, []) := rfl

@[simp] theorem run_turnAway (words : List String) : (turnAway words).run (t :: rest) =
    if t.isOneOf words then .error (.unexpected rest) else .ok ((), t :: rest) := by
  simp only [turnAway, StateT.run_bind, run_accept]
  split <;> rfl

@[simp] theorem run_turnAway_nil (words : List String) :
    (turnAway words).run [] = .ok ((), []) := rfl

@[simp] theorem run_name : name.run (t :: rest) =
    if t.isName then .ok (nameOf t, rest) else .error (.unexpected (t :: rest)) := by
  simp only [name, StateT.run_bind, run_take]
  split <;> rfl

@[simp] theorem run_get (l : List Token) : (get : Parser (List Token)).run l = .ok (l, l) := rfl

@[simp] theorem run_withText (q : Parser α) (l : List Token) : q.withText.run l =
    q.run l >>= fun r => .ok ((r.1, Token.span (l.take (l.length - r.2.length))), r.2) := rfl

@[simp] theorem run_afterCommas_zero (item : Parser α) (l : List Token) :
    (afterCommas item 0).run l = .ok ([], l) := rfl

@[simp] theorem run_afterCommas_succ (item : Parser α) (n : Nat) :
    (afterCommas item (n + 1)).run (t :: rest) =
      if t.isSymbol "," then
        item.run rest >>= fun r => (fun s => (r.1 :: s.1, s.2)) <$> (afterCommas item n).run r.2
      else .ok ([], t :: rest) := by
  simp only [afterCommas, StateT.run_bind, run_acceptSymbol]
  split
  · show (item.run rest >>= fun r => (afterCommas item n).run r.2 >>= _) = _
    rcases item.run rest with _ | ⟨_, _⟩
    · rfl
    · rw [ok_bind, ok_bind]
      cases (afterCommas item n).run _ <;> rfl
  · rfl

@[simp] theorem run_separated (item : Parser α) (l : List Token) : (separated item).run l =
    item.run l >>= fun r =>
      (fun s => (r.1 :: s.1, s.2)) <$> (afterCommas item r.2.length).run r.2 := by
  simp only [separated, StateT.run_bind, run_get, ok_bind]
  rcases item.run l with _ | ⟨_, _⟩
  · rfl
  · rw [ok_bind, ok_bind]
    cases (afterCommas item _).run _ <;> rfl

@[simp] theorem run_finish_nil : finish.run [] = .ok ((), []) := rfl

@[simp] theorem run_operand_ofWord {s : String} {gap : List Char} {offset : Nat}
    (h : sameName s "null" = false) (ho : openingWords.contains (lowerAscii s) = false)
    (hr : reservedWords.contains (lowerAscii s) = false) :
    operand.run (.ofWord s gap offset :: rest) = .ok (.name (.ofWord s offset), rest) := by
  have hn : isNumber (.ofWord s gap offset) = false := rfl
  have hk : (Token.ofWord s gap offset).kind = .word := rfl
  unfold StateT.run operand opensOperand
  simp only [Token.isKeyword_ofWord, h, hn, hk, Token.isOneOf_ofWord, ho, Token.isSymbol_ofWord,
    Token.isIdentifier_ofWord, hr, Token.nameOf_ofWord]
  rfl

@[simp] theorem run_time? (t : Token) : time?.run (t :: rest) =
    if t.isOneOf clockWords then .ok (some (.value (.text t.text)), rest)
    else .ok (none, t :: rest) := by
  simp only [time?, StateT.run_bind, run_take?]
  split <;> rfl

@[simp] theorem run_operand_null {s : String} {gap : List Char} {offset : Nat}
    (h : sameName s "null" = true) :
    operand.run (.ofWord s gap offset :: rest) = .ok (.value .null, rest) := by
  unfold StateT.run operand
  simp only [Token.isKeyword_ofWord, h, if_true]

@[simp] theorem run_operand_ofNat (n : Nat) (gap : List Char) (offset : Nat) :
    operand.run (.ofNat n gap offset :: rest) =
      .ok (.value (.ofNumeral (.ofNat n)), rest) := by
  have hn : isNumber (.ofNat n gap offset) = true := rfl
  have hl : isTooLarge (.ofNat n gap offset) false = false := by
    simp [isTooLarge, Token.ofNat]
  unfold StateT.run operand number
  simp only [Token.isKeyword_ofNat, hn, hl, Token.numberValue_ofNat]
  rfl

@[simp] theorem run_operand_ofText (s : String) (gap : List Char) (offset : Nat) :
    operand.run (.ofText s gap offset :: rest) = .ok (.value (.text s), rest) := by
  have hn : isNumber (.ofText s gap offset) = false := rfl
  have hk : (Token.ofText s gap offset).kind = .text := rfl
  unfold StateT.run operand
  simp only [Token.isKeyword_ofText, hn, hk, Token.content_ofText]
  rfl

@[simp] theorem run_operand_unclosed (l gap : List Char) (offset : Nat) :
    operand.run (.unclosed gap offset l :: rest) =
      .error (.unexpected (.unclosed gap offset l :: rest)) := rfl

/-! ### Descriptions of tables -/

theorem parts_step {stage next : Stage} {l left after : List Token} {d : Option Definition}
    {more : List Definition} {n : Nat} (h : (step stage).run l = .ok ((d, next), left))
    (hd : next ≠ .done) (hn : parts n next left = (more, .ok after)) :
    parts (n + 1) stage l = (d.toList ++ more, .ok after) := by
  unfold parts
  rw [h]
  cases next with
  | done => exact absurd rfl hd
  | _ => simp [hn, stopsAt]

theorem parts_done {stage : Stage} {l left : List Token} {d : Option Definition} {n : Nat}
    (h : (step stage).run l = .ok ((d, .done), left)) :
    parts (n + 1) stage l = (d.toList, .ok left) := by
  unfold parts
  rw [h]

theorem run_description {ifMissing : Bool} {n : Name} {start l : List Token}
    (ds : List Definition) (h : parts (l.length + 1) .column l = (ds, .ok [])) :
    (description ifMissing n start).run l =
      .ok (.createTable ifMissing n ds none (Token.span start), []) := by
  unfold StateT.run description
  rw [h]
  show Except.ok (Statement.createTable _ _ _ _ (Token.span (start.take start.length)), _) = _
  rw [List.take_length]

/-! What parts of a description are read as. -/

variable {gap gap' : List Char} {o o' o₃ o₄ o₅ : Nat} {t : Token} {rest : List Token}
  {s type : String}

theorem step_column (hs : lowerAscii s ∉ reservedWords)
    (hk : lowerAscii type ∉ reservedWords ++ joiningWords) (ht : t.isPlainName = false)
    (hp : t.isSymbol "(" = false) :
    (step .column).run (.ofWord s gap o :: .ofWord type gap' o' :: t :: rest) =
      .ok ((some (.column s type), .columnPart), t :: rest) := by
  simp only [List.mem_append, not_or] at hk
  simp [step, column, typeTokens, hs, hk, ht, hp, typeText, Token.span, Name.ofWord]
  simp [Token.ofWord]

/-- A type with one number in parentheses. -/
theorem step_column_sized {n : Nat} (hs : lowerAscii s ∉ reservedWords)
    (hk : lowerAscii type ∉ reservedWords ++ joiningWords) :
    (step .column).run (.ofWord s gap o :: .ofWord type gap' o' :: .ofSymbol '(' [] o₃ ::
      .ofNat n [] o₄ :: .ofSymbol ')' [] o₅ :: rest) =
      .ok ((some (.column s (type ++ "(" ++ toString n ++ ")")), .columnPart), rest) := by
  simp only [List.mem_append, not_or] at hk
  have hlen : rest.length + 1 + 1 + 1 + 1 - rest.length = 4 := by omega
  simp +decide [step, column, typeTokens, hs, hk, signedNumber, typeText, Token.span, Name.ofWord,
    hlen]
  simp [Token.ofWord, Token.ofSymbol, Token.ofNat, ← String.toList_inj]

theorem step_notNull (ht : t.isKeyword "on" = false) :
    (step .columnPart).run (.ofWord "NOT" gap o :: .ofWord "NULL" gap' o' :: t :: rest) =
      .ok ((some .notNull, .columnPart), t :: rest) := by
  simp +decide [step, columnPart, refusal, ht]

theorem step_primary (ht : t.isKeyword "asc" = false) (ht' : t.isKeyword "on" = false) :
    (step .columnPart).run (.ofWord "PRIMARY" gap o :: .ofWord "KEY" gap' o' :: t :: rest) =
      .ok ((some .primary, .columnPart), t :: rest) := by
  simp +decide [step, columnPart, refusal, ht, ht']

theorem step_null (ht : t.isKeyword "on" = false) :
    (step .columnPart).run (.ofWord "NULL" gap o :: t :: rest) =
      .ok ((none, .columnPart), t :: rest) := by
  simp +decide [step, columnPart, refusal, ht]

/-- After a comma comes the next column, unless a part of the table begins there. -/
theorem step_comma
    (hs : ["constraint", "primary", "foreign", "check", "unique"].all fun k => !t.isKeyword k) :
    (step .columnPart).run (.ofSymbol ',' gap o :: t :: rest) =
      .ok ((none, .column), t :: rest) := by
  simp at hs
  simp +decide [step, tablePart, hs]

theorem step_close :
    (step .columnPart).run (.ofSymbol ')' gap o :: rest) = .ok ((none, .done), rest) := by
  simp +decide [step]

end Parser

end SipMigrate.Sql
