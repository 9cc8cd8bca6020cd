import Mathlib
import SipMigrate.Sql.Lexeme

/-! Cutting a text that is put together from lexemes gives the lexemes back, as
long as none of them goes on into the next one. Only the lexemes of plain
statements are considered: words, integers, string literals, single spaces and
some symbols. -/

namespace SipMigrate.Sql

/-! ### Characters -/

/-- A letter or an underscore of ASCII. -/
def beginsPlainWord (c : Char) : Bool := c.isAlpha || c == '_'

/-- A letter, a digit or an underscore of ASCII. -/
def isPlainWordChar (c : Char) : Bool := c.isAlphanum || c == '_'

/-- A word of ASCII letters, digits and underscores that no digit begins. -/
def isPlainWord : List Char → Bool
  | c :: rest => beginsPlainWord c && rest.all isPlainWordChar
  | [] => false

theorem eq_iff_toNat {c d : Char} : c = d ↔ c.toNat = d.toNat :=
  ⟨fun h => h ▸ rfl, fun h => Char.ext (UInt32.toNat_inj.mp h)⟩

theorem isSpace_iff {c : Char} :
    isSpace c = true ↔ (9 ≤ c.toNat ∧ c.toNat ≤ 13) ∨ c.toNat = 32 := by
  simp [isSpace, eq_iff_toNat]

theorem beginsPlainWord_iff {c : Char} : beginsPlainWord c = true ↔
    (65 ≤ c.toNat ∧ c.toNat ≤ 90) ∨ (97 ≤ c.toNat ∧ c.toNat ≤ 122) ∨ c.toNat = 95 := by
  simp [beginsPlainWord, Char.isAlpha, Char.isUpper, Char.isLower, eq_iff_toNat,
    UInt32.le_iff_toNat_le]
  omega

theorem isDigit_iff {c : Char} : c.isDigit = true ↔ 48 ≤ c.toNat ∧ c.toNat ≤ 57 := by
  simp [Char.isDigit, UInt32.le_iff_toNat_le]

theorem isPlainWordChar_iff {c : Char} :
    isPlainWordChar c = true ↔ beginsPlainWord c = true ∨ c.isDigit = true := by
  simp [isPlainWordChar, beginsPlainWord, Char.isAlphanum, or_right_comm]

namespace Lexeme

theorem isNameChar_of_isPlainWordChar {c : Char} (h : isPlainWordChar c = true) :
    isNameChar c = true := by
  simp only [isPlainWordChar, Bool.or_eq_true, beq_iff_eq] at h
  rcases h with h | h <;> simp [isNameChar, h]

theorem isNameChar_of_isDigit {c : Char} (h : c.isDigit = true) : isNameChar c = true :=
  isNameChar_of_isPlainWordChar (isPlainWordChar_iff.mpr (.inr h))

/-! ### The first lexeme of a text -/

theorem takeWhile_append_eq {p : Char → Bool} {l rest : List Char} (h : ∀ c ∈ l, p c = true)
    (hr : ∀ c ∈ rest.head?, p c = false) : (l ++ rest).takeWhile p = l := by
  rw [List.takeWhile_append_of_pos h]
  cases rest with
  | nil => simp
  | cons c rest => simp [hr c rfl]

theorem first_space {rest : List Char} (hr : ∀ c ∈ rest.head?, isSpace c = false) :
    first ' ' rest = (.blank, 0) := by
  have : rest.takeWhile isSpace = [] := takeWhile_append_eq (l := []) (by simp) hr
  unfold first
  rw [if_pos (by decide), this, List.length_nil]

theorem first_word {c : Char} {l rest : List Char} (hc : beginsPlainWord c = true)
    (hl : ∀ d ∈ l, isPlainWordChar d = true) (hr : ∀ d ∈ rest.head?, isNameChar d = false) :
    first c (l ++ rest) = (.word, l.length) := by
  have hn := beginsPlainWord_iff.mp hc
  have hs : beginsBlank c = false := by
    simp only [beginsBlank, Bool.and_eq_false_iff]
    left
    rw [← Bool.not_eq_true, isSpace_iff]
    omega
  have hb : c ≠ '\ufeff' := by
    rw [Ne, eq_iff_toNat]
    simp only [Char.reduceToNat]
    omega
  have hbn : beginsName c = true := by
    simp only [beginsPlainWord, Bool.or_eq_true, beq_iff_eq] at hc
    rcases hc with hc | hc <;> simp [beginsName, hc]
  unfold first
  rw [if_neg (by simp [hs]), if_neg hb, if_pos hbn,
    takeWhile_append_eq (fun d hd => isNameChar_of_isPlainWordChar (hl d hd)) hr]

/-- What does not begin like a name or a blank. -/
theorem begins_other {c : Char} (hs : isSpace c = false) (hc : c.toNat < 128)
    (hn : beginsPlainWord c = false) :
    beginsBlank c = false ∧ c ≠ '\ufeff' ∧ beginsName c = false := by
  refine ⟨by simp [beginsBlank, hs], ?_, ?_⟩
  · rw [Ne, eq_iff_toNat]
    simp only [Char.reduceToNat]
    omega
  · simp only [beginsPlainWord, Bool.or_eq_false_iff, beq_eq_false_iff_ne] at hn
    simp [beginsName, hn, hc]

theorem decimal_digits {l rest : List Char} (hl : ∀ d ∈ l, d.isDigit = true)
    (hr : ∀ d ∈ rest.head?, isNameChar d = false ∧ d ≠ '.') :
    decimal (l ++ rest) = (.integer, l.length) := by
  have hd : ∀ d ∈ rest.head?, d.isDigit = false := by
    intro d hd
    cases h : d.isDigit
    · rfl
    · have := (hr d hd).1
      rw [isNameChar_of_isDigit h] at this
      cases this
  have ht : (l ++ rest).takeWhile Char.isDigit = l := takeWhile_append_eq hl hd
  have hf : fractionLength rest = 0 := by
    cases rest with
    | nil => rfl
    | cons c rest =>
      have := (hr c rfl).2
      simp [fractionLength, this]
  have he : exponentLength rest = 0 := by
    cases rest with
    | nil => rfl
    | cons c rest =>
      have hc := (hr c rfl).1
      have h1 : c ≠ 'e' := by rintro rfl; exact absurd hc (by decide)
      have h2 : c ≠ 'E' := by rintro rfl; exact absurd hc (by decide)
      simp [exponentLength, h1, h2]
  have hn : rest.takeWhile isNameChar = [] :=
    takeWhile_append_eq (l := []) (by simp) fun d hd => (hr d hd).1
  unfold decimal
  simp [ht, hf, he, hn]

/-- A number that does not go on is an integer; it does not begin like one of base sixteen. -/
theorem number_digits {l rest : List Char} (hl : ∀ d ∈ l, d.isDigit = true)
    (hr : ∀ d ∈ rest.head?, isNameChar d = false ∧ d ≠ '.') :
    number (l ++ rest) = (.integer, l.length) := by
  have hx : ∀ {x : Char}, x = 'x' ∨ x = 'X' → isNameChar x = true ∧ x.isDigit = false := by
    rintro x (rfl | rfl) <;> decide
  unfold number
  split
  · rename_i x d more h
    rw [if_neg]
    · rw [← h, decimal_digits hl hr]
    · intro hc
      simp only [Bool.and_eq_true, Bool.or_eq_true, decide_eq_true_eq] at hc
      obtain ⟨hn, hd⟩ := hx hc.1
      match l, h with
      | [], h =>
        simp only [List.nil_append] at h
        subst h
        exact absurd (hr '0' rfl).1 (by decide)
      | [_], h =>
        simp only [List.cons_append, List.nil_append, List.cons.injEq] at h
        rw [h.2] at hr
        rw [(hr x rfl).1] at hn
        cases hn
      | _ :: y :: _, h =>
        simp only [List.cons_append, List.cons.injEq] at h
        rw [← h.2.1, hl y (by simp)] at hd
        cases hd
  · exact decimal_digits hl hr

theorem first_digits {c : Char} {l rest : List Char} (hl : ∀ d ∈ c :: l, d.isDigit = true)
    (hr : ∀ d ∈ rest.head?, isNameChar d = false ∧ d ≠ '.') :
    first c (l ++ rest) = (.integer, l.length) := by
  have hc := hl c (by simp)
  have hn := isDigit_iff.mp hc
  have hs : isSpace c = false := by rw [← Bool.not_eq_true, isSpace_iff]; omega
  have hw : beginsPlainWord c = false := by rw [← Bool.not_eq_true, beginsPlainWord_iff]; omega
  obtain ⟨h₁, h₂, h₃⟩ := begins_other hs (by omega) hw
  unfold first
  rw [if_neg (by simp [h₁]), if_neg h₂, if_neg (by simp [h₃]), if_pos hc, ← List.cons_append,
    number_digits hl hr]
  simp

/-- A closed literal is closed wherever it stands, unless a quote follows it. -/
theorem quotedLength_append {quote : Char} {l rest : List Char} {n : Nat}
    (h : quotedLength? quote l = some n) (hr : n = l.length → ∀ d ∈ rest.head?, d ≠ quote) :
    quotedLength? quote (l ++ rest) = some n := by
  induction l using quotedLength?.induct quote generalizing n with
  | case1 => simp [quotedLength?] at h
  | case2 =>
    cases rest with
    | nil => simpa using h
    | cons d rest =>
      obtain rfl : 1 = n := by simpa [quotedLength?] using h
      have : d ≠ quote := hr rfl d rfl
      simp [quotedLength?, this]
  | case3 c hc => simp [quotedLength?, hc] at h
  | case4 rest' ih =>
    simp only [quotedLength?, if_true, Option.map_eq_some_iff] at h
    obtain ⟨m, hm, rfl⟩ := h
    have := ih hm fun hn => hr (by simpa using hn)
    simp [quotedLength?, this]
  | case5 d rest' hd => simpa [quotedLength?, hd] using h
  | case6 c d rest' hc ih =>
    simp only [quotedLength?, hc, if_false, Option.map_eq_some_iff] at h
    obtain ⟨m, hm, rfl⟩ := h
    have := ih hm fun hn => hr (by simpa using hn)
    simp only [List.cons_append] at this ⊢
    simp [quotedLength?, hc, this]

theorem first_quote (rest : List Char) :
    first '\x27' rest = closed .text rest (quotedLength? '\x27' rest) := by
  unfold first
  rw [if_neg (by decide), if_neg (by decide), if_neg (by decide), if_neg (by decide),
    if_neg (by simp), if_pos rfl]

/-- The symbols of plain statements. Two equals signs would be one symbol. -/
def plainSymbols : List Char := ['(', ')', ',', '*', '=']

/-- A plain symbol begins no other lexeme and goes on no word. -/
theorem of_mem_plainSymbols : ∀ c ∈ plainSymbols, isSpace c = false ∧ beginsPlainWord c = false ∧
    c.toNat < 128 ∧ isNameChar c = false ∧ c ≠ '.' ∧ c ≠ '\x27' := by
  simp only [plainSymbols, List.forall_mem_cons]
  refine ⟨?_, ?_, ?_, ?_, ?_, List.forall_mem_nil _⟩ <;> decide

theorem first_symbol {c : Char} {rest : List Char} (hc : c ∈ plainSymbols)
    (hr : c = '=' → ∀ d ∈ rest.head?, d ≠ '=') : first c rest = (.symbol, 0) := by
  obtain ⟨hspace, hword, hascii, -⟩ := of_mem_plainSymbols c hc
  obtain ⟨h₁, h₂, h₃⟩ := begins_other hspace hascii hword
  simp only [plainSymbols, List.mem_cons, List.not_mem_nil, or_false] at hc
  unfold first
  rw [if_neg (by simp [h₁]), if_neg h₂, if_neg (by simp [h₃])]
  rcases hc with rfl | rfl | rfl | rfl | rfl
  case inr.inr.inr.inr =>
    cases rest with
    | nil => rfl
    | cons d rest =>
      have : ('=' == d) = false := by simpa using (hr rfl d rfl).symm
      simp +decide [symbol, longSymbols, List.find?, List.isPrefixOf, this]
  all_goals simp +decide [symbol, longSymbols, List.find?, List.isPrefixOf]

/-! ### Plain statements -/

/-- A lexeme of a plain statement. A string literal is closed by its last character. -/
def isPlain (x : Lexeme) : Bool :=
  match x.kind, x.chars with
  | .blank, [c] => c = ' '
  | .word, l => isPlainWord l
  | .integer, c :: l => (c :: l).all Char.isDigit
  | .text, c :: l => c = '\x27' && quotedLength? '\x27' l = some l.length
  | .symbol, [c] => c ∈ plainSymbols
  | _, _ => false

/-- A string literal that is not closed. -/
def isUnclosed (x : Lexeme) : Bool :=
  match x.kind, x.chars with
  | .malformed, c :: l => c = '\x27' && quotedLength? '\x27' l = none
  | _, _ => false

/-- Whether a lexeme may stand right before another one and does not go on into it. -/
def mayPrecede (x y : Lexeme) : Bool :=
  match x.kind, y.kind with
  | .blank, .blank => false
  | .word, .word => false
  | .word, .integer => false
  | .integer, .word => false
  | .integer, .integer => false
  | .text, .text => false
  | .text, .malformed => false
  | .symbol, .symbol => x.chars ≠ ['=']
  | _, _ => true

/-- The lexemes of a plain statement. Only the last one may be a literal that is not closed. -/
def arePlain : List Lexeme → Bool
  | [] => true
  | [x] => x.isPlain || x.isUnclosed
  | x :: y :: rest => x.isPlain && x.mayPrecede y && arePlain (y :: rest)

theorem arePlain_tail {x : Lexeme} {l : List Lexeme} (h : arePlain (x :: l) = true) :
    arePlain l = true := by
  cases l with
  | nil => rfl
  | cons y rest =>
    simp only [arePlain, Bool.and_eq_true] at h
    exact h.2

theorem arePlain_head {x : Lexeme} {l : List Lexeme} (h : arePlain (x :: l) = true) :
    (x.isPlain || x.isUnclosed) = true := by
  cases l with
  | nil => exact h
  | cons y rest =>
    simp only [arePlain, Bool.and_eq_true] at h
    simp [h.1.1]

/-- The characters that a lexeme takes up when they come next. -/
def goesOn (x : Lexeme) (c : Char) : Bool :=
  match x.kind with
  | .blank => isSpace c
  | .word => isNameChar c
  | .integer => isNameChar c || c = '.'
  | .text => c = '\x27'
  | .symbol => x.chars = ['='] && c = '='
  | _ => false

theorem cut_of_first {c : Char} {l rest : List Char} {kind : LexemeKind}
    (h : first c (l ++ rest) = (kind, l.length)) :
    cut (c :: (l ++ rest)) = ⟨kind, c :: l⟩ :: cut rest := by
  have hcut (l : List Char) : cutAfter l.length (l ++ rest) = cut rest := by
    induction l with
    | nil => rfl
    | cons d l ih => exact ih
  show (⟨(first c (l ++ rest)).1, c :: (l ++ rest).take (first c (l ++ rest)).2⟩ ::
    cutAfter (first c (l ++ rest)).2 (l ++ rest) : List Lexeme) = _
  rw [h, hcut, List.take_left]

theorem cut_of_isPlain {x : Lexeme} (rest : List Char) (hx : x.isPlain = true)
    (hr : ∀ c ∈ rest.head?, x.goesOn c = false) : cut (x.chars ++ rest) = x :: cut rest := by
  obtain ⟨kind, chars⟩ := x
  unfold isPlain at hx
  split at hx
  · rename_i c hkind hchars
    obtain rfl : kind = .blank := hkind
    obtain rfl : chars = [c] := hchars
    obtain rfl : c = ' ' := by simpa using hx
    exact cut_of_first (l := []) (first_space hr)
  · rename_i hkind
    obtain rfl : kind = .word := hkind
    cases chars with
    | nil => simp [isPlainWord] at hx
    | cons c l =>
      simp only [isPlainWord, Bool.and_eq_true, List.all_eq_true] at hx
      exact cut_of_first (first_word hx.1 hx.2 hr)
  · rename_i c l hkind hchars
    obtain rfl : kind = .integer := hkind
    obtain rfl : chars = c :: l := hchars
    refine cut_of_first (first_digits (List.all_eq_true.mp hx) fun d hd => ?_)
    simpa [goesOn] using hr d hd
  · rename_i c l hkind hchars
    obtain rfl : kind = .text := hkind
    obtain rfl : chars = c :: l := hchars
    simp only [Bool.and_eq_true, decide_eq_true_eq] at hx
    obtain ⟨rfl, hl⟩ := hx
    refine cut_of_first ?_
    rw [first_quote, quotedLength_append hl fun _ d hd => by simpa [goesOn] using hr d hd]
    rfl
  · rename_i c hkind hchars
    obtain rfl : kind = .symbol := hkind
    obtain rfl : chars = [c] := hchars
    refine cut_of_first (l := []) (first_symbol (by simpa using hx) ?_)
    rintro rfl d hd
    simpa [goesOn] using hr d hd
  · cases hx

/-- A literal that is not closed takes up the rest of the text. -/
theorem cut_of_isUnclosed {x : Lexeme} (hx : x.isUnclosed = true) : cut x.chars = [x] := by
  obtain ⟨kind, chars⟩ := x
  unfold isUnclosed at hx
  split at hx
  · rename_i c l hkind hchars
    obtain rfl : kind = .malformed := hkind
    obtain rfl : chars = c :: l := hchars
    simp only [Bool.and_eq_true, decide_eq_true_eq] at hx
    obtain ⟨rfl, hl⟩ := hx
    have : first '\x27' (l ++ []) = (.malformed, l.length) := by
      rw [List.append_nil, first_quote, hl]
      rfl
    simpa [show cut [] = [] from rfl] using cut_of_first this
  · cases hx

/-- How a lexeme of a plain statement begins. -/
def beginsWith (kind : LexemeKind) (c : Char) : Bool :=
  match kind with
  | .blank => c = ' '
  | .word => beginsPlainWord c
  | .integer => c.isDigit
  | .symbol => c ∈ plainSymbols
  | .text => c = '\x27'
  | .malformed => c = '\x27'
  | _ => false

theorem beginsWith_head {x : Lexeme} (hx : (x.isPlain || x.isUnclosed) = true) :
    ∃ c l, x.chars = c :: l ∧ beginsWith x.kind c = true := by
  obtain ⟨kind, chars⟩ := x
  cases chars with
  | nil => cases kind <;> simp [isPlain, isUnclosed, isPlainWord] at hx
  | cons c l =>
    refine ⟨c, l, rfl, ?_⟩
    cases kind <;> cases l <;>
      simp_all [isPlain, isUnclosed, isPlainWord, beginsWith]

theorem goesOn_eq_false {x : Lexeme} {c : Char} (kind : LexemeKind) (l : List Char)
    (hc : beginsWith kind c = true) (h : x.mayPrecede ⟨kind, c :: l⟩ = true) :
    x.goesOn c = false := by
  have hspace : beginsPlainWord c = true ∨ c.isDigit = true → isSpace c = false := by
    rw [beginsPlainWord_iff, isDigit_iff, ← Bool.not_eq_true, isSpace_iff]
    omega
  have hquote : beginsPlainWord c = true ∨ c.isDigit = true → c ≠ '\x27' ∧ c ≠ '=' := by
    rw [beginsPlainWord_iff, isDigit_iff, Ne, Ne, eq_iff_toNat, eq_iff_toNat]
    simp only [Char.reduceToNat]
    omega
  have hsymbol := of_mem_plainSymbols c
  obtain ⟨kind', chars⟩ := x
  cases kind' <;> cases kind <;> simp_all +decide [mayPrecede, goesOn, beginsWith]

/-- The lexemes of a plain statement are what its text is cut into. -/
theorem cut_of_arePlain {l : List Lexeme} (h : arePlain l = true) :
    cut (l.flatMap (·.chars)) = l := by
  induction l with
  | nil => rfl
  | cons x rest ih =>
    cases rest with
    | nil =>
      simp only [arePlain, Bool.or_eq_true] at h
      rcases h with h | h
      · simpa [show cut [] = [] from rfl] using cut_of_isPlain [] h (by simp)
      · simpa using cut_of_isUnclosed h
    | cons y rest =>
      have hy := ih (arePlain_tail h)
      obtain ⟨c, l, hc, hb⟩ := beginsWith_head (arePlain_head (arePlain_tail h))
      simp only [arePlain, Bool.and_eq_true] at h
      rw [List.flatMap_cons, cut_of_isPlain _ h.1.1, hy]
      intro d hd
      obtain rfl : c = d := by simpa [hc] using hd
      refine goesOn_eq_false y.kind l hb ?_
      rw [← hc]
      exact h.1.2

end Lexeme

end SipMigrate.Sql
