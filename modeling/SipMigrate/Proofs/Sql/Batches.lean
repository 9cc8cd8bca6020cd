import SipMigrate.Proofs.Sql.Gaps
import SipMigrate.Proofs.Sql.SameStatement

/-! Batches of statements. What a batch does depends on the tokens of its statements: blanks
and semicolons between the statements do not matter, and neither does the semicolon of the
last one. -/

namespace SipMigrate.Sql

namespace Lexeme

/-- The same lexemes, or malformed ones. -/
def Alike (x x' : Lexeme) : Prop := x = x' ∨ (x.kind = .malformed ∧ x'.kind = .malformed)

/-- Lexemes that make up no statement: gaps and semicolons. -/
def AreIdle (l : List Lexeme) : Prop := ∀ x ∈ l, x.kind = .blank ∨ x.isSemicolon = true

def semicolon : Lexeme := ⟨.symbol, [';']⟩

variable {x x' : Lexeme} {l l' : List Lexeme}

theorem Alike.kind_eq (h : Alike x x') : x.kind = x'.kind := by
  rcases h with rfl | ⟨h, h'⟩
  · rfl
  · rw [h, h']

theorem Alike.isSemicolon_eq (h : Alike x x') : x.isSemicolon = x'.isSemicolon := by
  rcases h with rfl | ⟨h, h'⟩
  · rfl
  · simp [isSemicolon, h, h']

theorem eq_semicolon (h : x.isSemicolon = true) : x = semicolon := by
  obtain ⟨kind, chars⟩ := x
  simpa [isSemicolon, semicolon] using h

theorem isSemicolon_of_blank (h : x.kind = .blank) : x.isSemicolon = false := by
  simp [isSemicolon, h]

theorem AreGaps.areIdle (h : AreGaps l) : AreIdle l := fun x hx => .inl (h x hx)

theorem AreIdle.append (h : AreIdle l) (h' : AreIdle l') : AreIdle (l ++ l') := by
  intro x hx
  rcases List.mem_append.mp hx with hx | hx
  · exact h x hx
  · exact h' x hx

theorem areIdle_semicolon : AreIdle [semicolon] := by simp [AreIdle, semicolon, isSemicolon]

/-- What may stand behind the last token of a statement: gaps, and a semicolon. -/
def AreEnd (l : List Lexeme) : Prop := ∃ E, AreGaps E ∧ (l = E ∨ l = E ++ [semicolon])

theorem AreEnd.areIdle (h : AreEnd l) : AreIdle l := by
  obtain ⟨E, hE, rfl | rfl⟩ := h
  · exact hE.areIdle
  · exact hE.areIdle.append areIdle_semicolon

theorem AreGaps.areEnd (h : AreGaps l) : AreEnd l := ⟨l, h, .inl rfl⟩

end Lexeme

open Lexeme

/-! ### Tokens -/

section

variable {K K' E J : List Lexeme} {T : List Lexeme}

theorem ofLexemesAfter_blank {x : Lexeme} (hx : x.kind = .blank) (gap : List Char) (n : Nat)
    (l : List Lexeme) : ∃ n', Token.ofLexemesAfter gap n (x :: l) =
      Token.ofLexemesAfter (gap ++ x.chars) n' l := ⟨_, by rw [Token.ofLexemesAfter, if_pos hx]⟩

theorem ofLexemesAfter_token {x : Lexeme} (hx : x.kind ≠ .blank) (gap : List Char) (n : Nat)
    (l : List Lexeme) : ∃ n', Token.ofLexemesAfter gap n (x :: l) =
      ⟨x.kind, x.chars, gap, n⟩ :: Token.ofLexemesAfter [] n' l :=
  ⟨_, by rw [Token.ofLexemesAfter, if_neg hx]⟩

theorem ofLexemesAfter_gaps (h : AreGaps E) (gap : List Char) (n : Nat) (l : List Lexeme) :
    ∃ gap' n', Token.ofLexemesAfter gap n (E ++ l) = Token.ofLexemesAfter gap' n' l := by
  induction E generalizing gap n with
  | nil => exact ⟨gap, n, rfl⟩
  | cons x E ih =>
    obtain ⟨n', hn⟩ := ofLexemesAfter_blank (h x List.mem_cons_self) gap n (E ++ l)
    rw [List.cons_append, hn]
    exact ih (fun y hy => h y (List.mem_cons_of_mem _ hy)) _ _

theorem matches_end (hE : AreGaps E) (hT : AreEnd T) (gap gap' : List Char) (n n' : Nat) :
    Matches (Token.ofLexemesAfter gap n E) (Token.ofLexemesAfter gap' n' T) := by
  obtain ⟨g, m, hm⟩ := ofLexemesAfter_gaps hE gap n []
  rw [List.append_nil] at hm
  rw [hm]
  obtain ⟨E', hE', rfl | rfl⟩ := hT
  · obtain ⟨g', m', hm'⟩ := ofLexemesAfter_gaps hE' gap' n' []
    rw [List.append_nil] at hm'
    rw [hm']
    exact .nil
  · obtain ⟨g', m', hm'⟩ := ofLexemesAfter_gaps hE' gap' n' [semicolon]
    rw [hm']
    exact .closed g' m'

/-- The tokens of alike lexemes are those of one statement. -/
theorem matches_tokens (hK : List.Forall₂ Alike K K') (hE : AreGaps E) (hT : AreEnd T)
    (gap : List Char) (n n' : Nat) :
    Matches (Token.ofLexemesAfter gap n (K ++ E)) (Token.ofLexemesAfter gap n' (K' ++ T)) := by
  induction hK generalizing gap n n' with
  | nil => exact matches_end hE hT gap gap n n'
  | @cons x x' K K' hx hK ih =>
    rw [List.cons_append, List.cons_append]
    by_cases hk : x.kind = .blank
    · obtain rfl : x = x' := hx.resolve_right fun h => by rw [hk] at h; cases h.1
      obtain ⟨m, hm⟩ := ofLexemesAfter_blank hk gap n (K ++ E)
      obtain ⟨m', hm'⟩ := ofLexemesAfter_blank hk gap n' (K' ++ T)
      rw [hm, hm']
      exact ih _ _ _
    · obtain ⟨m, hm⟩ := ofLexemesAfter_token hk gap n (K ++ E)
      obtain ⟨m', hm'⟩ := ofLexemesAfter_token (hx.kind_eq ▸ hk) gap n' (K' ++ T)
      rw [hm, hm']
      rcases hx with rfl | ⟨hx, hx'⟩
      · exact .cons rfl (ih _ _ _)
      · exact .stuck hx hx'

/-- The tokens from the first one on that is no semicolon. -/
def tokensFrom (gap : List Char) (n : Nat) (l : List Lexeme) : List Token :=
  (Token.ofLexemesAfter gap n l).dropWhile (·.isSymbol ";")

theorem tokensFrom_blank {x : Lexeme} (hx : x.kind = .blank) (gap : List Char) (n : Nat)
    (l : List Lexeme) :
    ∃ gap' n', tokensFrom gap n (x :: l) = tokensFrom gap' n' l := by
  obtain ⟨n', hn⟩ := ofLexemesAfter_blank hx gap n l
  exact ⟨_, n', by rw [tokensFrom, hn, tokensFrom]⟩

theorem tokensFrom_semicolon {x : Lexeme} (hx : x.isSemicolon = true) (gap : List Char) (n : Nat)
    (l : List Lexeme) :
    ∃ gap' n', tokensFrom gap n (x :: l) = tokensFrom gap' n' l := by
  have hk : x.kind ≠ .blank := fun hk => by rw [isSemicolon_of_blank hk] at hx; cases hx
  obtain ⟨n', hn⟩ := ofLexemesAfter_token hk gap n l
  refine ⟨[], n', ?_⟩
  rw [tokensFrom, hn, List.dropWhile_cons_of_pos, tokensFrom]
  rw [Token.isSymbol_semicolon]
  exact hx

theorem tokensFrom_token {x : Lexeme} (hk : x.kind ≠ .blank) (hx : x.isSemicolon = false)
    (gap : List Char) (n : Nat) (l : List Lexeme) : ∃ n', tokensFrom gap n (x :: l) =
      ⟨x.kind, x.chars, gap, n⟩ :: Token.ofLexemesAfter [] n' l := by
  obtain ⟨n', hn⟩ := ofLexemesAfter_token hk gap n l
  refine ⟨n', ?_⟩
  rw [tokensFrom, hn, List.dropWhile_cons_of_neg]
  rw [Token.isSymbol_semicolon]
  simpa using hx

theorem tokensFrom_idle (h : AreIdle J) (gap : List Char) (n : Nat) (l : List Lexeme) :
    ∃ gap' n', tokensFrom gap n (J ++ l) = tokensFrom gap' n' l := by
  induction J generalizing gap n with
  | nil => exact ⟨gap, n, rfl⟩
  | cons x J ih =>
    have hJ : AreIdle J := fun y hy => h y (List.mem_cons_of_mem _ hy)
    rw [List.cons_append]
    rcases h x List.mem_cons_self with hx | hx
    · obtain ⟨gap', n', hn⟩ := tokensFrom_blank hx gap n (J ++ l)
      rw [hn]
      exact ih hJ gap' n'
    · obtain ⟨gap', n', hn⟩ := tokensFrom_semicolon hx gap n (J ++ l)
      rw [hn]
      exact ih hJ gap' n'

theorem tokensFrom_of_areIdle (h : AreIdle J) (gap : List Char) (n : Nat) :
    tokensFrom gap n J = [] := by
  obtain ⟨gap', n', hn⟩ := tokensFrom_idle h gap n []
  rw [List.append_nil] at hn
  rw [hn]
  rfl

end

/-! ### Reading -/

namespace Parser

/-- What tokens are read as, of which the first one is no semicolon. -/
def readTokens : List Token → Except Fault (Option Statement)
  | [] => .ok none
  | t :: rest => (statement (t :: rest)).map some

theorem read_eq (l : List Lexeme) : read l = readTokens (tokensFrom [] 0 l) := by
  unfold read
  rw [Token.ofLexemes, ← tokensFrom]
  cases tokensFrom [] 0 l <;> rfl

theorem read_of_areIdle {l : List Lexeme} (h : AreIdle l) : read l = .ok none := by
  rw [read_eq, tokensFrom_of_areIdle h]
  rfl

/-- Two readings of one batch of lexemes: both fail, or both find no statement, or both find
the same one but for places. -/
inductive SameReading : Except Fault (Option Statement) → Except Fault (Option Statement) → Prop
  | error (f f' : Fault) : SameReading (.error f) (.error f')
  | none : SameReading (.ok none) (.ok none)
  | some {s s' : Statement} (h : s.placeless = s'.placeless) :
    SameReading (.ok (some s)) (.ok (some s'))

theorem SameStatement.map_some {x x' : Except Fault Statement} (h : SameStatement x x') :
    SameReading (x.map some) (x'.map some) := by
  cases h with
  | error f f' => exact .error f f'
  | ok h => exact .some h

theorem sameReading_tokensFrom {K K' E T : List Lexeme} (hK : List.Forall₂ Alike K K')
    (hE : AreGaps E) (hT : AreEnd T) (gap gap' : List Char) (n n' : Nat) :
    SameReading (readTokens (tokensFrom gap n (K ++ E)))
      (readTokens (tokensFrom gap' n' (K' ++ T))) := by
  induction hK generalizing gap gap' n n' with
  | nil =>
    rw [List.nil_append, List.nil_append, tokensFrom_of_areIdle hE.areIdle,
      tokensFrom_of_areIdle hT.areIdle]
    exact .none
  | @cons x x' K K' hx hK ih =>
    rw [List.cons_append, List.cons_append]
    by_cases hk : x.kind = .blank
    · obtain ⟨g, m, hm⟩ := tokensFrom_blank hk gap n (K ++ E)
      obtain ⟨g', m', hm'⟩ := tokensFrom_blank (hx.kind_eq ▸ hk) gap' n' (K' ++ T)
      rw [hm, hm']
      exact ih _ _ _ _
    cases hs : x.isSemicolon with
    | true =>
      obtain ⟨g, m, hm⟩ := tokensFrom_semicolon hs gap n (K ++ E)
      obtain ⟨g', m', hm'⟩ := tokensFrom_semicolon (hx.isSemicolon_eq ▸ hs) gap' n' (K' ++ T)
      rw [hm, hm']
      exact ih _ _ _ _
    | false =>
      obtain ⟨m, hm⟩ := tokensFrom_token hk hs gap n (K ++ E)
      obtain ⟨m', hm'⟩ :=
        tokensFrom_token (hx.kind_eq ▸ hk) (hx.isSemicolon_eq ▸ hs) gap' n' (K' ++ T)
      rw [hm, hm']
      rcases hx with rfl | ⟨hx, hx'⟩
      · refine SameStatement.map_some ?_
        exact sameStatement rfl rfl (matches_tokens hK hE hT [] m m')
      · rw [readTokens, readTokens, statement_of_malformed hx, statement_of_malformed hx']
        exact .error _ _

/-- A statement is read the same whatever stands in front of it and whether or not a semicolon
closes it. -/
theorem sameReading {J J' K K' E T : List Lexeme} (hJ : AreIdle J) (hJ' : AreIdle J')
    (hK : List.Forall₂ Alike K K') (hE : AreGaps E) (hT : AreEnd T) :
    SameReading (read (J ++ (K ++ E))) (read (J' ++ (K' ++ T))) := by
  obtain ⟨gap, n, hn⟩ := tokensFrom_idle hJ [] 0 (K ++ E)
  obtain ⟨gap', n', hn'⟩ := tokensFrom_idle hJ' [] 0 (K' ++ T)
  rw [read_eq, read_eq, hn, hn']
  exact sameReading_tokensFrom hK hE hT gap gap' n n'

end Parser

namespace Connection

theorem toOption_prepare {l l' : List Lexeme}
    (h : Parser.SameReading (Parser.read l) (Parser.read l')) (c : Connection) :
    (c.prepare l).toOption = (c.prepare l').toOption := by
  rw [prepare_eq, prepare_eq]
  generalize Parser.read l = x at h ⊢
  generalize Parser.read l' = x' at h ⊢
  cases h with
  | error f f' => rfl
  | none => rfl
  | @some s s' h =>
    have hplan : (s.plan c.view).toOption = (s'.plan c.view).toOption := by
      rw [← toOption_plan s, h, toOption_plan s']
    show ((s.plan c.view).map some).toOption = ((s'.plan c.view).map some).toOption
    generalize s.plan c.view = y at hplan ⊢
    generalize s'.plan c.view = y' at hplan ⊢
    cases y <;> cases y' <;> simp_all [Except.toOption, Except.map]

end Connection

/-! ### Executing -/

/-- Whether something was done to its end, and the connection after it. -/
def outcome {ε : Type} (r : Except ε Unit × Connection) : Option Unit × Connection :=
  (r.1.toOption, r.2)

/-- Batches that do the same to every connection. -/
def SameBatch (b b' : List (List Lexeme)) : Prop :=
  ∀ (c : Connection) (r r' : List Char),
    outcome (c.executeAll r b) = outcome (c.executeAll r' b')

namespace SameBatch

variable {l l' : List Lexeme} {b b' : List (List Lexeme)}

theorem outcome_cons (c : Connection) (r : List Char) (l : List Lexeme) (b : List (List Lexeme)) :
    outcome (c.executeAll r (l :: b)) =
      match (c.prepare l).toOption with
      | none => (none, c)
      | some none => outcome (c.executeAll r b)
      | some (some p) =>
        match c.step p with
        | (.ok _, c) => outcome (c.executeAll r b)
        | (.error _, c) => (none, c) := by
  rw [Connection.executeAll]
  cases c.prepare l with
  | error f => rfl
  | ok p =>
    cases p with
    | none => rfl
    | some p =>
      dsimp only [Except.toOption]
      rcases c.step p with ⟨_ | _, _⟩ <;> rfl

theorem cons (hl : Parser.SameReading (Parser.read l) (Parser.read l')) (h : SameBatch b b') :
    SameBatch (l :: b) (l' :: b') := by
  intro c r r'
  rw [outcome_cons, outcome_cons, Connection.toOption_prepare hl]
  rcases (c.prepare l').toOption with _ | _ | p
  · rfl
  · exact h c r r'
  · dsimp only
    rcases c.step p with ⟨_ | _, c'⟩
    · rfl
    · exact h c' r r'

theorem refl (b : List (List Lexeme)) : SameBatch b b := by
  intro c r r'
  induction b generalizing c with
  | nil => rfl
  | cons l b ih => simp only [outcome_cons, ih]

theorem nil : SameBatch [] [] := refl []

theorem skip_left (hl : AreIdle l) (h : SameBatch b b') : SameBatch (l :: b) b' := by
  intro c r r'
  rw [Connection.executeAll_of_none (Parser.read_of_areIdle hl)]
  exact h c r r'

theorem skip_right (hl : AreIdle l) (h : SameBatch b b') : SameBatch b (l :: b') := by
  intro c r r'
  rw [Connection.executeAll_of_none (Parser.read_of_areIdle hl)]
  exact h c r r'

end SameBatch

/-! ### Cutting into statements -/

namespace Lexeme

/-- Whether lexemes make up a statement. -/
def isActive (l : List Lexeme) : Bool := l.any fun x => x.kind ≠ .blank && !x.isSemicolon

/-- What has been read of a statement, twice: alike but for what is idle in front of it. -/
def Pending (current current' : List Lexeme) : Prop :=
  ∃ J J' K K', AreIdle J ∧ AreIdle J' ∧ List.Forall₂ Alike K K' ∧ current = J ++ K ∧
    current' = J' ++ K'

theorem isActive_of_areIdle {J : List Lexeme} (h : AreIdle J) : isActive J = false := by
  rw [isActive, List.any_eq_false]
  intro x hx
  rcases h x hx with hx | hx <;> simp [hx]

theorem isActive_append (l l' : List Lexeme) : isActive (l ++ l') = (isActive l || isActive l') :=
  List.any_append

theorem areIdle_of_isActive {l : List Lexeme} (h : isActive l = false) : AreIdle l := by
  intro x hx
  have := List.any_eq_false.mp h x hx
  simp only [ne_eq, decide_not, Bool.and_eq_true, Bool.not_eq_eq_eq_not, Bool.not_true,
    decide_eq_false_iff_not, not_and, Bool.not_eq_false] at this
  exact or_iff_not_imp_left.mpr this

theorem Pending.isActive_eq {l l' : List Lexeme} (h : Pending l l') : isActive l = isActive l' := by
  obtain ⟨J, J', K, K', hJ, hJ', hK, rfl, rfl⟩ := h
  rw [isActive_append, isActive_append, isActive_of_areIdle hJ, isActive_of_areIdle hJ',
    Bool.false_or, Bool.false_or]
  induction hK with
  | nil => rfl
  | cons hx _ ih =>
    unfold isActive at ih ⊢
    rw [List.any_cons, List.any_cons, ih, hx.kind_eq, hx.isSemicolon_eq]

theorem Pending.of_areIdle {J J' : List Lexeme} (h : AreIdle J) (h' : AreIdle J') :
    Pending J J' := ⟨J, J', [], [], h, h', .nil, by simp, by simp⟩

theorem Pending.snoc {l l' : List Lexeme} {x x' : Lexeme} (h : Pending l l') (hx : Alike x x') :
    Pending (l ++ [x]) (l' ++ [x']) := by
  obtain ⟨J, J', K, K', hJ, hJ', hK, rfl, rfl⟩ := h
  exact ⟨J, J', K ++ [x], K' ++ [x'], hJ, hJ', List.rel_append hK (.cons hx .nil),
    List.append_assoc .., List.append_assoc ..⟩

theorem Pending.sameReading {l l' E T : List Lexeme} (h : Pending l l') (hE : AreGaps E)
    (hT : AreEnd T) :
    Parser.SameReading (Parser.read (l ++ E)) (Parser.read (l' ++ T)) := by
  obtain ⟨J, J', K, K', hJ, hJ', hK, rfl, rfl⟩ := h
  rw [List.append_assoc, List.append_assoc]
  exact Parser.sameReading hJ hJ' hK hE hT

theorem statementsAfter_cons (current : List Lexeme) (x : Lexeme) (l : List Lexeme) :
    statementsAfter current (x :: l) =
      if x.isSemicolon && isActive current then (current ++ [x]) :: statementsAfter [] l
      else statementsAfter (current ++ [x]) l := rfl

theorem statementsAfter_gaps {E : List Lexeme} (h : AreGaps E) (current l : List Lexeme) :
    statementsAfter current (E ++ l) = statementsAfter (current ++ E) l := by
  induction E generalizing current with
  | nil => simp
  | cons x E ih =>
    have hx := isSemicolon_of_blank (h x List.mem_cons_self)
    rw [List.cons_append, statementsAfter_cons, hx, Bool.false_and, if_neg Bool.false_ne_true,
      ih fun y hy => h y (List.mem_cons_of_mem _ hy), List.append_assoc]
    rfl

theorem statementsAfter_end {E : List Lexeme} (h : AreGaps E) (current : List Lexeme) :
    statementsAfter current E = if (current ++ E).isEmpty then [] else [current ++ E] := by
  have := statementsAfter_gaps h current []
  rwa [List.append_nil] at this

/-- Alike lexemes in front of two texts make up the same statements. -/
theorem sameBatch_append {K K' l l' : List Lexeme} {b : List (List Lexeme)}
    (hK : List.Forall₂ Alike K K')
    (h : ∀ current current', Pending current current' →
      SameBatch (statementsAfter current l ++ b) (statementsAfter current' l'))
    {current current' : List Lexeme} (hp : Pending current current') :
    SameBatch (statementsAfter current (K ++ l) ++ b) (statementsAfter current' (K' ++ l')) := by
  induction hK generalizing current current' with
  | nil => exact h current current' hp
  | @cons x x' K K' hx hK ih =>
    rw [List.cons_append, List.cons_append, statementsAfter_cons, statementsAfter_cons,
      hx.isSemicolon_eq, hp.isActive_eq]
    split
    · refine .cons ?_ (ih (.of_areIdle areGaps_nil.areIdle areGaps_nil.areIdle))
      have := (hp.snoc hx).sameReading areGaps_nil areGaps_nil.areEnd
      simpa using this
    · exact ih (hp.snoc hx)

theorem ne_nil_of_isActive {l : List Lexeme} (h : isActive l = true) : l ≠ [] := by
  rintro rfl
  cases h

/-- A statement at the end of a text is the same if a semicolon closes it. -/
theorem sameBatch_closed {E T current current' : List Lexeme} {b b' : List (List Lexeme)}
    (hE : AreGaps E) (hT : AreEnd T) (hp : Pending current current')
    (ha : isActive current' = true) (hb : SameBatch b b') :
    SameBatch (statementsAfter current E ++ b) ((current' ++ T) :: b') := by
  have hne : current ++ E ≠ [] :=
    List.append_ne_nil_of_left_ne_nil (ne_nil_of_isActive (hp.isActive_eq ▸ ha)) E
  rw [statementsAfter_end hE, if_neg (by simpa using hne)]
  exact .cons (hp.sameReading hE hT) hb

/-- What is idle at the end of a text is no statement. -/
theorem sameBatch_ended {E current current' : List Lexeme} {b b' : List (List Lexeme)}
    (hE : AreGaps E) (hp : Pending current current') (ha : isActive current' = false)
    (hb : SameBatch b b') : SameBatch (statementsAfter current E ++ b) b' := by
  have hidle : AreIdle (current ++ E) :=
    (areIdle_of_isActive (hp.isActive_eq ▸ ha)).append hE.areIdle
  rw [statementsAfter_end hE]
  split
  · exact hb
  · exact .skip_left hidle hb

/-- Lexemes that are alike but for gaps at their ends. -/
def SameButGaps (l l' : List Lexeme) : Prop :=
  ∃ B E E' K K', AreGaps B ∧ AreGaps E ∧ AreGaps E' ∧ List.Forall₂ Alike K K' ∧
    l = K ++ E ∧ l' = B ++ (K' ++ E')

/-- A text that ends with a separator does the same without the separator. -/
theorem sameBatch_separator {l l' m : List Lexeme} {b : List (List Lexeme)}
    (hl : SameButGaps l l')
    (hb : ∀ J, AreIdle J → SameBatch b (statementsAfter J m)) {J : List Lexeme} (hJ : AreIdle J) :
    SameBatch (statements l ++ b) (statementsAfter J (l' ++ semicolon :: m)) := by
  obtain ⟨B, E, E', K, K', hB, hE, hE', hK, rfl, rfl⟩ := hl
  rw [statements, List.append_assoc, List.append_assoc, statementsAfter_gaps hB]
  refine sameBatch_append hK (fun current current' hp => ?_)
    (.of_areIdle areGaps_nil.areIdle (hJ.append hB.areIdle))
  have hactive : isActive (current' ++ E') = isActive current' := by
    rw [isActive_append, isActive_of_areIdle hE'.areIdle, Bool.or_false]
  rw [statementsAfter_gaps hE', statementsAfter_cons, hactive, List.append_assoc]
  cases ha : isActive current' with
  | true => exact sameBatch_closed hE ⟨E', hE', .inr rfl⟩ hp ha (hb [] areGaps_nil.areIdle)
  | false =>
    refine sameBatch_ended hE hp ha (hb _ ?_)
    exact (areIdle_of_isActive ha).append (hE'.areIdle.append areIdle_semicolon)

/-- A text does the same without gaps at its ends. -/
theorem sameBatch_last {l l' : List Lexeme} (hl : SameButGaps l l') {J : List Lexeme}
    (hJ : AreIdle J) : SameBatch (statements l) (statementsAfter J l') := by
  obtain ⟨B, E, E', K, K', hB, hE, hE', hK, rfl, rfl⟩ := hl
  rw [statements, statementsAfter_gaps hB, ← List.append_nil (statementsAfter [] _)]
  refine sameBatch_append hK (fun current current' hp => ?_)
    (.of_areIdle areGaps_nil.areIdle (hJ.append hB.areIdle))
  rw [statementsAfter_end hE']
  cases ha : isActive current' with
  | true =>
    have hne : current' ++ E' ≠ [] := List.append_ne_nil_of_left_ne_nil (ne_nil_of_isActive ha) E'
    rw [if_neg (by simpa using hne)]
    exact sameBatch_closed hE hE'.areEnd hp ha .nil
  | false =>
    have hidle : AreIdle (current' ++ E') := (areIdle_of_isActive ha).append hE'.areIdle
    refine sameBatch_ended hE hp ha ?_
    split
    · exact .nil
    · exact .skip_right hidle .nil

end Lexeme

end SipMigrate.Sql
