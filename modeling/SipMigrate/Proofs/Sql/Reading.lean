import SipMigrate.Proofs.Sql.Lexing
import SipMigrate.Sql.Connection

/-! What a connection makes of the text of one plain statement. The statement is
read without regard to the database; only then are its names looked up. -/

namespace SipMigrate.Sql

/-! ### String literals -/

/-- The characters of a literal, with each quote written twice. -/
def doubled (quote : Char) (l : List Char) : List Char :=
  l.flatMap fun c => if c = quote then [quote, quote] else [c]

theorem doubled_cons (quote c : Char) (l : List Char) :
    doubled quote (c :: l) = (if c = quote then [quote, quote] else [c]) ++ doubled quote l := rfl

theorem Lexeme.quotedLength_doubled (quote : Char) (l : List Char) :
    quotedLength? quote (doubled quote l) = none := by
  induction l with
  | nil => rfl
  | cons c l ih =>
    rw [doubled_cons]
    by_cases hc : c = quote
    · simp [hc, quotedLength?, ih]
    · rw [if_neg hc]
      rcases hd : doubled quote l with _ | ⟨d, rest⟩
      · simp [quotedLength?, hc]
      · rw [hd] at ih
        simp [quotedLength?, hc, ih]

theorem Lexeme.quotedLength_doubled_append (quote : Char) (l : List Char) :
    quotedLength? quote (doubled quote l ++ [quote]) = some ((doubled quote l).length + 1) := by
  induction l with
  | nil => simp [doubled, quotedLength?]
  | cons c l ih =>
    rw [doubled_cons]
    by_cases hc : c = quote
    · simp [hc, quotedLength?, ih]
    · rw [if_neg hc]
      rcases hd : doubled quote l with _ | ⟨d, rest⟩
      · simp [quotedLength?, hc]
      · rw [hd] at ih
        simp only [List.cons_append] at ih
        simp [quotedLength?, hc, ih]

theorem Token.unquote_doubled (quote : Char) (l : List Char) :
    unquote quote (doubled quote l) = l := by
  induction l with
  | nil => rfl
  | cons c l ih =>
    rw [doubled_cons]
    by_cases hc : c = quote
    · simp [hc, unquote, ih]
    · rw [if_neg hc]
      rcases hd : doubled quote l with _ | ⟨d, rest⟩
      · rw [hd] at ih
        simp [← ih, unquote]
      · rw [hd] at ih
        simp [unquote, hc, ih]

/-! ### Tokens -/

namespace Token

/-- The tokens of lexemes, all of them at the beginning of the text. -/
def unplaced (gap : List Char) : List Lexeme → List Token
  | [] => []
  | x :: rest =>
    if x.kind = .blank then unplaced (gap ++ x.chars) rest
    else ⟨x.kind, x.chars, gap, 0⟩ :: unplaced [] rest

/-- Puts each token into its place. -/
def place (offset : Nat → Nat) : List Token → List Token
  | [] => []
  | t :: rest => { t with offset := offset 0 } :: place (fun n => offset (n + 1)) rest

theorem ofLexemesAfter_eq (gap : List Char) (n : Nat) (l : List Lexeme) :
    ∃ offset, ofLexemesAfter gap n l = place offset (unplaced gap l) := by
  induction l generalizing gap n with
  | nil => exact ⟨fun _ => 0, rfl⟩
  | cons x rest ih =>
    unfold ofLexemesAfter unplaced
    split
    · exact ih _ _
    · obtain ⟨offset, h⟩ := ih [] (n + (x.chars.flatMap String.utf8EncodeChar).length)
      exact ⟨fun i => if i = 0 then n else offset (i - 1), congrArg (List.cons _) h⟩

theorem mem_unplaced {t : Token} {gap : List Char} {l : List Lexeme} (h : t ∈ unplaced gap l) :
    (⟨t.kind, t.chars⟩ : Lexeme) ∈ l := by
  induction l generalizing gap with
  | nil => simp [unplaced] at h
  | cons x rest ih =>
    unfold unplaced at h
    split at h
    · exact List.mem_cons_of_mem _ (ih h)
    · rcases List.mem_cons.mp h with rfl | h
      · exact List.mem_cons_self
      · exact List.mem_cons_of_mem _ (ih h)

theorem isSymbol_semicolon (t : Token) :
    t.isSymbol ";" = (⟨t.kind, t.chars⟩ : Lexeme).isSemicolon := by
  have : t.text = ";" ↔ t.chars = [';'] := @String.ofList_inj t.chars [';']
  simp [isSymbol, Lexeme.isSemicolon, this]

end Token

/-! ### Reading -/

/-- What lexemes are read as; blanks and semicolons alone are no statement. -/
def Parser.read (l : List Lexeme) : Except Fault (Option Statement) :=
  match (Token.ofLexemes l).dropWhile (·.isSymbol ";") with
  | [] => .ok none
  | tokens => (statement tokens).map some

theorem Connection.prepare_eq (c : Connection) (l : List Lexeme) :
    c.prepare l =
      (Parser.read l).bind fun s => s.elim (.ok none) fun s => (s.plan c.view).map some := by
  unfold prepare Parser.read
  cases (Token.ofLexemes l).dropWhile (·.isSymbol ";") with
  | nil => rfl
  | cons t rest =>
    dsimp only
    cases Parser.statement (t :: rest) with
    | error f => rfl
    | ok s =>
      show ((s.plan c.view).bind _) = _
      cases h : s.plan c.view <;> simp [Except.bind, Except.map, h, pure, Except.pure]

/-- A text is a single statement, and this is what it is read as. -/
def Reads (sql : String) (r : Except Fault Statement) : Prop :=
  ∃ l, Lexeme.statements (Lexeme.cut (Connection.visible sql.toList)) = [l] ∧
    l.flatMap (·.chars) = Connection.visible sql.toList ∧ Parser.read l = r.map some

namespace Lexeme

theorem statementsAfter_eq {current l : List Lexeme} (h : ∀ x ∈ l, x.isSemicolon = false)
    (hne : current ++ l ≠ []) : statementsAfter current l = [current ++ l] := by
  induction l generalizing current with
  | nil =>
    rw [List.append_nil] at hne ⊢
    simp [statementsAfter, hne]
  | cons x rest ih =>
    have hx := h x (by simp)
    rw [statementsAfter, hx, Bool.false_and, if_neg (by simp),
      ih (fun y hy => h y (by simp [hy])) (by simp)]
    simp

theorem isSemicolon_of_isPlain {x : Lexeme} (h : (x.isPlain || x.isUnclosed) = true) :
    x.isSemicolon = false := by
  obtain ⟨c, l, hc, hb⟩ := beginsWith_head h
  obtain ⟨kind, chars⟩ := x
  obtain rfl : chars = c :: l := hc
  cases kind <;> simp [isSemicolon]
  rintro rfl rfl
  exact absurd hb (by decide)

theorem isPlain_of_mem {l : List Lexeme} (h : arePlain l = true) :
    ∀ x ∈ l, (x.isPlain || x.isUnclosed) = true := by
  induction l with
  | nil => simp
  | cons y rest ih =>
    intro x hx
    rcases List.mem_cons.mp hx with rfl | hx
    · exact arePlain_head h
    · exact ih (arePlain_tail h) x hx

end Lexeme

/-- How the text of a plain statement is read, wherever its tokens stand. -/
theorem reads_of_arePlain {sql : String} {l : List Lexeme}
    {r : (Nat → Nat) → Except Fault Statement}
    (hv : Connection.visible sql.toList = l.flatMap (·.chars)) (hl : Lexeme.arePlain l = true)
    (hne : Token.unplaced [] l ≠ [])
    (h : ∀ offset, Parser.statement (Token.place offset (Token.unplaced [] l)) = r offset) :
    ∃ offset, Reads sql (r offset) := by
  have hp := Lexeme.isPlain_of_mem hl
  obtain ⟨offset, ho⟩ := Token.ofLexemesAfter_eq [] 0 l
  refine ⟨offset, l, ?_, hv.symm, ?_⟩
  · rw [hv, Lexeme.cut_of_arePlain hl]
    refine Lexeme.statementsAfter_eq (fun x hx => Lexeme.isSemicolon_of_isPlain (hp x hx)) ?_
    rintro rfl
    exact hne rfl
  · unfold Parser.read Token.ofLexemes
    rw [ho, ← h offset]
    rcases hu : Token.unplaced [] l with _ | ⟨t, rest⟩
    · exact absurd hu hne
    · have ht : (⟨t.kind, t.chars⟩ : Lexeme) ∈ l := Token.mem_unplaced (by rw [hu]; simp)
      rw [Token.place, List.dropWhile_cons_of_neg]
      rw [Token.isSymbol_semicolon]
      simpa using Lexeme.isSemicolon_of_isPlain (hp _ ht)

/-! ### Running what has been read -/

namespace Connection

/-- Runs the statement that a text is read as. -/
def carryOut (c : Connection) (sql : String) (s : Statement) :
    Except SqlError Answer × Connection :=
  match s.plan c.view with
  | .error f => (.error (f.error sql), c)
  | .ok p => ((c.step p).1.mapError .failure, (c.step p).2)

theorem executeAll_of_error {l : List Lexeme} {f : Fault} (h : Parser.read l = .error f)
    (c : Connection) (hidden : List Char) (rest : List (List Lexeme)) :
    c.executeAll hidden (l :: rest) = (.error (f.error (textFrom (l :: rest) hidden)), c) := by
  rw [executeAll, prepare_eq, h]
  rfl

theorem executeAll_of_none {l : List Lexeme} (h : Parser.read l = .ok none) (c : Connection)
    (hidden : List Char) (rest : List (List Lexeme)) :
    c.executeAll hidden (l :: rest) = c.executeAll hidden rest := by
  rw [executeAll, prepare_eq, h]
  rfl

theorem prepare_of_some {l : List Lexeme} {s : Statement} (h : Parser.read l = .ok (some s))
    (c : Connection) : c.prepare l = (s.plan c.view).map some := by
  rw [prepare_eq, h]
  rfl

theorem executeAll_of_some {l : List Lexeme} {s : Statement} (h : Parser.read l = .ok (some s))
    (c : Connection) (hidden : List Char) (rest : List (List Lexeme)) :
    c.executeAll hidden (l :: rest) =
      match s.plan c.view with
      | .error f => (.error (f.error (textFrom (l :: rest) hidden)), c)
      | .ok p =>
        match c.step p with
        | (.ok _, c) => c.executeAll hidden rest
        | (.error cause, c) => (.error (.failure cause), c) := by
  rw [executeAll, prepare_of_some h]
  cases s.plan c.view <;> rfl

theorem textFrom_single {sql : String} {l : List Lexeme}
    (h : l.flatMap (·.chars) = visible sql.toList) : textFrom [l] (hidden sql.toList) = sql := by
  simp [textFrom, h, visible, hidden, List.takeWhile_append_dropWhile]

theorem execute_of_reads {sql : String} {s : Statement} (h : Reads sql (.ok s)) (c : Connection) :
    c.execute sql = ((c.carryOut sql s).1.map fun _ => (), (c.carryOut sql s).2) := by
  obtain ⟨l, hl, ht, hr⟩ := h
  unfold execute carryOut
  rw [hl, executeAll_of_some hr, textFrom_single ht]
  cases s.plan c.view with
  | error f => rfl
  | ok p =>
    dsimp only
    rcases c.step p with ⟨_ | _, _⟩ <;> rfl

theorem query_of_reads {sql : String} {s : Statement} (h : Reads sql (.ok s)) (c : Connection) :
    c.query sql = ((c.carryOut sql s).1.bind integerAnswer, (c.carryOut sql s).2) := by
  obtain ⟨l, hl, ht, hr⟩ := h
  unfold query carryOut
  simp only [hl, List.headD_cons, prepare_of_some hr]
  cases s.plan c.view with
  | error f => rfl
  | ok p =>
    cases hs : c.step p with
    | mk o c' => cases o <;> simp [hs, Except.map, Except.mapError, Except.bind]

theorem execute_of_reads_error {sql : String} {f : Fault} (h : Reads sql (.error f))
    (c : Connection) : c.execute sql = (.error (f.error sql), c) := by
  obtain ⟨l, hl, ht, hr⟩ := h
  unfold execute
  rw [hl, executeAll_of_error hr, textFrom_single ht]

theorem query_of_reads_error {sql : String} {f : Fault} (h : Reads sql (.error f))
    (c : Connection) : c.query sql = (.error (f.error sql), c) := by
  obtain ⟨l, hl, ht, hr⟩ := h
  unfold query
  simp only [hl, List.headD_cons, prepare_eq, hr]
  rfl

/-! ### Changes -/

theorem store_view (c : Connection) : c.store c.view = c := by
  obtain ⟨d, w, a⟩ := c
  cases w <;> rfl

/-- What keeps a connection from storing a change that a plan could make. -/
def refusal? (c : Connection) : Option Cause :=
  c.obstacle?.or (if c.access = .unrecorded then some .cannotOpenCompanion else none)

theorem step_eq_of_writes {p : Plan} (hp : p.writes = true) (c : Connection) :
    c.step p =
      match c.obstacle? with
      | some cause => (.error cause, c)
      | none => c.perform p := by
  cases p with
  | create | drop | insert | delete | update =>
    cases ho : c.obstacle? <;> simp [step, Plan.writes, ho]
  | nothing | select | begin | commit | rollback => cases hp

theorem step_of_writes {c : Connection} {p : Plan} {d : Database} {a : Answer}
    (hp : p.writes = true) (hr : p.run c.view = .ok (d, a)) :
    c.step p =
      match c.refusal? with
      | some cause => (.error cause, c)
      | none => (.ok a, c.store d) := by
  rw [step_eq_of_writes hp]
  unfold refusal?
  cases c.obstacle? with
  | some cause => rfl
  | none =>
    by_cases hu : c.access = .unrecorded <;> simp [perform, hr, hp, hu]

/-- A change that fails because of the rows leaves the connection as it is. -/
theorem step_of_writes_error {c : Connection} {p : Plan} {cause : Cause} (hp : p.writes = true)
    (hr : p.run c.view = .error cause) (hm : c.afterFailure cause = c) :
    c.step p = (.error (c.obstacle?.getD cause), c) := by
  rw [step_eq_of_writes hp]
  cases c.obstacle? with
  | some cause => rfl
  | none => simp [perform, hr, hm]

end Connection

end SipMigrate.Sql
