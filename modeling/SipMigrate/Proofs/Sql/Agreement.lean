import SipMigrate.Proofs.Sql.Parsing
import SipMigrate.Proofs.Sql.Placeless

/-! How two readings of a statement compare. The tokens of a statement may stand at
other places, the semicolon at the end may be missing, and what comes after something
malformed may differ: the statement is read all the same, or fails all the same. -/

namespace SipMigrate.Sql

variable {α β γ δ : Type}

/-- The tokens of one statement twice. The second time a semicolon may close it. Nothing is
read beyond a malformed token. -/
inductive Matches : List Token → List Token → Prop
  | nil : Matches [] []
  | closed (gap : List Char) (offset : Nat) : Matches [] [.ofSymbol ';' gap offset]
  | stuck {t t' : Token} {l l' : List Token} (h : t.kind = .malformed)
    (h' : t'.kind = .malformed) : Matches (t :: l) (t' :: l')
  | cons {t t' : Token} {l l' : List Token} (h : t.placeless = t'.placeless)
    (hl : Matches l l') : Matches (t :: l) (t' :: l')

theorem Matches.refl : ∀ l, Matches l l
  | [] => .nil
  | _ :: l => .cons rfl (refl l)

/-- The same tokens have been read of both lists, up to the places `r` and `r'` in them. -/
def Reaches (l l' r r' : List Token) : Prop :=
  ∃ u u', l = u ++ r ∧ l' = u' ++ r' ∧ u.map Token.placeless = u'.map Token.placeless ∧
    Matches r r'

namespace Reaches

variable {l l' r r' s s' : List Token} {t t' : Token}

theorem refl (h : Matches l l') : Reaches l l' l l' := ⟨[], [], rfl, rfl, rfl, h⟩

theorem single (h : t.placeless = t'.placeless) (hl : Matches l l') :
    Reaches (t :: l) (t' :: l') l l' := ⟨[t], [t'], rfl, rfl, by simp [h], hl⟩

theorem trans (h : Reaches l l' r r') (h' : Reaches r r' s s') : Reaches l l' s s' := by
  obtain ⟨u, u', rfl, rfl, hu, -⟩ := h
  obtain ⟨v, v', rfl, rfl, hv, hs⟩ := h'
  exact ⟨u ++ v, u' ++ v', by simp, by simp, by simp [hu, hv], hs⟩

theorem toMatches (h : Reaches l l' r r') : Matches r r' := by
  obtain ⟨-, -, -, -, -, h⟩ := h
  exact h

theorem length_le (h : Reaches l l' r r') : r.length ≤ l.length ∧ r'.length ≤ l'.length := by
  obtain ⟨u, u', rfl, rfl, -, -⟩ := h
  simp

/-- The tokens that have been read. -/
theorem map_take (h : Reaches l l' r r') :
    (l.take (l.length - r.length)).map Token.placeless =
      (l'.take (l'.length - r'.length)).map Token.placeless := by
  obtain ⟨u, u', rfl, rfl, hu, -⟩ := h
  simpa using hu

end Reaches

/-- Tests of tokens that neither a place nor a semicolon nor anything malformed passes. -/
structure Fair (p : Token → Bool) : Prop where
  placeless : ∀ t, p t.placeless = p t
  semicolon : ∀ gap offset, p (.ofSymbol ';' gap offset) = false
  malformed : ∀ t : Token, t.kind = .malformed → p t = false

namespace Fair

variable {p q : Token → Bool} {t t' : Token}

theorem congr (h : Fair p) (ht : t.placeless = t'.placeless) : p t = p t' := by
  rw [← h.placeless, ht, h.placeless]

theorem or (hp : Fair p) (hq : Fair q) : Fair fun t => p t || q t where
  placeless t := by rw [hp.placeless, hq.placeless]
  semicolon gap offset := by rw [hp.semicolon, hq.semicolon, Bool.or_self]
  malformed t ht := by rw [hp.malformed t ht, hq.malformed t ht, Bool.or_self]

theorem isKeyword (k : String) : Fair (·.isKeyword k) :=
  ⟨fun _ => rfl, fun _ _ => rfl, fun t h => by simp [Token.isKeyword, h]⟩

theorem isOneOf (words : List String) : Fair (·.isOneOf words) :=
  ⟨fun _ => rfl, fun _ _ => rfl, fun t h => by simp [Token.isOneOf, h]⟩

theorem isSymbol {s : String} (hs : s ≠ ";") : Fair (·.isSymbol s) :=
  ⟨fun _ => rfl, fun _ _ => by simpa using hs.symm, fun t h => by simp [Token.isSymbol, h]⟩

theorem isOperator : Fair Token.isOperator :=
  ⟨fun _ => rfl, fun _ _ => by simp [operatorSymbols],
    fun t h => by simp [Token.isOperator, Token.isOneOf, h]⟩

theorem isIdentifier : Fair Token.isIdentifier :=
  ⟨fun _ => rfl, fun _ _ => rfl, fun t h => by simp [Token.isIdentifier, h]⟩

theorem isName : Fair Token.isName :=
  ⟨fun _ => rfl, fun _ _ => rfl, fun t h => by simp [Token.isName, Token.isIdentifier, h]⟩

theorem isPlainName : Fair Token.isPlainName :=
  ⟨fun _ => rfl, fun _ _ => rfl,
    fun t h => by simp [Token.isPlainName, Token.isName, Token.isIdentifier, h]⟩

theorem isNumber : Fair Parser.isNumber :=
  ⟨fun _ => rfl, fun _ _ => rfl, fun t h => by simp [Parser.isNumber, h]⟩

theorem opensOperand : Fair Parser.opensOperand :=
  ⟨fun _ => rfl, fun _ _ => by simp [Parser.opensOperand],
    fun t h => by simp [Parser.opensOperand, Token.isOneOf, Token.isSymbol, h]⟩

end Fair

/-! ### Two runs of parsers -/

/-- Both runs fail, or both read the same as far as `F` tells, and what is left is as `S` says. -/
inductive Concur (F : α → β) (S : List Token → List Token → Prop) :
    Except Fault (α × List Token) → Except Fault (α × List Token) → Prop
  | error (f f' : Fault) : Concur F S (.error f) (.error f')
  | ok {a a' : α} {r r' : List Token} (ha : F a = F a') (hr : S r r') :
    Concur F S (.ok (a, r)) (.ok (a', r'))

theorem Concur.mono {F : α → β} {S S' : List Token → List Token → Prop}
    {x x' : Except Fault (α × List Token)} (h : Concur F S x x') (hS : ∀ r r', S r r' → S' r r') :
    Concur F S' x x' := by
  cases h with
  | error f f' => exact .error f f'
  | ok ha hr => exact .ok ha (hS _ _ hr)

theorem Concur.bind {F : α → β} {G : γ → δ} {S S' : List Token → List Token → Prop}
    {x x' : Except Fault (α × List Token)}
    {g g' : α × List Token → Except Fault (γ × List Token)} (h : Concur F S x x')
    (hg : ∀ a a' r r', F a = F a' → S r r' → Concur G S' (g (a, r)) (g' (a', r'))) :
    Concur G S' (x >>= g) (x' >>= g') := by
  cases h with
  | error f f' => exact .error f f'
  | ok ha hr => exact hg _ _ _ _ ha hr

theorem Concur.ite {F : α → β} {S : List Token → List Token → Prop}
    {x y x' y' : Except Fault (α × List Token)} {c : Prop} [Decidable c] (h : Concur F S x x')
    (h' : Concur F S y y') : Concur F S (if c then x else y) (if c then x' else y') := by
  split
  · exact h
  · exact h'

theorem Concur.map {F : α → β} {G : γ → δ} {S : List Token → List Token → Prop}
    {x x' : Except Fault (α × List Token)} {g g' : α → γ} (h : Concur F S x x')
    (hg : ∀ a a', F a = F a' → G (g a) = G (g' a')) :
    Concur G S ((fun y => (g y.1, y.2)) <$> x) ((fun y => (g' y.1, y.2)) <$> x') := by
  cases h with
  | error f f' => exact .error f f'
  | ok ha hr => exact .ok (hg _ _ ha) hr

namespace Parser

/-- Two parsers that run alike on the tokens of one statement. -/
def Agrees (F : α → β) (p p' : Parser α) : Prop :=
  ∀ ⦃l l'⦄, Matches l l' → Concur F (Reaches l l') (p.run l) (p'.run l')

namespace Agrees

variable {F : α → β} {G : γ → δ} {p p' q q' : Parser α} {f f' : α → Parser γ}

theorem pure {a a' : α} (h : F a = F a') : Agrees F (pure a) (pure a') :=
  fun _ _ hl => .ok h (.refl hl)

theorem reject : Agrees F reject reject := fun _ _ _ => .error _ _

theorem bind (hp : Agrees F p p') (hf : ∀ a a', F a = F a' → Agrees G (f a) (f' a')) :
    Agrees G (p >>= f) (p' >>= f') := by
  intro l l' hl
  rw [StateT.run_bind, StateT.run_bind]
  refine (hp hl).bind fun a a' r r' ha hr => ?_
  exact (hf a a' ha hr.toMatches).mono fun _ _ hs => hr.trans hs

/-- What has been read first is the same. -/
theorem next (hp : Agrees id p p') (hf : ∀ a, Agrees G (f a) (f' a)) :
    Agrees G (p >>= f) (p' >>= f') := by
  refine hp.bind ?_
  rintro a _ rfl
  exact hf a

/-- What comes next is looked at and not taken. -/
theorem look {f f' : List Token → Parser γ}
    (hf : ∀ l l', Matches l l' → Agrees G (f l) (f' l')) : Agrees G (get >>= f) (get >>= f') := by
  intro l l' hl
  rw [StateT.run_bind, StateT.run_bind]
  exact hf l l' hl hl

theorem map {g g' : α → γ} (hp : Agrees F p p') (hg : ∀ a a', F a = F a' → G (g a) = G (g' a')) :
    Agrees G (g <$> p) (g' <$> p') := by
  rw [map_eq_pure_bind, map_eq_pure_bind]
  exact hp.bind fun a a' ha => .pure (hg a a' ha)

theorem ite {c : Prop} [Decidable c] (h : Agrees F p p') (h' : Agrees F q q') :
    Agrees F (if c then p else q) (if c then p' else q') := by
  split
  · exact h
  · exact h'

theorem discard (hp : Agrees F p p') : Agrees id (discard p) (discard p') :=
  hp.bind fun _ _ _ => .pure rfl

/-- The first of two ways is taken if it is said so. -/
theorem choose {b b' : Parser Bool} {p p' q q' : Parser γ} (hb : Agrees id b b')
    (hp : Agrees G p p') (hq : Agrees G q q') :
    Agrees G (b >>= fun x => if x then p else q) (b' >>= fun x => if x then p' else q') :=
  hb.next fun _ => .ite hp hq

/-- Something is found by both or by neither. -/
theorem option {p p' : Parser (Option α)} {f f' : Option α → Parser γ}
    (hp : Agrees (Option.map F) p p') (hnone : Agrees G (f none) (f' none))
    (hsome : ∀ a a', F a = F a' → Agrees G (f (some a)) (f' (some a'))) :
    Agrees G (p >>= f) (p' >>= f') := by
  refine hp.bind fun o o' h => ?_
  cases o with
  | none =>
    cases o' with
    | none => exact hnone
    | some a' => cases h
  | some a =>
    cases o' with
    | none => cases h
    | some a' => exact hsome a a' (Option.some.inj h)

end Agrees

/-! ### Tokens -/

section

variable {q : Token → Bool}

theorem agrees_take? (hq : Fair q) : Agrees (Option.map Token.placeless) (take? q) (take? q) := by
  intro l l' h
  cases h with
  | nil => exact .ok rfl (.refl .nil)
  | closed gap offset =>
    rw [run_take?, hq.semicolon]
    exact .ok rfl (.refl (.closed gap offset))
  | stuck ht ht' =>
    rw [run_take?, run_take?, hq.malformed _ ht, hq.malformed _ ht']
    exact .ok rfl (.refl (.stuck ht ht'))
  | @cons t t' l l' ht hl =>
    rw [run_take?, run_take?, hq.congr ht]
    cases q t' with
    | true => exact .ok (congrArg some ht) (.single ht hl)
    | false => exact .ok rfl (.refl (.cons ht hl))

theorem agrees_accept (hq : Fair q) : Agrees id (accept q) (accept q) := by
  refine (agrees_take? hq).bind fun t t' ht => .pure ?_
  simpa using congrArg Option.isSome ht

theorem take_eq (q : Token → Bool) :
    take q = take? q >>= fun t => t.elim reject pure := by
  funext l
  cases l with
  | nil => rfl
  | cons t l =>
    show (if q t then _ else _) = (take? q).run (t :: l) >>= _
    rw [run_take?]
    split <;> rfl

theorem agrees_take (hq : Fair q) : Agrees Token.placeless (take q) (take q) := by
  rw [take_eq]
  refine (agrees_take? hq).bind fun t t' ht => ?_
  cases t with
  | none =>
    cases t' with
    | none => exact .reject
    | some t' => cases ht
  | some t =>
    cases t' with
    | none => cases ht
    | some t' => exact .pure (Option.some.inj ht)

theorem agrees_keyword (k : String) : Agrees id (keyword k) (keyword k) :=
  (agrees_take (.isKeyword k)).discard

theorem agrees_keywords : ∀ l, Agrees id (keywords l) (keywords l)
  | [] => .pure rfl
  | k :: l => (agrees_keyword k).next fun _ => agrees_keywords l

theorem agrees_symbol {s : String} (hs : s ≠ ";") : Agrees id (symbol s) (symbol s) :=
  (agrees_take (.isSymbol hs)).discard

theorem agrees_acceptKeyword (k : String) : Agrees id (acceptKeyword k) (acceptKeyword k) :=
  agrees_accept (.isKeyword k)

theorem agrees_acceptSymbol {s : String} (hs : s ≠ ";") :
    Agrees id (acceptSymbol s) (acceptSymbol s) := agrees_accept (.isSymbol hs)

theorem agrees_turnAway (words : List String) : Agrees id (turnAway words) (turnAway words) :=
  (agrees_accept (.isOneOf words)).choose .reject (.pure rfl)

theorem agrees_takeAll (hq : Fair q) :
    Agrees (List.map Token.placeless) (takeAll q) (takeAll q) := by
  intro l l' h
  rw [run_takeAll, run_takeAll]
  induction h with
  | nil => exact .ok rfl (.refl .nil)
  | closed gap offset =>
    rw [List.takeWhile_cons_of_neg (by simp [hq.semicolon]),
      List.dropWhile_cons_of_neg (by simp [hq.semicolon])]
    exact .ok rfl (.refl (.closed gap offset))
  | stuck ht ht' =>
    simp only [List.takeWhile_cons, List.dropWhile_cons, hq.malformed _ ht, hq.malformed _ ht']
    exact .ok rfl (.refl (.stuck ht ht'))
  | @cons t t' l l' ht hl ih =>
    simp only [List.takeWhile_cons, List.dropWhile_cons, hq.congr ht]
    cases q t' with
    | true =>
      cases ih with
      | ok ha hr => exact .ok (by simp [ht, ha]) (.trans (.single ht hl) hr)
    | false => exact .ok rfl (.refl (.cons ht hl))

end

/-! ### Items between commas, parentheses -/

section

variable {F : α → β} {p : Parser α}

theorem run_afterCommas_nil (p : Parser α) (n : Nat) : (afterCommas p n).run [] = .ok ([], []) := by
  cases n <;> rfl

/-- Where the tokens end there are no more items. -/
theorem concur_afterCommas_nil (F : α → β) (p : Parser α) {l' : List Token} (h : Matches [] l')
    (n n' : Nat) :
    Concur (List.map F) (Reaches [] l') ((afterCommas p n).run []) ((afterCommas p n').run l') := by
  rw [run_afterCommas_nil]
  have hl : (afterCommas p n').run l' = .ok ([], l') := by
    cases n' with
    | zero => rfl
    | succ n' =>
      cases h with
      | nil => rfl
      | closed gap offset => rfl
  rw [hl]
  exact .ok rfl (.refl h)

/-- All items are read, if there may be as many as there are tokens. -/
theorem concur_afterCommas (hp : Agrees F p p) {l l' : List Token} (h : Matches l l') {n n' : Nat}
    (hn : l.length ≤ n) (hn' : l'.length ≤ n') :
    Concur (List.map F) (Reaches l l') ((afterCommas p n).run l) ((afterCommas p n').run l') := by
  have hcomma := Fair.isSymbol (s := ",") (by decide)
  induction n generalizing l l' n' with
  | zero =>
    obtain rfl := List.length_eq_zero_iff.mp (Nat.le_zero.mp hn)
    exact concur_afterCommas_nil F p h 0 n'
  | succ n ih =>
    cases h with
    | nil => exact concur_afterCommas_nil F p .nil (n + 1) n'
    | closed gap offset => exact concur_afterCommas_nil F p (.closed gap offset) (n + 1) n'
    | stuck ht ht' =>
      obtain ⟨n', rfl⟩ := Nat.exists_eq_add_one_of_ne_zero (Nat.ne_of_gt (Nat.zero_lt_of_lt hn'))
      rw [run_afterCommas_succ, run_afterCommas_succ, hcomma.malformed _ ht,
        hcomma.malformed _ ht']
      exact .ok rfl (.refl (.stuck ht ht'))
    | @cons t t' l l' ht hl =>
      obtain ⟨n', rfl⟩ := Nat.exists_eq_add_one_of_ne_zero (Nat.ne_of_gt (Nat.zero_lt_of_lt hn'))
      rw [List.length_cons] at hn hn'
      rw [run_afterCommas_succ, run_afterCommas_succ, hcomma.congr ht]
      cases t'.isSymbol "," with
      | false => exact .ok rfl (.refl (.cons ht hl))
      | true =>
        refine (hp hl).bind fun a a' r r' ha hr => ?_
        have hlength := hr.length_le
        have hmore := ih hr.toMatches (show r.length ≤ n by omega) (show r'.length ≤ n' by omega)
        refine (hmore.mono fun _ _ hs => ((Reaches.single ht hl).trans hr).trans hs).map ?_
        intro b b' hb
        rw [List.map_cons, List.map_cons, ha, hb]

theorem agrees_separated (hp : Agrees F p p) : Agrees (List.map F) (separated p) (separated p) := by
  intro l l' h
  rw [run_separated, run_separated]
  refine (hp h).bind fun a a' r r' ha hr => ?_
  have hmore := concur_afterCommas hp hr.toMatches le_rfl le_rfl
  refine (hmore.mono fun _ _ hs => hr.trans hs).map ?_
  intro b b' hb
  rw [List.map_cons, List.map_cons, ha, hb]

theorem agrees_parenthesized {p' : Parser α} (hp : Agrees F p p') :
    Agrees F (parenthesized p) (parenthesized p') := by
  refine (agrees_symbol (by decide)).next fun _ => ?_
  refine hp.bind fun a a' ha => ?_
  exact (agrees_symbol (by decide)).next fun _ => .pure ha

/-- The text of tokens without the places of them. -/
theorem span_placeless (l : List Token) : Token.span (l.map Token.placeless) = Token.span l := by
  cases l with
  | nil => rfl
  | cons t l => simp [Token.span, Token.placeless, List.flatMap_map]

theorem agrees_withText (hp : Agrees F p p) :
    Agrees (Prod.map F id) p.withText p.withText := by
  intro l l' h
  rw [run_withText, run_withText]
  refine (hp h).bind fun a a' r r' ha hr => ?_
  refine .ok (Prod.ext ha ?_) hr
  show Token.span _ = Token.span _
  rw [← span_placeless, hr.map_take, span_placeless]

end

end Parser

end SipMigrate.Sql
