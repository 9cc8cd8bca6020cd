import SipMigrate.Proofs.Sql.Agreement

/-! A statement is read the same at another place in a text and without the semicolon at
its end. Every parser is gone through once; what is left at the end is a statement that
differs in places only, or none. -/

namespace SipMigrate.Sql

variable {α β γ δ : Type}

namespace Parser

/-! ### Names and operands -/

theorem placeless_nameOf {t t' : Token} (h : t.placeless = t'.placeless) :
    (nameOf t).placeless = (nameOf t').placeless := by
  have hn (t : Token) : (nameOf t).placeless = (nameOf t.placeless).placeless := rfl
  rw [hn, h, ← hn]

theorem agrees_name : Agrees Name.placeless name name :=
  (agrees_take .isName).bind fun _ _ ht => .pure (placeless_nameOf ht)

theorem placeless_number {t t' : Token} (h : t.placeless = t'.placeless) (negative : Bool) :
    (number t negative).placeless = (number t' negative).placeless := by
  have hn (t : Token) :
      (number t negative).placeless = (number t.placeless negative).placeless := by
    unfold number
    show Operand.placeless (if isTooLarge t negative then _ else _) =
      Operand.placeless (if isTooLarge t negative then _ else _)
    split <;> rfl
  rw [hn, h, ← hn]

theorem operand_of_malformed {t : Token} (h : t.kind = .malformed) (l : List Token) :
    operand.run (t :: l) = .error (.unexpected (t :: l)) := by
  unfold StateT.run operand
  simp [Token.isKeyword, Token.isSymbol, (Fair.isNumber).malformed t h,
    (Fair.opensOperand).malformed t h, (Fair.isIdentifier).malformed t h, h]

theorem agrees_operand : Agrees Operand.placeless operand operand := by
  intro l l' h
  cases h with
  | nil => exact .error _ _
  | closed gap offset => exact .error (.unexpected []) (.unexpected [.ofSymbol ';' gap offset])
  | stuck ht ht' =>
    rw [operand_of_malformed ht, operand_of_malformed ht']
    exact .error _ _
  | @cons t t' l l' ht hl =>
    have hr := Reaches.single ht hl
    have hkind : t.kind = t'.kind := (congrArg Token.kind ht :)
    have hchars : t.chars = t'.chars := (congrArg Token.chars ht :)
    have hcontent : t.content = t'.content := by rw [Token.content, hchars, Token.content]
    unfold StateT.run operand
    dsimp only
    rw [(Fair.isKeyword _).congr ht, Fair.isNumber.congr ht, Fair.opensOperand.congr ht,
      Fair.isIdentifier.congr ht, (Fair.isSymbol (s := "-") (by decide)).congr ht,
      (Fair.isSymbol (s := "+") (by decide)).congr ht, hkind, hcontent]
    refine .ite (.ok rfl hr) ?_
    refine .ite (.ok (placeless_number ht false) hr) ?_
    refine .ite (.ok rfl hr) ?_
    refine .ite (.error _ _) ?_
    refine .ite ?_ (.ite ?_ (.error _ _))
    · exact .ok (congrArg Operand.name (placeless_nameOf ht)) hr
    · cases hl with
      | nil => exact .error _ _
      | closed gap offset => exact .error _ _
      | stuck hu hu' =>
        dsimp only
        rw [Fair.isNumber.malformed _ hu, Fair.isNumber.malformed _ hu',
          Fair.opensOperand.malformed _ hu, Fair.opensOperand.malformed _ hu']
        exact .error _ _
      | cons hu hl =>
        dsimp only
        rw [Fair.isNumber.congr hu, Fair.opensOperand.congr hu]
        refine .ite (.ok (placeless_number hu _) (hr.trans (.single hu hl))) ?_
        exact .ite (.error _ _) (.error _ _)

theorem agrees_alone {F : α → β} {p p' : Parser α} (hp : Agrees F p p') :
    Agrees F (alone p) (alone p') := by
  refine hp.bind fun a a' ha => ?_
  exact (agrees_accept .isOperator).choose .reject (.pure ha)

theorem agrees_numeral : Agrees Operand.placeless numeral numeral :=
  (agrees_take .isNumber).bind fun _ _ ht => .pure (placeless_number ht false)

theorem agrees_time? : Agrees (Option.map Operand.placeless) time? time? := by
  refine (agrees_take? (.isOneOf _)).bind fun t t' ht => .pure ?_
  have := congrArg (Option.map fun t => Operand.value (.text t.text)) ht
  rw [Option.map_map, Option.map_map] at this
  rw [Option.map_map, Option.map_map]
  exact this

theorem agrees_conditionOn {a a' : Operand} (ha : a.placeless = a'.placeless)
    {p p' : Parser Operand} (hp : Agrees Operand.placeless p p') :
    Agrees Condition.placeless (conditionOn a p) (conditionOn a' p') := by
  have hnull (negated : Bool) :
      (Condition.isNull a negated).placeless = (Condition.isNull a' negated).placeless :=
    congrArg (Condition.isNull · negated) ha
  refine (agrees_acceptKeyword _).choose ?_ ?_
  · refine (agrees_acceptKeyword _).next fun negated => ?_
    exact (agrees_keyword _).next fun _ => .pure (hnull negated)
  refine (agrees_acceptKeyword _).choose (.pure (hnull false)) ?_
  refine (agrees_acceptKeyword _).choose (.pure (hnull true)) ?_
  refine (agrees_accept (.or (.isSymbol (by decide)) (.isSymbol (by decide)))).choose ?_ ?_
  · exact hp.bind fun b b' hb => .pure (congrArg₂ Condition.equal ha hb)
  · exact (agrees_accept .isOperator).discard.next fun _ => .reject

theorem agrees_condition : Agrees Condition.placeless condition condition := by
  refine agrees_alone (agrees_time?.option ?_ fun a a' ha => ?_)
  · exact agrees_operand.bind fun a a' ha => agrees_conditionOn ha agrees_operand
  · exact agrees_conditionOn ha agrees_numeral

theorem agrees_filter : Agrees (Option.map Condition.placeless) filter filter := by
  refine (agrees_acceptKeyword _).choose ?_ (.pure rfl)
  exact agrees_condition.bind fun c c' hc => .pure (congrArg some hc)

/-! ### Descriptions of new tables -/

theorem agrees_signedNumber : Agrees id signedNumber signedNumber := by
  refine (agrees_accept (.or (.isSymbol (by decide)) (.isSymbol (by decide)))).discard.next ?_
  exact fun _ => (agrees_take .isNumber).discard

theorem agrees_typeTokens : Agrees id typeTokens typeTokens := by
  refine (agrees_takeAll .isPlainName).bind fun words words' hw => ?_
  have hempty : words.isEmpty = words'.isEmpty := by
    simpa using congrArg List.isEmpty hw
  rw [hempty]
  refine .ite ?_ (.pure rfl)
  refine (agrees_acceptSymbol (by decide)).choose ?_ (.pure rfl)
  refine agrees_signedNumber.next fun _ => ?_
  refine (agrees_acceptSymbol (by decide)).choose ?_ ?_
  · exact agrees_signedNumber.next fun _ => agrees_symbol (by decide)
  · exact agrees_symbol (by decide)

theorem typeText_placeless (l : List Token) : typeText (l.map Token.placeless) = typeText l := by
  cases l with
  | nil => rfl
  | cons t l =>
    have := span_placeless (t :: l)
    simp only [List.map_cons] at this
    simp only [typeText, List.map_cons, this]
    rfl

/-- What follows the name of a column. -/
theorem agrees_columnType {n n' : Name} (hn : n.placeless = n'.placeless) :
    Agrees id
      (do
        let before ← get
        typeTokens
        return Definition.column n.text
          (typeText (before.take (before.length - (← get).length))))
      (do
        let before ← get
        typeTokens
        return Definition.column n'.text
          (typeText (before.take (before.length - (← get).length)))) := by
  have hname : n.text = n'.text := (congrArg Name.text hn :)
  intro l l' h
  simp only [StateT.run_bind, run_get, ok_bind]
  refine (agrees_typeTokens h).bind fun _ _ r r' _ hr => ?_
  refine .ok ?_ hr
  have htype := congrArg typeText hr.map_take
  rw [typeText_placeless, typeText_placeless] at htype
  rw [hname, htype]

theorem agrees_column : Agrees id column column :=
  agrees_name.bind fun _ _ hn => agrees_columnType hn

theorem agrees_refusal : Agrees id refusal refusal :=
  (agrees_acceptKeyword _).choose (agrees_keywords _) (.pure rfl)

theorem agrees_deferral : Agrees id deferral deferral :=
  (agrees_acceptKeyword _).choose
    (agrees_take (.or (.isKeyword _) (.isKeyword _))).discard (.pure rfl)

theorem agrees_tablePart : Agrees id tablePart tablePart := by
  refine (agrees_acceptKeyword _).choose ?_ ?_
  · exact agrees_name.discard.next fun _ => .pure rfl
  refine (agrees_accept (.or (.isKeyword _) (.isKeyword _))).choose ?_ ?_
  · exact (agrees_keyword _).next fun _ => .reject
  · exact (agrees_accept (.or (.isKeyword _) (.isKeyword _))).choose .reject (.pure rfl)

/-! Every step but the last takes a token, so that there are enough steps. -/

/-- A parser that runs alike on the tokens of one statement and takes at least one of them. -/
structure Proceeds (p : Parser α) : Prop where
  agrees : Agrees id p p
  takes : ∀ l a r, p.run l = .ok (a, r) → r.length < l.length

/-- No parser puts a token back. -/
theorem Agrees.length_le {F : α → β} {p : Parser α} (hp : Agrees F p p) {l r : List Token} {a : α}
    (h : p.run l = .ok (a, r)) : r.length ≤ l.length := by
  have hl := hp (.refl l)
  rw [h] at hl
  cases hl with
  | ok _ hr => exact hr.length_le.1

theorem exists_of_run_bind {p : Parser α} {f : α → Parser γ} {l s : List Token} {c : γ}
    (h : (p >>= f).run l = .ok (c, s)) :
    ∃ a r, p.run l = .ok (a, r) ∧ (f a).run r = .ok (c, s) := by
  rw [StateT.run_bind] at h
  cases hx : p.run l with
  | error e =>
    rw [hx] at h
    cases h
  | ok x =>
    rw [hx] at h
    exact ⟨x.1, x.2, rfl, h⟩

theorem length_lt_of_accept {q : Token → Bool} {l r : List Token}
    (h : (accept q).run l = .ok (true, r)) : r.length < l.length := by
  cases l with
  | nil => cases h
  | cons t l =>
    rw [run_accept] at h
    split at h <;> cases h
    exact Nat.lt_succ_self _

theorem length_lt_of_name {l r : List Token} {n : Name} (h : name.run l = .ok (n, r)) :
    r.length < l.length := by
  cases l with
  | nil => cases h
  | cons t l =>
    rw [run_name] at h
    split at h <;> cases h
    exact Nat.lt_succ_self _

namespace Proceeds

variable {p : Parser α} {f : α → Parser γ} {g g' : Parser γ} {q : Token → Bool}

theorem reject : Proceeds (reject : Parser α) := ⟨.reject, nofun⟩

theorem bind (hp : Proceeds p) (hf : ∀ a, Agrees id (f a) (f a)) : Proceeds (p >>= f) where
  agrees := hp.agrees.next hf
  takes l c s h := by
    obtain ⟨a, r, hr, hs⟩ := exists_of_run_bind h
    exact ((hf a).length_le hs).trans_lt (hp.takes l a r hr)

theorem next (hp : Agrees id p p) (hf : ∀ a, Proceeds (f a)) : Proceeds (p >>= f) where
  agrees := hp.next fun a => (hf a).agrees
  takes l c s h := by
    obtain ⟨a, r, hr, hs⟩ := exists_of_run_bind h
    exact ((hf a).takes r c s hs).trans_le (hp.length_le hr)

/-- A token that is accepted is taken. -/
theorem choose (hq : Fair q) (hg : Agrees id g g) (hg' : Proceeds g') :
    Proceeds (accept q >>= fun b => if b then g else g') where
  agrees := (agrees_accept hq).choose hg hg'.agrees
  takes l c r h := by
    obtain ⟨b, r', hb, hr⟩ := exists_of_run_bind h
    cases b with
    | true => exact (hg.length_le hr).trans_lt (length_lt_of_accept hb)
    | false => exact (hg'.takes _ _ _ hr).trans_le ((agrees_accept hq).length_le hb)

end Proceeds

theorem proceeds_column : Proceeds column where
  agrees := agrees_column
  takes l d r h := by
    obtain ⟨n, r', hn, hr⟩ := exists_of_run_bind h
    exact ((agrees_columnType rfl).length_le hr).trans_lt (length_lt_of_name hn)

theorem proceeds_columnPart : Proceeds columnPart := by
  have hrefusal (d : Option Definition) :
      Agrees id (do refusal; return d) (do refusal; return d) :=
    agrees_refusal.next fun _ => .pure rfl
  have hdeferral : Agrees id (do deferral; return (none : Option Definition))
      (do deferral; return none) := agrees_deferral.next fun _ => .pure rfl
  refine .choose (.isKeyword _) ?_ ?_
  · refine (agrees_keyword _).next fun _ => ?_
    exact (agrees_acceptKeyword _).discard.next fun _ => hrefusal _
  refine .choose (.isKeyword _) (hrefusal _) ?_
  refine .choose (.isKeyword _) ?_ ?_
  · refine (agrees_acceptKeyword _).choose hdeferral ?_
    exact (agrees_keyword _).next fun _ => hrefusal _
  refine .choose (.isKeyword _) (hrefusal _) ?_
  refine .choose (.isKeyword _) hdeferral ?_
  refine .choose (.isKeyword _) ?_ ?_
  · exact agrees_name.discard.next fun _ => .pure rfl
  · exact .next (agrees_accept (.isOneOf _)).discard fun _ => .reject

/-- A part of a table has at least its first word. -/
theorem length_lt_of_tablePart {l r : List Token} (h : tablePart.run l = .ok (true, r)) :
    r.length < l.length := by
  obtain ⟨b, r', hb, h⟩ := exists_of_run_bind h
  cases b with
  | true =>
    obtain ⟨_, s, hn, hs⟩ := exists_of_run_bind h
    cases hs
    exact (agrees_name.discard.length_le hn).trans_lt (length_lt_of_accept hb)
  | false =>
    obtain ⟨b, s, -, h⟩ := exists_of_run_bind h
    cases b with
    | true =>
      obtain ⟨_, _, -, h⟩ := exists_of_run_bind h
      cases h
    | false =>
      obtain ⟨b, _, -, h⟩ := exists_of_run_bind h
      cases b <;> cases h

theorem proceeds_step {s : Stage} (hs : s ≠ .done) : Proceeds (step s) := by
  cases s with
  | column => exact proceeds_column.bind fun _ => .pure rfl
  | columnPart =>
    refine .choose (.isSymbol (by decide)) ?_ ?_
    · exact agrees_tablePart.next fun _ => .pure rfl
    refine .choose (.isSymbol (by decide)) (.pure rfl) ?_
    exact proceeds_columnPart.bind fun _ => .pure rfl
  | tablePart =>
    refine .choose (.isSymbol (by decide)) (.pure rfl) ?_
    refine .next (agrees_acceptSymbol (by decide)).discard fun _ => ?_
    refine ⟨agrees_tablePart.choose (.pure rfl) .reject, fun l a r h => ?_⟩
    obtain ⟨b, r', hb, hr⟩ := exists_of_run_bind h
    cases b with
    | true =>
      cases hr
      exact length_lt_of_tablePart hb
    | false => cases hr
  | done => exact absurd rfl hs

theorem parts_of_error {s : Stage} {l : List Token} {f : Fault} (h : (step s).run l = .error f)
    (n : Nat) : parts (n + 1) s l = ([], .error f) := by
  unfold parts
  rw [h]

/-- A reading that is stopped later is stopped. -/
theorem parts_stopped {s next : Stage} {l left : List Token} {d : Option Definition} {n : Nat}
    {f : Fault} (h : (step s).run l = .ok ((d, next), left)) (hd : next ≠ .done)
    (hn : (parts n next left).2 = .error f) : (parts (n + 1) s l).2 = .error f := by
  unfold parts
  rw [h]
  cases next with
  | done => exact absurd rfl hd
  | _ =>
    dsimp only
    split <;> exact hn

/-- Both descriptions are stopped, or both are read to the end and have the same parts. -/
theorem agrees_parts {s : Stage} {l l' : List Token} {n n' : Nat} (hs : s ≠ .done)
    (h : Matches l l') (hn : l.length < n) (hn' : l'.length < n') :
    (∃ f f', (parts n s l).2 = .error f ∧ (parts n' s l').2 = .error f') ∨
      ∃ ds r r', parts n s l = (ds, .ok r) ∧ parts n' s l' = (ds, .ok r') ∧
        Reaches l l' r r' := by
  induction n generalizing s l l' n' with
  | zero => exact absurd hn (Nat.not_lt_zero _)
  | succ n ih =>
    obtain ⟨n', rfl⟩ := Nat.exists_eq_add_one_of_ne_zero (Nat.ne_of_gt (Nat.zero_lt_of_lt hn'))
    have hstep := (proceeds_step hs).agrees h
    have htakes := (proceeds_step hs).takes
    cases hx : (step s).run l with
    | error f =>
      rw [hx] at hstep
      cases hx' : (step s).run l' with
      | ok x' => rw [hx'] at hstep; cases hstep
      | error f' => exact .inl ⟨f, f', by rw [parts_of_error hx], by rw [parts_of_error hx']⟩
    | ok x =>
      rw [hx] at hstep
      cases hx' : (step s).run l' with
      | error f' => rw [hx'] at hstep; cases hstep
      | ok x' =>
        rw [hx'] at hstep
        cases hstep with
        | @ok a a' r r' ha hr =>
          obtain rfl : a = a' := ha
          obtain ⟨d, next⟩ := a
          by_cases hd : next = .done
          · subst hd
            exact .inr ⟨_, r, r', parts_done hx, parts_done hx', hr⟩
          · have hl := htakes l _ r hx
            have hl' := htakes l' _ r' hx'
            have hn : r.length < n := by omega
            have hn' : r'.length < n' := by omega
            rcases ih hd hr.toMatches hn hn' with
              ⟨f, f', hf, hf'⟩ | ⟨ds, u, u', hu, hu', hreach⟩
            · exact .inl ⟨f, f', parts_stopped hx hd hf, parts_stopped hx' hd hf'⟩
            · exact .inr ⟨_, u, u', parts_step hx hd hu, parts_step hx' hd hu', hr.trans hreach⟩

/-- Whether what follows an option may follow it. -/
theorem all_head?_eq {l l' : List Token} (h : Matches l l') :
    (l.head?.all fun t => t.isSymbol "," || t.isSymbol ";") =
      l'.head?.all fun t => t.isSymbol "," || t.isSymbol ";" := by
  cases h with
  | nil => rfl
  | closed gap offset => simp
  | stuck ht ht' => simp [Token.isSymbol, ht, ht']
  | @cons t t' l l' ht hl =>
    have hsymbol (s : String) : t.isSymbol s = t'.isSymbol s :=
      (congrArg (Token.isSymbol · s) ht :)
    simp [hsymbol]

/-- What an option is taken for, by what follows its name. -/
def endOption (t : Option Token) : Parser Unit := do
  match t, (← get).head?.all fun u => u.isSymbol "," || u.isSymbol ";" with
  | none, _ => return ()
  | some t, true => throw (Cause.unknownOption t.text).fault
  | some _, false => reject

theorem agrees_endOption {t t' : Option Token}
    (ht : t.map Token.placeless = t'.map Token.placeless) :
    Agrees id (endOption t) (endOption t') := by
  refine .look fun l l' h => ?_
  rw [all_head?_eq h]
  cases t with
  | none =>
    cases t' with
    | none => exact .pure rfl
    | some t' => cases ht
  | some t =>
    cases t' with
    | none => cases ht
    | some t' =>
      cases l'.head?.all fun u => u.isSymbol "," || u.isSymbol ";" with
      | true => exact fun _ _ _ => .error _ _
      | false => exact .reject

theorem agrees_option : Agrees id option option := by
  have hsome : Agrees (Option.map Token.placeless) (some <$> take Token.isName)
      (some <$> take Token.isName) := (agrees_take .isName).map fun _ _ ht => congrArg some ht
  refine (agrees_acceptKeyword _).choose (hsome.bind fun _ _ => agrees_endOption) ?_
  exact (agrees_take? .isName).bind fun _ _ => agrees_endOption

/-- What closes a statement closes it with and without its semicolon. -/
theorem concur_finish {l l' : List Token} (h : Matches l l') :
    Concur id (fun _ _ => True) (finish.run l) (finish.run l') := by
  unfold StateT.run finish
  cases h with
  | nil => exact .ok rfl trivial
  | closed gap offset =>
    dsimp only
    rw [Token.isSymbol_ofSymbol, if_pos (by decide)]
    exact .ok rfl trivial
  | stuck ht ht' =>
    simp only [Token.isSymbol, ht, ht']
    exact .error _ _
  | @cons t t' l l' ht hl =>
    have hsymbol : t.isSymbol ";" = t'.isSymbol ";" := (congrArg (Token.isSymbol · ";") ht :)
    dsimp only
    rw [hsymbol]
    exact .ite (.ok rfl trivial) (.error _ _)

/-! ### Statements -/

/-- Parsers that run alike to their end, whatever they have left out then. -/
def Concludes (F : α → β) (p p' : Parser α) : Prop :=
  ∀ ⦃l l'⦄, Matches l l' → Concur F Matches (p.run l) (p'.run l')

namespace Concludes

variable {F : α → β} {G : γ → δ} {p p' q q' : Parser α} {f f' : α → Parser γ}

theorem of_agrees (h : Agrees F p p') : Concludes F p p' :=
  fun _ _ hl => (h hl).mono fun _ _ hr => hr.toMatches

theorem bind (hp : Agrees F p p') (hf : ∀ a a', F a = F a' → Concludes G (f a) (f' a')) :
    Concludes G (p >>= f) (p' >>= f') := by
  intro l l' hl
  rw [StateT.run_bind, StateT.run_bind]
  exact (hp hl).bind fun a a' r r' ha hr => hf a a' ha hr.toMatches

theorem next (hp : Agrees id p p') (hf : ∀ a, Concludes G (f a) (f' a)) :
    Concludes G (p >>= f) (p' >>= f') := by
  refine bind hp ?_
  rintro a _ rfl
  exact hf a

theorem ite {c : Prop} [Decidable c] (h : Concludes F p p') (h' : Concludes F q q') :
    Concludes F (if c then p else q) (if c then p' else q') := by
  split
  · exact h
  · exact h'

end Concludes

theorem run_description_of_stopped {b : Bool} {n : Name} {start l : List Token} {f : Fault}
    (h : (parts (l.length + 1) .column l).2 = .error f) :
    ∃ ds, (description b n start).run l = .ok (.createTable b n ds (some f) "", []) := by
  unfold StateT.run description
  rcases hp : parts (l.length + 1) .column l with ⟨ds, stop⟩
  rw [hp] at h
  obtain rfl : stop = .error f := h
  exact ⟨ds, rfl⟩

theorem run_description_of_parts {b : Bool} {n : Name} {start l r : List Token}
    {ds : List Definition} (h : parts (l.length + 1) .column l = (ds, .ok r)) :
    (description b n start).run l =
      match (do option; finish : Parser Unit).run r with
      | .error f => .ok (.createTable b n ds (some f) "", [])
      | .ok _ => .ok (.createTable b n ds none
          (Token.span (start.take (start.length - r.length))), []) := by
  unfold StateT.run description
  rw [h]
  rfl

theorem concur_description {b : Bool} {n n' : Name} (hn : n.placeless = n'.placeless)
    {start start' l l' : List Token} (h : Reaches start start' l l') :
    Concur Statement.placeless Matches ((description b n start).run l)
      ((description b n' start').run l') := by
  have hstopped (ds ds' : List Definition) (f f' : Fault) :
      (Statement.createTable b n ds (some f) "").placeless =
        (Statement.createTable b n' ds' (some f') "").placeless := by
    simp only [Statement.placeless, hn]
  rcases agrees_parts (s := .column) (by simp) h.toMatches (Nat.lt_succ_self l.length)
    (Nat.lt_succ_self l'.length) with ⟨f, f', hf, hf'⟩ | ⟨ds, r, r', hr, hr', hreach⟩
  · obtain ⟨ds, hds⟩ := run_description_of_stopped hf
    obtain ⟨ds', hds'⟩ := run_description_of_stopped hf'
    rw [hds, hds']
    exact .ok (hstopped ds ds' f f') .nil
  · have hend : Concur id (fun _ _ => True) ((do option; finish : Parser Unit).run r)
        ((do option; finish : Parser Unit).run r') := by
      rw [StateT.run_bind, StateT.run_bind]
      exact (agrees_option hreach.toMatches).bind fun _ _ _ _ _ hs => concur_finish hs.toMatches
    have htext := congrArg Token.span (h.trans hreach).map_take
    rw [span_placeless, span_placeless] at htext
    rw [run_description_of_parts hr, run_description_of_parts hr']
    generalize (do option; finish : Parser Unit).run r = x at hend ⊢
    generalize (do option; finish : Parser Unit).run r' = x' at hend ⊢
    cases hend with
    | error f f' => exact .ok (hstopped ds ds f f') .nil
    | ok _ _ =>
      refine .ok ?_ .nil
      simp only [Statement.placeless, hn, htext]

theorem concludes_createTable : Concludes Statement.placeless createTable createTable := by
  have hname (b : Bool) : Concludes Statement.placeless
      (do
        let start ← get
        let n ← name
        symbol "("
        description b n start)
      (do
        let start ← get
        let n ← name
        symbol "("
        description b n start) := by
    intro l l' h
    simp only [StateT.run_bind, run_get, ok_bind]
    refine (agrees_name h).bind fun n n' r r' hn hr => ?_
    refine (agrees_symbol (by decide) hr.toMatches).bind fun _ _ s s' _ hs => ?_
    exact concur_description hn (hr.trans hs)
  refine .next (agrees_turnAway _) fun _ => ?_
  refine .next (agrees_keyword _) fun _ => ?_
  refine .next (agrees_acceptKeyword _) fun b => ?_
  refine .ite ?_ (hname b)
  exact .next (agrees_keywords _) fun _ => hname b

theorem agrees_dropTable : Agrees Statement.placeless dropTable dropTable := by
  have hname (b : Bool) : Agrees Statement.placeless (do return .dropTable b (← name))
      (do return .dropTable b (← name)) :=
    agrees_name.bind fun n n' hn => .pure (congrArg (Statement.dropTable b) hn)
  refine (agrees_turnAway _).next fun _ => ?_
  refine (agrees_keyword _).next fun _ => ?_
  refine (agrees_acceptKeyword _).next fun b => ?_
  refine .ite ?_ (hname b)
  exact (agrees_keyword _).next fun _ => hname b

theorem agrees_rows : Agrees (List.map (List.map Operand.placeless))
    (separated (parenthesized (separated (alone operand))))
    (separated (parenthesized (separated (alone operand)))) :=
  agrees_separated (agrees_parenthesized (agrees_separated (agrees_alone agrees_operand)))

theorem agrees_insert : Agrees Statement.placeless insert insert := by
  refine (agrees_turnAway _).next fun _ => ?_
  refine (agrees_keyword _).next fun _ => ?_
  refine agrees_name.bind fun n n' hn => ?_
  have hrows (cs cs' : Option (List Name))
      (hcs : cs.map (·.map Name.placeless) = cs'.map (·.map Name.placeless)) :
      Agrees Statement.placeless
        (do
          turnAway unknownSources
          keyword "values"
          let rows ← separated (parenthesized (separated (alone operand)))
          turnAway (unknownCombinations ++ ["on", "returning"])
          return .insert n cs rows)
        (do
          turnAway unknownSources
          keyword "values"
          let rows ← separated (parenthesized (separated (alone operand)))
          turnAway (unknownCombinations ++ ["on", "returning"])
          return .insert n' cs' rows) := by
    refine (agrees_turnAway _).next fun _ => ?_
    refine (agrees_keyword _).next fun _ => ?_
    refine agrees_rows.bind fun rows rows' hr => ?_
    refine (agrees_turnAway _).next fun _ => .pure ?_
    show Statement.insert _ _ _ = Statement.insert _ _ _
    rw [hn, hcs]
    exact congrArg _ hr
  refine (agrees_turnAway _).next fun _ => ?_
  refine (agrees_acceptSymbol (by decide)).choose ?_ (hrows none none rfl)
  refine (agrees_separated agrees_name).bind fun cs cs' hcs => ?_
  exact (agrees_symbol (by decide)).next fun _ => hrows (some cs) (some cs') (congrArg some hcs)

theorem agrees_target : Agrees Name.placeless target target :=
  agrees_name.bind fun _ _ hn => (agrees_turnAway _).next fun _ => .pure hn

theorem agrees_delete : Agrees Statement.placeless delete delete := by
  refine (agrees_keyword _).next fun _ => ?_
  refine agrees_target.bind fun n n' hn => ?_
  refine agrees_filter.bind fun f f' hf => ?_
  exact (agrees_turnAway _).next fun _ => .pure (congrArg₂ Statement.delete hn hf)

theorem agrees_change : Agrees placelessChange change change := by
  have hchange : Agrees placelessChange
      (do
        let n ← name
        symbol "="
        return (n, ← alone operand))
      (do
        let n ← name
        symbol "="
        return (n, ← alone operand)) := by
    refine agrees_name.bind fun n n' hn => ?_
    refine (agrees_symbol (by decide)).next fun _ => ?_
    exact (agrees_alone agrees_operand).bind fun o o' ho => .pure (congrArg₂ Prod.mk hn ho)
  refine (agrees_acceptSymbol (by decide)).choose ?_ hchange
  exact Agrees.reject.next fun _ => hchange

theorem agrees_update : Agrees Statement.placeless update update := by
  refine (agrees_turnAway _).next fun _ => ?_
  refine agrees_target.bind fun n n' hn => ?_
  refine (agrees_keyword _).next fun _ => ?_
  refine (agrees_separated agrees_change).bind fun cs cs' hcs => ?_
  refine (agrees_turnAway _).next fun _ => ?_
  refine agrees_filter.bind fun f f' hf => ?_
  refine (agrees_turnAway _).next fun _ => .pure ?_
  show Statement.update _ _ _ = Statement.update _ _ _
  rw [hn, hcs, hf]

theorem agrees_arguments : Agrees (List.map Operand.placeless) arguments arguments := by
  have hmore := agrees_separated (agrees_alone agrees_operand)
  intro l l' h
  unfold arguments
  simp only [StateT.run_bind, run_get, ok_bind]
  cases h with
  | nil => exact .error _ _
  | closed gap offset => exact .error (.unexpected []) (.unexpected [.ofSymbol ';' gap offset])
  | stuck ht ht' =>
    simp only [Token.isSymbol, ht, ht']
    exact hmore (.stuck ht ht')
  | @cons t t' l l' ht hl =>
    dsimp only
    rw [(Fair.isSymbol (s := ")") (by decide)).congr ht]
    cases t'.isSymbol ")" with
    | true => exact .ok rfl (.refl (.cons ht hl))
    | false => exact hmore (.cons ht hl)

/-- What a function is taken for does not depend on its place. -/
theorem placeless_aggregate {t t' : Token} (ht : t.placeless = t'.placeless) {l l' : List Operand}
    (h : l.map Operand.placeless = l'.map Operand.placeless) (distinct : Bool) :
    (aggregate (aggregate? t) t distinct l).placeless =
      (aggregate (aggregate? t') t' distinct l').placeless := by
  have hname : (nameOf t).text = (nameOf t').text := (congrArg Name.text (placeless_nameOf ht) :)
  rw [aggregate?, hname, ← aggregate?]
  generalize aggregate? t' = f
  cases f with
  | none => simp [aggregate, Result.placeless, Fault.placeless, hname, h]
  | some f =>
    rcases l with _ | ⟨o, _ | ⟨o₂, l⟩⟩ <;> rcases l' with _ | ⟨o', _ | ⟨o₂', l'⟩⟩ <;>
      cases f <;> cases distinct <;> simp_all [aggregate, Result.placeless, Fault.placeless]

theorem agrees_call {t t' : Token} (ht : t.placeless = t'.placeless) :
    Agrees Result.placeless (call t) (call t') := by
  have hstar := placeless_aggregate ht (Eq.refl (([] : List Operand).map Operand.placeless)) false
  refine (agrees_acceptSymbol (by decide)).choose (.pure hstar) ?_
  refine (agrees_take? (.or (.isKeyword _) (.isKeyword _))).bind fun u u' hu => ?_
  have hdistinct : u.any (·.isKeyword "distinct") = u'.any (·.isKeyword "distinct") := by
    have := congrArg (Option.any (·.isKeyword "distinct")) hu
    rwa [Option.any_map, Option.any_map] at this
  rw [hdistinct]
  exact agrees_arguments.bind fun l l' hl => .pure (placeless_aggregate ht hl _)

theorem isCall_eq {l l' : List Token} (h : Matches l l') : isCall l = isCall l' := by
  cases h with
  | nil => rfl
  | closed gap offset => rfl
  | @stuck t t' l l' ht ht' =>
    cases l <;> cases l' <;>
      simp [isCall, Fair.isIdentifier.malformed _ ht, Fair.isIdentifier.malformed _ ht']
  | @cons t t' l l' ht hl =>
    have hparen := Fair.isSymbol (s := "(") (by decide)
    cases hl with
    | nil => rfl
    | closed gap offset => simp [isCall, hparen.semicolon]
    | stuck hu hu' => simp [isCall, hparen.malformed _ hu, hparen.malformed _ hu']
    | cons hu hl =>
      simp [isCall, Fair.isIdentifier.congr ht, Fair.opensOperand.congr ht, hparen.congr hu]

theorem agrees_shown : Agrees Operand.placeless shown shown :=
  agrees_time?.option agrees_operand fun _ _ ha => .pure ha

theorem agrees_result : Agrees Result.placeless result result := by
  refine (agrees_acceptSymbol (by decide)).choose (.pure rfl) ?_
  refine .look fun l l' h => ?_
  rw [isCall_eq h]
  refine .ite ?_ ?_
  · refine (agrees_take .isIdentifier).bind fun t t' ht => ?_
    exact agrees_alone (agrees_parenthesized (agrees_call ht))
  · exact (agrees_alone agrees_shown).bind fun o o' ho => .pure (congrArg Result.operand ho)

theorem agrees_otherName? : Agrees id otherName? otherName? := by
  refine (agrees_acceptKeyword _).choose ?_ ?_
  · exact agrees_name.bind fun n n' hn => .pure (congrArg (fun n => some n.text) hn :)
  · refine (agrees_take? .isPlainName).bind fun t t' ht => .pure ?_
    have htext : (fun t => (nameOf t).text) ∘ Token.placeless = fun t => (nameOf t).text := rfl
    have := congrArg (Option.map fun t => (nameOf t).text) ht
    rwa [Option.map_map, Option.map_map, htext] at this

theorem agrees_resultColumn : Agrees ResultColumn.placeless resultColumn resultColumn := by
  refine (agrees_withText agrees_result).bind ?_
  rintro ⟨r, text⟩ ⟨r', text'⟩ h
  obtain ⟨hr, rfl⟩ : r.placeless = r'.placeless ∧ text = text' := Prod.ext_iff.mp h
  have hall : r = .all ↔ r' = .all := by rw [← result_eq_all, hr, result_eq_all]
  have hcolumn (o : Option String) :
      (ResultColumn.mk r text o).placeless = (ResultColumn.mk r' text o).placeless :=
    congrArg (ResultColumn.mk · text o) hr
  simp only [hall]
  refine .ite (.pure (hcolumn none)) ?_
  exact agrees_otherName?.next fun o => .pure (hcolumn o)

theorem agrees_source : Agrees Name.placeless source source := by
  have htable : Agrees Name.placeless
      (do
        let table ← name
        discard otherName?
        if ← acceptSymbol "," then reject
        turnAway unknownJoins
        return table)
      (do
        let table ← name
        discard otherName?
        if ← acceptSymbol "," then reject
        turnAway unknownJoins
        return table) := by
    refine agrees_name.bind fun n n' hn => ?_
    refine agrees_otherName?.discard.next fun _ => ?_
    have hend := (agrees_turnAway unknownJoins).next fun _ => Agrees.pure hn
    exact (agrees_acceptSymbol (by decide)).choose (Agrees.reject.next fun _ => hend) hend
  refine (agrees_acceptSymbol (by decide)).choose ?_ htable
  exact Agrees.reject.next fun _ => htable

theorem agrees_select : Agrees Statement.placeless select select := by
  refine (agrees_accept (.or (.isKeyword _) (.isKeyword _))).discard.next fun _ => ?_
  refine (agrees_separated agrees_resultColumn).bind fun rs rs' hrs => ?_
  have hend (n n' : Option Name) (hn : n.map Name.placeless = n'.map Name.placeless) :
      Agrees Statement.placeless
        (do
          let f ← filter
          turnAway unknownClauses
          return .select rs n f)
        (do
          let f ← filter
          turnAway unknownClauses
          return .select rs' n' f) := by
    refine agrees_filter.bind fun f f' hf => ?_
    refine (agrees_turnAway _).next fun _ => .pure ?_
    show Statement.select _ _ _ = Statement.select _ _ _
    rw [hrs, hn, hf]
  refine (agrees_acceptKeyword _).choose ?_ (hend none none rfl)
  have hsome : Agrees (Option.map Name.placeless) (some <$> source) (some <$> source) :=
    agrees_source.map fun _ _ hn => congrArg some hn
  exact hsome.bind hend

theorem agrees_transactionName : Agrees id transactionName transactionName :=
  (agrees_acceptKeyword _).choose (agrees_take? .isName).discard (.pure rfl)

theorem agrees_beginTransaction :
    Agrees Statement.placeless beginTransaction beginTransaction := by
  refine (agrees_accept (.or (.or (.isKeyword _) (.isKeyword _)) (.isKeyword _))).discard.next ?_
  exact fun _ => agrees_transactionName.next fun _ => .pure rfl

theorem agrees_closing (s : Statement) : Agrees Statement.placeless (closing s) (closing s) := by
  refine agrees_transactionName.next fun _ => ?_
  refine .ite ?_ (.pure rfl)
  exact (agrees_turnAway _).next fun _ => .pure rfl

/-- Whether a token is a keyword is told by its kind and its characters. -/
theorem isKeyword_eq {t t' : Token} (hk : t.kind = t'.kind) (hc : t.chars = t'.chars) (k : String) :
    t.isKeyword k = t'.isKeyword k := by
  simp [Token.isKeyword, Token.text, hk, hc]

theorem concludes_body {t t' : Token} (hk : t.kind = t'.kind) (hc : t.chars = t'.chars) :
    Concludes Statement.placeless (body t) (body t') := by
  have hone : t.isOneOf unknownStatements = t'.isOneOf unknownStatements := by
    simp [Token.isOneOf, Token.text, hk, hc]
  unfold body
  simp only [isKeyword_eq hk hc, hone]
  refine .ite concludes_createTable ?_
  refine .ite (.of_agrees agrees_dropTable) ?_
  refine .ite (.of_agrees agrees_insert) ?_
  refine .ite (.of_agrees agrees_delete) ?_
  refine .ite (.of_agrees agrees_update) ?_
  refine .ite (.of_agrees agrees_select) ?_
  refine .ite (.of_agrees agrees_beginTransaction) ?_
  refine .ite (.of_agrees (agrees_closing _)) ?_
  refine .ite (.of_agrees (agrees_closing _)) ?_
  exact .ite (.of_agrees .reject) fun _ _ _ => .error _ _

/-- Two readings of one statement: both fail, or both are the same but for places. -/
inductive SameStatement : Except Fault Statement → Except Fault Statement → Prop
  | error (f f' : Fault) : SameStatement (.error f) (.error f')
  | ok {s s' : Statement} (h : s.placeless = s'.placeless) : SameStatement (.ok s) (.ok s')

theorem sameStatement {t t' : Token} {l l' : List Token} (hk : t.kind = t'.kind)
    (hc : t.chars = t'.chars) (h : Matches l l') :
    SameStatement (statement (t :: l)) (statement (t' :: l')) := by
  have hbody := concludes_body hk hc h
  unfold statement
  dsimp only
  generalize (body t).run l = x at hbody ⊢
  generalize (body t').run l' = x' at hbody ⊢
  cases hbody with
  | error f f' => exact .error f f'
  | @ok s s' r r' hs hr =>
    have hend := concur_finish hr
    rw [ok_bind, ok_bind]
    dsimp only
    generalize finish.run r = y at hend ⊢
    generalize finish.run r' = y' at hend ⊢
    cases hend with
    | error f f' => exact .error f f'
    | ok _ _ => exact .ok hs

/-- Something malformed begins no statement. -/
theorem statement_of_malformed {t : Token} (h : t.kind = .malformed) (l : List Token) :
    statement (t :: l) = .error (.unexpected (t :: l)) := by
  have hkey (k : String) : t.isKeyword k = false := (Fair.isKeyword k).malformed t h
  have hone : t.isOneOf unknownStatements = false := (Fair.isOneOf _).malformed t h
  have hbody : (body t).run l = .error (.unexpected (t :: l)) := by
    unfold body
    simp only [hkey, hone]
    rfl
  unfold statement
  dsimp only
  rw [hbody]
  rfl

end Parser

end SipMigrate.Sql
