import SipMigrate.Proofs.Executor.Trail
import SipMigrate.Proofs.Migration.Run
import SipMigrate.Proofs.Migration.Splitting
import SipMigrate.Proofs.Sql.Batches
import SipMigrate.Proofs.Sql.Spaces

/-! Scripts piece by piece. Executing the statements of a script one by one does what
executing the whole script at once does, as long as the splitter cuts where the language
has semicolons, and takes away nothing that means something in the language. The splitter
takes all white space of Unicode away at the ends of a statement, while outside ASCII the
language takes it for letters. The language is the part of it that is understood: there are no
triggers, whose semicolons separate nothing, and no text is kept that goes on behind its last
token, as a database keeps that of an index. -/

namespace SipMigrate.Migration

namespace Script

open Text Sql Connection

/-! ### Trimmed pieces -/

/-- The blanks that are taken away at the end of a piece, as far as they are visible. -/
def lost (p : List Char) : List Char := (visible (trimStart p)).drop (visible (trim p)).length

/-- A piece that has the same tokens when it is trimmed: the blanks at its ends stand in spaces
and comments, or in a literal that is not closed, and they are not all that stands behind
the beginning of a comment. -/
structure KeepsTokens (p : List Char) : Prop where
  atStart : ((visible p).takeWhile isBlank).length ≤
    (Lexeme.leading (Lexeme.cut (visible p))).length
  atEnd : (lost p).length ≤ (Lexeme.trailing (Lexeme.cut (visible (trimStart p)))).length ∨
    (Lexeme.cut (visible (trimStart p))).getLast?.any Lexeme.isOpen
  comment : (Lexeme.cut (visible (trimStart p))).getLast?.all fun x =>
    x.chars ≠ '/' :: '*' :: lost p

instance (p : List Char) : Decidable (KeepsTokens p) :=
  decidable_of_iff (_ ∧ _ ∧ _) ⟨fun h => ⟨h.1, h.2.1, h.2.2⟩, fun h => ⟨h.1, h.2, h.3⟩⟩

theorem trimStart_visible (p : List Char) : trimStart (visible p) = visible (trimStart p) := by
  induction p with
  | nil => rfl
  | cons c p ih =>
    by_cases hn : c = '\x00'
    · subst hn
      rfl
    · have hv : visible (c :: p) = c :: visible p := by simp [visible, hn]
      cases hc : isBlank c with
      | false => rw [hv, trimStart_of_not_isBlank hc, trimStart_of_not_isBlank hc, hv]
      | true =>
        have hskip (l : List Char) : trimStart (c :: l) = trimStart l := by simp [trimStart, hc]
        rw [hv, hskip, hskip, ih]

theorem visible_append_of_not_mem {u : List Char} (h : '\x00' ∉ u) (v : List Char) :
    visible (u ++ v) = u ++ visible v := by
  refine List.takeWhile_append_of_pos fun c hc => ?_
  rw [decide_eq_true_eq]
  rintro rfl
  exact h hc

theorem visible_append_of_mem {u : List Char} (h : '\x00' ∈ u) (v : List Char) :
    visible (u ++ v) = visible u := by
  obtain ⟨a, b, rfl, ha⟩ := List.eq_append_cons_of_mem h
  rw [List.append_assoc, visible_append_of_not_mem ha, visible_append_of_not_mem ha]
  rfl

theorem visible_of_not_mem {u : List Char} (h : '\x00' ∉ u) : visible u = u := by
  have := visible_append_of_not_mem h []
  rwa [List.append_nil, show visible [] = [] from rfl, List.append_nil] at this

/-- What is visible of a piece but for the blanks in front of it. -/
theorem visible_trimStart (p : List Char) :
    AllBlank (lost p) ∧ visible (trimStart p) = visible (trim p) ++ lost p := by
  obtain ⟨b, hb, hp⟩ := exists_trimEnd_append (trimStart p)
  have hvisible : ∃ b', AllBlank b' ∧ visible (trimStart p) = visible (trim p) ++ b' := by
    rw [hp, ← trim]
    by_cases hm : '\x00' ∈ trim p
    · exact ⟨[], List.forall_mem_nil _, by rw [visible_append_of_mem hm, List.append_nil]⟩
    · have hmb : '\x00' ∉ b := fun h => absurd (hb _ h) (by decide)
      exact ⟨b, hb, by
        rw [visible_append_of_not_mem hm, visible_of_not_mem hm, visible_of_not_mem hmb]⟩
  obtain ⟨b', hb', hv⟩ := hvisible
  have : lost p = b' := by rw [lost, hv, List.drop_left]
  exact ⟨this ▸ hb', this ▸ hv⟩

/-- A piece without other blanks than the spaces of the language keeps its tokens, unless it
breaks off behind the beginning of a comment. -/
theorem KeepsTokens.of_spaces {p : List Char}
    (hs : ∀ c ∈ p, isBlank c = true → Lexeme.beginsBlank c = true)
    (hc : ¬['/', '*'] <:+ visible (trim p)) : KeepsTokens p := by
  obtain ⟨hlost, hvisible⟩ := visible_trimStart p
  have hmem {c : Char} (h : c ∈ visible (trimStart p)) : c ∈ p := by
    rw [← trimStart_visible] at h
    exact (List.takeWhile_sublist _).subset ((List.dropWhile_sublist _).subset h)
  refine ⟨Lexeme.le_leading fun c hc => ?_, ?_, ?_⟩
  · exact hs c ((List.takeWhile_sublist _).subset ((List.takeWhile_sublist _).subset hc))
      (List.mem_takeWhile_imp hc)
  · rw [hvisible] at hmem ⊢
    exact Lexeme.le_trailing _ fun c hc => hs c (hmem (List.mem_append_right _ hc)) (hlost c hc)
  · rw [Option.all_eq_true]
    intro x hx
    rw [decide_eq_true_eq]
    intro hchars
    obtain ⟨K, hK⟩ := List.getLast?_eq_some_iff.mp hx
    have htext := Lexeme.flatMap_cut (visible (trimStart p))
    rw [hK, List.flatMap_append, List.flatMap_singleton, hchars, hvisible] at htext
    have hsplit : '/' :: '*' :: lost p = ['/', '*'] ++ lost p := rfl
    rw [hsplit, ← List.append_assoc] at htext
    exact hc ⟨_, List.append_cancel_right htext⟩

/-- Every piece of a text without other blanks than the spaces of the language keeps its tokens,
unless one breaks off behind the beginning of a comment. -/
theorem keepsTokens_of_spaces {text : List Char}
    (hs : (text.filter isBlank).all Lexeme.beginsBlank)
    (hc : ∀ p ∈ cut (marked text), ¬['/', '*'] <:+ visible (trim p)) :
    ∀ p ∈ cut (marked text), KeepsTokens p := by
  intro p hp
  refine .of_spaces (fun c hmem hblank => ?_) (hc p hp)
  exact List.all_eq_true.mp hs c (List.mem_filter.mpr ⟨mem_of_mem_cut hp hmem, hblank⟩)

/-- Each of these loses a token when it is trimmed, or part of one. -/
example : ¬KeepsTokens "\u00a0DROP TABLE t".toList ∧
    ¬KeepsTokens "DROP TABLE t\u00a0".toList ∧ ¬KeepsTokens "/* ".toList := by
  decide +kernel

theorem forall₂_refl (l : List Lexeme) : List.Forall₂ Lexeme.Alike l l :=
  List.forall₂_same.mpr fun _ _ => .inl rfl

theorem KeepsTokens.sameButGaps {p : List Char} (h : KeepsTokens p) :
    Lexeme.SameButGaps (Lexeme.cut (visible (trim p))) (Lexeme.cut (visible p)) := by
  obtain ⟨B, hB, hcut⟩ := Lexeme.cut_of_leading h.atStart
  obtain ⟨hlost, hvisible⟩ := visible_trimStart p
  have hend := h.atEnd
  have hcomment := h.comment
  rw [trimStart_visible] at hcut
  rw [hvisible] at hcut hend hcomment
  rw [hcut]
  rcases hend with hend | hend
  · obtain ⟨K, E, E', hE, hE', hw, ht⟩ := Lexeme.cut_of_trailing hlost hend fun x hx => by
      rw [Option.mem_def.mp hx] at hcomment
      simpa using hcomment
    exact ⟨B, E', E, K, K, hB, hE', hE, forall₂_refl K, ht, by rw [hw]⟩
  · obtain ⟨x, hx, hopen⟩ := (Option.any_eq_true _ _).mp hend
    obtain ⟨K, hK⟩ := List.getLast?_eq_some_iff.mp hx
    obtain ⟨x', hk, hw⟩ := Lexeme.cut_of_isOpen hlost hK hopen
    have hmalformed : x.kind = .malformed := by
      simp only [Lexeme.isOpen, Bool.and_eq_true, decide_eq_true_eq] at hopen
      exact hopen.1
    have hlast : List.Forall₂ Lexeme.Alike (K ++ [x']) (K ++ [x]) :=
      List.rel_append (forall₂_refl K) (.cons (.inr ⟨hk, hmalformed⟩) .nil)
    exact ⟨B, [], [], K ++ [x'], K ++ [x], hB, Lexeme.areGaps_nil, Lexeme.areGaps_nil, hlast,
      by simpa using hw, by simp [hK]⟩

/-! ### Pieces -/

/-- The pieces between terminators one after the other. -/
theorem exists_terminator (l : List Char) : marked l = unmarked l ∨
    ∃ p rest, l = p ++ ';' :: rest ∧ marked l = unmarked p ++ (';', true) :: marked rest := by
  induction l with
  | nil => exact .inl rfl
  | cons c l ih =>
    cases hm : (c = ';' && endsLine l : Bool) with
    | true =>
      obtain rfl : c = ';' := by simp_all
      exact .inr ⟨[], l, rfl, by rw [marked, hm]; rfl⟩
    | false =>
      rcases ih with h | ⟨p, rest, rfl, h⟩
      · exact .inl (by rw [marked, hm, h]; rfl)
      · exact .inr ⟨c :: p, rest, rfl, by rw [marked, hm, h]; rfl⟩

theorem piece_induction {P : List Char → Prop} (last : ∀ p, marked p = unmarked p → P p)
    (step : ∀ p rest, marked (p ++ ';' :: rest) = unmarked p ++ (';', true) :: marked rest →
      P rest → P (p ++ ';' :: rest)) (l : List Char) : P l := by
  induction hn : l.length using Nat.strong_induction_on generalizing l with
  | h n ih =>
    rcases exists_terminator l with h | ⟨p, rest, rfl, h⟩
    · exact last l h
    · refine step p rest h (ih _ ?_ rest rfl)
      rw [← hn, List.length_append, List.length_cons]
      omega

theorem cut_unmarked (l : List Char) : cut (unmarked l) = [l] := by
  have := cut_unmarked_append l []
  rwa [List.append_nil, show cut [] = [[]] from rfl, List.modifyHead_cons, List.append_nil] at this

theorem cut_piece (p : List Char) (more : List (Char × Bool)) :
    cut (unmarked p ++ (';', true) :: more) = p :: cut more := by
  rw [cut_unmarked_append, cut_terminator]
  simp

/-! ### Separators -/

/-- The characters of lexemes, and whether each of them is a semicolon between statements. -/
def separators (l : List Lexeme) : List (Char × Bool) :=
  l.flatMap fun x => x.chars.map (·, x.isSemicolon)

/-- Every terminator of a script is a semicolon between statements in the language. The lexemes
decide, so a semicolon within the body of a trigger counts too: such a script is not among those
that are understood. -/
def Separates (text : List Char) : Prop :=
  ∀ i < text.length, (marked text)[i]?.any Prod.snd →
    (separators (Lexeme.cut (visible text)))[i]?.any Prod.snd

instance (text : List Char) : Decidable (Separates text) :=
  inferInstanceAs (Decidable (∀ i < text.length, _ → _))

theorem map_fst_separators (l : List Lexeme) :
    (separators l).map Prod.fst = l.flatMap (·.chars) := by
  simp [separators, List.map_flatMap, Function.comp_def]

theorem length_separators (l : List Lexeme) :
    (separators l).length = (l.flatMap (·.chars)).length := by
  rw [← map_fst_separators, List.length_map]

theorem exists_of_separators {l : List Lexeme} {i : Nat}
    (h : (separators l)[i]?.any Prod.snd = true) :
    ∃ L M, l = L ++ Lexeme.semicolon :: M ∧ (L.flatMap (·.chars)).length = i := by
  induction l generalizing i with
  | nil => simp [separators] at h
  | cons x l ih =>
    have hcons : separators (x :: l) = x.chars.map (·, x.isSemicolon) ++ separators l := rfl
    rw [hcons, List.getElem?_append] at h
    split at h
    · rename_i hi
      rw [List.getElem?_map, Option.any_map, Option.any_eq_true] at h
      obtain ⟨c, -, hx⟩ := h
      obtain rfl := Lexeme.eq_semicolon hx
      obtain rfl : i = 0 := Nat.lt_one_iff.mp hi
      exact ⟨[], l, rfl, rfl⟩
    · obtain ⟨L, M, rfl, hL⟩ := ih h
      refine ⟨x :: L, M, rfl, ?_⟩
      rw [List.flatMap_cons, List.length_append, hL]
      simp_all

/-- A terminator that separates statements cuts the lexemes of a script. -/
theorem Separates.exists_cut {p rest : List Char}
    (hm : marked (p ++ ';' :: rest) = unmarked p ++ (';', true) :: marked rest)
    (hs : Separates (p ++ ';' :: rest)) :
    ∃ L M, Lexeme.cut (visible (p ++ ';' :: rest)) = L ++ Lexeme.semicolon :: M ∧
      L.flatMap (·.chars) = p ∧ visible p = p ∧ M.flatMap (·.chars) = visible rest := by
  obtain ⟨L, M, hcut, hlength⟩ := exists_of_separators
    (hs p.length (by simp) (by rw [hm]; simp [unmarked]))
  have htext := Lexeme.flatMap_cut (visible (p ++ ';' :: rest))
  rw [hcut, List.flatMap_append, List.flatMap_cons] at htext
  have hall : visible (p ++ ';' :: rest) ++ hidden (p ++ ';' :: rest) = p ++ ';' :: rest :=
    List.takeWhile_append_dropWhile
  rw [← htext, List.append_assoc] at hall
  obtain ⟨hL, -⟩ := List.append_inj hall hlength
  have hp : '\x00' ∉ p := by
    intro h
    rw [← hL] at h
    have hv : '\x00' ∈ visible (p ++ ';' :: rest) := by
      rw [← htext]
      exact List.mem_append_left _ h
    exact absurd (List.mem_takeWhile_imp hv) (by decide)
  rw [visible_append_of_not_mem hp, hL] at htext
  exact ⟨L, M, hcut, hL, visible_of_not_mem hp,
    (List.cons.inj (List.append_cancel_left htext)).2⟩

/-- Where a terminator separates statements, the lexemes are cut as well. -/
theorem Separates.cut_eq {p rest : List Char}
    (hm : marked (p ++ ';' :: rest) = unmarked p ++ (';', true) :: marked rest)
    (hs : Separates (p ++ ';' :: rest)) :
    Lexeme.cut (visible (p ++ ';' :: rest)) =
        Lexeme.cut (visible p) ++ Lexeme.semicolon :: Lexeme.cut (visible rest) ∧
      Separates rest := by
  obtain ⟨L, M, hcut, hL, hp, hM⟩ := hs.exists_cut hm
  have hleft : Lexeme.cut p = L := by
    have := Lexeme.cut_truncated (u := []) hcut rfl
    rwa [hL, List.append_nil, show Lexeme.cut [] = [] from rfl, List.append_nil] at this
  have hright : Lexeme.cut (visible rest) = M := by
    rw [← hM]
    have hsplit : L ++ Lexeme.semicolon :: M = (L ++ [Lexeme.semicolon]) ++ M := by simp
    rw [hsplit] at hcut
    exact Lexeme.cut_of_append hcut
  refine ⟨by rw [hp, hleft, hright, hcut], fun i hi h => ?_⟩
  have hlength : (separators L).length = p.length := by rw [length_separators, hL]
  have hseparators : separators (L ++ Lexeme.semicolon :: M) =
      separators L ++ (';', true) :: separators M := by
    simp [separators, Lexeme.semicolon, Lexeme.isSemicolon]
  have := hs (p.length + (i + 1)) (by simp; omega)
  rw [hm, hcut, hseparators, List.getElem?_append_right (by simp [unmarked]),
    List.getElem?_append_right (by omega)] at this
  rw [hright]
  simpa [unmarked, hlength, h] using this

/-! ### Executing -/

/-- The statements of the trimmed pieces do what the statements of the whole script do. -/
theorem sameBatch_pieces {text : List Char} (hs : Separates text)
    (hk : ∀ p ∈ cut (marked text), KeepsTokens p) {J : List Lexeme} (hJ : Lexeme.AreIdle J) :
    SameBatch
      ((cut (marked text)).flatMap fun p => Lexeme.statements (Lexeme.cut (visible (trim p))))
      (Lexeme.statementsAfter J (Lexeme.cut (visible text))) := by
  -- Every piece begins a batch of its own, while the whole script goes on behind a separator
  -- with the idle lexemes `J` that no statement has taken up yet.
  induction text using piece_induction generalizing J with
  | last p hm =>
    rw [hm, cut_unmarked] at hk ⊢
    rw [List.flatMap_singleton]
    exact Lexeme.sameBatch_last (hk p (by simp)).sameButGaps hJ
  | step p rest hm ih =>
    obtain ⟨hcut, hrest⟩ := hs.cut_eq hm
    rw [hm, cut_piece] at hk ⊢
    rw [List.flatMap_cons, hcut]
    refine Lexeme.sameBatch_separator (hk p (by simp)).sameButGaps (fun J hJ => ?_) hJ
    exact ih hrest (fun q hq => hk q (List.mem_cons_of_mem _ hq)) hJ

end Script

open Sql Executor Text

/-- Executing two batches one after the other. -/
theorem outcome_append (c : Connection) (b b' : List (List Lexeme)) :
    outcome (c.executeAll [] (b ++ b')) =
      match outcome (c.executeAll [] b) with
      | (some _, c) => outcome (c.executeAll [] b')
      | (none, c) => (none, c) := by
  induction b generalizing c with
  | nil => rfl
  | cons l b ih =>
    rw [List.cons_append, SameBatch.outcome_cons, SameBatch.outcome_cons]
    rcases (c.prepare l).toOption with _ | _ | p
    · rfl
    · exact ih c
    · dsimp only
      rcases c.step p with ⟨_ | _, c'⟩
      · rfl
      · exact ih c'

/-- The statements that statements of a script are read as. -/
def batches (statements : List String) : List (List Lexeme) :=
  statements.flatMap fun s => Lexeme.statements (Lexeme.cut (Connection.visible s.toList))

theorem outcome_execute (c : Connection) (sql : String) :
    outcome (c.execute sql) = outcome (c.executeAll []
      (Lexeme.statements (Lexeme.cut (Connection.visible sql.toList)))) :=
  SameBatch.refl _ c _ _

/-- Executing statements one by one is executing what they are read as. -/
theorem outcome_executeAll (r : Record) (statements : List String) (c : Connection) :
    (((executeAll database r statements).run c).1.toOption,
      ((executeAll database r statements).run c).2) =
      outcome (c.executeAll [] (batches statements)) := by
  induction statements generalizing c with
  | nil => rfl
  | cons sql rest ih =>
    rw [batches, List.flatMap_cons, outcome_append, ← outcome_execute]
    rcases hx : c.execute sql with ⟨e | _, c'⟩
    · rw [executeAll_cons_of_error (answer_execute_of_error hx)]
      rfl
    · rw [executeAll_cons_of_ok (answer_execute_of_ok hx)]
      exact ih c'

/-- Without carriage returns, the statements are those that the trimmed pieces are read as. -/
theorem batches_statements {text : String} (hr : '\r' ∉ text.toList) :
    batches (Script.statements text) = (Script.cut (Script.marked text.toList)).flatMap
      fun p => Lexeme.statements (Lexeme.cut (Connection.visible (trim p))) := by
  rw [Script.statements_eq, Script.map_spaceForReturn hr, batches, List.flatMap_map]
  simp only [String.toList_ofList]
  induction Script.cut (Script.marked text.toList) with
  | nil => rfl
  | cons p pieces ih =>
    rw [List.map_cons, List.flatMap_cons, ← ih]
    cases hp : trim p with
    | nil => rfl
    | cons c q => rfl

theorem outcome_answer (sql : String) (c : Connection) :
    outcome (database.answer (.execute sql) c) = outcome (c.execute sql) := by
  rw [answer_execute, ofConnection]
  rcases c.execute sql with ⟨_ | _, _⟩ <;> rfl

theorem toOption_eq_none {ε α : Type} {x : Except ε α} : x.toOption = none ↔ ∃ e, x = .error e := by
  cases x <;> simp [Except.toOption]

/-- Executing the statements of a script one by one fails if and only if executing the whole
script at once does, and leaves the same database. Statements that are not understood fail, so
of scripts with such statements nothing is said. -/
theorem executeAll_statements (text : String) (hr : '\r' ∉ text.toList)
    (hs : Script.Separates text.toList)
    (hk : ∀ p ∈ Script.cut (Script.marked text.toList), Script.KeepsTokens p)
    (r : Record) (c : Connection) :
    let split := (executeAll database r (Script.statements text)).run c
    let whole := database.answer (.execute text) c
    ((∃ e, split.1 = .error e) ↔ ∃ e, whole.1 = .error e) ∧ split.2 = whole.2 := by
  intro split whole
  have hsplit := outcome_executeAll r (Script.statements text) c
  rw [batches_statements hr, Script.sameBatch_pieces hs hk Lexeme.areGaps_nil.areIdle c [] [],
    ← Lexeme.statements, ← outcome_execute, ← outcome_answer] at hsplit
  obtain ⟨hok, hleft⟩ := Prod.mk.inj hsplit
  exact ⟨by rw [← toOption_eq_none, ← toOption_eq_none, hok], hleft⟩

theorem executeAll_statements_of_two :
    let text := "CREATE TABLE a (x INTEGER); CREATE TABLE b (y TEXT); -- both\n" ++
      "INSERT INTO a VALUES (1);  \n\n;\n/* none */;\n  INSERT INTO b VALUES ('p;q')\n"
    let c : Connection := ⟨.empty, some ⟨.empty, false⟩, .full⟩
    let split := (executeAll database ⟨1, "", "1_ab.sql", none⟩ (Script.statements text)).run c
    let whole := database.answer (.execute text) c
    ((∃ e, split.1 = .error e) ↔ ∃ e, whole.1 = .error e) ∧ split.2 = whole.2 :=
  executeAll_statements _ (by decide +kernel) (by decide +kernel)
    (Script.keepsTokens_of_spaces (by decide +kernel) (by decide +kernel)) _ _

/-- A no-break space at the end of a name belongs to the name and is taken away with the blanks.
One in front of a statement is refused, unless it is taken away, and `/*` begins a comment only
if something follows. -/
theorem executeAll_statements_ne_execute :
    let c : Connection := ⟨.empty, some ⟨.empty, false⟩, .full⟩
    let split (text : String) : Bool :=
      ((executeAll database ⟨1, "", "1_t.sql", none⟩ (Script.statements text)).run c).1.isOk
    let whole (text : String) : Bool := (database.answer (.execute text) c).1.isOk
    let named := "CREATE TABLE t\u00a0(x INTEGER);\nDROP TABLE t\u00a0;\n"
    let fronted := "CREATE TABLE t (x INTEGER);\n\u00a0DROP TABLE t;\n"
    let opened := "CREATE TABLE t (x INTEGER);\n/* "
    ('\r' ∉ named.toList ∧ Script.Separates named.toList ∧ split named = false ∧
        whole named = true) ∧
      ('\r' ∉ fronted.toList ∧ Script.Separates fronted.toList ∧ split fronted = true ∧
        whole fronted = false) ∧
      '\r' ∉ opened.toList ∧ Script.Separates opened.toList ∧ split opened = false ∧
        whole opened = true := by
  decide +kernel

end SipMigrate.Migration
