import SipMigrate.Proofs.Sql.Reading

/-! What a statement does depends on its words, and not on the place where it stands
in a text: places are told in faults and nowhere else. -/

namespace SipMigrate.Sql

/-! ### Statements without places -/

def Token.placeless (t : Token) : Token := { t with offset := 0 }

def Fault.placeless (f : Fault) : Fault := { f with offset := none }

def Name.placeless (n : Name) : Name := { n with offset := 0 }

def Operand.placeless : Operand → Operand
  | .value v => .value v
  | .name n => .name n.placeless
  | .faulty f => .faulty f.placeless

def Condition.placeless : Condition → Condition
  | .equal a b => .equal a.placeless b.placeless
  | .isNull a negated => .isNull a.placeless negated

def Result.placeless : Result → Result
  | .all => .all
  | .operand o => .operand o.placeless
  | .countRows => .countRows
  | .aggregate f distinct o => .aggregate f distinct o.placeless
  | .faulty f arguments => .faulty f.placeless (arguments.map Operand.placeless)

def ResultColumn.placeless (r : ResultColumn) : ResultColumn :=
  { r with result := r.result.placeless }

/-- The change of a column, without places. -/
def placelessChange (change : Name × Operand) : Name × Operand :=
  (change.1.placeless, change.2.placeless)

/-- The statement without places. Of a description that was not read to its end nothing but
that is kept. -/
def Statement.placeless : Statement → Statement
  | .createTable ifMissing n _ (some _) _ =>
    .createTable ifMissing n.placeless [] (some Cause.incompleteInput.fault) ""
  | .createTable ifMissing n parts none text =>
    .createTable ifMissing n.placeless parts none text
  | .dropTable ifPresent n => .dropTable ifPresent n.placeless
  | .insert n columns rows =>
    .insert n.placeless (columns.map (·.map Name.placeless))
      (rows.map (·.map Operand.placeless))
  | .delete n filter => .delete n.placeless (filter.map Condition.placeless)
  | .update n changes filter =>
    .update n.placeless (changes.map placelessChange) (filter.map Condition.placeless)
  | .select results n filter =>
    .select (results.map ResultColumn.placeless) (n.map Name.placeless)
      (filter.map Condition.placeless)
  | .begin => .begin
  | .commit => .commit
  | .rollback => .rollback

/-! ### Results but for their faults -/

section

variable {ε α β : Type} {x y : Except ε α} {f g : α → Except ε β}

theorem toOption_bind (x : Except ε α) (f : α → Except ε β) :
    (x >>= f).toOption = x.toOption.bind fun a => (f a).toOption := by
  cases x <;> rfl

theorem toOption_bind_congr (hx : x.toOption = y.toOption)
    (hf : ∀ a, (f a).toOption = (g a).toOption) : (x >>= f).toOption = (y >>= g).toOption := by
  rw [toOption_bind, toOption_bind, hx]
  simp only [hf]

theorem toOption_ite_congr {p : Prop} [Decidable p] {x' y' : Except ε α}
    (h : x.toOption = y.toOption) (h' : x'.toOption = y'.toOption) :
    (if p then x else x').toOption = (if p then y else y').toOption := by
  split
  · exact h
  · exact h'

theorem toOption_mapM_congr {l : List α} (h : ∀ a ∈ l, (f a).toOption = (g a).toOption) :
    (l.mapM f).toOption = (l.mapM g).toOption := by
  induction l with
  | nil => rfl
  | cons a l ih =>
    rw [List.mapM_cons, List.mapM_cons]
    refine toOption_bind_congr (h a List.mem_cons_self) fun b => ?_
    exact toOption_bind_congr (ih fun a ha => h a (List.mem_cons_of_mem _ ha)) fun _ => rfl

end

/-! ### Looking up names -/

variable {d : Database} {t : Option Table}

theorem toOption_name_term (n : Name) :
    (n.placeless.term t).toOption = (n.term t).toOption := by
  have htruth : n.placeless.truth? = n.truth? := rfl
  unfold Name.term
  rw [htruth]
  simp only [Name.placeless]
  split
  · rfl
  · refine toOption_ite_congr rfl ?_
    cases n.truth? <;> rfl

theorem toOption_operand_term (o : Operand) :
    (o.placeless.term t).toOption = (o.term t).toOption := by
  cases o with
  | value v => rfl
  | name n => exact toOption_name_term n
  | faulty f => rfl

theorem toOption_constant (o : Operand) : o.placeless.constant.toOption = o.constant.toOption :=
  toOption_bind_congr (toOption_operand_term o) fun _ => rfl

theorem toOption_test (c : Condition) : (c.placeless.test t).toOption = (c.test t).toOption := by
  cases c with
  | equal a b =>
    refine toOption_bind_congr (toOption_operand_term a) fun _ => ?_
    exact toOption_bind_congr (toOption_operand_term b) fun _ => rfl
  | isNull a negated => exact toOption_bind_congr (toOption_operand_term a) fun _ => rfl

theorem toOption_testOf (c : Option Condition) :
    (testOf t (c.map Condition.placeless)).toOption = (testOf t c).toOption := by
  cases c with
  | none => rfl
  | some c => exact toOption_bind_congr (toOption_test c) fun _ => rfl

/-! ### Looking up statements -/

/-- A description that was not read to its end is never carried out. -/
theorem toOption_planCreate_of_stop (b : Bool) (n : Name) (parts : List Definition) (f : Fault)
    (text : String) : (planCreate d b n parts (some f) text).toOption = none := by
  simp only [planCreate]
  split
  · rfl
  · split
    · cases b <;> rfl
    · split <;> rfl

theorem toOption_planCreate (b : Bool) (n : Name) (parts : List Definition) (text : String) :
    (planCreate d b n.placeless parts none text).toOption =
      (planCreate d b n parts none text).toOption := by
  refine toOption_ite_congr rfl (toOption_ite_congr ?_ rfl)
  cases b <;> rfl

theorem toOption_planInsert (n : Name) (columns : Option (List Name))
    (rows : List (List Operand)) :
    (planInsert d n.placeless (columns.map (·.map Name.placeless))
        (rows.map (·.map Operand.placeless))).toOption =
      (planInsert d n columns rows).toOption := by
  have hrow (r : List Operand) :
      ((r.map Operand.placeless).mapM Operand.constant).toOption =
        (r.mapM Operand.constant).toOption := by
    rw [List.mapM_map]
    exact toOption_mapM_congr fun o _ => toOption_constant o
  have hpositions (t : Table) : (columns.map (·.map Name.placeless)).mapM
      (insertPositions n.placeless t) = columns.mapM (insertPositions n t) := by
    cases columns with
    | none => rfl
    | some l =>
      show _ <$> insertPositions n.placeless t (l.map Name.placeless) = _
      unfold insertPositions
      rw [List.mapM_map]
      rfl
  have hcount : ((rows.map (·.map Operand.placeless)).headD []).length =
      (rows.headD []).length := by
    cases rows <;> simp
  have huneven : ((rows.map (·.map Operand.placeless)).any fun r =>
      r.length ≠ (rows.headD []).length) =
      rows.any fun r => r.length ≠ (rows.headD []).length := by
    simp [List.any_map, Function.comp_def]
  unfold planInsert
  rw [hcount, huneven]
  refine toOption_bind_congr rfl fun t => ?_
  rw [hpositions]
  refine toOption_bind_congr rfl fun positions => ?_
  refine toOption_ite_congr rfl ?_
  refine toOption_bind_congr ?_ fun _ => rfl
  rw [List.mapM_map]
  exact toOption_mapM_congr fun r _ => hrow r

theorem toOption_planUpdate (n : Name) (changes : List (Name × Operand))
    (filter : Option Condition) :
    (planUpdate d n.placeless (changes.map placelessChange)
        (filter.map Condition.placeless)).toOption = (planUpdate d n changes filter).toOption := by
  unfold planUpdate
  rw [List.length_map]
  refine toOption_ite_congr rfl ?_
  refine toOption_bind_congr rfl fun t => ?_
  refine toOption_bind_congr ?_ fun _ => ?_
  · rw [List.mapM_map]
    refine toOption_mapM_congr fun change _ => ?_
    exact toOption_bind_congr (toOption_operand_term change.2) fun _ => rfl
  · exact toOption_bind_congr (toOption_testOf filter) fun _ => rfl

theorem result_eq_all {r : Result} : r.placeless = .all ↔ r = .all := by
  cases r <;> simp [Result.placeless]

theorem toOption_outputs (r : ResultColumn) :
    (outputs t r.placeless).toOption = (outputs t r).toOption := by
  obtain ⟨r, text, otherName⟩ := r
  cases r with
  | all => rfl
  | operand o => exact toOption_bind_congr (toOption_operand_term o) fun _ => rfl
  | countRows => rfl
  | aggregate f distinct o => exact toOption_bind_congr (toOption_operand_term o) fun _ => rfl
  | faulty f arguments =>
    have hfails (x : Except Fault (List Term)) (f : Fault) :
        (do discard x; throw f : Except Fault (List (Output × String))).toOption = none := by
      cases x <;> rfl
    exact (hfails _ _).trans (hfails _ _).symm

theorem toOption_planSelect (results : List ResultColumn) (n : Option Name)
    (filter : Option Condition) :
    (planSelect d (results.map ResultColumn.placeless) (n.map Name.placeless)
        (filter.map Condition.placeless)).toOption = (planSelect d results n filter).toOption := by
  have htable : (n.map Name.placeless).mapM (·.table d) = n.mapM (·.table d) := by
    cases n <;> rfl
  have hall (r : ResultColumn) : decide (r.placeless.result = .all) = decide (r.result = .all) :=
    decide_eq_decide.mpr result_eq_all
  have hcount (t : Option Table) :
      outputCount t (results.map ResultColumn.placeless) = outputCount t results := by
    simp only [outputCount, List.foldl_map, ResultColumn.placeless, result_eq_all]
  unfold planSelect
  rw [htable]
  refine toOption_bind_congr rfl fun t => ?_
  rw [hcount, List.any_map, Function.comp_def]
  simp only [hall]
  refine toOption_ite_congr rfl ?_
  refine toOption_ite_congr rfl ?_
  refine toOption_bind_congr ?_ fun _ => ?_
  · rw [List.mapM_map]
    exact toOption_mapM_congr fun r _ => toOption_outputs r
  · exact toOption_bind_congr (toOption_testOf filter) fun _ => rfl

/-- What a statement would do, if anything, does not depend on its place. -/
theorem toOption_plan (s : Statement) : (s.placeless.plan d).toOption = (s.plan d).toOption := by
  cases s with
  | createTable ifMissing n parts stop text =>
    cases stop with
    | none =>
      simp only [Statement.placeless, Statement.plan]
      exact toOption_planCreate ifMissing n parts text
    | some f =>
      simp only [Statement.placeless, Statement.plan, toOption_planCreate_of_stop]
  | dropTable ifPresent n =>
    simp only [Statement.placeless, Statement.plan, planDrop, Name.placeless, Name.missing]
  | insert n columns rows => exact toOption_planInsert n columns rows
  | delete n filter =>
    refine toOption_bind_congr rfl fun t => ?_
    exact toOption_bind_congr (toOption_testOf filter) fun _ => rfl
  | update n changes filter => exact toOption_planUpdate n changes filter
  | select results n filter => exact toOption_planSelect results n filter
  | begin | commit | rollback => rfl

end SipMigrate.Sql
