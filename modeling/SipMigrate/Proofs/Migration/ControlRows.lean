import SipMigrate.Proofs.Migration.Statements
import SipMigrate.Proofs.Sql.Within

/-! What the statements on a control table do to a connection. The table that is
created has always the same columns, so their effects are told by its rows alone. -/

namespace SipMigrate.Migration

open Sql

/-- A table name under which a control table can be created. -/
structure TableName.IsCreatable (t : TableName) : Prop where
  isWord : t.IsWord
  isReservedTable : isReservedTable t.text = false
  isReadable : sameName t.text "if" = false

namespace ControlTable

def columns : List Column :=
  [⟨"version", "SMALLINT", true, true, false⟩, ⟨"description", "VARCHAR(200)", true, false, false⟩,
    ⟨"file", "VARCHAR(200)", true, false, false⟩, ⟨"created", "BIGINT", false, false, false⟩]

/-- The control table with some rows. -/
def table (t : TableName) (rows : List Row) : Table := ⟨t.text, columns, rows, description t⟩

variable {t : TableName} {c : Connection} {rows : List Row}

@[simp] theorem sameName_table : sameName (table t rows).name t.text = true := by
  simp [table, sameName]

/-! ### Creating the table -/

theorem foldlM_define (name : String) : definitions.foldlM (define name) [] = .ok columns := by
  simp +decide [definitions, define, columns, changeLast, columnLimit]

theorem isReadable_table : (table t rows).isReadable = !sameName t.text "if" := by
  have hw : ∀ d ∈ t.text.toList, Lexeme.isNameChar d = true := by
    have h := t.isPlainWord_text
    cases hl : t.text.toList with
    | nil => simp
    | cons d l =>
      simp only [hl, isPlainWord, Bool.and_eq_true, List.all_eq_true] at h
      intro e he
      rcases List.mem_cons.mp he with rfl | he
      · exact Lexeme.isNameChar_of_isPlainWordChar (isPlainWordChar_iff.mpr (.inl h.1))
      · exact Lexeme.isNameChar_of_isPlainWordChar (h.2 e he)
  have hd : (description t).toList.takeWhile Lexeme.isNameChar = t.text.toList := by
    unfold description
    rw [String.toList_append, String.toList_append, List.append_assoc]
    refine Lexeme.takeWhile_append_eq hw ?_
    simp only [String.reduceToList, List.cons_append, List.head?_cons, Option.mem_some_iff]
    rintro c rfl
    decide
  simp [Table.isReadable, table, hd]

theorem plan_create {o : Nat} (h : isReservedTable t.text = false) (d : Database) :
    (Statement.createTable true (.ofWord t.text o) definitions none (description t)).plan d =
      .ok (if (d.table? t.text).isSome then .nothing else .create (table t [])) := by
  simp only [Statement.plan, planCreate, Name.ofWord, h]
  simp only [foldlM_define, table]
  cases (d.table? t.text).isSome <;> rfl

/-- Where the table is there, creating it does nothing. -/
theorem execute_create_of_isSome (hc : t.IsCreatable) (h : (c.view.table? t.text).isSome = true) :
    c.execute (create t.text) = (.ok (), c) := by
  obtain ⟨o, ho⟩ := create_reads t hc.isWord
  rw [Connection.execute_of_reads ho, Connection.carryOut, plan_create hc.isReservedTable, if_pos h]
  show ((Except.ok ()), c.store c.view) = _
  rw [Connection.store_view]

theorem execute_create_of_none (hc : t.IsCreatable) (h : c.view.table? t.text = none) :
    c.execute (create t.text) =
      match c.refusal? with
      | some cause => (.error (.failure cause), c)
      | none => (.ok (), c.store (c.view.add (table t []))) := by
  obtain ⟨o, ho⟩ := create_reads t hc.isWord
  have hr : (Plan.create (table t [])).run c.view = .ok (c.view.add (table t []), none) := by
    simp [Plan.run, isReadable_table, hc.isReadable]
  rw [Connection.execute_of_reads ho, Connection.carryOut, plan_create hc.isReservedTable, h]
  dsimp only [Option.isSome_none]
  rw [if_neg Bool.false_ne_true, Connection.step_of_writes rfl hr]
  cases c.refusal? <;> rfl

/-- A word that is reserved, in the language or for internal use, is no name of a new table. -/
theorem execute_create_of_reserved (h : t.IsWord → isReservedTable t.text = true) :
    ∃ e, ∀ c : Connection, c.execute (create t.text) = (.error e, c) := by
  by_cases hword : t.IsWord
  · obtain ⟨o, ho⟩ := create_reads t hword
    refine ⟨(Cause.reservedName t.text).fault.error (create t.text), fun c => ?_⟩
    rw [Connection.execute_of_reads ho, Connection.carryOut]
    simp [Statement.plan, planCreate, Name.ofWord, h hword, Except.map]
  · obtain ⟨f, hf⟩ := create_reads_error t hword
    exact ⟨_, Connection.execute_of_reads_error hf⟩

/-- A table whose name cannot be used is not created. -/
theorem execute_create_of_not (hn : ¬t.IsCreatable) (hw : c.working = none)
    (h : c.view.table? t.text = none) : ∃ e, c.execute (create t.text) = (.error e, c) := by
  by_cases hreserved : t.IsWord → isReservedTable t.text = true
  · obtain ⟨e, he⟩ := execute_create_of_reserved hreserved
    exact ⟨e, he c⟩
  · rw [Classical.not_imp, Bool.not_eq_true] at hreserved
    obtain ⟨hword, hr⟩ := hreserved
    have hif : sameName t.text "if" = true := by
      rw [← Bool.not_eq_false]
      exact fun hif => hn ⟨hword, hr, hif⟩
    have hf : (Plan.create (table t [])).run c.view = .error (.malformedSchema t.text) := by
      rw [Plan.run, isReadable_table, hif]
      rfl
    have hm : c.afterFailure (.malformedSchema t.text) = c := by
      obtain ⟨d, w, a⟩ := c
      obtain rfl : w = none := hw
      rfl
    obtain ⟨o, ho⟩ := create_reads t hword
    rw [Connection.execute_of_reads ho, Connection.carryOut, plan_create hr, h]
    dsimp only [Option.isSome_none]
    rw [if_neg Bool.false_ne_true, Connection.step_of_writes_error rfl hf hm]
    exact ⟨_, rfl⟩

/-! ### Looking up the table -/

theorem schema?_eq_none (h : isReservedTable t.text = false) (d : Database) :
    d.schema? t.text = none := by
  have hne (name : String) (hs : "sqlite_".toList.isPrefixOf name.toList = true) :
      lowerAscii t.text ≠ name := by
    rintro rfl
    exact absurd (h.symm.trans hs) Bool.false_ne_true
  have h₁ := hne "sqlite_master" (by decide)
  have h₂ := hne "sqlite_schema" (by decide)
  have h₃ := hne "sqlite_temp_master" (by decide)
  have h₄ := hne "sqlite_temp_schema" (by decide)
  simp [Database.schema?, Schema.names, Schema.passingNames, h₁, h₂, h₃, h₄]

theorem table_ofWord (h : isReservedTable t.text = false) {d : Database} {u : Table}
    (hd : d.Has t.text u) (o : Nat) : (Name.ofWord t.text o).table d = .ok u := by
  simp [Name.table, Name.ofWord, Database.readable?, schema?_eq_none h, hd.table?]

theorem changeable_ofWord (h : isReservedTable t.text = false) {d : Database} {u : Table}
    (hd : d.Has t.text u) (o : Nat) : (Name.ofWord t.text o).changeable d = .ok u := by
  have := table_ofWord h hd o
  simp only [Name.changeable, Name.ofWord, schema?_eq_none h] at this ⊢
  exact this

theorem column?_version : (table t rows).column? "version" = some 0 := by
  show columns.findIdx? _ = _
  decide

theorem column?_description : (table t rows).column? "description" = some 1 := by
  show columns.findIdx? _ = _
  decide

theorem column?_file : (table t rows).column? "file" = some 2 := by
  show columns.findIdx? _ = _
  decide

theorem column?_created : (table t rows).column? "created" = some 3 := by
  show columns.findIdx? _ = _
  decide

theorem affinity_number : Affinity.ofType "SMALLINT" = .integer := by decide

theorem affinity_text : Affinity.ofType "VARCHAR(200)" = .text := by decide

theorem affinity_time : Affinity.ofType "BIGINT" = .integer := by decide

theorem term_version (o : Nat) :
    (Name.ofWord "version" o).term (some (table t rows)) = .ok (.column 0 .integer) := by
  simp only [Name.term, Name.ofWord, Option.bind_some, column?_version]
  exact congrArg (fun a => Except.ok (Term.column 0 a)) affinity_number

theorem term_created (o : Nat) :
    (Name.ofWord "created" o).term (some (table t rows)) = .ok (.column 3 .integer) := by
  simp only [Name.term, Name.ofWord, Option.bind_some, column?_created]
  exact congrArg (fun a => Except.ok (Term.column 3 a)) affinity_time

theorem rowNumber?_table : (table t rows).rowNumber? = none := by
  show columns.findIdx? _ = _
  decide

@[simp] theorem arrange_table (l : List Row) : (table t rows).arrange l = l := by
  rw [Table.arrange, rowNumber?_table]

theorem indexed_table : (table t rows).indexed = [0] := by
  show (List.range columns.length).filter (fun k => (columns[k]?).any Column.isIndexed) = [0]
  decide

/-! ### Queries -/

/-- The versions of the complete rows, or of the other ones. -/
def versions (complete : Bool) (rows : List Row) : List Value :=
  (rows.filter fun r => (r.get 3).isNull != complete).map (·.get 0)

/-- The index of the versions does not tell whether a row is complete. -/
theorem scan_table {used : List Nat} (h : 3 ∈ used) : (table t rows).scan used = rows := by
  have hf : (used.all fun u => decide (u = 0)) = false := by
    rw [List.all_eq_false]
    exact ⟨3, h, by decide⟩
  have hc : (table t rows).coveringIndex? used = none := by
    simp [Table.coveringIndex?, indexed_table, rowNumber?_table, hf]
  rw [Table.scan, hc]
  rfl

theorem plan_query {o : Nat → Nat} {complete : Bool} {rc : ResultColumn} {out : Output × String}
    (h : isReservedTable t.text = false) {d : Database} (hd : d.Has t.text (table t rows))
    (hr : rc.result ≠ .all) (ho : outputs (some (table t rows)) rc = .ok [out]) :
    (query t o complete rc).plan d = .ok (.select (some (table t rows)) [out]
      (some (.isNull (.column 3 .integer) complete))) := by
  simp [query, Statement.plan, planSelect, table_ofWord h hd, outputCount, hr, ho, columnLimit,
    testOf, Condition.test, Operand.term, term_created]

/-- A query for one result over the complete rows, or over the other ones, changes nothing. -/
theorem carryOut_query {sql : String} {o : Nat → Nat} {complete : Bool} {rc : ResultColumn}
    (out : Output × String) {v : Value} (h : isReservedTable t.text = false)
    (hd : c.view.Has t.text (table t rows)) (hr : rc.result ≠ .all)
    (ho : outputs (some (table t rows)) rc = .ok [out]) (ha : out.1.isAggregate = true)
    (hv : ∀ standing, out.1.evalAll
      (rows.filter fun r => (r.get 3).isNull != complete) standing = .ok v) :
    c.carryOut sql (query t o complete rc) = (.ok (some (v, out.2)), c) := by
  have hs : Sql.select (some (table t rows)) [out] (some (.isNull (.column 3 .integer) complete)) =
      .ok (some (v, out.2)) := by
    have hused : 3 ∈ out.1.columns ++ Test.columns (.isNull (.column 3 .integer) complete) := by
      simp [Test.columns, Term.column?]
    have hf : passes (some (.isNull (.column 3 .integer) complete)) =
        fun r => (r.get 3).isNull != complete := rfl
    simp [Sql.select, selectRows, scan_table hused, ha, hf, hv]
    rfl
  have hp : (Plan.select (some (table t rows)) [out]
      (some (.isNull (.column 3 .integer) complete))).run c.view =
        .ok (c.view, some (v, out.2)) := by
    simp [Plan.run, hs]
  rw [Connection.carryOut, plan_query h hd hr ho]
  show ((c.perform _).1.mapError SqlError.failure, (c.perform _).2) = _
  rw [Connection.perform, hp]
  show (_, c.store c.view) = _
  rw [Connection.store_view]
  rfl

theorem query_selectCurrent (h : t.IsCreatable) (hd : c.view.Has t.text (table t rows)) :
    c.query (selectCurrent t.text) =
      (Connection.integerAnswer (some (extreme .gt (versions true rows), "MAX(version)")), c) := by
  obtain ⟨o, ho⟩ := (selectCurrent_reads t).reads h.isWord
  rw [Connection.query_of_reads ho, carryOut_query
    (.aggregate .max false (.column 0 .integer), "MAX(version)") h.isReservedTable hd
    (by nofun) (by simp [outputs, Operand.term, term_version]) rfl fun _ => rfl]
  rfl

theorem query_selectLock (h : t.IsCreatable) (hd : c.view.Has t.text (table t rows)) :
    c.query (selectLock t.text) =
      (Connection.integerAnswer (some (extreme .lt (versions false rows), "MIN(version)")), c) := by
  obtain ⟨o, ho⟩ := (selectLock_reads t).reads h.isWord
  rw [Connection.query_of_reads ho, carryOut_query
    (.aggregate .min false (.column 0 .integer), "MIN(version)") h.isReservedTable hd
    (by nofun) (by simp [outputs, Operand.term, term_version]) rfl fun _ => rfl]
  rfl

theorem query_selectCount (h : t.IsCreatable) (hd : c.view.Has t.text (table t rows)) :
    c.query (selectCount t.text) = (.ok (some (versions true rows).length), c) := by
  obtain ⟨o, ho⟩ := (selectCount_reads t).reads h.isWord
  rw [Connection.query_of_reads ho, carryOut_query (.countRows, "COUNT(*)")
    h.isReservedTable hd (by nofun) rfl rfl fun _ => rfl]
  simp [versions, Except.bind, Connection.integerAnswer]

/-! Where there is no table of the name, a query fails. A table of tables may have
the name, but none of them has the columns. -/

theorem columns_of_schema? {d : Database} {n : String} {u : Table} (h : d.schema? n = some u) :
    u.columns = Schema.columns := by
  unfold Database.schema? at h
  grind [Schema.table, Schema.passing]

theorem plan_query_error (o : Nat → Nat) (complete : Bool) (rc : ResultColumn) {d : Database}
    (h : d.table? t.text = none) : ∃ f, (query t o complete rc).plan d = .error f := by
  have hc {u : Table} (hu : u.columns = Schema.columns) :
      ∃ f, (Name.ofWord "created" (o 8)).term (some u) = .error f := by
    have hn : u.column? "created" = none := by
      rw [Table.column?, hu]
      decide
    have hq : (Name.ofWord "created" (o 8)).isDoubleQuoted = false := by
      simp [Name.isDoubleQuoted, Name.ofWord]
    have ht : (Name.ofWord "created" (o 8)).truth? = none := by
      simp +decide [Name.truth?, Name.ofWord]
    refine ⟨⟨.noSuchColumn "created", some (o 8)⟩, ?_⟩
    simp [Name.term, hq, ht]
    simp [Name.ofWord, hn]
  cases hs : d.schema? t.text with
  | none =>
    have : (Name.ofWord t.text (o 6)).table d = .error (Name.ofWord t.text (o 6)).missing := by
      simp [Name.table, Name.ofWord, Database.readable?, hs, h]
    exact ⟨(Name.ofWord t.text (o 6)).missing, by simp [query, Statement.plan, planSelect, this]⟩
  | some u =>
    have : (Name.ofWord t.text (o 6)).table d = .ok u := by
      simp [Name.table, Name.ofWord, Database.readable?, hs]
    obtain ⟨f, hf⟩ := hc (columns_of_schema? hs)
    simp [query, Statement.plan, planSelect, this, testOf, Condition.test, Operand.term, hf]
    split
    · exact ⟨_, rfl⟩
    · cases outputs (some u) rc <;> exact ⟨_, rfl⟩

theorem ReadsQuery.query_error {sql : String} {complete : Bool}
    {rc : (Nat → Nat) → ResultColumn} (hr : ReadsQuery t sql complete rc)
    (h : c.view.table? t.text = none) : ∃ e, c.query sql = (.error e, c) := by
  by_cases hw : t.IsWord
  · obtain ⟨o, ho⟩ := hr.reads hw
    obtain ⟨f, hf⟩ := plan_query_error o complete (rc o) h
    exact ⟨f.error sql, by rw [Connection.query_of_reads ho, Connection.carryOut, hf]; rfl⟩
  · obtain ⟨f, hf⟩ := hr.fails hw
    exact ⟨_, Connection.query_of_reads_error hf c⟩

/-! ### Changes of one row -/

/-- The version of a record as a value. -/
def versionValue (r : Record) : Value := .integer r.version.toNat

/-- A record as a row of the table. -/
def row (r : Record) : Row :=
  [versionValue r, .text r.description, .text r.file, Affinity.integer.store (createdValue r)]

/-- Whether a row has the version of a record. -/
def hasVersion (r : Record) (s : Row) : Bool := (s.get 0).equals (versionValue r)

variable {r : Record}

theorem ofNumeral_version : Value.ofNumeral (.ofNat r.version.toNat) = versionValue r := by
  have := r.version.toNat_lt
  refine Value.ofNumeral_ofNat ?_
  simp [Text.isInt64]
  omega

theorem convert_table {v c : Value} {d f : String} (hv : Affinity.integer.store v = v) :
    (table t rows).convert [v, .text d, .text f, c] =
      [v, .text d, .text f, Affinity.integer.store c] := by
  show columns.zipWith (fun c v => c.affinity.store v) _ = _
  simp only [columns, Column.affinity, affinity_number, affinity_text, affinity_time,
    List.zipWith_cons_cons, List.zipWith_nil_left, hv]
  rfl

/-- A row of the table is stored beside others unless one of them has its version. -/
theorem fit_table (t : TableName) (rows : List Row) (r : Record) (others : List Row)
    (next : Except Cause Int) (v : Value) :
    (table t rows).fit next others [versionValue r, .text r.description, .text r.file, v] =
      if others.any (hasVersion r) then .error (.unique t.text "version" true)
      else .ok [versionValue r, .text r.description, .text r.file, Affinity.integer.store v] := by
  have hn (u : Row) : (table t rows).number next u = .ok u := by
    simp [Table.number, rowNumber?_table]
  have hm (v : Value) : (table t rows).missing?
      [versionValue r, .text r.description, .text r.file, v] = none := by
    simp [Table.missing?, table, columns, versionValue, Value.isNull]
  have hk : (table t rows).keys = [0] := by
    rw [Table.keys, rowNumber?_table, indexed_table]
    rfl
  have hr (v : Value) : (table t rows).repeated? others
      [versionValue r, .text r.description, .text r.file, v] =
        if others.any (hasVersion r) then some ⟨"version", "SMALLINT", true, true, false⟩
        else none := by
    simp only [Table.repeated?, hk, List.find?_cons, List.find?_nil]
    show (match others.any (hasVersion r) with | true => some 0 | false => none).bind _ = _
    cases others.any (hasVersion r) <;> rfl
  simp only [Table.fit, hn, convert_table (v := versionValue r) rfl, hm, hr, Sql.ok_bind]
  cases others.any (hasVersion r) <;> rfl

theorem plan_insert {o : Nat → Nat} (h : isReservedTable t.text = false) {d : Database}
    (hd : d.Has t.text (table t rows)) (u v w x : Value) :
    (Statement.insert (.ofWord t.text (o 2)) (some (insertColumns o))
      [[.value u, .value v, .value w, .value x]]).plan d =
        .ok (.insert (table t rows) [[u, v, w, x]]) := by
  have hp : insertPositions (.ofWord t.text (o 2)) (table t rows) (insertColumns o) =
      .ok [0, 1, 2, 3] := by
    simp [insertPositions, insertColumns, Name.ofWord, column?_version, column?_description,
      column?_file, column?_created]
  have hw : widen columns.length [0, 1, 2, 3] [u, v, w, x] = [u, v, w, x] := rfl
  simp [Statement.plan, planInsert, changeable_ofWord h hd, hp, Operand.constant, Operand.term]
  exact hw

/-- A record is inserted unless a row has its version already. -/
theorem execute_insert (h : t.IsCreatable) (hd : c.view.Has t.text (table t rows))
    (hr : '\x00' ∉ r.description.toList) (hf : '\x00' ∉ r.file.toList) :
    c.execute (insert t.text r) =
      if rows.any (hasVersion r) then
        (.error (.failure (c.obstacle?.getD (.unique t.text "version" true))), c)
      else
        match c.refusal? with
        | some cause => (.error (.failure cause), c)
        | none => (.ok (), c.store (c.view.replace (table t (rows ++ [row r])))) := by
  obtain ⟨o, ho⟩ := insert_reads t r h.isWord hr hf
  have hi : (table t rows).insertRow [versionValue r, .text r.description, .text r.file,
      createdValue r] = if rows.any (hasVersion r) then .error (.unique t.text "version" true)
        else .ok (table t (rows ++ [row r])) := by
    simp only [Table.insertRow, fit_table]
    cases hu : rows.any (hasVersion r) with
    | true => simp [hu, show (table t rows).rows = rows from rfl]
    | false =>
      simp only [show (table t rows).rows = rows from rfl, hu, arrange_table]
      rfl
  rw [Connection.execute_of_reads ho, Connection.carryOut, plan_insert h.isReservedTable hd,
    ofNumeral_version]
  dsimp only
  cases hu : rows.any (hasVersion r) with
  | true =>
    have hrun : (Plan.insert (table t rows) [[versionValue r, .text r.description, .text r.file,
        createdValue r]]).run c.view = .error (.unique t.text "version" true) := by
      simp [Plan.run, Table.insertRows, hi, hu]
    rw [Connection.step_of_writes_error rfl hrun rfl]
    rfl
  | false =>
    have hrun : (Plan.insert (table t rows) [[versionValue r, .text r.description, .text r.file,
        createdValue r]]).run c.view = .ok (c.view.replace (table t (rows ++ [row r])), none) := by
      simp [Plan.run, Table.insertRows, hi, hu]
    rw [Connection.step_of_writes rfl hrun]
    cases c.refusal? <;> rfl

/-- Whether a condition on the version of a record finds a row. A text that spells a
number counts as the number. -/
def matchesVersion (r : Record) (s : Row) : Bool := (s.get 0).toNumber.equals (versionValue r)

theorem passes_version :
    passes (some (.equal (.column 0 .integer) (.value (versionValue r)))) = matchesVersion r := rfl

theorem matchesVersion_row : matchesVersion r (row r) = true := by
  simp [matchesVersion, row, versionValue, Row.get, Value.toNumber, Value.equals, Value.isNull,
    Value.order]

/-- Rows that a change does not find stay as they are. -/
theorem changeAfter_append {u : Table} {hit : Row → Bool} {f : Row → Row} {l rest : List Row}
    (h : ∀ s ∈ l, hit s = false) (before : List Row) :
    u.changeAfter hit f before (l ++ rest) = u.changeAfter hit f (before ++ l) rest := by
  induction l generalizing before with
  | nil => simp
  | cons s l ih =>
    rw [List.cons_append, Table.changeAfter, h s (by simp), if_neg Bool.false_ne_true,
      ih (fun s hs => h s (by simp [hs])), List.append_assoc]
    rfl

theorem plan_update {o : Nat → Nat} (h : isReservedTable t.text = false) {d : Database}
    (hd : d.Has t.text (table t rows)) (v w : Value) :
    (Statement.update (.ofWord t.text (o 1)) [(.ofWord "created" (o 3), .value v)]
      (some (.equal (.name (.ofWord "version" (o 7))) (.value w)))).plan d =
        .ok (.update (table t rows) [(3, .value v)]
          (some (.equal (.column 0 .integer) (.value w)))) := by
  have hc : planChange (table t rows) (.ofWord "created" (o 3), .value v) = .ok (3, .value v) := by
    simp only [planChange, Operand.term, Sql.ok_bind, Name.ofWord, column?_created]
    rfl
  simp [Statement.plan, planUpdate, columnLimit, changeable_ofWord h hd, hc, testOf, Condition.test,
    Operand.term, term_version]

theorem execute_update_of_updateRows {v : Table} (h : t.IsCreatable)
    (hd : c.view.Has t.text (table t rows))
    (hu : (table t rows).updateRows (matchesVersion r) (change [(3, .value (createdValue r))]) =
      .ok v) :
    c.execute (update t.text r) =
      match c.refusal? with
      | some cause => (.error (.failure cause), c)
      | none => (.ok (), c.store (c.view.replace v)) := by
  obtain ⟨o, ho⟩ := update_reads t r h.isWord
  have hrun : (Plan.update (table t rows) [(3, .value (createdValue r))]
      (some (.equal (.column 0 .integer) (.value (versionValue r))))).run c.view =
        .ok (c.view.replace v, none) := by
    simp only [Plan.run, passes_version, hu, Sql.ok_bind]
    rfl
  rw [Connection.execute_of_reads ho, Connection.carryOut, plan_update h.isReservedTable hd,
    ofNumeral_version]
  dsimp only
  rw [Connection.step_of_writes rfl hrun]
  cases c.refusal? <;> rfl

/-- The row of a record at the end of the table gets the completion time, if no other row
has its version. -/
theorem execute_update (time : UInt64) (h : t.IsCreatable)
    (hd : c.view.Has t.text (table t (rows ++ [row r])))
    (hr : ∀ s ∈ rows, matchesVersion r s = false) (hv : rows.any (hasVersion r) = false) :
    c.execute (update t.text (r.complete time)) =
      match c.refusal? with
      | some cause => (.error (.failure cause), c)
      | none => (.ok (), c.store (c.view.replace (table t (rows ++ [row (r.complete time)])))) := by
  refine execute_update_of_updateRows h hd ?_
  have hf := fit_table t (rows ++ [row r]) r rows (.error .mismatch) (createdValue (r.complete time))
  rw [hv, if_neg Bool.false_ne_true] at hf
  have hl : (table t (rows ++ [row r])).rows = rows ++ [row r] := rfl
  rw [Table.updateRows, show matchesVersion (r.complete time) = matchesVersion r from rfl, hl,
    changeAfter_append hr, List.nil_append, Table.changeAfter, matchesVersion_row, if_pos rfl,
    List.append_nil,
    show change [(3, .value (createdValue (r.complete time)))] (row r) = [versionValue r,
      .text r.description, .text r.file, createdValue (r.complete time)] from rfl, hf]
  simp only [Sql.ok_bind, Table.changeAfter, arrange_table]
  rfl

/-- Where no row has the version of a record, an update changes nothing. -/
theorem execute_update_of_none (h : t.IsCreatable) (hd : c.view.Has t.text (table t rows))
    (hr : ∀ s ∈ rows, matchesVersion r s = false) :
    c.execute (update t.text r) =
      match c.refusal? with
      | some cause => (.error (.failure cause), c)
      | none => (.ok (), c.store (c.view.replace (table t rows))) := by
  refine execute_update_of_updateRows h hd ?_
  have hl : (table t rows).changeAfter (matchesVersion r)
      (change [(3, .value (createdValue r))]) [] (rows ++ []) =
        (table t rows).changeAfter (matchesVersion r)
          (change [(3, .value (createdValue r))]) ([] ++ rows) [] := changeAfter_append hr []
  rw [List.append_nil] at hl
  rw [Table.updateRows, show (table t rows).rows = rows from rfl, hl]
  simp only [Table.changeAfter, Sql.ok_bind, arrange_table]
  rfl

theorem plan_delete {o : Nat → Nat} (h : isReservedTable t.text = false) {d : Database}
    (hd : d.Has t.text (table t rows)) (w : Value) :
    (Statement.delete (.ofWord t.text (o 2))
      (some (.equal (.name (.ofWord "version" (o 4))) (.value w)))).plan d =
        .ok (.delete (table t rows) (some (.equal (.column 0 .integer) (.value w)))) := by
  simp [Statement.plan, planDelete, changeable_ofWord h hd, testOf, Condition.test, Operand.term,
    term_version]

/-- The rows that have the version of a record are taken away. -/
theorem execute_delete (h : t.IsCreatable) (hd : c.view.Has t.text (table t rows)) :
    c.execute (delete t.text r) =
      match c.refusal? with
      | some cause => (.error (.failure cause), c)
      | none => (.ok (), c.store (c.view.replace
          (table t (rows.filter fun s => !matchesVersion r s)))) := by
  obtain ⟨o, ho⟩ := delete_reads t r h.isWord
  have hrun : (Plan.delete (table t rows)
      (some (.equal (.column 0 .integer) (.value (versionValue r))))).run c.view =
        .ok (c.view.replace (table t (rows.filter fun s => !matchesVersion r s)), none) := rfl
  rw [Connection.execute_of_reads ho, Connection.carryOut, plan_delete h.isReservedTable hd,
    ofNumeral_version]
  dsimp only
  rw [Connection.step_of_writes rfl hrun]
  cases c.refusal? <;> rfl

/-! ### Within a transaction -/

variable (t : TableName)

theorem create_readsPlain : Connection.ReadsPlain (create t.text) := by
  by_cases h : t.IsWord
  · obtain ⟨o, ho⟩ := create_reads t h
    exact .of_ok ho rfl
  · obtain ⟨f, hf⟩ := create_reads_error t h
    exact .of_error hf

theorem ReadsQuery.readsPlain {sql : String} {complete : Bool}
    {rc : (Nat → Nat) → ResultColumn} (hr : ReadsQuery t sql complete rc) :
    Connection.ReadsPlain sql := by
  by_cases h : t.IsWord
  · obtain ⟨o, ho⟩ := hr.reads h
    exact .of_ok ho rfl
  · obtain ⟨f, hf⟩ := hr.fails h
    exact .of_error hf

theorem delete_readsPlain (h : t.IsWord) : Connection.ReadsPlain (delete t.text r) := by
  obtain ⟨o, ho⟩ := delete_reads t r h
  exact .of_ok ho rfl

theorem update_readsPlain (h : t.IsWord) : Connection.ReadsPlain (update t.text r) := by
  obtain ⟨o, ho⟩ := update_reads t r h
  exact .of_ok ho rfl

theorem insert_readsPlain (h : t.IsWord) : Connection.ReadsPlain (insert t.text r) := by
  by_cases hn : '\x00' ∈ r.description.toList ∨ '\x00' ∈ r.file.toList
  · obtain ⟨f, hf⟩ := insert_reads_error t r h hn
    exact .of_error hf
  · rw [not_or] at hn
    obtain ⟨o, ho⟩ := insert_reads t r h hn.1 hn.2
    exact .of_ok ho rfl

end ControlTable

end SipMigrate.Migration
