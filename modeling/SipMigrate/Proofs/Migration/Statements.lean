import SipMigrate.Migration.Config
import SipMigrate.Migration.ControlTable
import SipMigrate.Proofs.Sql.Parsing

/-! How the statements on a control table are read. A table name is a plain word,
so it is read as a name unless the word is reserved; the texts of a record are
closed literals, whatever characters but NUL they hold. -/

namespace SipMigrate.Migration

open Sql Lexeme Parser

theorem TableName.isPlainWord_text (t : TableName) : isPlainWord t.text.toList = true := by
  have h := t.isTableName_text
  unfold isTableName at h
  split at h
  · rename_i c rest hc
    rw [hc]
    exact h
  · cases h

/-- A table name that is read as a name. -/
def TableName.IsWord (t : TableName) : Prop := lowerAscii t.text ∉ reservedWords

namespace ControlTable

variable (t : TableName) (r : Record)

@[simp] theorem isVisible_name : (ofWord t.text).isVisible = true :=
  isVisible_ofWord_of_isPlainWord t.isPlainWord_text

/-! ### Queries -/

/-- The argument of the function of a query: a star, or the version. -/
def argumentLexeme (star : Bool) : Lexeme := if star then ofSymbol '*' else ofWord "version"

def argumentToken (star : Bool) (offset : Nat) : Token :=
  if star then .ofSymbol '*' [] offset else .ofWord "version" [] offset

/-- The lexemes of a query for one function over the complete rows, or over the other ones. -/
def queryLexemes (f : String) (star complete : Bool) : List Lexeme :=
  [ofWord "SELECT", space, ofWord f, ofSymbol '(', argumentLexeme star, ofSymbol ')', space,
    ofWord "FROM", space, ofWord t.text, space, ofWord "WHERE", space, ofWord "created", space,
    ofWord "IS", space] ++ (if complete then [ofWord "NOT", space] else []) ++ [ofWord "NULL"]

/-- The tokens of a query from its function on. -/
def queryTokens (f : String) (star complete : Bool) (o : Nat → Nat) : List Token :=
  [.ofWord f [' '] (o 1), .ofSymbol '(' [] (o 2), argumentToken star (o 3), .ofSymbol ')' [] (o 4),
    .ofWord "FROM" [' '] (o 5), .ofWord t.text [' '] (o 6), .ofWord "WHERE" [' '] (o 7),
    .ofWord "created" [' '] (o 8), .ofWord "IS" [' '] (o 9)] ++
  (if complete then [.ofWord "NOT" [' '] (o 10), .ofWord "NULL" [' '] (o 11)]
    else [.ofWord "NULL" [' '] (o 10)])

theorem reads_query {sql f : String} {star complete : Bool} (hf : isPlainWord f.toList = true)
    (hs : sql.toList = (queryLexemes t f star complete).flatMap (·.chars)) :
    ∃ o : Nat → Nat, Reads sql
      (statement (.ofWord "SELECT" [] (o 0) :: queryTokens t f star complete o)) := by
  have hv : Connection.visible sql.toList =
      (queryLexemes t f star complete).flatMap (·.chars) := by
    rw [hs, visible_flatMap]
    cases star <;> cases complete <;>
      simp +decide [queryLexemes, argumentLexeme, isVisible_ofWord_of_isPlainWord hf]
  refine reads_of_arePlain hv ?_ (by simp [queryLexemes]) fun o => ?_
  · cases star <;> cases complete <;>
      simp +decide [queryLexemes, argumentLexeme, arePlain, t.isPlainWord_text, mayPrecede, hf]
  · cases star <;> cases complete <;>
      simp [queryLexemes, argumentLexeme, queryTokens, argumentToken]

/-- The function of a query with its argument is read as a column of the result. -/
def ReadsColumn (f : String) (star : Bool) (o : Nat → Nat) (rc : ResultColumn) : Prop :=
  ∀ rest, resultColumn.run (.ofWord f [' '] (o 1) :: .ofSymbol '(' [] (o 2) ::
    argumentToken star (o 3) :: .ofSymbol ')' [] (o 4) :: .ofWord "FROM" [' '] (o 5) :: rest) =
      .ok (rc, .ofWord "FROM" [' '] (o 5) :: rest)

/-- The statement that is a query for one result. -/
def query (o : Nat → Nat) (complete : Bool) (rc : ResultColumn) : Statement :=
  .select [rc] (some (.ofWord t.text (o 6)))
    (some (.isNull (.name (.ofWord "created" (o 8))) complete))

section

variable {f : String} {star complete : Bool} {o : Nat → Nat} {rc : ResultColumn}

theorem statement_query (ht : t.IsWord) (hr : ReadsColumn f star o rc)
    (hd : sameName f "distinct" = false) (ha : sameName f "all" = false) :
    statement (.ofWord "SELECT" [] (o 0) :: queryTokens t f star complete o) =
      .ok (query t o complete rc) := by
  unfold TableName.IsWord at ht
  unfold ReadsColumn at hr
  cases complete <;>
    simp +decide [queryTokens, statement, body, Parser.select, hr, source, otherName?, filter,
      condition, conditionOn, alone, ht, hd, ha, query]

theorem statement_query_error (ht : ¬t.IsWord) (hr : ReadsColumn f star o rc)
    (hd : sameName f "distinct" = false) (ha : sameName f "all" = false) :
    ∃ fault, statement (.ofWord "SELECT" [] (o 0) :: queryTokens t f star complete o) =
      .error fault := by
  unfold TableName.IsWord at ht
  unfold ReadsColumn at hr
  cases complete <;>
    simp +decide [queryTokens, statement, body, Parser.select, hr, source, ht, hd, ha]

end

/-- A text is read as a query, unless a reserved word stands for the table: then it cannot
be read. -/
structure ReadsQuery (sql : String) (complete : Bool) (rc : (Nat → Nat) → ResultColumn) : Prop where
  reads : t.IsWord → ∃ o, Reads sql (.ok (query t o complete (rc o)))
  fails : ¬t.IsWord → ∃ f, Reads sql (.error f)

theorem readsQuery {sql f : String} {star complete : Bool} {rc : (Nat → Nat) → ResultColumn}
    (hs : sql.toList = (queryLexemes t f star complete).flatMap (·.chars))
    (hr : ∀ o, ReadsColumn f star o (rc o)) (hf : isPlainWord f.toList = true)
    (hd : sameName f "distinct" = false) (ha : sameName f "all" = false) :
    ReadsQuery t sql complete rc := by
  obtain ⟨o, ho⟩ := reads_query t hf hs
  constructor
  · intro ht
    rw [statement_query t ht (hr o) hd ha] at ho
    exact ⟨o, ho⟩
  · intro ht
    obtain ⟨fault, hfault⟩ := statement_query_error t ht (hr o) hd ha
    rw [hfault] at ho
    exact ⟨fault, ho⟩

theorem readsColumn_version {f : String} {a : Aggregate}
    (h : f = "MAX" ∧ a = .max ∨ f = "MIN" ∧ a = .min) (o : Nat → Nat) :
    ReadsColumn f false o
      ⟨.aggregate a false (.name (.ofWord "version" (o 3))), f ++ "(version)", none⟩ := by
  intro rest
  have hf : aggregate? (.ofWord f [' '] (o 1)) = some a := by
    rw [aggregate?, Token.nameOf_ofWord]
    show aggregates.lookup (lowerAscii f) = _
    rcases h with ⟨rfl, rfl⟩ | ⟨rfl, rfl⟩ <;> decide
  rcases h with ⟨rfl, rfl⟩ | ⟨rfl, rfl⟩ <;>
    simp +decide [argumentToken, resultColumn, result, isCall, alone, parenthesized, call,
      arguments, hf, aggregate, otherName?] <;>
    simp [Token.span, Token.ofWord, Token.ofSymbol]

theorem readsColumn_count (o : Nat → Nat) :
    ReadsColumn "COUNT" true o ⟨.countRows, "COUNT(*)", none⟩ := by
  intro rest
  have hf : aggregate? (.ofWord "COUNT" [' '] (o 1)) = some .count := by
    rw [aggregate?, Token.nameOf_ofWord]
    show aggregates.lookup (lowerAscii "COUNT") = _
    decide
  simp +decide [argumentToken, resultColumn, result, isCall, alone, parenthesized, call, hf,
    aggregate, otherName?]
  simp [Token.span, Token.ofWord, Token.ofSymbol]

theorem selectCurrent_reads : ReadsQuery t (selectCurrent t.text) true
    fun o => ⟨.aggregate .max false (.name (.ofWord "version" (o 3))), "MAX(version)", none⟩ := by
  refine readsQuery t ?_ (readsColumn_version (.inl ⟨rfl, rfl⟩)) (by decide) (by decide) (by decide)
  unfold selectCurrent
  rw [String.toList_append, String.toList_append]
  simp [queryLexemes, argumentLexeme]

theorem selectLock_reads : ReadsQuery t (selectLock t.text) false
    fun o => ⟨.aggregate .min false (.name (.ofWord "version" (o 3))), "MIN(version)", none⟩ := by
  refine readsQuery t ?_ (readsColumn_version (.inr ⟨rfl, rfl⟩)) (by decide) (by decide) (by decide)
  unfold selectLock
  rw [String.toList_append, String.toList_append]
  simp [queryLexemes, argumentLexeme]

theorem selectCount_reads : ReadsQuery t (selectCount t.text) true
    fun _ => ⟨.countRows, "COUNT(*)", none⟩ := by
  refine readsQuery t ?_ readsColumn_count (by decide) (by decide) (by decide)
  unfold selectCount
  rw [String.toList_append, String.toList_append]
  simp [queryLexemes, argumentLexeme]

/-! ### Changes of one row -/

def deleteLexemes : List Lexeme :=
  [ofWord "DELETE", space, ofWord "FROM", space, ofWord t.text, space, ofWord "WHERE", space,
    ofWord "version", space, ofSymbol '=', space, ofNat r.version.toNat]

theorem toList_delete :
    (ControlTable.delete t.text r).toList = (deleteLexemes t r).flatMap (·.chars) := by
  simp [ControlTable.delete, deleteLexemes]

theorem arePlain_deleteLexemes : arePlain (deleteLexemes t r) = true := by
  simp +decide [deleteLexemes, arePlain, t.isPlainWord_text, mayPrecede]

theorem delete_reads (ht : t.IsWord) :
    ∃ o : Nat → Nat, Reads (ControlTable.delete t.text r)
      (.ok (.delete (.ofWord t.text (o 2)) (some (.equal (.name (.ofWord "version" (o 4)))
        (.value (.ofNumeral (.ofNat r.version.toNat))))))) := by
  have hv : Connection.visible (ControlTable.delete t.text r).toList =
      (deleteLexemes t r).flatMap (·.chars) := by
    rw [toList_delete, visible_flatMap (by simp +decide [deleteLexemes])]
  refine reads_of_arePlain (r := fun o => .ok (.delete _ _)) hv (arePlain_deleteLexemes t r)
    (by simp [deleteLexemes]) fun o => ?_
  unfold TableName.IsWord at ht
  simp +decide [deleteLexemes, statement, body, Parser.delete, target, filter, condition,
    conditionOn, alone, ht]

/-- The completion time as it is written. -/
def createdLexeme : Lexeme :=
  match r.created with
  | some time => ofNat time.toNat
  | none => ofWord "NULL"

/-- The completion time as it is read. -/
def createdValue : Value :=
  match r.created with
  | some time => .ofNumeral (.ofNat time.toNat)
  | none => .null

theorem toList_createdLiteral : (createdLiteral r).toList = (createdLexeme r).chars := by
  unfold createdLiteral createdLexeme
  cases r.created <;> simp

def updateLexemes : List Lexeme :=
  [ofWord "UPDATE", space, ofWord t.text, space, ofWord "SET", space, ofWord "created", space,
    ofSymbol '=', space, createdLexeme r, space, ofWord "WHERE", space, ofWord "version", space,
    ofSymbol '=', space, ofNat r.version.toNat]

theorem toList_update :
    (ControlTable.update t.text r).toList = (updateLexemes t r).flatMap (·.chars) := by
  simp [ControlTable.update, updateLexemes, toList_createdLiteral]

theorem arePlain_updateLexemes : arePlain (updateLexemes t r) = true := by
  unfold updateLexemes createdLexeme
  cases r.created <;> simp +decide [arePlain, t.isPlainWord_text, mayPrecede]

theorem update_reads (ht : t.IsWord) :
    ∃ o : Nat → Nat, Reads (ControlTable.update t.text r)
      (.ok (.update (.ofWord t.text (o 1)) [(.ofWord "created" (o 3), .value (createdValue r))]
        (some (.equal (.name (.ofWord "version" (o 7)))
          (.value (.ofNumeral (.ofNat r.version.toNat))))))) := by
  have hv : Connection.visible (ControlTable.update t.text r).toList =
      (updateLexemes t r).flatMap (·.chars) := by
    rw [toList_update, visible_flatMap]
    unfold updateLexemes createdLexeme
    cases r.created <;> simp +decide
  refine reads_of_arePlain (r := fun o => .ok (.update _ _ _)) hv (arePlain_updateLexemes t r)
    (by simp [updateLexemes]) fun o => ?_
  unfold TableName.IsWord at ht
  have hor : lowerAscii t.text ≠ "or" := by
    intro h
    exact ht (h ▸ by decide)
  unfold updateLexemes createdLexeme createdValue
  cases r.created <;>
    simp +decide [statement, body, Parser.update, target, Parser.change, filter, condition,
      conditionOn, alone, ht, hor]

/-- The lexemes of an insertion up to the first text. -/
def insertHead : List Lexeme :=
  [ofWord "INSERT", space, ofWord "INTO", space, ofWord t.text, space, ofSymbol '(',
    ofWord "version", ofSymbol ',', space, ofWord "description", ofSymbol ',', space,
    ofWord "file", ofSymbol ',', space, ofWord "created", ofSymbol ')', space, ofWord "VALUES",
    space, ofSymbol '(', ofNat r.version.toNat, ofSymbol ',', space]

def insertLexemes : List Lexeme :=
  insertHead t r ++ [ofText r.description, ofSymbol ',', space, ofText r.file, ofSymbol ',',
    space, createdLexeme r, ofSymbol ')']

theorem toList_insert :
    (ControlTable.insert t.text r).toList = (insertLexemes t r).flatMap (·.chars) := by
  have hl (s : String) : (textLiteral s).toList = (ofText s).chars := by
    simp [textLiteral, doubled]
  unfold ControlTable.insert
  simp only [String.toList_append, hl, toList_createdLiteral]
  simp [insertLexemes, insertHead]

theorem arePlain_insertLexemes : arePlain (insertLexemes t r) = true := by
  unfold insertLexemes createdLexeme
  cases r.created <;> simp +decide [insertHead, arePlain, t.isPlainWord_text, mayPrecede]

/-- The names of the columns in an insertion. -/
def insertColumns (o : Nat → Nat) : List Name :=
  [.ofWord "version" (o 4), .ofWord "description" (o 6), .ofWord "file" (o 8),
    .ofWord "created" (o 10)]

theorem insert_reads (ht : t.IsWord) (hd : '\x00' ∉ r.description.toList)
    (hf : '\x00' ∉ r.file.toList) :
    ∃ o : Nat → Nat, Reads (ControlTable.insert t.text r)
      (.ok (.insert (.ofWord t.text (o 2)) (some (insertColumns o))
        [[.value (.ofNumeral (.ofNat r.version.toNat)), .value (.text r.description),
          .value (.text r.file), .value (createdValue r)]])) := by
  have hd := isVisible_ofText _ hd
  have hf := isVisible_ofText _ hf
  have hv : Connection.visible (ControlTable.insert t.text r).toList =
      (insertLexemes t r).flatMap (·.chars) := by
    rw [toList_insert, visible_flatMap]
    unfold insertLexemes createdLexeme
    cases r.created <;> simp +decide [insertHead, hd, hf]
  refine reads_of_arePlain (r := fun o => .ok (.insert _ _ _)) hv (arePlain_insertLexemes t r)
    (by simp [insertLexemes, insertHead]) fun o => ?_
  unfold TableName.IsWord at ht
  unfold insertLexemes createdLexeme createdValue
  cases r.created <;>
    simp +decide [insertHead, statement, body, Parser.insert, parenthesized, alone,
      insertColumns, ht]

/-- A NUL in a text of the record ends the statement within the literal. -/
theorem insert_reads_error (ht : t.IsWord)
    (h : '\x00' ∈ r.description.toList ∨ '\x00' ∈ r.file.toList) :
    ∃ f, Reads (ControlTable.insert t.text r) (.error f) := by
  unfold TableName.IsWord at ht
  by_cases hd : '\x00' ∈ r.description.toList
  · have hv : Connection.visible (ControlTable.insert t.text r).toList =
        (insertHead t r ++ [unclosed (Connection.visible r.description.toList)]).flatMap
          (·.chars) := by
      rw [toList_insert, insertLexemes, List.flatMap_append, List.flatMap_cons,
        visible_flatMap_append (by simp +decide [insertHead]), visible_ofText_append _ hd]
      simp
    obtain ⟨o, ho⟩ := reads_of_arePlain (r := fun o => .error _) hv
      (by simp +decide [insertHead, arePlain, t.isPlainWord_text, mayPrecede])
      (by simp [insertHead]) fun o => by
        simp +decide [insertHead, statement, body, Parser.insert, parenthesized, alone, ht]
        rfl
    exact ⟨_, ho⟩
  · have hf := h.resolve_left hd
    have hd := isVisible_ofText _ hd
    have hv : Connection.visible (ControlTable.insert t.text r).toList =
        (insertHead t r ++ [ofText r.description, ofSymbol ',', space,
          unclosed (Connection.visible r.file.toList)]).flatMap (·.chars) := by
      rw [toList_insert, show insertLexemes t r = (insertHead t r ++ [ofText r.description,
        ofSymbol ',', space]) ++ ofText r.file :: [ofSymbol ',', space, createdLexeme r,
        ofSymbol ')'] from rfl, List.flatMap_append, List.flatMap_cons,
        visible_flatMap_append (by simp +decide [insertHead, hd]), visible_ofText_append _ hf]
      simp
    obtain ⟨o, ho⟩ := reads_of_arePlain (r := fun o => .error _) hv
      (by simp +decide [insertHead, arePlain, t.isPlainWord_text, mayPrecede])
      (by simp [insertHead]) fun o => by
        simp +decide [insertHead, statement, body, Parser.insert, parenthesized, alone, ht]
        rfl
    exact ⟨_, ho⟩

/-! ### The description of the table -/

def createLexemes : List Lexeme :=
  [ofWord "CREATE", space, ofWord "TABLE", space, ofWord "IF", space, ofWord "NOT", space,
    ofWord "EXISTS", space, ofWord t.text, space, ofSymbol '(', ofWord "version", space,
    ofWord "SMALLINT", space, ofWord "NOT", space, ofWord "NULL", space, ofWord "PRIMARY", space,
    ofWord "KEY", ofSymbol ',', space, ofWord "description", space, ofWord "VARCHAR", ofSymbol '(',
    ofNat 200, ofSymbol ')', space, ofWord "NOT", space, ofWord "NULL", ofSymbol ',', space,
    ofWord "file", space, ofWord "VARCHAR", ofSymbol '(', ofNat 200, ofSymbol ')', space,
    ofWord "NOT", space, ofWord "NULL", ofSymbol ',', space, ofWord "created", space,
    ofWord "BIGINT", space, ofWord "NULL", ofSymbol ')']

/-- The parts of the description, as they are read. -/
def definitions : List Definition :=
  [.column "version" "SMALLINT", .notNull, .primary, .column "description" "VARCHAR(200)",
    .notNull, .column "file" "VARCHAR(200)", .notNull, .column "created" "BIGINT"]

/-- The text that describes the table. -/
def description : String :=
  t.text ++ " (version SMALLINT NOT NULL PRIMARY KEY, description VARCHAR(200) NOT NULL, " ++
    "file VARCHAR(200) NOT NULL, created BIGINT NULL)"

theorem visible_create :
    Connection.visible (create t.text).toList = (createLexemes t).flatMap (·.chars) := by
  rw [← visible_flatMap (by simp +decide [createLexemes])]
  unfold create
  rw [String.toList_append, String.toList_append, String.toList_append]
  simp [createLexemes, show Nat.toDigits 10 200 = ['2', '0', '0'] from rfl]

theorem arePlain_createLexemes : arePlain (createLexemes t) = true := by
  simp +decide [createLexemes, arePlain, t.isPlainWord_text, mayPrecede]

theorem create_reads (ht : t.IsWord) :
    ∃ o : Nat → Nat, Reads (create t.text)
      (.ok (.createTable true (.ofWord t.text (o 5)) definitions none (description t))) := by
  refine reads_of_arePlain (r := fun o => .ok (.createTable _ _ _ _ _)) (visible_create t)
    (arePlain_createLexemes t) (by simp [createLexemes]) fun o => ?_
  unfold TableName.IsWord at ht
  simp +decide [createLexemes, statement, body, Parser.createTable, keywords, ht]
  rw [run_description definitions]
  · simp [Token.span, Token.ofWord, Token.ofSymbol, Token.ofNat, description,
      show Nat.toDigits 10 200 = ['2', '0', '0'] from rfl, ← String.toList_inj]
  -- the parts one after the other, as the description goes on
  refine parts_step (step_column (by decide) (by decide) (by simp +decide) rfl) (by simp) ?_
  refine parts_step (step_notNull (by simp +decide)) (by simp) ?_
  refine parts_step (step_primary (by simp +decide) (by simp +decide)) (by simp) ?_
  refine parts_step (step_comma (by simp +decide)) (by simp) ?_
  refine parts_step (step_column_sized (by decide) (by decide)) (by simp) ?_
  refine parts_step (step_notNull rfl) (by simp) ?_
  refine parts_step (step_comma (by simp +decide)) (by simp) ?_
  refine parts_step (step_column_sized (by decide) (by decide)) (by simp) ?_
  refine parts_step (step_notNull rfl) (by simp) ?_
  refine parts_step (step_comma (by simp +decide)) (by simp) ?_
  refine parts_step (step_column (by decide) (by decide) (by simp +decide) rfl) (by simp) ?_
  refine parts_step (step_null rfl) (by simp) ?_
  exact parts_done step_close

theorem create_reads_error (ht : ¬t.IsWord) : ∃ f, Reads (create t.text) (.error f) := by
  obtain ⟨o, ho⟩ := reads_of_arePlain (r := fun o => .error _) (visible_create t)
    (arePlain_createLexemes t) (by simp [createLexemes]) fun o => by
      unfold TableName.IsWord at ht
      simp +decide [createLexemes, statement, body, Parser.createTable, keywords, ht]
      rfl
  exact ⟨_, ho⟩

end ControlTable

end SipMigrate.Migration
