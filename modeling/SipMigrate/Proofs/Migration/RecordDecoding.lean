import SipMigrate.Proofs.Migration.Statements

/-! The statements on one row, read token by token. Whatever characters the texts of
a record hold, the tokens of the statements are those of their form, and they
decode to the table, the version, the texts and the completion time. A NUL counts
as a character here; a database would end the text there. -/

namespace SipMigrate

namespace Sql

/-- What a token stands for. -/
inductive Sign
  | word (s : String)
  | symbol (s : String)
  | number (n : Nat)
  | text (s : String)
  | other (s : String)
deriving DecidableEq, Repr

def Token.sign (t : Token) : Sign :=
  match t.kind with
  | .word => .word t.text
  | .symbol => .symbol t.text
  | .integer => .number (Text.digitsValue t.chars)
  | .text => .text t.content
  | _ => .other t.text

/-- What the tokens of the statements of a text stand for. -/
def signs (sql : String) : List (List Sign) :=
  (Lexeme.statements (Lexeme.cut sql.toList)).map fun l => (Token.ofLexemes l).map Token.sign

namespace Token

variable (s : String) (c : Char) (n : Nat) (gap : List Char) (offset : Nat)

@[simp] theorem sign_ofWord : (ofWord s gap offset).sign = .word s := by
  simp [sign, ofWord, text]

@[simp] theorem sign_ofSymbol : (ofSymbol c gap offset).sign = .symbol (String.singleton c) := by
  simp [sign, ofSymbol, text]

@[simp] theorem sign_ofNat : (ofNat n gap offset).sign = .number n :=
  congrArg Sign.number (Text.digitsValue_toDigits n)

@[simp] theorem sign_ofText : (ofText s gap offset).sign = .text s := by
  show Sign.text (ofText s gap offset).content = _
  rw [content_ofText]

/-- A sign does not depend on the place. -/
theorem map_sign_place (o : Nat → Nat) (l : List Token) :
    (place o l).map sign = l.map sign := by
  induction l generalizing o with
  | nil => rfl
  | cons t rest ih => exact congrArg (t.sign :: ·) (ih _)

end Token

theorem signs_of_arePlain {sql : String} {l : List Lexeme} (hs : sql.toList = l.flatMap (·.chars))
    (hl : Lexeme.arePlain l = true) (hne : l ≠ []) :
    signs sql = [(Token.unplaced [] l).map Token.sign] := by
  obtain ⟨o, ho⟩ := Token.ofLexemesAfter_eq [] 0 l
  have hplain : ∀ x ∈ l, x.isSemicolon = false := fun x hx =>
    Lexeme.isSemicolon_of_isPlain (Lexeme.isPlain_of_mem hl x hx)
  have hstatements : Lexeme.statements l = [l] := Lexeme.statementsAfter_eq hplain hne
  rw [signs, hs, Lexeme.cut_of_arePlain hl, hstatements, List.map_singleton, Token.ofLexemes, ho,
    Token.map_sign_place]

end Sql

namespace Migration

open Sql

/-- The completion time as a decimal, or `NULL`. -/
def Record.createdSign (r : Record) : Sign := r.created.elim (.word "NULL") (.number ·.toNat)

/-- An ASCII letter or an underscore. -/
def BeginsPlainName (c : Char) : Prop :=
  ('a' ≤ c ∧ c ≤ 'z') ∨ ('A' ≤ c ∧ c ≤ 'Z') ∨ c = '_'

/-- A name of ASCII letters, digits and underscores that no digit begins. -/
def IsPlainName (name : String) : Prop :=
  ∃ c rest, name.toList = c :: rest ∧ BeginsPlainName c ∧
    ∀ d ∈ rest, BeginsPlainName d ∨ ('0' ≤ d ∧ d ≤ '9')

namespace ControlTable

variable (t : TableName) (r : Record)

theorem map_sign_created (gap : List Char) (l : List Lexeme) :
    (Token.unplaced gap (createdLexeme r :: l)).map Token.sign =
      r.createdSign :: (Token.unplaced [] l).map Token.sign := by
  unfold createdLexeme Record.createdSign
  cases r.created <;> simp

theorem signs_insert : signs (insert t.text r) =
    [[.word "INSERT", .word "INTO", .word t.text, .symbol "(", .word "version", .symbol ",",
      .word "description", .symbol ",", .word "file", .symbol ",", .word "created", .symbol ")",
      .word "VALUES", .symbol "(", .number r.version.toNat, .symbol ",", .text r.description,
      .symbol ",", .text r.file, .symbol ",", r.createdSign, .symbol ")"]] := by
  rw [signs_of_arePlain (toList_insert t r) (arePlain_insertLexemes t r)
    (by simp [insertLexemes, insertHead])]
  simp [insertLexemes, insertHead, map_sign_created]

theorem signs_update : signs (update t.text r) =
    [[.word "UPDATE", .word t.text, .word "SET", .word "created", .symbol "=", r.createdSign,
      .word "WHERE", .word "version", .symbol "=", .number r.version.toNat]] := by
  rw [signs_of_arePlain (toList_update t r) (arePlain_updateLexemes t r)
    (by simp [updateLexemes])]
  simp [updateLexemes, map_sign_created]

theorem signs_delete : signs (delete t.text r) =
    [[.word "DELETE", .word "FROM", .word t.text, .word "WHERE", .word "version", .symbol "=",
      .number r.version.toNat]] := by
  rw [signs_of_arePlain (toList_delete t r) (arePlain_deleteLexemes t r)
    (by simp [deleteLexemes])]
  simp [deleteLexemes]

theorem createdSign_inj {r r' : Record} :
    r.createdSign = r'.createdSign ↔ r.created = r'.created := by
  unfold Record.createdSign
  cases r.created <;> cases r'.created <;> simp [UInt64.toNat_inj]

/-- The insertion tells the record. -/
theorem insert_injective : Function.Injective (insert t.text) := by
  intro r r' h
  have hs := congrArg signs h
  rw [signs_insert, signs_insert] at hs
  simp only [List.cons.injEq, Sign.number.injEq, Sign.text.injEq, UInt16.toNat_inj,
    createdSign_inj, true_and, and_true] at hs
  cases r
  cases r'
  simpa [and_assoc] using hs

end ControlTable

theorem beginsPlainName_iff {c : Char} : BeginsPlainName c ↔ beginsPlainWord c = true := by
  simp only [BeginsPlainName, beginsPlainWord_iff, eq_iff_toNat, Char.le_def,
    UInt32.le_iff_toNat_le, Char.reduceVal, UInt32.reduceToNat, Char.reduceToNat]
  show (97 ≤ c.toNat ∧ c.toNat ≤ 122) ∨ (65 ≤ c.toNat ∧ c.toNat ≤ 90) ∨ _ ↔ _
  omega

theorem isTableName_iff (name : String) : isTableName name = true ↔ IsPlainName name := by
  have hrest (d : Char) : (d.isAlphanum || d == '_') = true ↔
      BeginsPlainName d ∨ ('0' ≤ d ∧ d ≤ '9') := by
    rw [beginsPlainName_iff]
    exact isPlainWordChar_iff.trans (or_congr_right (by rw [isDigit_iff]; rfl))
  unfold isTableName IsPlainName
  cases name.toList with
  | nil => simp
  | cons c rest =>
    rw [Bool.and_eq_true, List.all_eq_true]
    simp only [List.cons.injEq, hrest, and_assoc, exists_and_left, exists_eq_left',
      beginsPlainName_iff]
    rfl

/-- The statements on one row are single statements of their form, whatever the texts of the
record hold, and they tell the table and all that they say of the record, so that no two records
are inserted alike. The names that are accepted are the plain ones. -/
theorem rowStatements_decode :
    (∀ (t : TableName) (r : Record),
      signs (ControlTable.insert t.text r) =
        [[.word "INSERT", .word "INTO", .word t.text, .symbol "(", .word "version", .symbol ",",
          .word "description", .symbol ",", .word "file", .symbol ",", .word "created",
          .symbol ")", .word "VALUES", .symbol "(", .number r.version.toNat, .symbol ",",
          .text r.description, .symbol ",", .text r.file, .symbol ",", r.createdSign,
          .symbol ")"]] ∧
      signs (ControlTable.update t.text r) =
        [[.word "UPDATE", .word t.text, .word "SET", .word "created", .symbol "=", r.createdSign,
          .word "WHERE", .word "version", .symbol "=", .number r.version.toNat]] ∧
      signs (ControlTable.delete t.text r) =
        [[.word "DELETE", .word "FROM", .word t.text, .word "WHERE", .word "version", .symbol "=",
          .number r.version.toNat]]) ∧
      (∀ t : TableName, Function.Injective (ControlTable.insert t.text)) ∧
      ∀ c : Config, ((∃ t, c.validate = .ok t ∧ t.text = c.table) ↔ IsPlainName c.table) ∧
        (c.validate = .error (.invalidTableName c.table) ↔ ¬IsPlainName c.table) := by
  refine ⟨fun t r => ⟨ControlTable.signs_insert t r, ControlTable.signs_update t r,
    ControlTable.signs_delete t r⟩, ControlTable.insert_injective, fun c => ?_⟩
  rw [← isTableName_iff, Config.validate, TableName.ofString]
  split <;> simp_all

end Migration

end SipMigrate
