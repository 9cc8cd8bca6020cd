import SipMigrate.Proofs.Text.Decimal
import SipMigrate.Proofs.Text.Json

/-! Printed values are read back. A reader cuts a text into tokens first, between which
there may be spaces, and makes a value of them then; of numbers it reads the integers. It is
written apart from the printer, and gives back every value that the printer has printed. -/

namespace SipMigrate.Text.Json

/-! ### The reader -/

inductive Token
  | openArray
  | closeArray
  | openObject
  | closeObject
  | comma
  | colon
  | null
  | number (n : Int)
  | string (s : String)
deriving DecidableEq, Repr

/-- The token at the beginning of a text, and what is behind it. -/
def next? : List Char → Option (Token × List Char)
  | '[' :: rest => some (.openArray, rest)
  | ']' :: rest => some (.closeArray, rest)
  | '\x7b' :: rest => some (.openObject, rest)
  | '\x7d' :: rest => some (.closeObject, rest)
  | ',' :: rest => some (.comma, rest)
  | ':' :: rest => some (.colon, rest)
  | 'n' :: 'u' :: 'l' :: 'l' :: rest => some (.null, rest)
  | '"' :: rest => (readBody rest).map fun p => (.string (String.ofList p.1), p.2)
  | '-' :: rest => (natural? (rest.takeWhile Char.isDigit)).map fun (n : Nat) =>
    (.number (-n), rest.dropWhile Char.isDigit)
  | l => (natural? (l.takeWhile Char.isDigit)).map fun (n : Nat) =>
    (.number n, l.dropWhile Char.isDigit)

theorem length_readBody {l body rest : List Char} (h : readBody l = some (body, rest)) :
    rest.length < l.length := by
  fun_induction readBody l generalizing body rest <;> grind [Option.bind_eq_some_iff]

theorem length_dropWhile_of_natural? {l : List Char} {n : Nat}
    (h : natural? (l.takeWhile Char.isDigit) = some n) :
    (l.dropWhile Char.isDigit).length < l.length := by
  have hne : l.takeWhile Char.isDigit ≠ [] := by
    rintro hnil
    rw [hnil] at h
    cases h
  have hlen := congrArg List.length (List.takeWhile_append_dropWhile (p := Char.isDigit) (l := l))
  rw [List.length_append] at hlen
  have hpos := List.length_pos_iff.mpr hne
  omega

theorem length_next? {l rest : List Char} {t : Token} (h : next? l = some (t, rest)) :
    rest.length < l.length := by
  unfold next? at h
  split at h <;>
    grind [Option.map_eq_some_iff, → length_readBody, → length_dropWhile_of_natural?]

/-- The tokens of a text. -/
def lex : List Char → Option (List Token)
  | [] => some []
  | c :: l =>
    if isSpace c then lex l
    else
      match _h : next? (c :: l) with
      | some (t, rest) => (lex rest).map (t :: ·)
      | none => none
termination_by l => l.length
decreasing_by
  · exact Nat.lt_succ_self _
  · exact length_next? _h

/-- What a value that is being read is part of. -/
inductive Frame
  | items (before : List Json)
  | field (before : List (String × Json)) (key : String)

mutual

/-- A value begins here. -/
def value (frames : List Frame) : List Token → Option Json
  | .null :: rest => after .null frames rest
  | .number n :: rest => after (.number n) frames rest
  | .string s :: rest => after (.string s) frames rest
  | .openArray :: .closeArray :: rest => after (.array []) frames rest
  | .openArray :: rest => value (.items [] :: frames) rest
  | .openObject :: .closeObject :: rest => after (.object []) frames rest
  | .openObject :: .string k :: .colon :: rest => value (.field [] k :: frames) rest
  | _ => none

/-- A value ends here. -/
def after (v : Json) (frames : List Frame) : List Token → Option Json
  | [] => if frames.isEmpty then some v else none
  | t :: rest =>
    match frames, t, rest with
    | .items before :: frames, .comma, rest => value (.items (before ++ [v]) :: frames) rest
    | .items before :: frames, .closeArray, rest => after (.array (before ++ [v])) frames rest
    | .field before k :: frames, .comma, .string k' :: .colon :: rest =>
      value (.field (before ++ [(k, v)]) k' :: frames) rest
    | .field before k :: frames, .closeObject, rest =>
      after (.object (before ++ [(k, v)])) frames rest
    | _, _, _ => none

end

/-- Reads a text that is one value. -/
def read? (text : String) : Option Json := (lex text.toList).bind (value [])

/-! ### The tokens of a value -/

mutual

def tokens : Json → List Token
  | null => [.null]
  | number n => [.number n]
  | string s => [.string s]
  | array [] => [.openArray, .closeArray]
  | array (v :: items) => .openArray :: (tokens v ++ (itemTokens items ++ [.closeArray]))
  | object [] => [.openObject, .closeObject]
  | object ((k, v) :: fields) =>
    .openObject :: .string k :: .colon :: (tokens v ++ (fieldTokens fields ++ [.closeObject]))

def itemTokens : List Json → List Token
  | [] => []
  | v :: items => .comma :: (tokens v ++ itemTokens items)

def fieldTokens : List (String × Json) → List Token
  | [] => []
  | (k, v) :: fields => .comma :: .string k :: .colon :: (tokens v ++ fieldTokens fields)

end

/-! ### Printed values have their tokens -/

theorem lex_space {c : Char} (h : isSpace c = true) (l : List Char) : lex (c :: l) = lex l := by
  rw [lex, if_pos h]

theorem lex_of_next? {c : Char} {l rest : List Char} {t : Token} (hc : isSpace c = false)
    (h : next? (c :: l) = some (t, rest)) : lex (c :: l) = (lex rest).map (t :: ·) := by
  rw [lex, if_neg (by simp [hc])]
  split
  · rename_i h'
    rw [h] at h'
    obtain ⟨rfl, rfl⟩ := Prod.mk.inj (Option.some.inj h')
    rfl
  · rename_i h'
    rw [h] at h'
    cases h'

theorem lex_indent (level : Nat) (rest : List Char) :
    lex ((indent level).toList ++ rest) = lex rest := by
  have hspaces (n : Nat) (rest : List Char) :
      lex (("".pushn ' ' n).toList ++ rest) = lex rest := by
    induction n generalizing rest with
    | zero => rfl
    | succ n ih =>
      have hpush : "".pushn ' ' (n + 1) = ("".pushn ' ' n).push ' ' := rfl
      rw [hpush, String.toList_push, List.append_assoc, ih, List.singleton_append, lex_space rfl]
  exact hspaces _ rest

theorem lex_literal (s : String) (rest : List Char) :
    lex ((literal s).toList ++ rest) = (lex rest).map (.string s :: ·) := by
  have hnext : next? ('"' :: (s.toList.flatMap escapeChar ++ '"' :: rest)) =
      some (.string s, rest) := by
    rw [next?, readBody_flatMap_escapeChar, Option.map_some, String.ofList_toList]
  rw [← lex_of_next? rfl hnext]
  simp [literal]

/-- A text that does not go on with digits. -/
def EndsDigits (rest : List Char) : Prop := ∀ c ∈ rest.head?, c.isDigit = false

theorem natural?_takeWhile (n : Nat) {rest : List Char} (h : EndsDigits rest) :
    natural? ((Nat.toDigits 10 n ++ rest).takeWhile Char.isDigit) = some n ∧
      (Nat.toDigits 10 n ++ rest).dropWhile Char.isDigit = rest := by
  have hdigits : ∀ c ∈ Nat.toDigits 10 n, c.isDigit = true := fun _ => isDigit_of_mem_toDigits
  rw [List.takeWhile_append_of_pos hdigits, List.dropWhile_append_of_pos hdigits]
  cases rest with
  | nil => exact ⟨by simpa using natural?_toDigits n, rfl⟩
  | cons c rest =>
    have hc : ¬ c.isDigit = true := by simp [h c rfl]
    rw [List.takeWhile_cons_of_neg hc, List.dropWhile_cons_of_neg hc, List.append_nil]
    exact ⟨natural?_toDigits n, rfl⟩

theorem next?_digit {c : Char} (hc : c.isDigit = true) (l : List Char) :
    next? (c :: l) = (natural? ((c :: l).takeWhile Char.isDigit)).map fun (n : Nat) =>
      (.number n, (c :: l).dropWhile Char.isDigit) := by
  unfold next?
  split
  case h_10 => rfl
  all_goals
    rename_i heq
    obtain ⟨rfl, -⟩ := List.cons.inj heq
    exact absurd hc (by decide)

theorem isSpace_of_isDigit {c : Char} (hc : c.isDigit = true) : isSpace c = false := by
  by_contra h
  simp only [isSpace, Bool.not_eq_false, Bool.or_eq_true, decide_eq_true_eq] at h
  rcases h with ((rfl | rfl) | rfl) | rfl <;> exact absurd hc (by decide)

theorem lex_number (n : Int) {rest : List Char} (h : EndsDigits rest) :
    lex ((toString n).toList ++ rest) = (lex rest).map (.number n :: ·) := by
  cases n with
  | ofNat n =>
    obtain ⟨hvalue, hrest⟩ := natural?_takeWhile n h
    show lex ((toString n).toList ++ rest) = _
    rw [Nat.toString_eq_repr, Nat.toList_repr]
    cases hd : Nat.toDigits 10 n with
    | nil => exact absurd hd Nat.toDigits_ne_nil
    | cons c l =>
      have hc : c.isDigit = true := isDigit_of_mem_toDigits (n := n) (by rw [hd]; simp)
      rw [hd] at hvalue hrest
      refine lex_of_next? (isSpace_of_isDigit hc) ?_
      rw [next?_digit hc]
      exact congrArg₂ _ (congrArg (fun rest => fun n : Nat => (Token.number n, rest)) hrest) hvalue
  | negSucc n =>
    obtain ⟨hvalue, hrest⟩ := natural?_takeWhile (n + 1) h
    rw [toList_toString_negSucc, List.cons_append]
    refine lex_of_next? rfl ?_
    rw [next?, hvalue, hrest]
    rfl

section Marks

variable (level : Nat) (l : List Char)

theorem lex_openArray : lex ("[\n".toList ++ l) = (lex l).map (.openArray :: ·) := by
  rw [← lex_space (c := '\n') rfl l]
  exact lex_of_next? rfl rfl

theorem lex_openObject : lex ("\x7b\n".toList ++ l) = (lex l).map (.openObject :: ·) := by
  rw [← lex_space (c := '\n') rfl l]
  exact lex_of_next? rfl rfl

theorem lex_comma : lex (",\n".toList ++ l) = (lex l).map (.comma :: ·) := by
  rw [← lex_space (c := '\n') rfl l]
  exact lex_of_next? rfl rfl

theorem lex_colon : lex (": ".toList ++ l) = (lex l).map (.colon :: ·) := by
  rw [← lex_space (c := ' ') rfl l]
  exact lex_of_next? rfl rfl

theorem lex_newline : lex ("\n".toList ++ ((indent level).toList ++ l)) = lex l := by
  rw [← lex_indent level l]
  exact lex_space rfl _

theorem lex_closeArray : lex ("]".toList ++ l) = (lex l).map (.closeArray :: ·) :=
  lex_of_next? rfl rfl

theorem lex_closeObject : lex ("\x7d".toList ++ l) = (lex l).map (.closeObject :: ·) :=
  lex_of_next? rfl rfl

theorem lex_emptyArray :
    lex ("[]".toList ++ l) = (lex l).map ([.openArray, .closeArray] ++ ·) := by
  have hopen : lex ("[]".toList ++ l) = (lex ("]".toList ++ l)).map (.openArray :: ·) :=
    lex_of_next? rfl rfl
  rw [hopen, lex_closeArray, Option.map_map]
  rfl

theorem lex_emptyObject :
    lex ("\x7b\x7d".toList ++ l) = (lex l).map ([.openObject, .closeObject] ++ ·) := by
  have hopen : lex ("\x7b\x7d".toList ++ l) =
      (lex ("\x7d".toList ++ l)).map (.openObject :: ·) :=
    lex_of_next? rfl rfl
  rw [hopen, lex_closeObject, Option.map_map]
  rfl

end Marks

theorem endsDigits_newline (l : List Char) : EndsDigits ("\n".toList ++ l) := by
  rintro c ⟨⟩
  rfl

theorem endsDigits_prettyItems (level : Nat) (items : List Json) {rest : List Char}
    (h : EndsDigits rest) : EndsDigits ((prettyItems level items).toList ++ rest) := by
  cases items with
  | nil => simpa [prettyItems] using h
  | cons v items =>
    rintro c hc
    obtain rfl : c = ',' := by simpa [prettyItems, eq_comm] using hc
    rfl

theorem endsDigits_prettyFields (level : Nat) (fields : List (String × Json)) {rest : List Char}
    (h : EndsDigits rest) : EndsDigits ((prettyFields level fields).toList ++ rest) := by
  cases fields with
  | nil => simpa [prettyFields] using h
  | cons field fields =>
    rintro c hc
    obtain rfl : c = ',' := by simpa [prettyFields, eq_comm] using hc
    rfl

mutual

theorem lex_prettyAt (level : Nat) : ∀ (v : Json) (rest : List Char), EndsDigits rest →
    lex ((prettyAt level v).toList ++ rest) = (lex rest).map (tokens v ++ ·)
  | .null, rest, _ => by
    rw [prettyAt]
    exact lex_of_next? rfl rfl
  | .number n, rest, h => by
    rw [prettyAt, lex_number n h]
    rfl
  | .string s, rest, _ => by
    rw [prettyAt, lex_literal]
    rfl
  | .array [], rest, _ => by
    rw [prettyAt, lex_emptyArray, tokens]
  | .array (v :: items), rest, _ => by
    have hitems := endsDigits_prettyItems (level + 1) items
      (endsDigits_newline ((indent level).toList ++ ("]".toList ++ rest)))
    simp only [prettyAt, String.toList_append, List.append_assoc]
    rw [lex_openArray, lex_indent, lex_prettyAt (level + 1) v _ hitems,
      lex_prettyItems (level + 1) items _ (endsDigits_newline _), lex_newline, lex_closeArray]
    simp [tokens, Function.comp_def]
  | .object [], rest, _ => by
    rw [prettyAt, lex_emptyObject, tokens]
  | .object ((k, v) :: fields), rest, _ => by
    have hfields := endsDigits_prettyFields (level + 1) fields
      (endsDigits_newline ((indent level).toList ++ ("\x7d".toList ++ rest)))
    simp only [prettyAt, String.toList_append, List.append_assoc]
    rw [lex_openObject, lex_indent, lex_literal, lex_colon, lex_prettyAt (level + 1) v _ hfields,
      lex_prettyFields (level + 1) fields _ (endsDigits_newline _), lex_newline, lex_closeObject]
    simp [tokens, Function.comp_def]

theorem lex_prettyItems (level : Nat) : ∀ (items : List Json) (rest : List Char), EndsDigits rest →
    lex ((prettyItems level items).toList ++ rest) = (lex rest).map (itemTokens items ++ ·)
  | [], rest, _ => by
    simp [prettyItems, itemTokens]
  | v :: items, rest, h => by
    simp only [prettyItems, String.toList_append, List.append_assoc]
    rw [lex_comma, lex_indent, lex_prettyAt level v _ (endsDigits_prettyItems level items h),
      lex_prettyItems level items rest h]
    simp [itemTokens, Function.comp_def]

theorem lex_prettyFields (level : Nat) : ∀ (fields : List (String × Json)) (rest : List Char),
    EndsDigits rest →
    lex ((prettyFields level fields).toList ++ rest) = (lex rest).map (fieldTokens fields ++ ·)
  | [], rest, _ => by
    simp [prettyFields, fieldTokens]
  | (k, v) :: fields, rest, h => by
    simp only [prettyFields, String.toList_append, List.append_assoc]
    rw [lex_comma, lex_indent, lex_literal, lex_colon,
      lex_prettyAt level v _ (endsDigits_prettyFields level fields h),
      lex_prettyFields level fields rest h]
    simp [fieldTokens, Function.comp_def]

end

/-! ### Tokens give back the value -/

@[simp] theorem value_openObject (frames : List Frame) (k : String) (rest : List Token) :
    value frames (.openObject :: .string k :: .colon :: rest) =
      value (.field [] k :: frames) rest := rfl

@[simp] theorem after_nil (v : Json) : after v [] [] = some v := rfl

@[simp] theorem after_comma_items (v : Json) (before : List Json) (frames : List Frame)
    (rest : List Token) : after v (.items before :: frames) (.comma :: rest) =
      value (.items (before ++ [v]) :: frames) rest := rfl

@[simp] theorem after_comma_field (v : Json) (before : List (String × Json)) (k k' : String)
    (frames : List Frame) (rest : List Token) :
    after v (.field before k :: frames) (.comma :: .string k' :: .colon :: rest) =
      value (.field (before ++ [(k, v)]) k' :: frames) rest := rfl

theorem tokens_eq_cons (v : Json) : ∃ t l, tokens v = t :: l ∧ t ≠ .closeArray := by
  unfold tokens
  split <;> exact ⟨_, _, rfl, by simp⟩

/-- An array is not empty if a value begins behind its bracket. -/
theorem value_openArray (v : Json) (frames : List Frame) (rest : List Token) :
    value frames (.openArray :: (tokens v ++ rest)) =
      value (.items [] :: frames) (tokens v ++ rest) := by
  obtain ⟨t, l, hv, ht⟩ := tokens_eq_cons v
  rw [hv, List.cons_append]
  cases t <;> first | rfl | exact absurd rfl ht

mutual

theorem value_tokens : ∀ (v : Json) (frames : List Frame) (rest : List Token),
    value frames (tokens v ++ rest) = after v frames rest
  | .null, _, _ => by
    rw [tokens]
    rfl
  | .number n, _, _ => by
    rw [tokens]
    rfl
  | .string s, _, _ => by
    rw [tokens]
    rfl
  | .array [], _, _ => by
    rw [tokens]
    rfl
  | .array (v :: items), frames, rest => by
    have hitems := after_itemTokens items [] v frames rest
    rw [tokens, List.cons_append, List.append_assoc, value_openArray, value_tokens v]
    simpa using hitems
  | .object [], _, _ => by
    rw [tokens]
    rfl
  | .object ((k, v) :: fields), frames, rest => by
    have hfields := after_fieldTokens fields [] k v frames rest
    rw [← value_tokens v] at hfields
    rw [tokens]
    simpa using hfields

theorem after_itemTokens : ∀ (items before : List Json) (v : Json) (frames : List Frame)
    (rest : List Token),
    after v (.items before :: frames) (itemTokens items ++ .closeArray :: rest) =
      after (.array (before ++ v :: items)) frames rest
  | [], _, _, _, _ => by
    rw [itemTokens]
    rfl
  | u :: items, before, v, frames, rest => by
    have hitems := after_itemTokens items (before ++ [v]) u frames rest
    rw [← value_tokens u] at hitems
    rw [itemTokens]
    simpa using hitems

theorem after_fieldTokens : ∀ (fields before : List (String × Json)) (k : String) (v : Json)
    (frames : List Frame) (rest : List Token),
    after v (.field before k :: frames) (fieldTokens fields ++ .closeObject :: rest) =
      after (.object (before ++ (k, v) :: fields)) frames rest
  | [], _, _, _, _, _ => by
    rw [fieldTokens]
    rfl
  | (k', u) :: fields, before, k, v, frames, rest => by
    have hfields := after_fieldTokens fields (before ++ [(k, v)]) k' u frames rest
    rw [← value_tokens u] at hfields
    rw [fieldTokens]
    simpa using hfields

end

/-- Reading gives back every value that is printed. -/
theorem read?_pretty (v : Json) : read? v.pretty = some v := by
  have hlex := lex_prettyAt 0 v [] (by nofun)
  have hvalue := value_tokens v [] []
  rw [List.append_nil] at hlex hvalue
  rw [read?, pretty, hlex]
  simpa [lex] using hvalue

end SipMigrate.Text.Json
