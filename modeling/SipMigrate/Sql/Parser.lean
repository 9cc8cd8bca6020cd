import SipMigrate.Sql.Keyword
import SipMigrate.Sql.Statement

/-! Reading statements. A parser fails at the first token that cannot go on, or
at the end of the input when something is missing there.

What is understood is a part of the language: tables with the types, keys and constraints of
their columns, rows of literals, changes and queries of one table under a condition on one
equality or null, four aggregates, and transactions without savepoints. Views, indexes,
triggers, savepoints, changes of tables, expressions, joins, defaults, checks, references and
the clock are not understood: a statement with them is refused as if a word in it were wrong.
What is shown of all texts tells of a database that understands more only for texts in which
no such statement stands. -/

namespace SipMigrate.Sql

/-- The fault of the token that comes next. -/
def Fault.unexpected : List Token → Fault
  | [] => Cause.incompleteInput.fault
  | t :: _ =>
    if t.kind = .malformed then ⟨.unrecognizedToken t.text, some t.offset⟩
    else ⟨.nearWord t.text, some t.offset⟩

abbrev Parser := StateT (List Token) (Except Fault)

namespace Parser

variable {α : Type}

def reject : Parser α := fun l => .error (.unexpected l)

/-- Takes the next token if it is one of those meant. -/
def take (p : Token → Bool) : Parser Token
  | t :: rest => if p t then .ok (t, rest) else .error (.unexpected (t :: rest))
  | [] => .error (.unexpected [])

/-- Takes the next token, if it is one of those meant. -/
def take? (p : Token → Bool) : Parser (Option Token)
  | t :: rest => if p t then .ok (some t, rest) else .ok (none, t :: rest)
  | [] => .ok (none, [])

/-- Takes the next token, if it is one of those meant, and tells whether it is. -/
def accept (p : Token → Bool) : Parser Bool := do return (← take? p).isSome

/-- Takes tokens as long as they are of those meant. -/
def takeAll (p : Token → Bool) : Parser (List Token) := fun l =>
  .ok (l.takeWhile p, l.dropWhile p)

def keyword (k : String) : Parser Unit := do discard (take (·.isKeyword k))

def keywords : List String → Parser Unit
  | [] => return ()
  | k :: rest => do
    keyword k
    keywords rest

def symbol (s : String) : Parser Unit := do discard (take (·.isSymbol s))

def acceptKeyword (k : String) : Parser Bool := accept (·.isKeyword k)

def acceptSymbol (s : String) : Parser Bool := accept (·.isSymbol s)

/-- Some words begin what is not understood. The fault is found after them. -/
def turnAway (words : List String) : Parser Unit := do
  if ← accept (·.isOneOf words) then reject

/-- The end of a statement. -/
def finish : Parser Unit
  | [] => .ok ((), [])
  | t :: rest => if t.isSymbol ";" then .ok ((), rest) else .error (.unexpected (t :: rest))

/-- At most `n` further items, each after a comma. -/
def afterCommas (item : Parser α) : Nat → Parser (List α)
  | 0 => return []
  | n + 1 => do
    if ← acceptSymbol "," then
      let x ← item
      let rest ← afterCommas item n
      return x :: rest
    else return []

/-- Items between commas, at least one. -/
def separated (item : Parser α) : Parser (List α) := do
  let x ← item
  let rest ← afterCommas item (← get).length
  return x :: rest

def parenthesized (p : Parser α) : Parser α := do
  symbol "("
  let x ← p
  symbol ")"
  return x

/-- What a parser reads, with its text. -/
def withText (p : Parser α) : Parser (α × String) := fun l => do
  let (x, rest) ← p l
  return ((x, Token.span (l.take (l.length - rest.length))), rest)

/-! ### Names and operands -/

def nameOf (t : Token) : Name :=
  ⟨if t.kind = .word then t.text else t.content, t.text, t.offset⟩

def name : Parser Name := do return nameOf (← take Token.isName)

def isNumber (t : Token) : Bool :=
  t.kind = .integer || t.kind = .hexadecimal || t.kind = .real

def hexDigitValue (c : Char) : Nat :=
  if c.isDigit then Numeral.digitValue c else c.toLower.toNat - 'a'.toNat + 10

/-- Digits of base sixteen are the bits of an integer with a sign. -/
def hexadecimalValue (digits : List Char) : Int64 :=
  .ofNat (digits.foldl (fun n c => 16 * n + hexDigitValue c) 0)

/-- The value of a numeral; with a point or an exponent it is a real, even if it is whole. -/
def numberValue (t : Token) (negative : Bool) : Value :=
  if t.kind = .hexadecimal then
    let n := hexadecimalValue (t.chars.drop 2)
    .integer (if negative then -n else n).toInt
  else
    match Numeral.unsigned? negative t.chars with
    | some n => .ofNumeral n
    | none => .null

/-- A number of base sixteen has sixteen digits at most, zeros in front not
counted, and the least integer has no opposite. -/
def isTooLarge (t : Token) (negative : Bool) : Bool :=
  let digits := (t.chars.drop 2).dropWhile (· = '0')
  t.kind = .hexadecimal && (16 < digits.length ||
    (negative && hexadecimalValue digits = Int64.minValue))

def number (t : Token) (negative : Bool) : Operand :=
  if isTooLarge t negative then
    .faulty ⟨.largeHexadecimal ((if negative then "-" else "") ++ t.text), some t.offset⟩
  else .value (numberValue t negative)

/-- Whether an operand that is not understood begins here. -/
def opensOperand (t : Token) : Bool :=
  t.isOneOf openingWords || t.isSymbol "(" || t.isSymbol "~"

def operand : Parser Operand
  | t :: rest =>
    if t.isKeyword "null" then .ok (.value .null, rest)
    else if isNumber t then .ok (number t false, rest)
    else if t.kind = .text then .ok (.value (.text t.content), rest)
    else if opensOperand t then .error (.unexpected rest)
    else if t.isIdentifier then .ok (.name (nameOf t), rest)
    else if t.isSymbol "-" || t.isSymbol "+" then
      match rest with
      | u :: rest =>
        if isNumber u then .ok (number u (t.isSymbol "-"), rest)
        else if opensOperand u then .error (.unexpected rest)
        else .error (.unexpected (u :: rest))
      | [] => .error (.unexpected [])
    else .error (.unexpected (t :: rest))
  | [] => .error (.unexpected [])

/-- What no operator follows. Operators are not understood. -/
def alone (p : Parser α) : Parser α := do
  let x ← p
  if ← accept Token.isOperator then reject
  return x

def numeral : Parser Operand := do return number (← take isNumber) false

/-- The time, if a word for it comes. It is some text, for which the word itself stands; so
it must not be told from other texts. -/
def time? : Parser (Option Operand) := do
  return (← take? (·.isOneOf clockWords)).map fun t => .value (.text t.text)

/-- A condition on an operand. What it may be compared with is read by `other`. -/
def conditionOn (a : Operand) (other : Parser Operand) : Parser Condition := do
  if ← acceptKeyword "is" then
    let negated ← acceptKeyword "not"
    keyword "null"
    return .isNull a negated
  else if ← acceptKeyword "isnull" then return .isNull a false
  else if ← acceptKeyword "notnull" then return .isNull a true
  else if ← accept fun t => t.isSymbol "=" || t.isSymbol "==" then return .equal a (← other)
  else
    discard (accept Token.isOperator)
    reject

/-- The time is compared with numerals only, to none of which a text is equal. -/
def condition : Parser Condition := alone do
  match ← time? with
  | some time => conditionOn time numeral
  | none => conditionOn (← operand) operand

def filter : Parser (Option Condition) := do
  if ← acceptKeyword "where" then return some (← condition) else return none

/-! ### Descriptions of new tables -/

def signedNumber : Parser Unit := do
  discard (accept fun t => t.isSymbol "-" || t.isSymbol "+")
  discard (take isNumber)

/-- The words of a type, and one or two numbers in parentheses after them. -/
def typeTokens : Parser Unit := do
  let words ← takeAll Token.isPlainName
  if !words.isEmpty then
    if ← acceptSymbol "(" then
      signedNumber
      if ← acceptSymbol "," then signedNumber
      symbol ")"

/-- A type that begins with a name in quotes is that name. -/
def typeText : List Token → String
  | [] => ""
  | t :: rest => if t.kind = .word then Token.span (t :: rest) else t.content

def column : Parser Definition := do
  let n ← name
  let before ← get
  typeTokens
  return .column n.text (typeText (before.take (before.length - (← get).length)))

/-- What happens to a row that does not fit: it is refused. -/
def refusal : Parser Unit := do
  if ← acceptKeyword "on" then keywords ["conflict", "abort"]

/-- When references are looked at. There are none. -/
def deferral : Parser Unit := do
  if ← acceptKeyword "initially" then
    discard (take fun t => t.isKeyword "deferred" || t.isKeyword "immediate")

/-- A part of a column that follows its type. -/
def columnPart : Parser (Option Definition) := do
  if ← acceptKeyword "primary" then
    keyword "key"
    discard (acceptKeyword "asc")
    refusal
    return some .primary
  else if ← acceptKeyword "unique" then
    refusal
    return some .unique
  else if ← acceptKeyword "not" then
    if ← acceptKeyword "deferrable" then
      deferral
      return none
    else
      keyword "null"
      refusal
      return some .notNull
  else if ← acceptKeyword "null" then
    refusal
    return none
  else if ← acceptKeyword "deferrable" then
    deferral
    return none
  else if ← acceptKeyword "constraint" then
    discard name
    return none
  else
    discard (accept (·.isOneOf unknownColumnParts))
    reject

/-- A part of a table that is no column, if one comes. A name is understood, and
nothing else beyond its first words. -/
def tablePart : Parser Bool := do
  if ← acceptKeyword "constraint" then
    discard name
    return true
  else if ← accept fun t => t.isKeyword "primary" || t.isKeyword "foreign" then
    keyword "key"
    reject
  else if ← accept fun t => t.isKeyword "check" || t.isKeyword "unique" then reject
  else return false

/-- What may come next in a description. -/
inductive Stage
  | column
  | columnPart
  /-- After a part of the table no column comes. -/
  | tablePart
  | done

def step : Stage → Parser (Option Definition × Stage)
  | .column => do return (some (← column), .columnPart)
  | .columnPart => do
    if ← acceptSymbol "," then return (none, if ← tablePart then .tablePart else .column)
    else if ← acceptSymbol ")" then return (none, .done)
    else return (← columnPart, .columnPart)
  | .tablePart => do
    if ← acceptSymbol ")" then return (none, .done)
    discard (acceptSymbol ",")
    if ← tablePart then return (none, .tablePart) else reject
  | .done => return (none, .done)

/-- Whether reading stopped at the first of some tokens. -/
def stopsAt (stop : Except Fault α) (l : List Token) : Bool :=
  match stop with
  | .error f => f = .unexpected l
  | .ok _ => false

/-- The parts up to the closing parenthesis, in at most `n` steps, and what
comes after it, or the fault that stopped the reading. A part counts when the
token after it fits. -/
def parts : Nat → Stage → List Token → List Definition × Except Fault (List Token)
  | 0, _, l => ([], .error (.unexpected l))
  | n + 1, s, l =>
    match (step s).run l with
    | .error f => ([], .error f)
    | .ok ((d, .done), rest) => (d.toList, .ok rest)
    | .ok ((d, s), rest) =>
      let (more, stop) := parts n s rest
      if stopsAt stop rest then ([], stop) else (d.toList ++ more, stop)

/-- An option of a table stands after its columns. None is known. -/
def option : Parser Unit := do
  let t ←
    if ← acceptKeyword "without" then some <$> take Token.isName else take? Token.isName
  match t, (← get).head?.all fun u => u.isSymbol "," || u.isSymbol ";" with
  | none, _ => return ()
  | some t, true => throw (Cause.unknownOption t.text).fault
  | some _, false => reject

/-! ### Statements -/

/-- The description of a table, which never fails: a fault waits until the name
has been looked up. The text of a table begins with its name. -/
def description (ifMissing : Bool) (n : Name) (start : List Token) : Parser Statement := fun l =>
  let (ds, stop) := parts (l.length + 1) .column l
  let text (rest : List Token) := Token.span (start.take (start.length - rest.length))
  match stop with
  | .error f => .ok (.createTable ifMissing n ds (some f) "", [])
  | .ok rest =>
    match (do option; finish : Parser Unit).run rest with
    | .error f => .ok (.createTable ifMissing n ds (some f) "", [])
    | .ok _ => .ok (.createTable ifMissing n ds none (text rest), [])

def createTable : Parser Statement := do
  turnAway unknownCreations
  keyword "table"
  let ifMissing ← acceptKeyword "if"
  if ifMissing then keywords ["not", "exists"]
  let start ← get
  let n ← name
  symbol "("
  description ifMissing n start

def dropTable : Parser Statement := do
  turnAway unknownDrops
  keyword "table"
  let ifPresent ← acceptKeyword "if"
  if ifPresent then keyword "exists"
  return .dropTable ifPresent (← name)

def insert : Parser Statement := do
  turnAway ["or"]
  keyword "into"
  let table ← name
  turnAway ["as"]
  let cs ←
    if ← acceptSymbol "(" then
      let cs ← separated name
      symbol ")"
      pure (some cs)
    else pure none
  turnAway unknownSources
  keyword "values"
  let rows ← separated (parenthesized (separated (alone operand)))
  turnAway (unknownCombinations ++ ["on", "returning"])
  return .insert table cs rows

/-- The table whose rows are changed. -/
def target : Parser Name := do
  let n ← name
  turnAway ["as", "indexed", "not"]
  return n

def delete : Parser Statement := do
  keyword "from"
  let table ← target
  let f ← filter
  turnAway ["returning"]
  return .delete table f

def change : Parser (Name × Operand) := do
  if ← acceptSymbol "(" then reject
  let n ← name
  symbol "="
  return (n, ← alone operand)

def update : Parser Statement := do
  turnAway ["or"]
  let table ← target
  keyword "set"
  let changes ← separated change
  turnAway ["from"]
  let f ← filter
  turnAway ["returning"]
  return .update table changes f

def aggregates : List (String × Aggregate) :=
  [("count", .count), ("sum", .sum), ("min", .min), ("max", .max)]

/-- The function that a token names, if it is known. -/
def aggregate? (t : Token) : Option Aggregate := aggregates.lookup (lowerAscii (nameOf t).text)

/-- The arguments of a function; there may be none. -/
def arguments : Parser (List Operand) := do
  match ← get with
  | t :: _ => if t.isSymbol ")" then return [] else separated (alone operand)
  | [] => reject

/-- The aggregate that a token names with its arguments. Only a count may have none. -/
def aggregate (f : Option Aggregate) (t : Token) (distinct : Bool) (arguments : List Operand) :
    Result :=
  match f, arguments with
  | none, _ => .faulty ⟨.noSuchFunction (nameOf t).text, some t.offset⟩ arguments
  | some .count, [] =>
    if distinct then .faulty Cause.distinctArguments.fault [] else .countRows
  | some f, [o] => .aggregate f distinct o
  | some _, _ => .faulty ⟨.argumentCount (nameOf t).text, some t.offset⟩ arguments

/-- The call of the function that a token names. A star stands for no argument. -/
def call (t : Token) : Parser Result := do
  if ← acceptSymbol "*" then return aggregate (aggregate? t) t false []
  let word ← take? fun u => u.isKeyword "distinct" || u.isKeyword "all"
  return aggregate (aggregate? t) t (word.any (·.isKeyword "distinct")) (← arguments)

/-- Whether a function is called here. -/
def isCall : List Token → Bool
  | t :: u :: _ => t.isIdentifier && !opensOperand t && u.isSymbol "("
  | _ => false

/-- An operand as a result. Of a time a query tells only that it is a text. -/
def shown : Parser Operand := do
  match ← time? with
  | some time => return time
  | none => operand

def result : Parser Result := do
  if ← acceptSymbol "*" then return .all
  else if isCall (← get) then
    let t ← take Token.isIdentifier
    alone (parenthesized (call t))
  else return .operand (← alone shown)

/-- Another name, with or without `AS` before it. -/
def otherName? : Parser (Option String) := do
  if ← acceptKeyword "as" then return some (← name).text
  return (← take? Token.isPlainName).map fun t => (nameOf t).text

def resultColumn : Parser ResultColumn := do
  let (r, text) ← withText result
  if r = .all then return ⟨r, text, none⟩ else return ⟨r, text, ← otherName?⟩

/-- The table of a query. Only one is understood. -/
def source : Parser Name := do
  if ← acceptSymbol "(" then reject
  let table ← name
  discard otherName?
  if ← acceptSymbol "," then reject
  turnAway unknownJoins
  return table

def select : Parser Statement := do
  discard (accept fun t => t.isKeyword "distinct" || t.isKeyword "all")
  let results ← separated resultColumn
  let table ← if ← acceptKeyword "from" then some <$> source else pure none
  let f ← filter
  turnAway unknownClauses
  return .select results table f

/-- The name that a transaction may have is not kept. -/
def transactionName : Parser Unit := do
  if ← acceptKeyword "transaction" then discard (take? Token.isName)

def beginTransaction : Parser Statement := do
  discard (accept fun t =>
    t.isKeyword "deferred" || t.isKeyword "immediate" || t.isKeyword "exclusive")
  transactionName
  return .begin

def closing (s : Statement) : Parser Statement := do
  transactionName
  if s = .rollback then turnAway ["to"]
  return s

/-- The statement that the first word begins. -/
def body (first : Token) : Parser Statement :=
  if first.isKeyword "create" then createTable
  else if first.isKeyword "drop" then dropTable
  else if first.isKeyword "insert" then insert
  else if first.isKeyword "delete" then delete
  else if first.isKeyword "update" then update
  else if first.isKeyword "select" then select
  else if first.isKeyword "begin" then beginTransaction
  else if first.isKeyword "commit" || first.isKeyword "end" then closing .commit
  else if first.isKeyword "rollback" then closing .rollback
  else if first.isOneOf unknownStatements then reject
  else fun rest => .error (.unexpected (first :: rest))

def statement : List Token → Except Fault Statement
  | [] => .error (.unexpected [])
  | t :: rest => do
    let (s, rest) ← (body t).run rest
    let _ ← finish.run rest
    return s

end Parser

end SipMigrate.Sql
