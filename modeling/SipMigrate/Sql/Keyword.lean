import SipMigrate.Sql.Lexeme

/-! Keywords. Reserved ones cannot be names; all others are names wherever a
statement expects one, unless they mean something there. -/

namespace SipMigrate.Sql

def reservedWords : List String :=
  ["add", "all", "alter", "and", "as", "autoincrement", "between", "case", "check", "collate",
    "commit", "constraint", "create", "default", "deferrable", "delete", "distinct", "drop",
    "else", "escape", "except", "exists", "foreign", "from", "group", "having", "in", "index",
    "insert", "intersect", "into", "is", "isnull", "join", "limit", "not", "nothing", "notnull",
    "null", "on", "or", "order", "primary", "references", "returning", "select", "set", "table",
    "then", "to", "transaction", "union", "unique", "update", "using", "values", "when", "where"]

/-- Names of tables and columns that are neither words of a type nor aliases. -/
def joiningWords : List String :=
  ["cross", "full", "indexed", "inner", "left", "natural", "outer", "right"]

/-- Words for the time. There is no clock, so they are understood only where the time makes
no difference. -/
def clockWords : List String := ["current_date", "current_time", "current_timestamp"]

/-- Words that begin an operand which is not understood. -/
def openingWords : List String := ["case", "cast", "exists", "not", "raise"] ++ clockWords

/-- Words of operators. None is understood. -/
def operatorWords : List String :=
  ["and", "between", "collate", "glob", "in", "is", "like", "match", "not", "or", "regexp"]

/-- Symbols of operators. -/
def operatorSymbols : List String :=
  ["=", "==", "<>", "!=", "<", "<=", ">", ">=", "+", "-", "*", "/", "%", "&", "|", "||", "<<",
    ">>", "->", "->>"]

/-! What is not understood begins with one of these words. -/

def unknownStatements : List String :=
  ["alter", "attach", "detach", "explain", "pragma", "release", "replace", "savepoint", "values",
    "with"]

def unknownCreations : List String :=
  ["index", "temp", "temporary", "trigger", "unique", "view", "virtual"]

def unknownDrops : List String := ["index", "trigger", "view"]

/-- Where the rows of an insertion come from. -/
def unknownSources : List String := ["default", "select", "with"]

/-- How the rows of two queries are put together. -/
def unknownCombinations : List String := ["except", "intersect", "union"]

/-- What follows the table of a query. -/
def unknownJoins : List String :=
  ["cross", "full", "indexed", "inner", "join", "left", "natural", "not", "on", "outer", "right",
    "using"]

/-- What follows the condition of a query. -/
def unknownClauses : List String := unknownCombinations ++ ["group", "having", "limit", "order"]

/-- Words that begin a part of a column which is not understood. -/
def unknownColumnParts : List String :=
  ["as", "check", "collate", "default", "generated", "references"]

namespace Token

def isKeyword (t : Token) (k : String) : Bool := t.kind = .word && sameName t.text k

def isOneOf (t : Token) (words : List String) : Bool :=
  t.kind = .word && words.contains (lowerAscii t.text)

def isOperator (t : Token) : Bool :=
  t.isOneOf operatorWords || (t.kind = .symbol && operatorSymbols.contains t.text)

/-- A word that is a name, or a name in quotes. -/
def isIdentifier (t : Token) : Bool :=
  (t.kind = .word && !t.isOneOf reservedWords) || t.kind = .quotedName

/-- Names of tables and columns may also be written as string literals. -/
def isName (t : Token) : Bool := t.isIdentifier || t.kind = .text

/-- A word of a type, or an alias without `AS`. -/
def isPlainName (t : Token) : Bool := t.isName && !t.isOneOf joiningWords

end Token

end SipMigrate.Sql
