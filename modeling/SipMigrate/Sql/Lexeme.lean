import SipMigrate.Sql.Value
import SipMigrate.Text.Basic

/-! Lexemes of statements. The lexemes of a text are the text cut into pieces:
spaces and comments are lexemes too, and nothing is lost. -/

namespace SipMigrate.Sql

open Text

inductive LexemeKind
  | blank
  | word
  /-- A name in double quotes, backquotes or brackets. -/
  | quotedName
  | text
  | integer
  | hexadecimal
  | real
  | symbol
  /-- A literal that is not closed, or characters that begin no lexeme. -/
  | malformed
deriving DecidableEq, Repr

structure Lexeme where
  kind : LexemeKind
  chars : List Char
deriving DecidableEq, Repr

namespace Lexeme

/-- Characters that a name may hold: ASCII letters and digits, the underscore,
the dollar sign, and all characters outside ASCII. -/
def isNameChar (c : Char) : Bool :=
  c.isAlphanum || c = '_' || c = '$' || 0x80 ≤ c.toNat

def beginsName (c : Char) : Bool := c.isAlpha || c = '_' || 0x80 ≤ c.toNat

/-- Spaces that may begin a blank; the vertical tab only continues one. -/
def beginsBlank (c : Char) : Bool := isSpace c && c ≠ '\x0b'

/-- The number of characters up to the end of a comment, which ends at a star and a slash. -/
def commentLength : List Char → Nat
  | [] => 0
  | '*' :: '/' :: _ => 2
  | _ :: rest => commentLength rest + 1

/-- The number of characters up to the closing quote, which is not doubled. -/
def quotedLength? (quote : Char) : List Char → Option Nat
  | [] => none
  | [c] => if c = quote then some 1 else none
  | c :: d :: rest =>
    if c = quote then
      if d = quote then (quotedLength? quote rest).map (· + 2) else some 1
    else (quotedLength? quote (d :: rest)).map (· + 1)

/-- The kind and the length of a lexeme that is closed, or of all the rest. -/
def closed (kind : LexemeKind) (rest : List Char) : Option Nat → LexemeKind × Nat
  | some n => (kind, n)
  | none => (.malformed, rest.length)

def isHexDigit (c : Char) : Bool :=
  c.isDigit || ('a' ≤ c.toLower && c.toLower ≤ 'f')

/-- The number of characters of a point and the digits after it. -/
def fractionLength : List Char → Nat
  | '.' :: digits => (digits.takeWhile Char.isDigit).length + 1
  | _ => 0

/-- The number of characters of an exponent, which has at least one digit. -/
def exponentLength : List Char → Nat
  | c :: rest =>
    let sign := if rest.head? = some '+' || rest.head? = some '-' then 1 else 0
    let digits := ((rest.drop sign).takeWhile Char.isDigit).length
    if (c = 'e' || c = 'E') && digits ≠ 0 then 1 + sign + digits else 0
  | [] => 0

/-- A decimal number, which no character of a name may follow. -/
def decimal (l : List Char) : LexemeKind × Nat :=
  let whole := (l.takeWhile Char.isDigit).length
  let fraction := fractionLength (l.drop whole)
  let exponent := exponentLength (l.drop (whole + fraction))
  let length := whole + fraction + exponent
  match ((l.drop length).takeWhile isNameChar).length with
  | 0 => (if fraction + exponent = 0 then .integer else .real, length)
  | trailing => (.malformed, length + trailing)

/-- A number is decimal, or begins with `0x` and has the base sixteen. -/
def number : List Char → LexemeKind × Nat
  | '0' :: x :: d :: rest =>
    if (x = 'x' || x = 'X') && isHexDigit d then
      (.hexadecimal, 3 + (rest.takeWhile isHexDigit).length)
    else decimal ('0' :: x :: d :: rest)
  | l => decimal l

/-- Symbols of more than one character. -/
def longSymbols : List (List Char) :=
  [['-', '>', '>'], ['-', '>'], ['=', '='], ['<', '='], ['<', '>'], ['<', '<'], ['>', '='],
    ['>', '>'], ['!', '='], ['|', '|']]

def symbols : List Char :=
  ['(', ')', ';', '+', '-', '*', '/', '%', '=', '<', '>', '|', ',', '&', '~', '.']

def symbol (c : Char) (rest : List Char) : LexemeKind × Nat :=
  match longSymbols.find? (·.isPrefixOf (c :: rest)) with
  | some s => (.symbol, s.length - 1)
  | none => if c ∈ symbols then (.symbol, 0) else (.malformed, 0)

def parameter (rest : List Char) : LexemeKind × Nat :=
  match (rest.takeWhile isNameChar).length with
  | 0 => (.malformed, 0)
  | n => (.symbol, n)

/-- The kind of the lexeme at the start of a text, and how many characters
after the first one it takes. -/
def first (c : Char) (rest : List Char) : LexemeKind × Nat :=
  if beginsBlank c then (.blank, (rest.takeWhile isSpace).length)
  else if c = '\ufeff' then (.blank, 0)
  else if beginsName c then (.word, (rest.takeWhile isNameChar).length)
  else if c.isDigit then
    let (kind, n) := number (c :: rest)
    (kind, n - 1)
  else if c = '.' && (rest.head?.any Char.isDigit) then
    let (kind, n) := number (c :: rest)
    (kind, n - 1)
  else if c = '\x27' then closed .text rest (quotedLength? c rest)
  else if c = '"' || c = '\x60' then closed .quotedName rest (quotedLength? c rest)
  else if c = '[' then closed .quotedName rest ((rest.idxOf? ']').map (· + 1))
  else if c = '?' then (.symbol, (rest.takeWhile Char.isDigit).length)
  else if c = '$' || c = '@' || c = '#' || c = ':' then parameter rest
  else
    match c, rest with
    | '-', '-' :: line => (.blank, 1 + (line.takeWhile (· ≠ '\n')).length)
    | '/', '*' :: d :: body => (.blank, 1 + commentLength (d :: body))
    | c, rest => symbol c rest

/-- The lexemes of a text after the first `skipped` characters. -/
def cutAfter : Nat → List Char → List Lexeme
  | _, [] => []
  | skipped + 1, _ :: rest => cutAfter skipped rest
  | 0, c :: rest =>
    let (kind, n) := first c rest
    ⟨kind, c :: rest.take n⟩ :: cutAfter n rest

def cut (text : List Char) : List Lexeme := cutAfter 0 text

def isSemicolon (x : Lexeme) : Bool := x.kind = .symbol && x.chars = [';']

/-- Lexemes cut into statements. A statement ends with the first semicolon
after something else than blanks and semicolons. -/
def statementsAfter (current : List Lexeme) : List Lexeme → List (List Lexeme)
  | [] => if current.isEmpty then [] else [current]
  | x :: rest =>
    if x.isSemicolon && current.any fun y => y.kind ≠ .blank && !y.isSemicolon then
      (current ++ [x]) :: statementsAfter [] rest
    else statementsAfter (current ++ [x]) rest

def statements (l : List Lexeme) : List (List Lexeme) := statementsAfter [] l

end Lexeme

/-- A lexeme that is not blank, with its place. -/
structure Token where
  kind : LexemeKind
  chars : List Char
  /-- The blanks in front of it. -/
  gap : List Char
  /-- The number of bytes in front of it. -/
  offset : Nat
deriving DecidableEq, Repr

namespace Token

def text (t : Token) : String := String.ofList t.chars

/-- The tokens of lexemes before which `gap` stands; `offset` bytes come before them. -/
def ofLexemesAfter (gap : List Char) (offset : Nat) : List Lexeme → List Token
  | [] => []
  | x :: rest =>
    let behind := offset + (x.chars.flatMap String.utf8EncodeChar).length
    if x.kind = .blank then ofLexemesAfter (gap ++ x.chars) behind rest
    else ⟨x.kind, x.chars, gap, offset⟩ :: ofLexemesAfter [] behind rest

def ofLexemes (l : List Lexeme) : List Token := ofLexemesAfter [] 0 l

def isSymbol (t : Token) (s : String) : Bool := t.kind = .symbol && t.text = s

/-- Drops the second of two quotes. -/
def unquote (quote : Char) : List Char → List Char
  | c :: d :: rest =>
    if c = quote && d = quote then c :: unquote quote rest else c :: unquote quote (d :: rest)
  | l => l

/-- What a quoted token stands for. -/
def content (t : Token) : String :=
  match t.chars with
  | '[' :: rest => String.ofList rest.dropLast
  | quote :: rest => String.ofList (unquote quote rest.dropLast)
  | [] => ""

/-- The text of tokens that follow one another, from the first to the last. -/
def span : List Token → String
  | [] => ""
  | t :: rest => String.ofList (t.chars ++ rest.flatMap fun u => u.gap ++ u.chars)

end Token

end SipMigrate.Sql
