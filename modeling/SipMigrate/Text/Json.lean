import SipMigrate.Text.Decimal

/-! JSON texts. A value is printed over several lines, two spaces a level, with
the fields of an object in the order given; a string literal is also read. -/

namespace SipMigrate.Text

inductive Json
  | null
  | number (n : Int)
  | string (s : String)
  | array (items : List Json)
  | object (fields : List (String × Json))

namespace Json

/-- Quotes, backslashes and control characters are escaped, nothing else is. -/
def escapeChar (c : Char) : List Char :=
  if c = '"' then ['\\', '"']
  else if c = '\\' then ['\\', '\\']
  else if c = '\n' then ['\\', 'n']
  else if c = '\r' then ['\\', 'r']
  else if c = '\t' then ['\\', 't']
  else if c = '\x08' then ['\\', 'b']
  else if c = '\x0c' then ['\\', 'f']
  else if c.toNat < 0x10 then ['\\', 'u', '0', '0', '0'] ++ Nat.toDigits 16 c.toNat
  else if c.toNat < 0x20 then ['\\', 'u', '0', '0'] ++ Nat.toDigits 16 c.toNat
  else [c]

def literal (s : String) : String :=
  String.ofList ('"' :: s.toList.flatMap escapeChar ++ ['"'])

def indent (level : Nat) : String := "".pushn ' ' (2 * level)

mutual

def prettyAt (level : Nat) : Json → String
  | null => "null"
  | number n => toString n
  | string s => literal s
  | array [] => "[]"
  | array (v :: items) =>
    "[\n" ++ indent (level + 1) ++ prettyAt (level + 1) v ++ prettyItems (level + 1) items ++
      "\n" ++ indent level ++ "]"
  | object [] => "\x7b\x7d"
  | object ((k, v) :: fields) =>
    "\x7b\n" ++ indent (level + 1) ++ literal k ++ ": " ++ prettyAt (level + 1) v ++
      prettyFields (level + 1) fields ++ "\n" ++ indent level ++ "\x7d"

def prettyItems (level : Nat) : List Json → String
  | [] => ""
  | v :: items => ",\n" ++ indent level ++ prettyAt level v ++ prettyItems level items

def prettyFields (level : Nat) : List (String × Json) → String
  | [] => ""
  | (k, v) :: fields =>
    ",\n" ++ indent level ++ literal k ++ ": " ++ prettyAt level v ++ prettyFields level fields

end

def pretty (v : Json) : String := prettyAt 0 v

/-! ### String literals -/

/-- The four hexadecimal digits after an escape. -/
def unit? (a b c d : Char) : Option Nat := do
  let value (c : Char) : Option Nat :=
    if c.isDigit then some (c.toNat - '0'.toNat)
    else if 'a' ≤ c ∧ c ≤ 'f' then some (c.toNat - 'a'.toNat + 10)
    else if 'A' ≤ c ∧ c ≤ 'F' then some (c.toNat - 'A'.toNat + 10)
    else none
  return 4096 * (← value a) + 256 * (← value b) + 16 * (← value c) + (← value d)

def shortEscape? : Char → Option Char
  | '"' => some '"'
  | '\\' => some '\\'
  | '/' => some '/'
  | 'b' => some '\x08'
  | 'f' => some '\x0c'
  | 'n' => some '\n'
  | 'r' => some '\r'
  | 't' => some '\t'
  | _ => none

/-- The characters up to the closing quote, and the text behind it. Two escaped
surrogates make one character, a lone one is refused. -/
def readBody : List Char → Option (List Char × List Char)
  | [] => none
  | '"' :: rest => some ([], rest)
  | '\\' :: 'u' :: a :: b :: c :: d :: '\\' :: 'u' :: a' :: b' :: c' :: d' :: rest => do
    let high ← unit? a b c d
    if 0xD800 ≤ high ∧ high ≤ 0xDBFF then
      let low ← unit? a' b' c' d'
      if 0xDC00 ≤ low ∧ low ≤ 0xDFFF then
        let (body, rest) ← readBody rest
        return (Char.ofNat (0x10000 + 0x400 * (high - 0xD800) + (low - 0xDC00)) :: body, rest)
      else none
    else if 0xDC00 ≤ high ∧ high ≤ 0xDFFF then none
    else
      let (body, rest) ← readBody ('\\' :: 'u' :: a' :: b' :: c' :: d' :: rest)
      return (Char.ofNat high :: body, rest)
  | '\\' :: 'u' :: a :: b :: c :: d :: rest => do
    let n ← unit? a b c d
    if 0xD800 ≤ n ∧ n ≤ 0xDFFF then none
    else
      let (body, rest) ← readBody rest
      return (Char.ofNat n :: body, rest)
  | '\\' :: c :: rest => do
    let c ← shortEscape? c
    let (body, rest) ← readBody rest
    return (c :: body, rest)
  | c :: rest =>
    if c.toNat < 0x20 then none
    else do
      let (body, rest) ← readBody rest
      return (c :: body, rest)

def isSpace (c : Char) : Bool := c = ' ' || c = '\n' || c = '\t' || c = '\r'

/-- Reads a text that is one string literal between spaces. -/
def readString? (l : List Char) : Option String :=
  match l.dropWhile isSpace with
  | '"' :: rest =>
    match readBody rest with
    | some (body, rest) => if rest.all isSpace then some (String.ofList body) else none
    | none => none
  | _ => none

end Json

end SipMigrate.Text
