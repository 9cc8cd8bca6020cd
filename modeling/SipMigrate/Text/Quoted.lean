import SipMigrate.Text.HiddenTable

/-! Quoted text for messages. The quote and the backslash get a backslash in
front; NUL, tab, line feed and carriage return have a letter; a hidden
character is written by its code point in hexadecimal. The command line reports
an error as a constructor and its arguments. -/

namespace SipMigrate.Text

def isHidden (c : Char) : Bool := hiddenRanges.contains c

def escapeChar (quote : Char) (c : Char) : List Char :=
  if c = quote || c = '\\' then ['\\', c]
  else if c = '\x00' then ['\\', '0']
  else if c = '\t' then ['\\', 't']
  else if c = '\n' then ['\\', 'n']
  else if c = '\r' then ['\\', 'r']
  else if isHidden c then ['\\', 'u', '\x7b'] ++ Nat.toDigits 16 c.toNat ++ ['\x7d']
  else [c]

/-- A text between double quotes. -/
def quoted (s : String) : String :=
  String.ofList ('"' :: s.toList.flatMap (escapeChar '"') ++ ['"'])

/-- A character between single quotes. -/
def quotedChar (c : Char) : String :=
  String.ofList ('\x27' :: escapeChar '\x27' c ++ ['\x27'])

namespace Form

/-- The constructor and its arguments in parentheses. -/
def applied (name : String) (arguments : List String) : String :=
  name ++ "(" ++ ", ".intercalate arguments ++ ")"

/-- The constructor and its fields, each by name. -/
def record (name : String) (fields : List (String × String)) : String :=
  name ++ " \x7b " ++ ", ".intercalate (fields.map fun f => f.1 ++ ": " ++ f.2) ++ " \x7d"

end Form

end SipMigrate.Text
