import SipMigrate.Text.Blank

/-! Migration scripts. A semicolon that is the last character of its line but
for blanks ends a statement. Carriage returns count as spaces. The splitter
knows nothing of the language of the statements, so such a semicolon ends a
statement within a string literal too. -/

namespace SipMigrate.Migration.Script

open Text

/-- The lines of a text, without their line feeds. -/
def lines : List Char → List (List Char)
  | [] => [[]]
  | c :: rest =>
    if c = '\n' then [] :: lines rest
    else
      match lines rest with
      | line :: more => (c :: line) :: more
      | [] => [[c]]

/-- The part of a line before the semicolon that ends a statement on it. -/
def beforeTerminator? (line : List Char) : Option (List Char) :=
  match (trimEnd line).getLast? with
  | some ';' => some (trimEnd line).dropLast
  | _ => none

/-- The texts of the statements, blanks and all; `current` has been read of the first one. -/
def gather (current : List Char) : List (List Char) → List (List Char)
  | [] => [current]
  | line :: rest =>
    match beforeTerminator? line with
    | some body => (current ++ body) :: gather [] rest
    | none => gather (current ++ line ++ ['\n']) rest

def spaceForReturn (c : Char) : Char := if c = '\r' then ' ' else c

/-- The statements of a script: trimmed, and none of them empty. -/
def statements (text : String) : List String :=
  let pieces := (gather [] (lines (text.toList.map spaceForReturn))).map trim
  (pieces.filter fun p => !p.isEmpty).map String.ofList

end SipMigrate.Migration.Script
