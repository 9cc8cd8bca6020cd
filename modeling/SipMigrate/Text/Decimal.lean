/-! Decimal numerals of ASCII digits, with any number of leading zeros. -/

namespace SipMigrate.Text

/-- The value of a string of digits. -/
def digitsValue (l : List Char) : Nat := l.foldl (fun n c => 10 * n + (c.toNat - '0'.toNat)) 0

/-- Reads a nonempty string of digits. -/
def natural? (l : List Char) : Option Nat :=
  if l ≠ [] ∧ l.all Char.isDigit then some (digitsValue l) else none

/-- Reads digits with an optional sign. -/
def integer? : List Char → Option Int
  | '-' :: l => (natural? l).map fun n => -(n : Int)
  | '+' :: l => (natural? l).map fun n => (n : Int)
  | l => (natural? l).map fun n => (n : Int)

/-- The integers of 64 bits with a sign. -/
def isInt64 (n : Int) : Bool := -9223372036854775808 ≤ n && n ≤ 9223372036854775807

end SipMigrate.Text
