import SipMigrate.Sql.Double

/-! Numerals. Numbers are read and written with intermediate results of 64 bits,
so the last digits of a double may be lost on the way: fifteen digits are
written. -/

namespace SipMigrate.Sql

open Text

def isSpace (c : Char) : Bool := (0x09 ≤ c.toNat && c.toNat ≤ 0x0D) || c = ' '

structure Numeral where
  isNegative : Bool
  /-- The digits in front of the point. -/
  whole : List Char
  fraction : List Char
  exponent : Int
  /-- Whether there is neither a point nor an exponent. -/
  isInteger : Bool

namespace Numeral

/-! ### The parts of a numeral -/

def digitValue (c : Char) : Nat := c.toNat - '0'.toNat

/-- The value of digits. An exponent of more than five digits counts as 10000. -/
def exponentValue (digits : List Char) : Nat :=
  digits.foldl (fun n c => if n < 10000 then 10 * n + digitValue c else 10000) 0

def exponentDigits? (digits : List Char) : Option Nat :=
  if digits.isEmpty || !digits.all Char.isDigit then none else some (exponentValue digits)

/-- Reads the exponent, if there is one, up to the end. -/
def exponent? : List Char → Option Int
  | [] => some 0
  | c :: rest =>
    if c = 'e' || c = 'E' then
      match rest with
      | '-' :: digits => (exponentDigits? digits).map fun n => -(n : Int)
      | '+' :: digits => (exponentDigits? digits).map fun n => (n : Int)
      | digits => (exponentDigits? digits).map fun n => (n : Int)
    else none

/-- What follows the digits in front of the point: the digits behind it, and the rest. -/
def splitFraction : List Char → List Char × List Char
  | '.' :: rest => rest.span Char.isDigit
  | rest => ([], rest)

def unsigned? (isNegative : Bool) (l : List Char) : Option Numeral :=
  let whole := l.takeWhile Char.isDigit
  let rest := l.dropWhile Char.isDigit
  let (fraction, tail) := splitFraction rest
  if whole.isEmpty && fraction.isEmpty then none
  else (exponent? tail).map fun e => ⟨isNegative, whole, fraction, e, rest.isEmpty⟩

/-- The numeral that characters spell. -/
def ofChars? : List Char → Option Numeral
  | '-' :: l => unsigned? true l
  | '+' :: l => unsigned? false l
  | l => unsigned? false l

/-- The numeral that a text spells, between spaces. -/
def ofText? (s : String) : Option Numeral :=
  ofChars? ((s.toList.dropWhile isSpace).reverse.dropWhile isSpace).reverse

def signed (n : Numeral) (value : Nat) : Int := if n.isNegative then -(value : Int) else value

/-- The value of an integer of 64 bits. -/
def integer? (n : Numeral) : Option Int :=
  let value := n.signed (digitsValue n.whole)
  if n.isInteger && isInt64 value then some value else none

/-! ### The significand -/

/-- A significand that has reached this size takes no more digits. -/
def significandLimit : Nat := 922337203685477579

/-- Takes digits in front of the point; the digits that are left out are counted. -/
def takeWhole : Nat → List Char → Nat × Nat
  | s, [] => (s, 0)
  | s, c :: rest =>
    if s < significandLimit then takeWhole (10 * s + digitValue c) rest else (s, rest.length + 1)

/-- Takes digits behind the point; the digits that are taken are counted. -/
def takeFraction : Nat → List Char → Nat × Nat
  | s, [] => (s, 0)
  | s, c :: rest =>
    if s < significandLimit then
      let (t, taken) := takeFraction (10 * s + digitValue c) rest
      (t, taken + 1)
    else (s, 0)

/-! ### The value -/

def extended (q : Rat) : Rat := BinaryFormat.extended.round q

/-- The power `10 ^ n` for `n < 512`, by squaring. -/
def powerOfTen (n : Nat) : Rat :=
  ((List.range 9).foldl
    (fun (r, x) i => (if n.testBit i then extended (r * x) else r, extended (x * x)))
    (Rat.ofInt 1, Rat.ofInt 10)).1

/-- Moves powers of ten from the exponent into the significand. -/
def absorb : Nat → Nat → Nat × Nat
  | s, 0 => (s, 0)
  | s, e + 1 => if s < 922337203685477580 then absorb (10 * s) e else (s, e + 1)

/-- Moves powers of ten from the significand into an exponent below zero. -/
def release : Nat → Nat → Nat × Nat
  | s, 0 => (s, 0)
  | s, e + 1 => if s % 10 = 0 then release (s / 10) e else (s, e + 1)

/-- The double nearest to `10 ^ 308`. -/
def hugePower : Rat := BinaryFormat.double.round (.ofInt (Nat.pow 10 308))

/-- The double of `s * 10 ^ e`. -/
def scaleUp (s e : Nat) : Double :=
  let q := Rat.ofInt s
  if e = 0 then .ofRat q
  else if e ≤ 307 then .ofRat (extended (q * powerOfTen e))
  else if e < 342 then (Double.ofRat (extended (q * powerOfTen (e - 308)))).scale hugePower
  else .infinite false

/-- The double of `s / 10 ^ e`. -/
def scaleDown (s e : Nat) : Double :=
  let q := Rat.ofInt s
  if e = 0 then .ofRat q
  else if e ≤ 307 then .ofRat (extended (q / powerOfTen e))
  else if e < 342 then (Double.ofRat (extended (q / powerOfTen (e - 308)))).scale hugePower.inv
  else .ofInt 0

/-- The double of `s * 10 ^ e`. -/
def ofScientific (s : Nat) (e : Int) : Double :=
  if s = 0 then .ofInt 0
  else if 0 ≤ e then
    let (s, e) := absorb s e.toNat
    scaleUp s e
  else
    let (s, e) := release s (-e).toNat
    scaleDown s e

def value (n : Numeral) : Double :=
  let (s, left) := takeWhole 0 n.whole
  let (s, taken) := takeFraction s n.fraction
  let x := ofScientific s (n.exponent + left - taken)
  if n.isNegative then x.neg else x

/-! ### Writing -/

/-- Steps of `10 ^ places` from a scale to the greatest one that is not above a number. -/
def climb (q : Rat) (places : Nat) : Nat → Rat × Int → Rat × Int
  | 0, r => r
  | fuel + 1, (scale, e) =>
    let next := extended (BinaryFormat.double.round (.ofInt (Nat.pow 10 places)) * scale)
    if next ≤ q then climb q places fuel (next, e + places) else (scale, e)

/-- Multiplies by `10 ^ places` as long as a number is below a bound. -/
def lift (bound : Rat) (places : Nat) : Nat → Rat × Int → Rat × Int
  | 0, r => r
  | fuel + 1, (q, e) =>
    if q < bound then lift bound places fuel (extended (q * .ofInt (Nat.pow 10 places)), e - places)
    else (q, e)

/-- A positive number as one from 1 up to 10 and a power of ten. -/
def normalized (q : Rat) : Rat × Int :=
  let (scale, e) := [100, 10, 1].foldl (fun r places => climb q places 16 r) (Rat.ofInt 1, 0)
  lift (.ofInt 1) 1 16
    (lift (BinaryFormat.double.round (mkRat 1 100000000)) 8 64 (extended (q / scale), e))

/-- Half a unit of the fifteenth digit, as a product of two doubles. -/
def halfUnit : Rat :=
  BinaryFormat.double.round (BinaryFormat.double.round (mkRat 1 20000) *
    BinaryFormat.double.round (mkRat 1 10000000000))

/-- The first `n` digits of a number below ten. -/
def firstDigits : Nat → Rat → List Char
  | 0, _ => []
  | n + 1, q =>
    Nat.digitChar q.floor.toNat :: firstDigits n (extended ((q - .ofInt q.floor) * .ofInt 10))

/-- The fifteen digits of a number that is not negative, and the power of ten of the first. -/
def significant (q : Rat) : List Char × Int :=
  let (x, e) := if q = .ofInt 0 then (q, 0) else normalized q
  let x := extended (x + halfUnit)
  if x < .ofInt 10 then (firstDigits 15 x, e)
  else (firstDigits 15 (extended (x * BinaryFormat.double.round (mkRat 1 10))), e + 1)

/-- The digits behind the point, without zeros at the end, but at least one. -/
def fractionDigits (digits : List Char) : List Char :=
  match (digits.reverse.dropWhile (· = '0')).reverse with
  | [] => ['0']
  | digits => digits

/-- The exponent with its sign and at least two digits. -/
def exponentText (e : Int) : List Char :=
  'e' :: (if e < 0 then '-' else '+') :: (Nat.toDigits 10 e.natAbs).leftpad 2 '0'

/-- Digits with a point. Very large and very small numbers have an exponent. -/
def layout (digits : List Char) (e : Int) : List Char :=
  if e < -4 || 14 < e then
    digits.take 1 ++ '.' :: fractionDigits (digits.drop 1) ++ exponentText e
  else if e < 0 then '0' :: '.' :: (List.replicate (e.natAbs - 1) '0' ++ fractionDigits digits)
  else digits.take (e.toNat + 1) ++ '.' :: fractionDigits (digits.drop (e.toNat + 1))

end Numeral

def Double.text : Double → String
  | .infinite negative => if negative then "-Inf" else "Inf"
  | .finite q =>
    let (digits, e) := Numeral.significant (mkRat q.num.natAbs q.den)
    String.ofList ((if q.num < 0 then ['-'] else []) ++ Numeral.layout digits e)

end SipMigrate.Sql
