import SipMigrate.Sql.Rounding
import SipMigrate.Text.Decimal

/-! Doubles. There is one zero, and the result that is no number is left out. -/

namespace SipMigrate.Sql

inductive Double
  | finite (q : Rat)
  | infinite (negative : Bool)
deriving DecidableEq, Repr

namespace Double

/-- The size from which on a number is infinite. -/
def limit : Nat := Nat.pow 2 1024

/-- The nearest double. -/
def ofRat (q : Rat) : Double :=
  let r := BinaryFormat.double.round q
  if r.num.natAbs < limit * r.den then finite r else infinite (r.num < 0)

def ofInt (n : Int) : Double := ofRat (.ofInt n)

def neg : Double → Double
  | finite q => finite (-q)
  | infinite negative => infinite (!negative)

/-- The integer that a number is, unless it is as large as the last integers of 64 bits. -/
def toInt64? : Double → Option Int
  | finite q => if q.den = 1 && q.num.natAbs < 9223372036854775808 then some q.num else none
  | infinite _ => none

/-- The sum, unless infinities of both signs are added. -/
def add? : Double → Double → Option Double
  | finite p, finite q => some (ofRat (p + q))
  | finite _, infinite negative => some (infinite negative)
  | infinite negative, finite _ => some (infinite negative)
  | infinite a, infinite b => if a = b then some (infinite a) else none

/-- The product with a positive number. -/
def scale (r : Rat) : Double → Double
  | finite q => ofRat (q * r)
  | infinite negative => infinite negative

def order : Double → Double → Ordering
  | finite p, finite q => if p < q then .lt else if p = q then .eq else .gt
  | finite _, infinite negative => if negative then .gt else .lt
  | infinite negative, finite _ => if negative then .lt else .gt
  | infinite a, infinite b => if a = b then .eq else if a then .lt else .gt

/-- The order of an integer and a double, which are compared exactly. -/
def orderInt (n : Int) (x : Double) : Ordering := (finite (.ofInt n)).order x

end Double

end SipMigrate.Sql
