/-! Rounding of numbers to a binary format. Numbers are rational and exact; a
format says which of them it holds. -/

namespace SipMigrate.Sql

/-- A binary format holds the multiples of `2 ^ least` that have no more than
`bits` significant bits. -/
structure BinaryFormat where
  bits : Nat
  least : Int

namespace BinaryFormat

/-- Doubles, but for the limit of their size. -/
def double : BinaryFormat := ⟨53, -1074⟩

/-- The format of intermediate results. -/
def extended : BinaryFormat := ⟨64, -16445⟩

def powerOfTwo (k : Int) : Rat :=
  if 0 ≤ k then .ofInt (Nat.pow 2 k.toNat) else mkRat 1 (Nat.pow 2 (-k).toNat)

/-- The greatest `k` such that `2 ^ k` is not above the size of a number that is not zero. -/
def leadingPlace (q : Rat) : Int :=
  let k : Int := q.num.natAbs.log2 - q.den.log2
  if powerOfTwo k ≤ mkRat q.num.natAbs q.den then k else k - 1

/-- The nearest integer. A half goes to the even one of its neighbours. -/
def nearest (q : Rat) : Int :=
  let below := q.floor
  let twice := 2 * (q.num - below * q.den)
  if twice < q.den then below
  else if q.den < twice then below + 1
  else if below % 2 = 0 then below
  else below + 1

/-- The nearest number of a format. -/
def round (f : BinaryFormat) (q : Rat) : Rat :=
  let unit := powerOfTwo (max (leadingPlace q - (f.bits - 1)) f.least)
  .ofInt (nearest (q / unit)) * unit

end BinaryFormat

end SipMigrate.Sql
