/-! Integers as bytes, least or most significant byte first. -/

namespace SipMigrate.Hash

/-- The word whose bytes are given, least significant first; for at most eight bytes. -/
def loadLittle : List UInt8 → UInt64
  | [] => 0
  | b :: rest => b.toUInt64 ||| (loadLittle rest <<< 8)

/-- The low `width` bytes of a number, least significant first. -/
def littleBytes : Nat → Nat → List UInt8
  | 0, _ => []
  | width + 1, n => UInt8.ofNat n :: littleBytes width (n / 256)

def bigBytes (width n : Nat) : List UInt8 := (littleBytes width n).reverse

/-- The two's complement of an integer in `width` bytes. -/
def twosComplement (width : Nat) (n : Int) : Nat := (n % Nat.pow 256 width).toNat

@[simp] theorem length_littleBytes (width n : Nat) : (littleBytes width n).length = width := by
  induction width generalizing n with
  | zero => rfl
  | succ width ih => simp [littleBytes, ih]

@[simp] theorem length_bigBytes (width n : Nat) : (bigBytes width n).length = width := by
  simp [bigBytes]

end SipMigrate.Hash
