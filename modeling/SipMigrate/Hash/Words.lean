import SipMigrate.Hash.Endian

/-! The four words of SipHash and the rounds on them. -/

namespace SipMigrate.Hash

structure Words where
  v0 : UInt64
  v1 : UInt64
  v2 : UInt64
  v3 : UInt64
deriving DecidableEq, Repr

def rotateLeft (x k : UInt64) : UInt64 := (x <<< k) ||| (x >>> (64 - k))

namespace Words

/-- The words at the start, from the two halves of the key. -/
def start (k0 k1 : UInt64) : Words where
  v0 := k0 ^^^ 0x736f6d6570736575
  v1 := k1 ^^^ 0x646f72616e646f6d
  v2 := k0 ^^^ 0x6c7967656e657261
  v3 := k1 ^^^ 0x7465646279746573

/-- The first half of a round adds `v1` to `v0` and `v3` to `v2`. -/
def halfRound (w : Words) : Words :=
  let v0 := w.v0 + w.v1
  let v2 := w.v2 + w.v3
  ⟨rotateLeft v0 32, rotateLeft w.v1 13 ^^^ v0, v2, rotateLeft w.v3 16 ^^^ v2⟩

/-- The second half adds `v1` to `v2` and `v3` to `v0`. -/
def otherHalfRound (w : Words) : Words :=
  let v2 := w.v2 + w.v1
  let v0 := w.v0 + w.v3
  ⟨v0, rotateLeft w.v1 17 ^^^ v2, rotateLeft v2 32, rotateLeft w.v3 21 ^^^ v0⟩

def round (w : Words) : Words := w.halfRound.otherHalfRound

/-- Takes in one block by two rounds. -/
def compress (w : Words) (m : UInt64) : Words :=
  let r := { w with v3 := w.v3 ^^^ m }.round.round
  { r with v0 := r.v0 ^^^ m }

/-- The four rounds at the end. -/
def finalize (w : Words) : Words := { w with v2 := w.v2 ^^^ 0xff }.round.round.round.round

def fold (w : Words) : UInt64 := w.v0 ^^^ w.v1 ^^^ w.v2 ^^^ w.v3

/-- Takes in the whole blocks of eight bytes, and gives back the bytes after them. -/
def absorb (w : Words) : List UInt8 → Words × List UInt8
  | b0 :: b1 :: b2 :: b3 :: b4 :: b5 :: b6 :: b7 :: rest =>
    (w.compress (loadLittle [b0, b1, b2, b3, b4, b5, b6, b7])).absorb rest
  | rest => (w, rest)

end Words

end SipMigrate.Hash
