import SipMigrate.Hash.Words

/-! The state of one computation. Whole blocks have gone into the words; the
bytes after the last whole block wait in `tail`. -/

namespace SipMigrate.Hash

structure State where
  words : Words
  /-- The waiting bytes, packed little-endian. -/
  tail : UInt64
  /-- The number of waiting bytes, below eight. -/
  fill : Nat
  /-- The number of bytes fed, of which only the low byte reaches the digest. -/
  length : UInt64
deriving DecidableEq, Repr

namespace State

def start (k0 k1 : UInt64) : State := ⟨Words.start k0 k1, 0, 0, 0⟩

/-- Absorbs the whole blocks of `input` with nothing waiting before it, and
keeps the bytes after them. -/
def settle (words : Words) (length : UInt64) (input : List UInt8) : State :=
  let (words, rest) := words.absorb input
  ⟨words, loadLittle rest, rest.length, length⟩

/-- Feeds bytes: they first complete the waiting block. -/
def update (s : State) (input : List UInt8) : State :=
  let length := s.length + UInt64.ofNat input.length
  if s.fill = 0 then settle s.words length input
  else
    let head := input.take (8 - s.fill)
    let tail := s.tail ||| (loadLittle head <<< UInt64.ofNat (8 * s.fill))
    let fill := s.fill + head.length
    if fill < 8 then ⟨s.words, tail, fill, length⟩
    else settle (s.words.compress tail) length (input.drop (8 - s.fill))

/-- The block of the waiting bytes with the length in its last byte. -/
def lastBlock (s : State) : UInt64 := ((s.length &&& 0xff) <<< 56) ||| s.tail

def finish (s : State) : UInt64 := (s.words.compress s.lastBlock).finalize.fold

end State

end SipMigrate.Hash
