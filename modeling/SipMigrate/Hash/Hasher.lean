import SipMigrate.Hash.Digest
import SipMigrate.Hash.Key
import SipMigrate.Hash.State
import SipMigrate.Text.Lowercase

/-! SipHash-2-4 of a byte string, a text or a number. -/

namespace SipMigrate.Hash

open Text

/-- A hasher holds the two halves of its key. -/
structure Hasher where
  k0 : UInt64
  k1 : UInt64
deriving DecidableEq

namespace Hasher

def ofKey (k : Key) : Hasher := ⟨k.halves.1, k.halves.2⟩

def ofKeyBytes (bytes : List UInt8) : Except HashError Hasher := (Key.ofBytes bytes).map ofKey

/-- The state of a new computation. -/
def start (h : Hasher) : State := State.start h.k0 h.k1

def hash (h : Hasher) (data : List UInt8) : Digest := ⟨(h.start.update data).finish⟩

/-- Hashes the UTF-8 bytes of a text, lowercased first when `foldCase` is set. -/
def hashText (h : Hasher) (text : String) (foldCase : Bool) : Digest :=
  h.hash (utf8 (if foldCase then lowercase text else text))

/-- Hashes eight bytes, most significant first. -/
def hashUInt64 (h : Hasher) (n : UInt64) : Digest := h.hash (bigBytes 8 n.toNat)

/-- Hashes the two's complement in eight bytes, most significant first. -/
def hashInt64 (h : Hasher) (n : Int64) : Digest := h.hash (bigBytes 8 n.toUInt64.toNat)

/-- The form of a hasher shows no bit of its key. -/
def form (_ : Hasher) : String := Form.record "SipHasher24" [("key", quoted "[REDACTED]")]

end Hasher

/-- The digest of a byte string under a key. -/
def siphash24 (k : Key) (data : List UInt8) : Digest := (Hasher.ofKey k).hash data

end SipMigrate.Hash
