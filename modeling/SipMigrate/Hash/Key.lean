import SipMigrate.Hash.Endian
import SipMigrate.Hash.Error
import SipMigrate.Text.Blank

/-! Keys of sixteen bytes. -/

namespace SipMigrate.Hash

open Text

def keySize : Nat := 16

structure Key where
  bytes : List UInt8
  length_bytes : bytes.length = keySize
deriving DecidableEq

namespace Key

def ofBytes (bytes : List UInt8) : Except HashError Key :=
  if h : bytes.length = keySize then .ok ⟨bytes, h⟩
  else .error (.invalidKey keySize bytes.length)

/-- The conversion of a slice, which may have any length. -/
def ofSlice (bytes : List UInt8) : Except HashError Key := ofBytes bytes

/-- The key of an array of sixteen bytes. -/
def ofVector (bytes : Vector UInt8 keySize) : Key := ⟨bytes.toList, bytes.length_toList⟩

/-- Reads a key in hexadecimal, with blanks around it. -/
def ofHex (text : String) : Except HashError Key :=
  match Hex.decode (utf8 (String.ofList (trim text.toList))) with
  | .ok bytes => ofBytes bytes
  | .error e => .error (.invalidHex e)

def hex (k : Key) : String := Hex.encode k.bytes

/-- The two halves as little-endian words. -/
def halves (k : Key) : UInt64 × UInt64 :=
  (loadLittle (k.bytes.take 8), loadLittle (k.bytes.drop 8))

/-- The form of a key shows no byte of it. -/
def form (_ : Key) : String := Form.record "Key" [("bytes", quoted "[REDACTED]")]

end Key

end SipMigrate.Hash
