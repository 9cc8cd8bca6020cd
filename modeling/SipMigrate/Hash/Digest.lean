import SipMigrate.Hash.Endian
import SipMigrate.Hash.Error
import SipMigrate.Text.Json

/-! Digests of eight bytes. The byte form is little-endian, and the hexadecimal
form spells the byte form. -/

namespace SipMigrate.Hash

open Text

def digestSize : Nat := 8

structure Digest where
  value : UInt64
deriving DecidableEq, Repr

namespace Digest

def bytes (d : Digest) : List UInt8 := littleBytes digestSize d.value.toNat

def bytesBig (d : Digest) : List UInt8 := bigBytes digestSize d.value.toNat

def ofBytes (bytes : List UInt8) : Digest := ⟨loadLittle bytes⟩

def hex (d : Digest) : String := Hex.encode d.bytes

/-- Reads exactly sixteen hexadecimal digits. -/
def ofHex (text : String) : Except HashError Digest :=
  match Hex.decodeExactly digestSize (utf8 text) with
  | .ok bytes => .ok (ofBytes bytes)
  | .error e => .error (.invalidHex e)

/-- A digest is displayed in its hexadecimal form. -/
instance : ToString Digest := ⟨hex⟩

/-- Reads a digest as it is displayed. -/
def parse (text : String) : Except HashError Digest := ofHex text

def json (d : Digest) : String := Json.literal d.hex

/-- Reads the hexadecimal form from a JSON string. -/
def ofJson? (text : String) : Option Digest :=
  (Json.readString? text.toList).bind fun s => (ofHex s).toOption

def form (d : Digest) : String := Form.applied "Digest" [toString d.value.toNat]

instance : Ord Digest where
  compare a b := compare a.value.toNat b.value.toNat

end Digest

end SipMigrate.Hash
