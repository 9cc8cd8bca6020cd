import SipMigrate.Text.Basic
import SipMigrate.Text.Quoted

/-! Hexadecimal text of byte strings. It is written in lower case and read in
either case. Reading works on the bytes of the text, so a fault is reported by
its byte index, and the offending byte is shown as the character of that number. -/

namespace SipMigrate.Text.Hex

inductive HexError
  | oddLength
  | wrongLength
  | badByte (byte : UInt8) (index : Nat)
deriving DecidableEq, Repr

def HexError.message : HexError → String
  | .oddLength => "Odd number of digits"
  | .wrongLength => "Invalid string length"
  | .badByte b i =>
    "Invalid character " ++ quotedChar (Char.ofNat b.toNat) ++ " at position " ++ toString i

def digit (n : Nat) : Char :=
  if n < 10 then Char.ofNat (0x30 + n) else Char.ofNat (0x57 + n)

def encodeByte (b : UInt8) : List Char := [digit (b.toNat / 16), digit (b.toNat % 16)]

def encode (bytes : List UInt8) : String := String.ofList (bytes.flatMap encodeByte)

/-- The value of a hexadecimal digit, given as an ASCII byte. -/
def value? (b : UInt8) : Option UInt8 :=
  if 0x30 ≤ b ∧ b ≤ 0x39 then some (b - 0x30)
  else if 0x61 ≤ b ∧ b ≤ 0x66 then some (b - 0x57)
  else if 0x41 ≤ b ∧ b ≤ 0x46 then some (b - 0x37)
  else none

/-- Reads digits two by two; `index` is the position of the first one. -/
def decodePairs (index : Nat) : List UInt8 → Except HexError (List UInt8)
  | [] => .ok []
  | [_] => .error .oddLength
  | high :: low :: rest =>
    match value? high, value? low with
    | some h, some l => (decodePairs (index + 2) rest).map ((16 * h + l) :: ·)
    | none, _ => .error (.badByte high index)
    | some _, none => .error (.badByte low (index + 1))

/-- Reads a byte string of any length. -/
def decode (text : List UInt8) : Except HexError (List UInt8) :=
  if text.length % 2 = 1 then .error .oddLength else decodePairs 0 text

/-- Reads exactly `size` bytes. -/
def decodeExactly (size : Nat) (text : List UInt8) : Except HexError (List UInt8) :=
  if text.length % 2 = 1 then .error .oddLength
  else if text.length / 2 ≠ size then .error .wrongLength
  else decodePairs 0 text

end SipMigrate.Text.Hex
