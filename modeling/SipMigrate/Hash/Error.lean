import SipMigrate.Files.Error
import SipMigrate.Text.Hex

/-! Failures of building a key or a digest and of hashing a source of data. -/

namespace SipMigrate.Hash

open Text Files

inductive HashError
  | invalidKey (expected actual : Nat)
  | invalidHex (cause : Hex.HexError)
  | reading (cause : FileError)
deriving DecidableEq, Repr

namespace HashError

def message : HashError → String
  | invalidKey expected actual =>
    "invalid key: expected " ++ toString expected ++ " bytes, got " ++ toString actual
  | invalidHex cause => "invalid hex: " ++ cause.message
  | reading cause => "I/O error: " ++ cause.message

def form : HashError → String
  | invalidKey expected actual =>
    Form.record "InvalidKey" [("expected", toString expected), ("actual", toString actual)]
  | invalidHex cause => Form.record "InvalidHex" [("message", quoted cause.message)]
  | reading cause => Form.applied "Io" [cause.form]

end HashError

end SipMigrate.Hash
