import SipMigrate.Hash.Hasher

/-! The test vectors published with SipHash-2-4: the key 00 01 … 0f, and inputs
00 01 02 … of zero to fifteen bytes. -/

namespace SipMigrate.Hash

open Text

structure TestVector where
  id : String
  description : String
  keyHex : String
  inputHex : String
  expectedHex : String
deriving DecidableEq, Repr

namespace TestVector

/-- Hashes the input and compares; a failure is told with the identifier in front. -/
def check (v : TestVector) : Except String Unit :=
  match Key.ofHex v.keyHex with
  | .error e => .error (v.id ++ ": " ++ e.message)
  | .ok key =>
    match Hex.decode (utf8 v.inputHex) with
    | .error e => .error (v.id ++ ": " ++ e.message)
    | .ok input =>
      match Digest.ofHex v.expectedHex with
      | .error e => .error (v.id ++ ": " ++ e.message)
      | .ok expected =>
        let actual := siphash24 key input
        if actual = expected then .ok ()
        else .error (v.id ++ ": expected " ++ v.expectedHex ++ ", got " ++ actual.hex)

def toJson (v : TestVector) : Json :=
  .object [("id", .string v.id), ("description", .string v.description),
    ("key_hex", .string v.keyHex), ("input_hex", .string v.inputHex),
    ("expected_hex", .string v.expectedHex)]

end TestVector

def referenceKeyHex : String := "000102030405060708090a0b0c0d0e0f"

/-- The digests of the inputs of zero to fifteen bytes. -/
def referenceDigests : List String :=
  ["310e0edd47db6f72", "fd67dc93c539f874", "5a4fa9d909806c0d", "2d7efbd796666785",
    "b7877127e09427cf", "8da699cd64557618", "cee3fe586e46c9cb", "37d1018bf50002ab",
    "6224939a79f5f593", "b0e4a90bdf82009e", "f3b9dd94c5bb5d7a", "a7ad6b22462fb3f4",
    "fbe50e86bc8f1e75", "903d84c02756ea14", "eef27a8e90ca23f7", "e545be4961ca29a1"]

def countingInput (length : Nat) : List UInt8 := (List.range length).map UInt8.ofNat

def referenceVectors : List TestVector :=
  referenceDigests.zipIdx.map fun (expected, length) =>
    { id := "siphash24_len_" ++ toString length
      description := "reference key, " ++ toString length ++ "-byte counting input"
      keyHex := referenceKeyHex
      inputHex := Hex.encode (countingInput length)
      expectedHex := expected }

def referenceJson : String := (Json.array (referenceVectors.map TestVector.toJson)).pretty

end SipMigrate.Hash
