import SipMigrate.Hash.Hasher

/-! Hashing a source of data that is read until its end. -/

namespace SipMigrate.Hash

open Files

/-- The result of one read. Reading no bytes is the end of the input. -/
inductive ReadResult
  | data (bytes : List UInt8)
  /-- The read is to be repeated. -/
  | interrupted
  | failed (cause : FileError)

/-- Feeds what the reads give until the end or the first failure; after the
last of them the input ends. -/
def State.readAll (s : State) : List ReadResult → Except FileError State
  | [] => .ok s
  | .data [] :: _ => .ok s
  | .data (b :: bytes) :: rest => (s.update (b :: bytes)).readAll rest
  | .interrupted :: rest => s.readAll rest
  | .failed cause :: _ => .error cause

def Hasher.hashReads (h : Hasher) (reads : List ReadResult) : Except HashError Digest :=
  match h.start.readAll reads with
  | .ok s => .ok ⟨s.finish⟩
  | .error cause => .error (.reading cause)

end SipMigrate.Hash
