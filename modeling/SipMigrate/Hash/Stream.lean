import SipMigrate.Hash.Hasher

/-! Hashing piece by piece. A family of streams grows by forking; one of them
is current and is the only one that a step feeds. -/

namespace SipMigrate.Hash

open Text

/-- A value that can be fed to a stream. -/
inductive Datum
  | bytes (b : List UInt8)
  /-- An integer of `width` bytes, least significant first. -/
  | integer (width : Nat) (n : Int)
  /-- A text is closed by a byte that no UTF-8 text holds. -/
  | text (s : String)
  /-- A byte string after its length in eight bytes. -/
  | counted (b : List UInt8)

def Datum.fed : Datum → List UInt8
  | bytes b => b
  | integer width n => littleBytes width (twosComplement width n)
  | text s => utf8 s ++ [0xff]
  | counted b => littleBytes 8 b.length ++ b

/-- The hash of one value by a stream of its own. -/
def Hasher.hashOne (h : Hasher) (d : Datum) : UInt64 := (h.start.update d.fed).finish

inductive StreamStep
  | feed (d : Datum)
  /-- Feeds bytes and tells their number. -/
  | write (b : List UInt8)
  | flush
  /-- Appends a copy of the current stream and makes it current. -/
  | fork
  /-- Appends a stream without input and makes it current. -/
  | fresh
  | use (stream : Nat)

structure Family where
  hasher : Hasher
  streams : List State
  current : Nat

namespace Family

def start (h : Hasher) : Family := ⟨h, [h.start], 0⟩

def currentState (f : Family) : State := f.streams.getD f.current f.hasher.start

def feed (f : Family) (b : List UInt8) : Family :=
  { f with streams := f.streams.modify f.current (·.update b) }

def append (f : Family) (s : State) : Family :=
  { f with streams := f.streams ++ [s], current := f.streams.length }

/-- The family after a step, and the number that the step tells. A stream that
does not exist is not taken into use. -/
def step (f : Family) : StreamStep → Family × Option Nat
  | .feed d => (f.feed d.fed, none)
  | .write b => (f.feed b, some b.length)
  | .flush => (f, none)
  | .fork => (f.append f.currentState, some f.streams.length)
  | .fresh => (f.append f.hasher.start, some f.streams.length)
  | .use i => (if i < f.streams.length then { f with current := i } else f, none)

/-- The hash of the current stream so far, which is not changed by it. -/
def finish (f : Family) : UInt64 := f.currentState.finish

def digests (f : Family) : List Digest := f.streams.map fun s => ⟨s.finish⟩

end Family

end SipMigrate.Hash
