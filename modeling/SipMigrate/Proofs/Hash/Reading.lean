import SipMigrate.Hash.Reader
import SipMigrate.Proofs.Hash.Streaming

/-! Hashing a source of data gives the hash of its bytes, or the first failure that is
not an interruption. What counts is what comes before the end of the input; into how
many reads it is cut, and how often a read is repeated, does not matter. -/

namespace SipMigrate.Hash

open Files

namespace ReadResult

def bytes : ReadResult → List UInt8
  | data b => b
  | interrupted => []
  | failed _ => []

def failure? : ReadResult → Option FileError
  | failed cause => some cause
  | data _ => none
  | interrupted => none

def isEnd : ReadResult → Bool
  | data b => b.isEmpty
  | interrupted => false
  | failed _ => false

end ReadResult

/-- The reads before the first end of the input. -/
def beforeEnd (reads : List ReadResult) : List ReadResult := reads.takeWhile (!·.isEnd)

/-- What reads give: all bytes before the end of the input, unless a read fails before it. -/
def given (reads : List ReadResult) : Except FileError (List UInt8) :=
  match (beforeEnd reads).findSome? ReadResult.failure? with
  | some cause => .error cause
  | none => .ok ((beforeEnd reads).flatMap ReadResult.bytes)

section Given

variable (rest : List ReadResult)

@[simp] theorem given_nil : given [] = .ok [] := rfl

@[simp] theorem given_end : given (.data [] :: rest) = .ok [] := rfl

@[simp] theorem given_interrupted : given (.interrupted :: rest) = given rest := rfl

theorem given_data {b : List UInt8} (hb : b ≠ []) :
    given (.data b :: rest) = (given rest).map (b ++ ·) := by
  have h : beforeEnd (.data b :: rest) = .data b :: beforeEnd rest := by
    simp [beforeEnd, ReadResult.isEnd, hb]
  have hfirst : (ReadResult.data b :: beforeEnd rest).findSome? ReadResult.failure? =
      (beforeEnd rest).findSome? ReadResult.failure? := rfl
  rw [given, h, hfirst, given]
  cases (beforeEnd rest).findSome? ReadResult.failure? <;> rfl

/-- A chunk may be read in two parts. -/
theorem given_data_append {b c : List UInt8} (hb : b ≠ []) (hc : c ≠ []) :
    given (.data (b ++ c) :: rest) = given (.data b :: .data c :: rest) := by
  rw [given_data _ hb, given_data _ hc, given_data _ (by simp [hb])]
  cases given rest with
  | error cause => rfl
  | ok d => simp [Except.map]

end Given

/-- Reads that serve chunks to a buffer of any size: a chunk is read at once, or a part
of it first and then the rest. -/
inductive Serves : List ReadResult → List ReadResult → Prop
  | done : Serves [] []
  | whole (r : ReadResult) {chunks reads : List ReadResult} (h : Serves chunks reads) :
    Serves (r :: chunks) (r :: reads)
  | part {b c : List UInt8} (hb : b ≠ []) (hc : c ≠ []) {chunks reads : List ReadResult}
    (h : Serves (.data c :: chunks) reads) : Serves (.data (b ++ c) :: chunks) (.data b :: reads)

theorem given_cons_congr (r : ReadResult) {reads chunks : List ReadResult}
    (h : given reads = given chunks) : given (r :: reads) = given (r :: chunks) := by
  cases r with
  | interrupted => exact h
  | failed cause => rfl
  | data b =>
    by_cases hb : b = []
    · rw [hb]
      rfl
    · rw [given_data _ hb, given_data _ hb, h]

theorem Serves.given_eq {chunks reads : List ReadResult} (h : Serves chunks reads) :
    given reads = given chunks := by
  induction h with
  | done => rfl
  | whole r _ ih => exact given_cons_congr r ih
  | part hb hc _ ih => rw [given_data_append _ hb hc, given_cons_congr _ ih]

/-- Whether nothing is read any more after a read. -/
def ReadResult.isLast (r : ReadResult) : Bool := r.isEnd || r.failure?.isSome

/-- What comes after the last read does not count. -/
theorem given_append_last {r : ReadResult} (h : r.isLast = true)
    (before after : List ReadResult) :
    given (before ++ r :: after) = given (before ++ [r]) := by
  induction before with
  | nil =>
    cases r with
    | interrupted => cases h
    | failed cause => rfl
    | data b =>
      obtain rfl : b = [] := by
        simpa [ReadResult.isLast, ReadResult.isEnd, ReadResult.failure?] using h
      rfl
  | cons q before ih => exact given_cons_congr q ih

example : given [.data [1, 2], .interrupted, .data [3], .data [], .failed .notFound, .data [4]] =
    .ok [1, 2, 3] := rfl

/-! ### Hashing -/

theorem State.update_nil (k0 k1 : UInt64) : (start k0 k1).update [] = start k0 k1 := rfl

/-- A state that has been fed some bytes is fed what the reads give. -/
theorem State.readAll_update (k0 k1 : UInt64) (data : List UInt8) (reads : List ReadResult) :
    ((start k0 k1).update data).readAll reads =
      (given reads).map fun d => (start k0 k1).update (data ++ d) := by
  induction reads generalizing data with
  | nil => simp [readAll, Except.map]
  | cons r rest ih =>
    cases r with
    | interrupted => rw [readAll, ih, given_interrupted]
    | failed cause => rfl
    | data b =>
      cases b with
      | nil => simp [readAll, Except.map]
      | cons x b =>
        rw [readAll, update_update, ih, given_data _ (List.cons_ne_nil x b)]
        cases given rest with
        | error cause => rfl
        | ok d => simp [Except.map]

theorem hashReads_eq (k : Key) (reads : List ReadResult) :
    (Hasher.ofKey k).hashReads reads =
      match given reads with
      | .ok d => .ok (siphash24 k d)
      | .error cause => .error (.reading cause) := by
  have h := State.readAll_update k.halves.1 k.halves.2 [] reads
  rw [State.update_nil] at h
  have hstart : (Hasher.ofKey k).start = State.start k.halves.1 k.halves.2 := rfl
  rw [Hasher.hashReads, hstart, h]
  cases given reads <;> rfl

/-- Hashing what a source serves, to a buffer of any size, gives the hash of all its bytes
before the end of the input, or the first failure before it. Nothing that comes after
the end or after a failure changes the answer. -/
theorem reads_hash_given (k : Key) (chunks : List ReadResult) :
    (Hasher.ofKey k).hashReads chunks =
        (match (beforeEnd chunks).findSome? ReadResult.failure? with
        | none => .ok (siphash24 k ((beforeEnd chunks).flatMap ReadResult.bytes))
        | some cause => .error (.reading cause)) ∧
      (∀ reads, Serves chunks reads →
        (Hasher.ofKey k).hashReads reads = (Hasher.ofKey k).hashReads chunks) ∧
      ∀ before r after after', chunks = before ++ r :: after → r.isLast = true →
        (Hasher.ofKey k).hashReads (before ++ r :: after') = (Hasher.ofKey k).hashReads chunks := by
  refine ⟨?_, ?_, ?_⟩
  · rw [hashReads_eq, given]
    cases (beforeEnd chunks).findSome? ReadResult.failure? <;> rfl
  · intro reads h
    rw [hashReads_eq, hashReads_eq, h.given_eq]
  · rintro before r after after' rfl hlast
    rw [hashReads_eq, hashReads_eq, given_append_last hlast, given_append_last hlast before after]

end SipMigrate.Hash
