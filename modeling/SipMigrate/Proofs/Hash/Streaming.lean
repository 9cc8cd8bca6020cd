import SipMigrate.Hash.Stream
import SipMigrate.Proofs.Hash.Blocks

/-! Hashing piece by piece gives the hash of the whole. A state that was fed some
bytes is the settled state of all of them together, whatever the pieces were, so a
stream is told by the bytes that it was fed so far. -/

namespace SipMigrate.Hash

open Text

namespace State

/-- The state in which some bytes wait. -/
def waiting (w : Words) (length : UInt64) (rest : List UInt8) : State :=
  ⟨w, loadLittle rest, rest.length, length⟩

/-- A piece stays within the waiting block, or completes it and is absorbed from
there on. -/
theorem update_waiting (w : Words) (length : UInt64) {rest : List UInt8} (piece : List UInt8)
    (h : rest.length < 8) :
    (waiting w length rest).update piece =
      settle w (length + UInt64.ofNat piece.length) (rest ++ piece) := by
  rcases Nat.eq_zero_or_pos rest.length with hnone | hsome
  · rw [List.length_eq_zero_iff.mp hnone]
    rfl
  have hpack := loadLittle_append h (b := piece.take (8 - rest.length))
    (by rw [List.length_take]; omega)
  simp only [waiting, update, if_neg hsome.ne', ← hpack]
  rcases Nat.lt_or_ge (rest.length + piece.length) 8 with hshort | hfull
  · have hhead : piece.take (8 - rest.length) = piece := List.take_of_length_le (by omega)
    have hlen : (rest ++ piece).length < 8 := by simpa using hshort
    simp only [hhead, if_pos hshort, settle, w.absorb_of_lt hlen, List.length_append]
  · have hhead : (piece.take (8 - rest.length)).length = 8 - rest.length :=
      List.length_take_of_le (by omega)
    have hblock : (rest ++ piece.take (8 - rest.length)).length = 8 := by
      rw [List.length_append, hhead]
      omega
    have hsplit : rest ++ piece = rest ++ piece.take (8 - rest.length) ++
        piece.drop (8 - rest.length) := by
      rw [List.append_assoc, List.take_append_drop]
    rw [hhead, if_neg (by omega), hsplit, settle, settle, w.absorb_block hblock]

theorem settle_update (w : Words) (length : UInt64) (data piece : List UInt8) :
    (settle w length data).update piece =
      settle w (length + UInt64.ofNat piece.length) (data ++ piece) := by
  have h : settle w length data = waiting (w.absorb data).1 length (w.absorb data).2 := rfl
  rw [h, update_waiting _ _ _ (w.length_absorb_lt data), settle, settle, w.absorb_append]

theorem update_update (k0 k1 : UInt64) (data piece : List UInt8) :
    ((start k0 k1).update data).update piece = (start k0 k1).update (data ++ piece) := by
  rw [update_start, update_start, settle_update, List.length_append, UInt64.ofNat_add]

end State

/-! ### The bytes of a value -/

/-- The bytes that a value stands for: an integer as the digits of its two's
complement in base 256, least significant first, a text in UTF-8 with the byte 255
behind it, and a byte string with its length in front. -/
def Datum.spelled : Datum → List UInt8
  | bytes b => b
  | integer width n =>
    (List.range width).map fun i => UInt8.ofNat ((n % 256 ^ width).toNat / 256 ^ i)
  | text s => s.toByteArray.data.toList ++ [255]
  | counted b => ((List.range 8).map fun i => UInt8.ofNat (b.length / 256 ^ i)) ++ b

theorem littleBytes_eq_map (width n : Nat) :
    littleBytes width n = (List.range width).map fun i => UInt8.ofNat (n / 256 ^ i) := by
  induction width generalizing n with
  | zero => rfl
  | succ width ih =>
    rw [littleBytes, ih, List.range_succ_eq_map, List.map_cons, List.map_map]
    congr 1
    · simp
    · refine List.map_congr_left fun i _ => ?_
      rw [Function.comp, Nat.pow_succ', Nat.div_div_eq_div_mul]

theorem utf8_eq_toByteArray (s : String) : utf8 s = s.toByteArray.data.toList := by
  rw [← String.utf8Encode_toList, List.utf8Encode, List.toList_data_toByteArray, utf8]

theorem Datum.fed_eq_spelled (d : Datum) : d.fed = d.spelled := by
  cases d with
  | bytes b => rfl
  | integer width n =>
    simp only [fed, spelled, littleBytes_eq_map, twosComplement, Nat.pow_eq, Nat.cast_pow,
      Nat.cast_ofNat]
  | text s => rw [fed, spelled, utf8_eq_toByteArray]
  | counted b => rw [fed, spelled, littleBytes_eq_map]

/-! ### What was fed to the streams -/

/-- The bytes that every stream of a family was fed so far, those of the streams it
was forked from included. -/
structure Transcript where
  fed : List (List UInt8)
  current : Nat

namespace Transcript

def start : Transcript := ⟨[[]], 0⟩

def currentFed (t : Transcript) : List UInt8 := t.fed.getD t.current []

def feed (t : Transcript) (b : List UInt8) : Transcript :=
  { t with fed := t.fed.modify t.current (· ++ b) }

def append (t : Transcript) (b : List UInt8) : Transcript :=
  { fed := t.fed ++ [b], current := t.fed.length }

def step (t : Transcript) : StreamStep → Transcript
  | .feed d => t.feed d.spelled
  | .write b => t.feed b
  | .flush => t
  | .fork => t.append t.currentFed
  | .fresh => t.append []
  | .use i => if i < t.fed.length then { t with current := i } else t

def run (t : Transcript) (steps : List StreamStep) : Transcript := steps.foldl step t

/-- The transcripts after each of some steps. -/
def history (t : Transcript) : List StreamStep → List Transcript
  | [] => []
  | s :: rest => t.step s :: (t.step s).history rest

/-- The family in which every stream was fed at once what the transcript has for it. -/
def family (k : Key) (t : Transcript) : Family where
  hasher := Hasher.ofKey k
  streams := t.fed.map (Hasher.ofKey k).start.update
  current := t.current

/-- The hash of the current stream, and those of all streams. -/
def hashes (k : Key) (t : Transcript) : UInt64 × List UInt64 :=
  ((siphash24 k t.currentFed).value, t.fed.map fun b => (siphash24 k b).value)

end Transcript

namespace Family

/-- Runs steps. After each of them the current stream and then every stream is asked
for its hash. -/
def watch (f : Family) : List StreamStep → List (UInt64 × List UInt64) × Family
  | [] => ([], f)
  | s :: rest =>
    let next := (f.step s).1
    let (answers, last) := next.watch rest
    ((next.finish, next.streams.map State.finish) :: answers, last)

end Family

namespace Transcript

variable (k : Key) (t : Transcript)

theorem family_feed (b : List UInt8) : (t.family k).feed b = (t.feed b).family k := by
  have h : (t.fed.map (Hasher.ofKey k).start.update).modify t.current (·.update b) =
      (t.fed.modify t.current (· ++ b)).map (Hasher.ofKey k).start.update := by
    refine List.ext_getElem? fun i => ?_
    simp only [List.getElem?_modify, List.getElem?_map]
    cases t.fed[i]? with
    | none => rfl
    | some data =>
      by_cases hi : t.current = i
      · simp [hi, Hasher.start, State.update_update]
      · simp [hi]
  rw [family, Family.feed, h, family, feed]

theorem family_append (b : List UInt8) :
    (t.family k).append ((Hasher.ofKey k).start.update b) = (t.append b).family k := by
  simp [family, Family.append, append]

theorem currentState_family :
    (t.family k).currentState = (Hasher.ofKey k).start.update t.currentFed := by
  simp only [Family.currentState, family, currentFed, List.getD_eq_getElem?_getD, List.getElem?_map]
  cases t.fed[t.current]? with
  | none => rfl
  | some b => rfl

theorem step_family (s : StreamStep) : ((t.family k).step s).1 = (t.step s).family k := by
  cases s with
  | feed d => rw [Family.step, step, Datum.fed_eq_spelled, family_feed]
  | write b => exact family_feed k t b
  | flush => rfl
  | fork => rw [Family.step, step, currentState_family, family_append]
  | fresh => exact family_append k t []
  | use i =>
    simp only [Family.step, step, family, List.length_map]
    split <;> rfl

theorem hashes_family :
    ((t.family k).finish, (t.family k).streams.map State.finish) = t.hashes k := by
  rw [Family.finish, currentState_family, hashes]
  simp [family, siphash24, Hasher.hash]

theorem watch_family (steps : List StreamStep) :
    (t.family k).watch steps = ((t.history steps).map (hashes k), (t.run steps).family k) := by
  induction steps generalizing t with
  | nil => rfl
  | cons s rest ih =>
    simp only [Family.watch, step_family, ih, hashes_family, history, List.map_cons, run,
      List.foldl_cons]

end Transcript

/-- Only the current stream is changed by a step. -/
theorem Family.step_streams (f : Family) (s : StreamStep) (i : Nat) :
    (f.step s).1.streams[i]? = f.streams[i]? ∨ i = f.current ∨ f.streams.length ≤ i := by
  by_cases hi : i < f.streams.length
  swap
  · exact .inr (.inr (Nat.le_of_not_lt hi))
  have hfeed (b : List UInt8) : (f.feed b).streams[i]? = f.streams[i]? ∨ i = f.current := by
    by_cases hc : i = f.current
    · exact .inr hc
    · exact .inl (List.getElem?_modify_ne _ f.streams (Ne.symm hc))
  have happend (s : State) : (f.append s).streams[i]? = f.streams[i]? :=
    List.getElem?_append_left hi
  cases s with
  | feed d => exact (hfeed d.fed).imp_right .inl
  | write b => exact (hfeed b).imp_right .inl
  | flush => exact .inl rfl
  | fork => exact .inl (happend _)
  | fresh => exact .inl (happend _)
  | use j =>
    simp only [Family.step]
    split <;> exact .inl rfl

/-- Whatever steps a program takes, every stream has after each of them the hash of
all that it was fed, and it is not changed by being asked for it. -/
theorem streams_hash_at_once (k : Key) (steps : List StreamStep) :
    ((Family.start (Hasher.ofKey k)).watch steps).1 =
        (Transcript.start.history steps).map (Transcript.hashes k) ∧
      ((Family.start (Hasher.ofKey k)).watch steps).2.digests =
        (Transcript.start.run steps).fed.map (siphash24 k) ∧
      (∀ f b, (Family.step f (.write b)).2 = some b.length) ∧
      (∀ f s i, (Family.step f s).1.streams[i]? = f.streams[i]? ∨ i = f.current ∨
        f.streams.length ≤ i) ∧
      ∀ d, (Hasher.ofKey k).hashOne d = (siphash24 k d.spelled).value := by
  have hstart : Family.start (Hasher.ofKey k) = Transcript.start.family k := rfl
  rw [hstart, Transcript.watch_family]
  refine ⟨rfl, ?_, fun _ _ => rfl, Family.step_streams, fun d => ?_⟩
  · simp [Family.digests, Transcript.family, siphash24, Hasher.hash]
  · rw [Hasher.hashOne, Datum.fed_eq_spelled, siphash24, Hasher.hash]

end SipMigrate.Hash
