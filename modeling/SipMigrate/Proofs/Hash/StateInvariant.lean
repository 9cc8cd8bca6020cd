import Mathlib.Data.List.DropRight
import SipMigrate.Proofs.Hash.Reference
import SipMigrate.Proofs.Hash.Streaming

/-! What a state holds after any updates: the words have taken in the whole blocks, and
the bytes behind them wait in the tail, whose other bytes are zero. The same update is also
written with operations that fail outside their range: slices beyond the end, shifts by the
width of a word or more, bits put where a word has some already. On the states that updates
lead to, none of them ever fails. -/

namespace SipMigrate.Hash

open Reference

/-! ### What is absorbed and what is left -/

namespace Words

theorem lanes_absorb (w : Words) (data : List UInt8) :
    (w.absorb data).1.lanes = (blocks data).foldl Reference.absorb w.lanes := by
  induction data using blockwise generalizing w with
  | short data h =>
    rw [absorb_of_lt w h, blocks, Nat.div_eq_of_lt h]
    rfl
  | block block rest h ih =>
    rw [absorb_block w h, ih, lanes_compress, toBitVec_loadLittle h.le, blocks_append _ _ h,
      List.foldl_cons]

theorem absorb_snd (w : Words) (data : List UInt8) :
    (w.absorb data).2 = data.rtake (data.length % 8) := by
  induction data using blockwise generalizing w with
  | short data h =>
    rw [absorb_of_lt w h, List.rtake, Nat.mod_eq_of_lt h, Nat.sub_self, List.drop_zero]
  | block block rest h ih =>
    have hlen : (block ++ rest).length - (block ++ rest).length % 8 =
        block.length + (rest.length - rest.length % 8) := by
      rw [List.length_append, h]
      omega
    rw [absorb_block w h, ih, List.rtake, List.rtake, hlen, List.drop_length_add_append]

end Words

/-- The byte of a word at a place; the least significant one is at place zero. -/
def byteAt (x : UInt64) (i : Nat) : Nat := x.toNat / 256 ^ i % 256

theorem byteAt_eq_zero {x : UInt64} {n i : Nat} (h : x.toNat < 256 ^ n) (hi : n ≤ i) :
    byteAt x i = 0 := by
  have hlt : x.toNat < 256 ^ i := h.trans_le (Nat.pow_le_pow_right (by omega) hi)
  rw [byteAt, Nat.div_eq_of_lt hlt, Nat.zero_mod]

/-- What a state of a key holds that has been fed some bytes in all. -/
structure Holds (k : Key) (data : List UInt8) (s : State) : Prop where
  fill : s.fill = data.length % 8
  tail : s.tail.toNat = littleEndian (data.rtake s.fill)
  free : ∀ i, s.fill ≤ i → byteAt s.tail i = 0
  length : s.length.toNat = data.length % 2 ^ 64
  words : s.words.lanes = (blocks data).foldl Reference.absorb (Reference.initial k.bytes)

theorem holds_update (k : Key) (data : List UInt8) :
    Holds k data ((Hasher.ofKey k).start.update data) := by
  have hs : (Hasher.ofKey k).start.update data =
      .settle (Words.start k.halves.1 k.halves.2) (UInt64.ofNat data.length) data :=
    State.update_start _ _ data
  generalize hw : Words.start k.halves.1 k.halves.2 = w at hs
  have htail : (loadLittle (w.absorb data).2).toNat = littleEndian (w.absorb data).2 :=
    toNat_loadLittle (w.length_absorb_lt data).le
  rw [hs]
  refine ⟨w.length_absorb data, ?_, fun i => byteAt_eq_zero ?_, UInt64.toNat_ofNat', ?_⟩
  · have hrest : (w.absorb data).2 = data.rtake (w.absorb data).2.length := by
      rw [w.length_absorb data, w.absorb_snd data]
    exact htail.trans (congrArg littleEndian hrest)
  · exact htail.trans_lt (littleEndian_lt _)
  · rw [← Words.lanes_start, hw]
    exact w.lanes_absorb data

/-! ### Operations that fail outside their range -/

/-- A difference that is not below zero. -/
def sub? (a b : Nat) : Option Nat := if b ≤ a then some (a - b) else none

/-- A part of a byte string that does not go beyond its end. -/
def slice? (l : List UInt8) (start stop : Nat) : Option (List UInt8) :=
  if start ≤ stop ∧ stop ≤ l.length then some ((l.take stop).drop start) else none

/-- A shift by less than the width of a word. -/
def shiftLeft? (x : UInt64) (k : Nat) : Option UInt64 :=
  if k < 64 then some (x <<< UInt64.ofNat k) else none

/-- Puts the bits of `y` into `x` from bit `k` on, where `x` is free. None of them is lost. -/
def join? (x : UInt64) (k : Nat) (y : UInt64) : Option UInt64 := do
  let shifted ← shiftLeft? y k
  if x.toNat < 2 ^ k ∧ y.toNat < 2 ^ (64 - k) then some (x ||| shifted) else none

/-- The word of fewer bytes than make up a block. -/
def loadPartial? (b : List UInt8) : Option UInt64 :=
  if b.length < 8 then b.zipIdx.foldlM (fun x b => join? x (8 * b.2) b.1.toUInt64) 0 else none

/-- The word of a whole block. -/
def loadBlock? (b : List UInt8) : Option UInt64 :=
  if b.length = 8 then some (UInt64.ofNat (littleEndian b)) else none

/-- Takes in the block that begins at some byte. -/
def Words.compressAt? (data : List UInt8) (w : Words) (start : Nat) : Option Words := do
  return w.compress (← loadBlock? (← slice? data start (start + 8)))

namespace State

def settle? (words : Words) (length : UInt64) (input : List UInt8) : Option State := do
  let whole := input.length / 8
  let words ← ((List.range whole).map (8 * ·)).foldlM (Words.compressAt? input) words
  let rest ← slice? input (8 * whole) input.length
  return ⟨words, ← loadPartial? rest, rest.length, length⟩

/-- The update of a state, if all its operations stay in their range. -/
def update? (s : State) (input : List UInt8) : Option State := do
  let length := s.length + UInt64.ofNat input.length
  if s.fill = 0 then settle? s.words length input
  else
    let take := min (← sub? 8 s.fill) input.length
    let head ← slice? input 0 take
    let tail ← join? s.tail (8 * s.fill) (← loadPartial? head)
    let rest ← slice? input take input.length
    if s.fill + take < 8 then return ⟨s.words, tail, s.fill + take, length⟩
    else settle? (s.words.compress tail) length rest

/-- The end of a computation. The low byte of the length goes into the last byte of the tail. -/
def finish? (s : State) : Option UInt64 := do
  let block ← join? s.tail 56 (s.length &&& 0xff)
  return (s.words.compress block).finalize.fold

end State

/-! ### They do not fail -/

theorem slice?_eq {l : List UInt8} {start stop : Nat} (h : start ≤ stop ∧ stop ≤ l.length) :
    slice? l start stop = some ((l.take stop).drop start) := if_pos h

theorem join?_eq {x y : UInt64} {k : Nat} (hk : k < 64) (hx : x.toNat < 2 ^ k)
    (hy : y.toNat < 2 ^ (64 - k)) : join? x k y = some (x ||| y <<< UInt64.ofNat k) := by
  simp [join?, shiftLeft?, hk, hx, hy]

/-- A bit that is set already, a bit that would be lost, and a shift by a whole word. -/
example : join? 0x100 8 1 = none ∧ join? 0 8 0x100000000000000 = none ∧ join? 0 64 0 = none := by
  decide

theorem loadPartial?_eq {b : List UInt8} (h : b.length < 8) :
    loadPartial? b = some (loadLittle b) := by
  rw [loadPartial?, if_pos h]
  induction b using List.reverseRecOn with
  | nil => rfl
  | append_singleton front x ih =>
    rw [List.length_append, List.length_singleton] at h
    have hfront : (loadLittle front).toNat < 2 ^ (8 * front.length) := by
      rw [toNat_loadLittle (by omega)]
      exact littleEndian_lt_two_pow le_rfl
    have hx : x.toUInt64.toNat < 2 ^ (64 - 8 * front.length) := by
      rw [UInt8.toNat_toUInt64]
      have hwidth : 2 ^ 8 ≤ 2 ^ (64 - 8 * front.length) :=
        Nat.pow_le_pow_right (by omega) (by omega)
      exact x.toNat_lt.trans_le hwidth
    have hlast : loadLittle [x] = x.toUInt64 := by simp [loadLittle]
    rw [List.zipIdx_append, List.foldlM_append, ih (by omega), Option.bind_eq_bind,
      Option.bind_some, loadLittle_append (by omega) (by simpa using h.le), hlast]
    simp [join?_eq (show 8 * front.length < 64 by omega) hfront hx]

theorem slice?_append {block rest : List UInt8} (start stop : Nat) :
    slice? (block ++ rest) (block.length + start) (block.length + stop) =
      slice? rest start stop := by
  simp only [slice?, List.take_length_add_append, List.drop_length_add_append, List.length_append,
    Nat.add_le_add_iff_left]

theorem Words.compressAt?_append {block : List UInt8} (h : block.length = 8) (rest : List UInt8)
    (w : Words) (start : Nat) :
    compressAt? (block ++ rest) w (8 + start) = compressAt? rest w start := by
  rw [compressAt?, compressAt?, ← h, Nat.add_assoc, slice?_append]

theorem Words.compressAt?_zero {block : List UInt8} (h : block.length = 8) (rest : List UInt8)
    (w : Words) : compressAt? (block ++ rest) w 0 = some (w.compress (loadLittle block)) := by
  have hslice : slice? (block ++ rest) 0 (0 + 8) = some block := by
    rw [slice?_eq (by simp [h]), Nat.zero_add, ← h, List.take_left, List.drop_zero]
  have hload : UInt64.ofNat (littleEndian block) = loadLittle block := by
    rw [← toNat_loadLittle h.le, UInt64.ofNat_toNat]
  simp [compressAt?, hslice, loadBlock?, h, hload]

theorem Words.foldlM_compressAt? (w : Words) (data : List UInt8) :
    ((List.range (data.length / 8)).map (8 * ·)).foldlM (compressAt? data) w =
      some (w.absorb data).1 := by
  induction data using blockwise generalizing w with
  | short data h =>
    rw [absorb_of_lt w h, Nat.div_eq_of_lt h]
    rfl
  | block block rest h ih =>
    have hcount : (block ++ rest).length / 8 = rest.length / 8 + 1 := by
      rw [List.length_append, h]
      omega
    have hstep (w : Words) (i : Nat) :
        compressAt? (block ++ rest) w (8 * (i + 1)) = compressAt? rest w (8 * i) := by
      rw [Nat.mul_succ, Nat.add_comm, compressAt?_append h]
    rw [absorb_block w h, ← ih, hcount, List.range_succ_eq_map, List.map_cons, List.map_map,
      List.foldlM_cons, Nat.mul_zero, compressAt?_zero h, Option.bind_eq_bind, Option.bind_some,
      List.foldlM_map, List.foldlM_map]
    simp only [Function.comp, hstep]

namespace State

theorem settle?_eq (w : Words) (length : UInt64) (input : List UInt8) :
    settle? w length input = some (settle w length input) := by
  have hwhole : 8 * (input.length / 8) = input.length - input.length % 8 := by omega
  have hrest : slice? input (8 * (input.length / 8)) input.length = some (w.absorb input).2 := by
    rw [slice?_eq (by omega), List.take_length, w.absorb_snd, List.rtake, hwhole]
  simp [settle?, settle, w.foldlM_compressAt?, hrest, loadPartial?_eq (w.length_absorb_lt input)]

/-- An update succeeds where the tail is free behind the waiting bytes. -/
theorem update?_eq {s : State} (hfill : s.fill < 8) (htail : s.tail.toNat < 2 ^ (8 * s.fill))
    (input : List UInt8) : s.update? input = some (s.update input) := by
  by_cases hnone : s.fill = 0
  · simp [update?, update, hnone, settle?_eq]
  have hneeded : sub? 8 s.fill = some (8 - s.fill) := if_pos hfill.le
  have hhead : slice? input 0 (min (8 - s.fill) input.length) =
      some (input.take (8 - s.fill)) := by
    rw [slice?_eq (by omega), List.drop_zero, ← List.take_eq_take_min]
  have hrest : slice? input (min (8 - s.fill) input.length) input.length =
      some (input.drop (8 - s.fill)) := by
    rw [slice?_eq (by omega), List.take_length, ← List.drop_eq_drop_min]
  have hload : loadPartial? (input.take (8 - s.fill)) =
      some (loadLittle (input.take (8 - s.fill))) :=
    loadPartial?_eq (by rw [List.length_take]; omega)
  have hnew : (loadLittle (input.take (8 - s.fill))).toNat < 2 ^ (64 - 8 * s.fill) := by
    have hlen : (input.take (8 - s.fill)).length ≤ 8 - s.fill := List.length_take_le _ _
    rw [toNat_loadLittle (by omega)]
    exact littleEndian_lt_two_pow (by omega)
  have hjoin := join?_eq (show 8 * s.fill < 64 by omega) htail hnew
  simp only [update?, update, if_neg hnone, hneeded, hhead, hload, hjoin, hrest, settle?_eq,
    List.length_take, Option.bind_eq_bind, Option.bind_some]
  split <;> rfl

theorem finish?_eq {s : State} (htail : s.tail.toNat < 2 ^ 56) :
    s.finish? = some s.finish := by
  have hlength : (s.length &&& 0xff).toNat < 2 ^ (64 - 56) := by
    have := toNat_lowByte s.length.toNat
    rw [UInt64.ofNat_toNat] at this
    omega
  rw [finish?, join?_eq (by omega) htail hlength, UInt64.or_comm]
  rfl

end State

/-! ### Every sequence of updates -/

theorem Words.lanes_injective : Function.Injective Words.lanes := by
  rintro ⟨v0, v1, v2, v3⟩ ⟨w0, w1, w2, w3⟩ h
  simp only [lanes, Lanes.mk.injEq, UInt64.toBitVec_inj] at h
  obtain ⟨rfl, rfl, rfl, rfl⟩ := h
  rfl

/-- What a state holds determines it. -/
theorem holds_iff {k : Key} {data : List UInt8} {s : State} :
    Holds k data s ↔ s = (Hasher.ofKey k).start.update data := by
  constructor
  · intro h
    obtain ⟨hfill, htail, -, hlength, hwords⟩ := holds_update k data
    generalize (Hasher.ofKey k).start.update data = s' at *
    have hfill : s.fill = s'.fill := h.fill.trans hfill.symm
    have htail : s.tail = s'.tail := UInt64.toNat_inj.mp (by rw [h.tail, htail, hfill])
    have hlength : s.length = s'.length := UInt64.toNat_inj.mp (by rw [h.length, hlength])
    have hwords : s.words = s'.words := Words.lanes_injective (h.words.trans hwords.symm)
    cases s
    cases s'
    simp_all
  · rintro rfl
    exact holds_update k data

namespace Holds

variable {k : Key} {data : List UInt8} {s : State}

theorem start (k : Key) : Holds k [] (Hasher.ofKey k).start := holds_update k []

theorem update (h : Holds k data s) (piece : List UInt8) :
    Holds k (data ++ piece) (s.update piece) := by
  rw [holds_iff] at h ⊢
  rw [h]
  exact State.update_update _ _ data piece

theorem fill_lt (h : Holds k data s) : s.fill < 8 := by
  rw [h.fill]
  omega

theorem tail_lt (h : Holds k data s) : s.tail.toNat < 2 ^ (8 * s.fill) := by
  rw [h.tail]
  refine littleEndian_lt_two_pow (Nat.mul_le_mul_left 8 ?_)
  rw [List.rtake, List.length_drop]
  omega

theorem update?_eq (h : Holds k data s) (piece : List UInt8) :
    s.update? piece = some (s.update piece) :=
  State.update?_eq h.fill_lt h.tail_lt piece

theorem finish?_eq (h : Holds k data s) : s.finish? = some s.finish :=
  State.finish?_eq (h.tail_lt.trans_le
    (Nat.pow_le_pow_right (by omega) (by have := h.fill_lt; omega)))

/-- Updates one after the other, all of whose operations stay in their range. -/
theorem updates (h : Holds k data s) (pieces : List (List UInt8)) :
    Holds k (data ++ pieces.flatten) (pieces.foldl State.update s) ∧
      pieces.foldlM State.update? s = some (pieces.foldl State.update s) := by
  induction pieces generalizing data s with
  | nil => simpa using h
  | cons piece pieces ih =>
    rw [List.flatten_cons, ← List.append_assoc, List.foldl_cons, List.foldlM_cons, h.update?_eq]
    exact ih (h.update piece)

end Holds

/-- After any updates, the fill of a state is the number of bytes behind the last whole block, its
tail has these bytes and zeros, its length is that of all bytes modulo `2 ^ 64`, and its words
have taken in the whole blocks in order. Neither the updates nor the end of the computation
ever leave the range of an operation. -/
theorem state_holds_fed (k : Key) (pieces : List (List UInt8)) :
    let s := pieces.foldl State.update (Hasher.ofKey k).start
    Holds k pieces.flatten s ∧
      pieces.foldlM State.update? (Hasher.ofKey k).start = some s ∧ s.finish? = some s.finish := by
  obtain ⟨hholds, hupdates⟩ := (Holds.start k).updates pieces
  exact ⟨hholds, hupdates, hholds.finish?_eq⟩

end SipMigrate.Hash
