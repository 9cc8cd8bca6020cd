import Mathlib.Data.Fintype.Pigeonhole
import SipMigrate.Proofs.Hash.Endian
import SipMigrate.Proofs.Hash.Reference
import SipMigrate.Proofs.Hash.Streaming

/-! Computations under different keys stay apart. Each half of a round can be taken back,
so a round, a block and the rounds at the end act on the four words by bijections, and
the words of two computations that are fed the same bytes differ at every point if they
differ at the start. Only the fold of the words into a digest is no bijection. -/

namespace SipMigrate.Hash

open Function

/-! ### Taking rounds back -/

theorem xor_xor_self (x y : UInt64) : x ^^^ y ^^^ y = x := by
  rw [UInt64.xor_assoc, UInt64.xor_self, UInt64.xor_zero]

theorem rotateLeft_rotateLeft_toBitVec {j k : Nat} (hj : 0 < j) (hk : 0 < k) (h : j + k = 64)
    (x : BitVec 64) : (x.rotateLeft k).rotateLeft j = x := by
  refine BitVec.eq_of_getLsbD_eq fun i hi => ?_
  simp only [BitVec.getLsbD_rotateLeft_of_le (show j < 64 by omega),
    BitVec.getLsbD_rotateLeft_of_le (show k < 64 by omega)]
  by_cases hlow : i < j
  · simp [hlow, show ¬ 64 - j + i < k by omega, show 64 - j + i < 64 by omega,
      show 64 - j + i - k = i by omega]
  · simp [hlow, hi, show i - j < k by omega, show 64 - k + (i - j) = i by omega]

/-- Two rotations that make up a full turn. -/
theorem rotateLeft_rotateLeft {j k : UInt64} (hj : 0 < j.toNat) (hk : 0 < k.toNat)
    (h : j.toNat + k.toNat = 64) (x : UInt64) : rotateLeft (rotateLeft x k) j = x := by
  apply UInt64.toBitVec_inj.mp
  rw [toBitVec_rotateLeft _ hj (by omega), toBitVec_rotateLeft _ hk (by omega),
    rotateLeft_rotateLeft_toBitVec hj hk h]

namespace Words

def undoHalfRound (w : Words) : Words :=
  let v0 := rotateLeft w.v0 32
  let v1 := rotateLeft (w.v1 ^^^ v0) 51
  let v3 := rotateLeft (w.v3 ^^^ w.v2) 48
  ⟨v0 - v1, v1, w.v2 - v3, v3⟩

def undoOtherHalfRound (w : Words) : Words :=
  let v2 := rotateLeft w.v2 32
  let v1 := rotateLeft (w.v1 ^^^ v2) 47
  let v3 := rotateLeft (w.v3 ^^^ w.v0) 43
  ⟨w.v0 - v3, v1, v2 - v1, v3⟩

theorem halfRound_bijective : Bijective halfRound := by
  refine bijective_iff_has_inverse.mpr ⟨undoHalfRound, fun w => ?_, fun w => ?_⟩ <;>
    simp (disch := decide) only [halfRound, undoHalfRound, rotateLeft_rotateLeft, xor_xor_self,
      UInt64.add_sub_cancel, UInt64.sub_add_cancel]

theorem otherHalfRound_bijective : Bijective otherHalfRound := by
  refine bijective_iff_has_inverse.mpr ⟨undoOtherHalfRound, fun w => ?_, fun w => ?_⟩ <;>
    simp (disch := decide) only [otherHalfRound, undoOtherHalfRound, rotateLeft_rotateLeft,
      xor_xor_self, UInt64.add_sub_cancel, UInt64.sub_add_cancel]

theorem round_bijective : Bijective round := otherHalfRound_bijective.comp halfRound_bijective

theorem compress_bijective (m : UInt64) : Bijective fun w : Words => w.compress m := by
  have before : Bijective fun w : Words => { w with v3 := w.v3 ^^^ m } :=
    Involutive.bijective fun w => by simp only [xor_xor_self]
  have behind : Bijective fun w : Words => { w with v0 := w.v0 ^^^ m } :=
    Involutive.bijective fun w => by simp only [xor_xor_self]
  exact behind.comp (round_bijective.comp (round_bijective.comp before))

theorem finalize_bijective : Bijective finalize := by
  have before : Bijective fun w : Words => { w with v2 := w.v2 ^^^ 0xff } :=
    Involutive.bijective fun w => by simp only [xor_xor_self]
  exact round_bijective.comp
    (round_bijective.comp (round_bijective.comp (round_bijective.comp before)))

theorem absorb_bijective (data : List UInt8) : Bijective fun w : Words => (w.absorb data).1 := by
  induction data using blockwise with
  | short data h =>
    simp only [absorb_of_lt _ h]
    exact bijective_id
  | block block rest h ih =>
    simp only [absorb_block _ h]
    exact ih.comp (compress_bijective _)

/-- The bytes that are left over do not depend on the words. -/
theorem absorb_rest (w w' : Words) (data : List UInt8) :
    (w.absorb data).2 = (w'.absorb data).2 := by
  induction data using blockwise generalizing w w' with
  | short data h => rw [absorb_of_lt w h, absorb_of_lt w' h]
  | block block rest h ih => rw [absorb_block w h, absorb_block w' h, ih]

theorem start_inj {k0 k1 k0' k1' : UInt64} (h : start k0 k1 = start k0' k1') :
    k0 = k0' ∧ k1 = k1' := by
  simp only [start, Words.mk.injEq, UInt64.xor_left_inj] at h
  exact ⟨h.1, h.2.1⟩

end Words

/-! ### States that differ in their words -/

namespace State

/-- The words after the block that the waiting bytes and the length make up. -/
def closed (s : State) : Words := s.words.compress s.lastBlock

/-- The words after all rounds. -/
def finished (s : State) : Words := s.closed.finalize

theorem settle_words (w w' : Words) (length : UInt64) (data : List UInt8) :
    settle w length data = { settle w' length data with words := (w.absorb data).1 } := by
  have h (w : Words) : settle w length data = waiting (w.absorb data).1 length (w.absorb data).2 :=
    rfl
  rw [h w', h, Words.absorb_rest w w']
  rfl

/-- An update acts on the words by a bijection, and on the rest of the state without
regard to them. -/
theorem update_words (s : State) (input : List UInt8) : ∃ f : Words → Words, Bijective f ∧
    ∀ w, { s with words := w }.update input = { s.update input with words := f w } := by
  by_cases hfill : s.fill = 0
  · refine ⟨fun w => (w.absorb input).1, Words.absorb_bijective input, fun w => ?_⟩
    simp only [update, if_pos hfill]
    exact settle_words w s.words _ input
  by_cases hshort : s.fill + (input.take (8 - s.fill)).length < 8
  · refine ⟨id, bijective_id, fun w => ?_⟩
    simp only [update, if_neg hfill, if_pos hshort, id]
  · let block := s.tail ||| loadLittle (input.take (8 - s.fill)) <<< UInt64.ofNat (8 * s.fill)
    refine ⟨fun w => ((w.compress block).absorb (input.drop (8 - s.fill))).1,
      (Words.absorb_bijective _).comp (Words.compress_bijective block), fun w => ?_⟩
    simp only [update, if_neg hfill, if_neg hshort]
    exact settle_words (w.compress block) (s.words.compress block) _ _

theorem updates_words (s : State) (pieces : List (List UInt8)) :
    ∃ f : Words → Words, Bijective f ∧ ∀ w, pieces.foldl update { s with words := w } =
      { pieces.foldl update s with words := f w } := by
  induction pieces generalizing s with
  | nil => exact ⟨id, bijective_id, fun w => rfl⟩
  | cons piece rest ih =>
    obtain ⟨f, hf, hpiece⟩ := s.update_words piece
    obtain ⟨g, hg, hrest⟩ := ih (s.update piece)
    refine ⟨g ∘ f, hg.comp hf, fun w => ?_⟩
    rw [List.foldl_cons, hpiece, hrest, List.foldl_cons, comp]

theorem closed_bijective (s : State) : Bijective fun w => { s with words := w }.closed :=
  Words.compress_bijective s.lastBlock

theorem finished_bijective (s : State) : Bijective fun w => { s with words := w }.finished :=
  Words.finalize_bijective.comp s.closed_bijective

theorem updates_finished_bijective (s : State) (pieces : List (List UInt8)) :
    Bijective fun w => (pieces.foldl update { s with words := w }).finished := by
  obtain ⟨f, hf, hrun⟩ := s.updates_words pieces
  have h : (fun w => (pieces.foldl update { s with words := w }).finished) =
      (fun w => { pieces.foldl update s with words := w }.finished) ∘ f :=
    funext fun w => congrArg finished (hrun w)
  rw [h]
  exact (finished_bijective _).comp hf

/-- Words that differ before some input differ at every point after it. -/
theorem updates_apart (s : State) {w w' : Words} (h : w ≠ w') (pieces : List (List UInt8)) :
    let t := pieces.foldl update { s with words := w }
    let t' := pieces.foldl update { s with words := w' }
    t.words ≠ t'.words ∧ t.closed ≠ t'.closed ∧ t.finished ≠ t'.finished := by
  obtain ⟨f, hf, hrun⟩ := s.updates_words pieces
  have hwords : f w ≠ f w' := hf.injective.ne h
  rw [hrun w, hrun w']
  exact ⟨hwords, (closed_bijective _).injective.ne hwords,
    (finished_bijective _).injective.ne hwords⟩

theorem updates_start (k0 k1 : UInt64) (pieces : List (List UInt8)) :
    pieces.foldl update (start k0 k1) = (start k0 k1).update pieces.flatten := by
  have h (data : List UInt8) : pieces.foldl update ((start k0 k1).update data) =
      (start k0 k1).update (data ++ pieces.flatten) := by
    induction pieces generalizing data with
    | nil => simp
    | cons piece rest ih =>
      rw [List.foldl_cons, update_update, ih, List.flatten_cons, List.append_assoc]
  exact h []

end State

/-! ### Keys -/

namespace Key

/-- The key that spells a number, least significant byte first. -/
def numbered (n : Nat) : Key := ⟨littleBytes keySize n, length_littleBytes _ _⟩

theorem numbered_inj {m n : Nat} (hm : m < 256 ^ keySize) (hn : n < 256 ^ keySize)
    (h : numbered m = numbered n) : m = n := by
  have hbytes : littleBytes keySize m = littleBytes keySize n := congrArg bytes h
  rw [← littleEndian_littleBytes hm, hbytes, littleEndian_littleBytes hn]

end Key

/-- There are more keys than digests, so every input has two keys with one digest. -/
theorem exists_siphash24_eq (data : List UInt8) :
    ∃ k k', k ≠ k' ∧ siphash24 k data = siphash24 k' data := by
  let digest (n : Fin (2 ^ 64 + 1)) : Fin (2 ^ 64) :=
    ⟨(siphash24 (Key.numbered n) data).value.toNat, UInt64.toNat_lt _⟩
  obtain ⟨m, n, hne, heq⟩ := Fintype.exists_ne_map_eq_of_card_lt digest (by
    rw [Fintype.card_fin, Fintype.card_fin]
    exact Nat.lt_succ_self _)
  have hbound : 2 ^ 64 + 1 ≤ 256 ^ keySize := by decide
  refine ⟨Key.numbered m, Key.numbered n, fun h => hne (Fin.ext ?_), ?_⟩
  · exact Key.numbered_inj (m.isLt.trans_le hbound) (n.isLt.trans_le hbound) h
  · exact congrArg Digest.mk (UInt64.toNat_inj.mp (Fin.mk.inj heq))

theorem siphash24_eq_fold (k : Key) (pieces : List (List UInt8)) :
    (siphash24 k pieces.flatten).value =
      (pieces.foldl State.update (Hasher.ofKey k).start).finished.fold := by
  rw [Hasher.start, State.updates_start]
  rfl

/-- Two computations under different keys that are fed the same bytes, each in pieces of
its own, have different words after the absorbed blocks, after the last block and after
the rounds at the end. The fold of the words comes after all of these, and for every input
it takes two keys to one digest. For all words and not only those that come from a key,
feeding some input and finishing is a bijection up to the fold. -/
theorem keys_kept_apart {k k' : Key} (hk : k ≠ k') {pieces pieces' : List (List UInt8)}
    (hdata : pieces.flatten = pieces'.flatten) :
    let s := pieces.foldl State.update (Hasher.ofKey k).start
    let s' := pieces'.foldl State.update (Hasher.ofKey k').start
    (s.words ≠ s'.words ∧ s.closed ≠ s'.closed ∧ s.finished ≠ s'.finished) ∧
      ((siphash24 k pieces.flatten).value = s.finished.fold ∧
        (siphash24 k' pieces.flatten).value = s'.finished.fold) ∧
      (∀ data, ∃ j j', j ≠ j' ∧ siphash24 j data = siphash24 j' data) ∧
      ∀ (t : State) (input : List (List UInt8)), Bijective fun w =>
        (input.foldl State.update { t with words := w }).finished := by
  have hstart : Words.start k.halves.1 k.halves.2 ≠ Words.start k'.halves.1 k'.halves.2 := by
    intro h
    obtain ⟨h0, h1⟩ := Words.start_inj h
    exact hk (Key.halves_injective (Prod.ext h0 h1))
  have hpieces : pieces'.foldl State.update (Hasher.ofKey k').start =
      pieces.foldl State.update (Hasher.ofKey k').start := by
    rw [Hasher.start, State.updates_start, State.updates_start, hdata]
  refine ⟨?_, ⟨siphash24_eq_fold k pieces, ?_⟩, exists_siphash24_eq,
    State.updates_finished_bijective⟩
  · rw [hpieces]
    exact (State.start 0 0).updates_apart hstart pieces
  · rw [hdata]
    exact siphash24_eq_fold k' pieces'

/-- Keys that differ in their last byte, and twelve bytes in one piece and in four. -/
theorem keys_kept_apart_of_last_byte :
    let k : Key := ⟨List.replicate 16 0, rfl⟩
    let k' : Key := ⟨List.replicate 15 0 ++ [1], rfl⟩
    let pieces : List (List UInt8) := [[1, 2, 3, 4, 5, 6, 7, 8, 9, 10, 11, 12]]
    let pieces' : List (List UInt8) := [[1, 2, 3], [], [4, 5, 6, 7, 8, 9, 10, 11], [12]]
    let s := pieces.foldl State.update (Hasher.ofKey k).start
    let s' := pieces'.foldl State.update (Hasher.ofKey k').start
    k ≠ k' ∧ pieces.flatten = pieces'.flatten ∧
      s.words ≠ s'.words ∧ s.closed ≠ s'.closed ∧ s.finished ≠ s'.finished := by
  intro k k' pieces pieces' s s'
  have hk : k ≠ k' := by decide
  have hdata : pieces.flatten = pieces'.flatten := by decide
  exact ⟨hk, hdata, (keys_kept_apart hk hdata).1⟩

end SipMigrate.Hash
