import SipMigrate.Hash.Hasher
import SipMigrate.Proofs.Hash.Blocks

/-! SipHash-2-4 as it is defined on whole messages, with lanes of 64 bits, and the
agreement of the hasher with it. The hasher never pads its input: it keeps the bytes
after the last whole block in a packed word, and puts the length on top of them. -/

namespace SipMigrate.Hash

namespace Reference

structure Lanes where
  v0 : BitVec 64
  v1 : BitVec 64
  v2 : BitVec 64
  v3 : BitVec 64

def lane (bytes : List UInt8) : BitVec 64 := BitVec.ofNat 64 (littleEndian bytes)

def initial (key : List UInt8) : Lanes where
  v0 := lane (key.take 8) ^^^ 0x736f6d6570736575#64
  v1 := lane (key.drop 8) ^^^ 0x646f72616e646f6d#64
  v2 := lane (key.take 8) ^^^ 0x6c7967656e657261#64
  v3 := lane (key.drop 8) ^^^ 0x7465646279746573#64

def sipRound (l : Lanes) : Lanes :=
  let v0 := l.v0 + l.v1
  let v1 := l.v1.rotateLeft 13 ^^^ v0
  let v0 := v0.rotateLeft 32
  let v2 := l.v2 + l.v3
  let v3 := l.v3.rotateLeft 16 ^^^ v2
  let v0 := v0 + v3
  let v3 := v3.rotateLeft 21 ^^^ v0
  let v2 := v2 + v1
  let v1 := v1.rotateLeft 17 ^^^ v2
  let v2 := v2.rotateLeft 32
  ⟨v0, v1, v2, v3⟩

def absorb (l : Lanes) (m : BitVec 64) : Lanes :=
  let l := { l with v3 := l.v3 ^^^ m }
  let l := sipRound (sipRound l)
  { l with v0 := l.v0 ^^^ m }

/-- The message with zeros up to the last byte of a block, which is the length
modulo 256. -/
def padded (message : List UInt8) : List UInt8 :=
  message ++ List.replicate (7 - message.length % 8) 0 ++ [UInt8.ofNat message.length]

def blocks (bytes : List UInt8) : List (BitVec 64) :=
  (List.range (bytes.length / 8)).map fun i => lane ((bytes.drop (8 * i)).take 8)

def finalize (l : Lanes) : BitVec 64 :=
  let l := { l with v2 := l.v2 ^^^ 0xff#64 }
  let l := sipRound (sipRound (sipRound (sipRound l)))
  l.v0 ^^^ l.v1 ^^^ l.v2 ^^^ l.v3

def hash (key message : List UInt8) : BitVec 64 :=
  finalize ((blocks (padded message)).foldl absorb (initial key))

/-- The published vector of fifteen bytes. -/
example : hash ((List.range 16).map UInt8.ofNat) ((List.range 15).map UInt8.ofNat) =
    0xa129ca6149be45e5#64 := by
  decide +kernel

theorem blocks_append (block rest : List UInt8) (h : block.length = 8) :
    blocks (block ++ rest) = lane block :: blocks rest := by
  have hlen : (block ++ rest).length / 8 = rest.length / 8 + 1 := by
    rw [List.length_append, h]
    omega
  rw [blocks, hlen, List.range_succ_eq_map, List.map_cons, List.map_map]
  congr 1
  · simp [← h]
  · refine List.map_congr_left fun i _ => ?_
    have : 8 * (i + 1) = block.length + 8 * i := by omega
    rw [Function.comp, this, List.drop_length_add_append]

theorem blocks_of_length_eight {block : List UInt8} (h : block.length = 8) :
    blocks block = [lane block] := by
  simpa [blocks] using blocks_append block [] h

end Reference

open Reference

/-! ### Words as lanes -/

/-- Rotation by shifts that meet. -/
theorem toBitVec_rotateLeft (x : UInt64) {k : UInt64} (hpos : 0 < k.toNat) (hk : k.toNat < 64) :
    (rotateLeft x k).toBitVec = x.toBitVec.rotateLeft k.toNat := by
  have hleft : (k.toBitVec % 64).toNat = k.toNat := Nat.mod_eq_of_lt hk
  have hright : ((64 - k).toBitVec % 64).toNat = 64 - k.toNat := by
    have hle : k ≤ 64 := UInt64.le_iff_toNat_le.mpr (by simpa using hk.le)
    have hsub : (64 - k).toNat = 64 - k.toNat := UInt64.toNat_sub_of_le _ _ hle
    calc ((64 - k).toBitVec % 64).toNat = (64 - k).toNat % 64 := rfl
      _ = 64 - k.toNat := by rw [hsub]; omega
  rw [rotateLeft, BitVec.rotateLeft_def, UInt64.toBitVec_or, UInt64.toBitVec_shiftLeft,
    UInt64.toBitVec_shiftRight, BitVec.shiftLeft_eq', BitVec.ushiftRight_eq', hleft, hright,
    Nat.mod_eq_of_lt hk]

theorem toBitVec_loadLittle {b : List UInt8} (h : b.length ≤ 8) :
    (loadLittle b).toBitVec = lane b := by
  apply BitVec.eq_of_toNat_eq
  rw [UInt64.toNat_toBitVec, toNat_loadLittle h, lane, BitVec.toNat_ofNat,
    Nat.mod_eq_of_lt (littleEndian_lt_two_pow (by omega))]

namespace Words

def lanes (w : Words) : Lanes := ⟨w.v0.toBitVec, w.v1.toBitVec, w.v2.toBitVec, w.v3.toBitVec⟩

theorem lanes_start (k : Key) : (start k.halves.1 k.halves.2).lanes = initial k.bytes := by
  have hlow : (k.bytes.take 8).length ≤ 8 := by simp
  have hhigh : (k.bytes.drop 8).length ≤ 8 := by simp [k.length_bytes, keySize]
  simp only [start, lanes, Key.halves, initial, UInt64.toBitVec_xor, toBitVec_loadLittle hlow,
    toBitVec_loadLittle hhigh]
  rfl

/-- The halves of a round do what the reference does one word after the other. -/
theorem lanes_round (w : Words) : w.round.lanes = sipRound w.lanes := by
  have rotate13 (x : UInt64) : (rotateLeft x 13).toBitVec = x.toBitVec.rotateLeft 13 :=
    toBitVec_rotateLeft x (by decide) (by decide)
  have rotate16 (x : UInt64) : (rotateLeft x 16).toBitVec = x.toBitVec.rotateLeft 16 :=
    toBitVec_rotateLeft x (by decide) (by decide)
  have rotate17 (x : UInt64) : (rotateLeft x 17).toBitVec = x.toBitVec.rotateLeft 17 :=
    toBitVec_rotateLeft x (by decide) (by decide)
  have rotate21 (x : UInt64) : (rotateLeft x 21).toBitVec = x.toBitVec.rotateLeft 21 :=
    toBitVec_rotateLeft x (by decide) (by decide)
  have rotate32 (x : UInt64) : (rotateLeft x 32).toBitVec = x.toBitVec.rotateLeft 32 :=
    toBitVec_rotateLeft x (by decide) (by decide)
  simp only [round, halfRound, otherHalfRound, lanes, sipRound, UInt64.toBitVec_add,
    UInt64.toBitVec_xor, rotate13, rotate16, rotate17, rotate21, rotate32]

theorem lanes_compress (w : Words) (m : UInt64) :
    (w.compress m).lanes = Reference.absorb w.lanes m.toBitVec := by
  have h (w : Words) : ({ w with v0 := w.v0 ^^^ m } : Words).lanes =
      { w.lanes with v0 := w.lanes.v0 ^^^ m.toBitVec } := rfl
  rw [compress, h, lanes_round, lanes_round]
  rfl

theorem toBitVec_fold_finalize (w : Words) :
    w.finalize.fold.toBitVec = Reference.finalize w.lanes := by
  have h (w : Words) : w.fold.toBitVec =
      w.lanes.v0 ^^^ w.lanes.v1 ^^^ w.lanes.v2 ^^^ w.lanes.v3 := rfl
  rw [h, finalize, lanes_round, lanes_round, lanes_round, lanes_round]
  rfl

/-- To absorb a message and then what is left of it with `pad` behind is to absorb
the message with `pad`. -/
theorem lanes_absorb_compress (w : Words) (data pad : List UInt8)
    (h : data.length % 8 + pad.length = 8) :
    ((w.absorb data).1.compress (loadLittle ((w.absorb data).2 ++ pad))).lanes =
      (blocks (data ++ pad)).foldl Reference.absorb w.lanes := by
  induction data using blockwise generalizing w with
  | short data hdata =>
    have hlen : (data ++ pad).length = 8 := by
      rw [List.length_append, ← h, Nat.mod_eq_of_lt hdata]
    rw [absorb_of_lt w hdata, lanes_compress, toBitVec_loadLittle hlen.le,
      blocks_of_length_eight hlen, List.foldl_cons, List.foldl_nil]
  | block block rest hblock ih =>
    rw [List.length_append, hblock, Nat.add_mod_left] at h
    rw [absorb_block w hblock, ih _ h, lanes_compress, toBitVec_loadLittle hblock.le,
      List.append_assoc, blocks_append _ _ hblock, List.foldl_cons]

end Words

/-! ### The last block -/

theorem toNat_lowByte (n : Nat) : (UInt64.ofNat n &&& 0xff).toNat = n % 256 := by
  have : (0xff : UInt64).toNat = 2 ^ 8 - 1 := rfl
  rw [UInt64.toNat_and, UInt64.toNat_ofNat', this, Nat.and_two_pow_sub_one_eq_mod]
  omega

/-- The length in the last byte and the waiting bytes make up the last block of the
padded message. -/
theorem lastBlock_settle (w : Words) (data : List UInt8) :
    (State.settle w (UInt64.ofNat data.length) data).lastBlock =
      loadLittle ((w.absorb data).2 ++ (List.replicate (7 - data.length % 8) 0 ++
        [UInt8.ofNat data.length])) := by
  have hwaiting : (loadLittle (w.absorb data).2).toNat = littleEndian (w.absorb data).2 :=
    toNat_loadLittle (w.length_absorb_lt data).le
  have hlow := toNat_lowByte data.length
  apply UInt64.toNat_inj.mp
  calc ((UInt64.ofNat data.length &&& 0xff) <<< 56 ||| loadLittle (w.absorb data).2).toNat
      = littleEndian (w.absorb data).2 + 2 ^ 56 * (data.length % 256) := by
        rw [UInt64.or_comm, ← hwaiting, ← hlow]
        refine toNat_or_shiftLeft (k := 56) (by omega) ?_ (by omega)
        rw [hwaiting]
        exact littleEndian_lt_two_pow (by rw [w.length_absorb]; omega)
    _ = (loadLittle ((w.absorb data).2 ++ (List.replicate (7 - data.length % 8) 0 ++
          [UInt8.ofNat data.length]))).toNat := by
        rw [toNat_loadLittle, littleEndian_append, littleEndian_append, littleEndian_zeros,
          w.length_absorb, List.length_replicate, Nat.zero_add, ← Nat.mul_assoc, ← Nat.pow_add]
        · simp [littleEndian, show data.length % 8 + (7 - data.length % 8) = 7 by omega]
        · simp only [List.length_append, w.length_absorb, List.length_replicate,
            List.length_singleton]
          omega

/-- The digest of a message is the one that the reference defines for it. -/
theorem hash_reference (k : Key) (data : List UInt8) :
    ((Hasher.ofKey k).hash data).value.toBitVec = Reference.hash k.bytes data ∧
      (siphash24 k data).value.toBitVec = Reference.hash k.bytes data := by
  suffices h : ((Hasher.ofKey k).hash data).value.toBitVec = Reference.hash k.bytes data from ⟨h, h⟩
  let w := Words.start k.halves.1 k.halves.2
  have hstate : (Hasher.ofKey k).start.update data =
      State.settle w (UInt64.ofNat data.length) data := State.update_start _ _ data
  have hpad : data.length % 8 +
      (List.replicate (7 - data.length % 8) (0 : UInt8) ++ [UInt8.ofNat data.length]).length = 8 := by
    simp only [List.length_append, List.length_replicate, List.length_singleton]
    omega
  calc ((Hasher.ofKey k).hash data).value.toBitVec
      = Reference.finalize ((w.absorb data).1.compress
          (State.settle w (UInt64.ofNat data.length) data).lastBlock).lanes := by
        rw [Hasher.hash, hstate, State.finish, Words.toBitVec_fold_finalize]
        rfl
    _ = Reference.finalize ((blocks (padded data)).foldl Reference.absorb w.lanes) := by
        rw [lastBlock_settle, Words.lanes_absorb_compress _ _ _ hpad, padded, List.append_assoc]
    _ = Reference.hash k.bytes data := by rw [Reference.hash, Words.lanes_start]

end SipMigrate.Hash
