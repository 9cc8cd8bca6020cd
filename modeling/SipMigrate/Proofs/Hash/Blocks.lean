import Mathlib.Tactic.Ring
import SipMigrate.Hash.State

/-! Bytes as numbers in little-endian order, and the words that take in a byte
string block by block. What is absorbed depends on the bytes alone and not on
the pieces in which they come. -/

namespace SipMigrate.Hash

/-- The number whose bytes are given, least significant first. -/
def littleEndian : List UInt8 → Nat
  | [] => 0
  | b :: rest => b.toNat + 256 * littleEndian rest

theorem littleEndian_append (a b : List UInt8) :
    littleEndian (a ++ b) = littleEndian a + 256 ^ a.length * littleEndian b := by
  induction a with
  | nil => simp [littleEndian]
  | cons x a ih =>
    rw [List.cons_append, littleEndian, ih, littleEndian, List.length_cons, Nat.pow_succ]
    ring

theorem littleEndian_lt (b : List UInt8) : littleEndian b < 256 ^ b.length := by
  induction b with
  | nil => simp [littleEndian]
  | cons x b ih =>
    have := x.toNat_lt
    rw [littleEndian, List.length_cons, Nat.pow_succ]
    omega

@[simp] theorem littleEndian_zeros (n : Nat) : littleEndian (List.replicate n 0) = 0 := by
  induction n with
  | zero => rfl
  | succ n ih => simp [List.replicate_succ, littleEndian, ih]

/-! ### Packing bytes into a word -/

/-- Two bit patterns that do not overlap add up. -/
theorem toNat_or_shiftLeft {x y : UInt64} {k : Nat} (hk : k < 64) (hx : x.toNat < 2 ^ k)
    (hy : y.toNat < 2 ^ (64 - k)) :
    (x ||| y <<< UInt64.ofNat k).toNat = x.toNat + 2 ^ k * y.toNat := by
  have hshift : (UInt64.ofNat k).toNat % 64 = k := by
    rw [UInt64.toNat_ofNat']
    omega
  have hfits : 2 ^ k * y.toNat < 2 ^ 64 := by
    have : 2 ^ k * y.toNat < 2 ^ k * 2 ^ (64 - k) := Nat.mul_lt_mul_of_pos_left hy (Nat.two_pow_pos k)
    rwa [← Nat.pow_add, show k + (64 - k) = 64 by omega] at this
  rw [UInt64.toNat_or, UInt64.toNat_shiftLeft, hshift, Nat.shiftLeft_eq, Nat.mul_comm,
    Nat.mod_eq_of_lt hfits, Nat.or_comm, ← Nat.two_pow_add_eq_or_of_lt hx, Nat.add_comm]

theorem littleEndian_lt_two_pow {b : List UInt8} {k : Nat} (h : 8 * b.length ≤ k) :
    littleEndian b < 2 ^ k := by
  have hb : littleEndian b < 2 ^ (8 * b.length) := by
    rw [Nat.pow_mul]
    exact littleEndian_lt b
  exact hb.trans_le (Nat.pow_le_pow_right (by omega) h)

theorem toNat_loadLittle {b : List UInt8} (h : b.length ≤ 8) :
    (loadLittle b).toNat = littleEndian b := by
  induction b with
  | nil => rfl
  | cons x b ih =>
    rw [List.length_cons] at h
    have hb := ih (by omega)
    have hx : x.toUInt64.toNat < 2 ^ 8 := by
      rw [UInt8.toNat_toUInt64]
      exact x.toNat_lt
    have hrest : (loadLittle b).toNat < 2 ^ (64 - 8) := by
      rw [hb]
      exact littleEndian_lt_two_pow (by omega)
    rw [loadLittle, littleEndian, ← hb, ← UInt8.toNat_toUInt64]
    exact toNat_or_shiftLeft (k := 8) (by omega) hx hrest

/-- Bytes that complete a word are shifted behind the waiting ones. -/
theorem loadLittle_append {a b : List UInt8} (ha : a.length < 8) (h : a.length + b.length ≤ 8) :
    loadLittle (a ++ b) = loadLittle a ||| loadLittle b <<< UInt64.ofNat (8 * a.length) := by
  have hla : (loadLittle a).toNat = littleEndian a := toNat_loadLittle (by omega)
  have hlb : (loadLittle b).toNat = littleEndian b := toNat_loadLittle (by omega)
  apply UInt64.toNat_inj.mp
  rw [toNat_or_shiftLeft (by omega), hla, hlb, Nat.pow_mul]
  · rw [toNat_loadLittle (by simpa using h), littleEndian_append]
  · rw [hla]
    exact littleEndian_lt_two_pow (by omega)
  · rw [hlb]
    exact littleEndian_lt_two_pow (by omega)

/-! ### Absorbing blocks -/

/-- A byte string is short of a block, or it is a block with a byte string after it. -/
@[elab_as_elim]
theorem blockwise {motive : List UInt8 → Prop} (short : ∀ data, data.length < 8 → motive data)
    (block : ∀ block rest, block.length = 8 → motive rest → motive (block ++ rest))
    (data : List UInt8) : motive data := by
  rcases Nat.lt_or_ge data.length 8 with h | h
  · exact short data h
  · rw [← List.take_append_drop 8 data]
    exact block _ _ (by simp [h]) (blockwise short block (data.drop 8))
termination_by data.length
decreasing_by
  rw [List.length_drop]
  omega

namespace Words

theorem absorb_of_lt (w : Words) {data : List UInt8} (h : data.length < 8) :
    w.absorb data = (w, data) := by
  unfold absorb
  split
  · simp at h
    omega
  · rfl

theorem absorb_block (w : Words) {block : List UInt8} (h : block.length = 8)
    (rest : List UInt8) :
    w.absorb (block ++ rest) = (w.compress (loadLittle block)).absorb rest := by
  match block, h with
  | [_, _, _, _, _, _, _, _], _ => rfl

theorem length_absorb (w : Words) (data : List UInt8) :
    (w.absorb data).2.length = data.length % 8 := by
  induction data using blockwise generalizing w with
  | short data h => rw [absorb_of_lt w h, Nat.mod_eq_of_lt h]
  | block block rest h ih => rw [absorb_block w h, ih, List.length_append, h, Nat.add_mod_left]

theorem length_absorb_lt (w : Words) (data : List UInt8) : (w.absorb data).2.length < 8 := by
  rw [length_absorb]
  omega

/-- The bytes that one piece leaves over come before the next piece. -/
theorem absorb_append (w : Words) (a b : List UInt8) :
    w.absorb (a ++ b) = (w.absorb a).1.absorb ((w.absorb a).2 ++ b) := by
  induction a using blockwise generalizing w with
  | short a h => rw [absorb_of_lt w h]
  | block block rest h ih => rw [List.append_assoc, absorb_block w h, absorb_block w h, ih]

end Words

/-- A state with nothing waiting settles its input. -/
theorem State.update_start (k0 k1 : UInt64) (data : List UInt8) :
    (start k0 k1).update data = settle (Words.start k0 k1) (UInt64.ofNat data.length) data := by
  simp [start, update]

end SipMigrate.Hash
