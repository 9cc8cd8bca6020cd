import SipMigrate.Hash.Key
import SipMigrate.Proofs.Hash.Blocks

/-! Numbers written in bytes, least significant byte first, and read back. A word is told
by its eight bytes, and a key by its two words. -/

namespace SipMigrate.Hash

theorem littleEndian_littleBytes {width n : Nat} (h : n < 256 ^ width) :
    littleEndian (littleBytes width n) = n := by
  induction width generalizing n with
  | zero =>
    rw [Nat.pow_zero] at h
    rw [littleBytes, littleEndian]
    omega
  | succ width ih =>
    have hrest : n / 256 < 256 ^ width := Nat.div_lt_of_lt_mul (by rwa [← Nat.pow_succ'])
    rw [littleBytes, littleEndian, ih hrest, UInt8.toNat_ofNat']
    omega

theorem littleBytes_littleEndian (b : List UInt8) :
    littleBytes b.length (littleEndian b) = b := by
  induction b with
  | nil => rfl
  | cons x b ih =>
    have hx := x.toNat_lt
    have hlow : UInt8.ofNat (x.toNat + 256 * littleEndian b) = x := by
      apply UInt8.toNat_inj.mp
      rw [UInt8.toNat_ofNat']
      omega
    have hrest : (x.toNat + 256 * littleEndian b) / 256 = littleEndian b := by omega
    rw [List.length_cons, littleEndian, littleBytes, hlow, hrest, ih]

/-- A word is read back from its bytes. -/
theorem loadLittle_littleBytes (x : UInt64) : loadLittle (littleBytes 8 x.toNat) = x := by
  apply UInt64.toNat_inj.mp
  rw [toNat_loadLittle (by simp), littleEndian_littleBytes x.toNat_lt]

theorem littleBytes_loadLittle {b : List UInt8} (h : b.length = 8) :
    littleBytes 8 (loadLittle b).toNat = b := by
  rw [toNat_loadLittle h.le, ← h, littleBytes_littleEndian]

namespace Key

theorem littleBytes_halves (k : Key) :
    littleBytes 8 k.halves.1.toNat ++ littleBytes 8 k.halves.2.toNat = k.bytes := by
  have hlow : (k.bytes.take 8).length = 8 := by simp [k.length_bytes, keySize]
  have hhigh : (k.bytes.drop 8).length = 8 := by simp [k.length_bytes, keySize]
  rw [halves, littleBytes_loadLittle hlow, littleBytes_loadLittle hhigh, List.take_append_drop]

theorem bytes_injective : Function.Injective bytes := by
  rintro ⟨b, hb⟩ ⟨b', hb'⟩ h
  congr

theorem halves_injective : Function.Injective halves := by
  intro k k' h
  apply bytes_injective
  rw [← k.littleBytes_halves, h, k'.littleBytes_halves]

end Key

end SipMigrate.Hash
