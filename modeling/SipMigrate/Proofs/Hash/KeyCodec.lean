import SipMigrate.Proofs.Hash.Endian
import SipMigrate.Proofs.Hash.Streaming
import SipMigrate.Proofs.Text.Hex
import SipMigrate.Proofs.Text.LetterCase
import SipMigrate.Proofs.Text.Trimming

/-! The forms of a key. It is made of sixteen bytes, by whichever conversion, or read from
hexadecimal text with blanks around it. The text is decoded before the bytes in it are
counted, so a wrong digit is reported even if the length is wrong as well. -/

namespace SipMigrate

namespace Text.Hex

theorem IsDigit.not_blank {c : Char} : IsDigit c → isBlank c = false :=
  forall_isDigit (P := fun c => isBlank c = false) (by decide +kernel)

theorem IsDigit.toLower {c : Char} : IsDigit c → IsDigit c.toLower :=
  forall_isDigit (P := fun c => IsDigit c.toLower) (by decide +kernel)

theorem IsDigit.toUpper {c : Char} : IsDigit c → IsDigit c.toUpper :=
  forall_isDigit (P := fun c => IsDigit c.toUpper) (by decide +kernel)

/-- Digits are digits in either case. -/
theorem isDigit_of_recased {l l' : List Char} (h : Recased l l') (hdigits : ∀ c ∈ l, IsDigit c) :
    ∀ c ∈ l', IsDigit c := by
  induction h with
  | nil => exact hdigits
  | cons hcd _ ih =>
    obtain ⟨hc, hl⟩ := List.forall_mem_cons.mp hdigits
    refine List.forall_mem_cons.mpr ⟨?_, ih hl⟩
    rcases hcd with rfl | rfl | rfl
    · exact hc
    · exact hc.toLower
    · exact hc.toUpper

end Text.Hex

namespace Hash.Key

open Text

/-! ### Bytes -/

theorem ofBytes_eq_ok_iff {b : List UInt8} {k : Key} : ofBytes b = .ok k ↔ k.bytes = b := by
  unfold ofBytes
  split
  · constructor
    · rintro ⟨⟩
      rfl
    · rintro rfl
      rfl
  · rename_i hlength
    refine iff_of_false nofun ?_
    rintro rfl
    exact hlength k.length_bytes

theorem ofBytes_eq_error_iff {b : List UInt8} {e : HashError} :
    ofBytes b = .error e ↔ b.length ≠ 16 ∧ e = .invalidKey 16 b.length := by
  unfold ofBytes
  split
  · rename_i hlength
    exact iff_of_false nofun fun h => h.1 hlength
  · rename_i hlength
    constructor
    · rintro ⟨⟩
      exact ⟨hlength, rfl⟩
    · rintro ⟨-, rfl⟩
      rfl

/-! ### Text -/

/-- The bytes that a key is read from. -/
def trimmed (text : String) : List UInt8 := utf8 (String.ofList (trim text.toList))

/-- What is wrong with a text that is to spell a key, in order of precedence. -/
inductive Fault (text : List UInt8) : HashError → Prop
  | oddLength (h : text.length % 2 = 1) : Fault text (.invalidHex .oddLength)
  | badByte {b : UInt8} {index : Nat} (heven : text.length % 2 = 0)
    (h : Hex.FirstBad text b index) : Fault text (.invalidHex (.badByte b index))
  | wrongLength (heven : text.length % 2 = 0) (hdigits : Hex.AllDigits text)
    (h : text.length ≠ 32) : Fault text (.invalidKey 16 (text.length / 2))

theorem ofHex_of_decode {text : String} {b : List UInt8} (h : Hex.decode (trimmed text) = .ok b) :
    ofHex text = ofBytes b := by
  rw [trimmed] at h
  rw [ofHex, h]

theorem ofHex_of_decode_error {text : String} {e : Hex.HexError}
    (h : Hex.decode (trimmed text) = .error e) : ofHex text = .error (.invalidHex e) := by
  rw [trimmed] at h
  rw [ofHex, h]

theorem ofHex_of_fault {text : String} {e : HashError} (h : Fault (trimmed text) e) :
    ofHex text = .error e := by
  cases h with
  | oddLength h => exact ofHex_of_decode_error (Hex.decode_of_odd h)
  | badByte heven h => exact ofHex_of_decode_error (Hex.decode_of_firstBad heven h)
  | wrongLength heven hdigits h =>
    obtain ⟨b, hread⟩ := Hex.exists_decode heven hdigits
    have hlength := Hex.length_of_decode hread
    rw [ofHex_of_decode hread, ofBytes_eq_error_iff, ← hlength]
    exact ⟨by omega, by rw [Nat.mul_div_cancel_left _ Nat.two_pos]⟩

theorem exists_ofHex {text : String} (hlength : (trimmed text).length = 32)
    (hdigits : Hex.AllDigits (trimmed text)) : ∃ k, ofHex text = .ok k ∧
      k.bytes.flatMap Hex.encodeByte =
        (trimmed text).map fun b => (byteChar b).toLower := by
  obtain ⟨b, hread⟩ := Hex.exists_decode (by omega) hdigits
  have hb : b.length = keySize := by
    have := Hex.length_of_decode hread
    rw [keySize]
    omega
  exact ⟨⟨b, hb⟩, by rw [ofHex_of_decode hread, ofBytes_eq_ok_iff],
    (Hex.decode_eq_ok_iff.mp hread).2.2⟩

/-- A text has a fault or spells a key. -/
theorem exists_fault_or (text : List UInt8) :
    (∃ e, Fault text e) ∨ text.length = 32 ∧ Hex.AllDigits text := by
  rcases Nat.mod_two_eq_zero_or_one text.length with heven | hodd
  · rcases Hex.allDigits_or_firstBad text with hdigits | ⟨b, index, hbad⟩
    · by_cases hlength : text.length = 32
      · exact .inr ⟨hlength, hdigits⟩
      · exact .inl ⟨_, .wrongLength heven hdigits hlength⟩
    · exact .inl ⟨_, .badByte heven hbad⟩
  · exact .inl ⟨_, .oddLength hodd⟩

theorem ofHex_eq_error_iff {text : String} {e : HashError} :
    ofHex text = .error e ↔ Fault (trimmed text) e := by
  refine ⟨fun hread => ?_, ofHex_of_fault⟩
  rcases exists_fault_or (trimmed text) with ⟨e', hfault⟩ | ⟨hlength, hdigits⟩
  · rw [ofHex_of_fault hfault] at hread
    cases hread
    exact hfault
  · obtain ⟨k, hk, -⟩ := exists_ofHex hlength hdigits
    rw [hk] at hread
    cases hread

theorem exists_ofHex_iff {text : String} : (∃ k, ofHex text = .ok k) ↔
    (trimmed text).length = 32 ∧ Hex.AllDigits (trimmed text) := by
  constructor
  · rintro ⟨k, hread⟩
    refine (exists_fault_or (trimmed text)).resolve_left ?_
    rintro ⟨e, hfault⟩
    rw [ofHex_of_fault hfault] at hread
    cases hread
  · rintro ⟨hlength, hdigits⟩
    obtain ⟨k, hread, -⟩ := exists_ofHex hlength hdigits
    exact ⟨k, hread⟩

/-- What is read is written as the text is, in lower case. -/
theorem ofHex_eq_ok_iff {text : String} {k : Key} : ofHex text = .ok k ↔
    (trim text.toList).length = 32 ∧ (∀ c ∈ trim text.toList, Hex.IsDigit c) ∧
      k.hex.toList = (trim text.toList).map Char.toLower := by
  have hspelled := Hex.spelled_utf8_iff (· = 32) (String.ofList (trim text.toList)) k.bytes
  rw [String.toList_ofList] at hspelled
  rw [hex, ← hspelled]
  constructor
  · intro hread
    obtain ⟨hlength, hdigits⟩ := exists_ofHex_iff.mp ⟨k, hread⟩
    obtain ⟨k', hread', hbytes⟩ := exists_ofHex hlength hdigits
    cases hread.symm.trans hread'
    exact ⟨hlength, hdigits, hbytes⟩
  · rintro ⟨hlength, hdigits, hbytes⟩
    obtain ⟨k', hread, hbytes'⟩ := exists_ofHex hlength hdigits
    rw [hread, bytes_injective (Hex.flatMap_encodeByte_inj (hbytes'.trans hbytes.symm))]

theorem toList_hex (k : Key) : k.hex.toList = k.bytes.flatMap Hex.encodeByte :=
  Hex.toList_encode k.bytes

theorem hex_digits (k : Key) :
    k.hex.toList.length = 32 ∧ ∀ c ∈ k.hex.toList, Hex.IsDigit c ∧ c.toLower = c := by
  rw [toList_hex, Hex.length_flatMap_encodeByte, k.length_bytes]
  exact ⟨rfl, fun c => Hex.mem_flatMap_encodeByte⟩

/-- The text of a key is read in any letter case and with any blanks around it. -/
theorem ofHex_recased {k : Key} {before spelled behind : List Char} (hbefore : AllBlank before)
    (hbehind : AllBlank behind) (h : Recased k.hex.toList spelled) :
    ofHex (String.ofList (before ++ spelled ++ behind)) = .ok k := by
  obtain ⟨hlength, hk⟩ := k.hex_digits
  have hdigits := Hex.isDigit_of_recased h fun c hc => (hk c hc).1
  have htrim : trim (before ++ spelled ++ behind) = spelled := by
    rw [trim_append_right hbehind, trim_append_left hbefore,
      trim_of_no_blank fun c hc => (hdigits c hc).not_blank]
  have hlower : k.hex.toList.map Char.toLower = k.hex.toList := by
    rw [toList_hex, Hex.map_toLower_flatMap_encodeByte]
  rw [ofHex_eq_ok_iff, String.toList_ofList, htrim, h.map_toLower, hlower]
  exact ⟨h.length_eq.symm.trans hlength, hdigits, rfl⟩

theorem halves_eq_map (k : Key) :
    (List.range 8).map (fun i => UInt8.ofNat (k.halves.1.toNat / 256 ^ i)) ++
      (List.range 8).map (fun i => UInt8.ofNat (k.halves.2.toNat / 256 ^ i)) = k.bytes := by
  rw [← littleBytes_eq_map, ← littleBytes_eq_map, littleBytes_halves]

/-- A text is read as a key if 32 digits of either case are left of it between the blanks at
its ends, and then they are the text of the key, in lower case; another text is refused with
its first fault. The text of a key spells its bytes, and the key is read back from it in any
letter case and between any blanks. A key is made of its bytes by each conversion, and of no
other number of bytes. Its two words spell its bytes, least significant byte first. -/
theorem key_forms :
    (∀ text : String,
      (∀ e, ofHex text = .error e ↔ Fault (trimmed text) e) ∧
      ((∃ k, ofHex text = .ok k) ↔
        (trimmed text).length = 32 ∧ Hex.AllDigits (trimmed text)) ∧
      ∀ k, ofHex text = .ok k ↔ (trim text.toList).length = 32 ∧
        (∀ c ∈ trim text.toList, Hex.IsDigit c) ∧
        k.hex.toList = (trim text.toList).map Char.toLower) ∧
    (∀ k : Key,
      (∀ before spelled behind, AllBlank before → AllBlank behind →
        Recased k.hex.toList spelled →
          ofHex (String.ofList (before ++ spelled ++ behind)) = .ok k) ∧
      k.hex.toList = k.bytes.flatMap (fun b =>
        [Nat.digitChar (b.toNat / 16), Nat.digitChar (b.toNat % 16)]) ∧
      (List.range 8).map (fun i => UInt8.ofNat (k.halves.1.toNat / 256 ^ i)) ++
        (List.range 8).map (fun i => UInt8.ofNat (k.halves.2.toNat / 256 ^ i)) = k.bytes) ∧
    (∀ bytes : List UInt8,
      ofSlice bytes = ofBytes bytes ∧
      (∀ k, ofBytes bytes = .ok k ↔ k.bytes = bytes) ∧
      ∀ e, ofBytes bytes = .error e ↔ bytes.length ≠ 16 ∧ e = .invalidKey 16 bytes.length) ∧
    ∀ bytes : Vector UInt8 16, ofBytes bytes.toList = .ok (ofVector bytes) :=
  ⟨fun _ => ⟨fun _ => ofHex_eq_error_iff, exists_ofHex_iff, fun _ => ofHex_eq_ok_iff⟩,
    fun k => ⟨fun _ _ _ => ofHex_recased, Hex.toList_encode_eq_digits k.bytes,
      k.halves_eq_map⟩,
    fun _ => ⟨rfl, fun _ => ofBytes_eq_ok_iff, fun _ => ofBytes_eq_error_iff⟩,
    fun _ => ofBytes_eq_ok_iff.mpr rfl⟩

/-- A key with letters in it, in capitals and between blanks of several kinds. -/
theorem key_forms_of_capitals :
    let k : Key := ⟨[0xab, 0xcd, 0xef] ++ List.replicate 13 0x5a, rfl⟩
    let before := ['\u2003', '\t']
    let spelled := "ABcdEF".toList ++ (List.replicate 13 ['5', 'A']).flatten
    let behind := ['\u0085', '\n']
    AllBlank before ∧ AllBlank behind ∧ Recased k.hex.toList spelled ∧
      ofHex (String.ofList (before ++ spelled ++ behind)) = .ok k := by
  intro k before spelled behind
  have hbefore : AllBlank before := by decide
  have hbehind : AllBlank behind := by decide
  have hspelled : Recased k.hex.toList spelled := by
    rw [toList_hex]
    decide
  exact ⟨hbefore, hbehind, hspelled,
    (key_forms.2.1 k).1 before spelled behind hbefore hbehind hspelled⟩

end Hash.Key

end SipMigrate
