import SipMigrate.Hash.Digest
import SipMigrate.Proofs.Hash.Endian
import SipMigrate.Proofs.Hash.Streaming
import SipMigrate.Proofs.Text.Hex
import SipMigrate.Proofs.Text.Json

/-! The forms of a digest. Its bytes, its hexadecimal text and its string literal are each
read back, and the text is read in either case; what is no text of sixteen digits is
refused with its first fault. -/

namespace SipMigrate.Hash

open Text

namespace Digest

theorem length_bytes (d : Digest) : d.bytes.length = digestSize := length_littleBytes _ _

theorem ofBytes_bytes (d : Digest) : ofBytes d.bytes = d := by
  rw [ofBytes, bytes, digestSize, loadLittle_littleBytes]

theorem bytes_ofBytes {b : List UInt8} (h : b.length = digestSize) : (ofBytes b).bytes = b :=
  littleBytes_loadLittle h

theorem bytes_eq_map (d : Digest) :
    d.bytes = (List.range 8).map fun i => UInt8.ofNat (d.value.toNat / 256 ^ i) :=
  littleBytes_eq_map _ _

theorem bytesBig_eq_map (d : Digest) :
    d.bytesBig = (List.range 8).map fun i => UInt8.ofNat (d.value.toNat / 256 ^ (7 - i)) := by
  rw [bytesBig, bigBytes, digestSize, littleBytes_eq_map, ← List.map_reverse]
  rfl

theorem toList_hex (d : Digest) : d.hex.toList = d.bytes.flatMap Hex.encodeByte :=
  Hex.toList_encode d.bytes

theorem ofHex_eq_ok_iff_decodeExactly {text : String} {d : Digest} :
    ofHex text = .ok d ↔ Hex.decodeExactly digestSize (utf8 text) = .ok d.bytes := by
  unfold ofHex
  cases hread : Hex.decodeExactly digestSize (utf8 text) with
  | error e => exact iff_of_false nofun nofun
  | ok b =>
    have hb : (ofBytes b).bytes = b := bytes_ofBytes (Hex.length_of_decodeExactly hread)
    constructor
    · rintro ⟨⟩
      rw [hb]
    · intro h
      exact congrArg Except.ok (by rw [Except.ok.inj h, ofBytes_bytes])

theorem ofHex_eq_ok_iff {text : String} {d : Digest} :
    ofHex text = .ok d ↔ text.toList.length = 16 ∧ (∀ c ∈ text.toList, Hex.IsDigit c) ∧
      d.hex.toList = text.toList.map Char.toLower :=
  ofHex_eq_ok_iff_decodeExactly.trans Hex.decodeExactly_utf8_eq_ok_iff

theorem ofHex_eq_error_iff {text : String} {e : HashError} :
    ofHex text = .error e ↔
      ∃ fault, e = .invalidHex fault ∧ Hex.Fault digestSize (utf8 text) fault := by
  unfold ofHex
  cases hread : Hex.decodeExactly digestSize (utf8 text) with
  | ok b =>
    refine iff_of_false nofun ?_
    rintro ⟨fault, -, h⟩
    rw [Hex.decodeExactly_eq_error_iff.mpr h] at hread
    cases hread
  | error fault =>
    have hfault := Hex.decodeExactly_eq_error_iff.mp hread
    constructor
    · rintro ⟨⟩
      exact ⟨fault, rfl, hfault⟩
    · rintro ⟨fault', rfl, h⟩
      rw [Hex.decodeExactly_eq_error_iff.mpr h] at hread
      cases hread
      rfl

theorem exists_ofHex_iff {text : String} : (∃ d, ofHex text = .ok d) ↔
    text.toList.length = 16 ∧ ∀ c ∈ text.toList, Hex.IsDigit c := by
  constructor
  · rintro ⟨d, h⟩
    obtain ⟨hlength, hdigits, -⟩ := ofHex_eq_ok_iff.mp h
    exact ⟨hlength, hdigits⟩
  · rintro ⟨hlength, hdigits⟩
    have hbytes : (utf8 text).length = 2 * digestSize := by
      rw [Hex.length_utf8_of_digits hdigits, hlength]
      rfl
    obtain ⟨b, hread⟩ := Hex.exists_decodeExactly hbytes ((Hex.allDigits_utf8_iff text).mpr hdigits)
    exact ⟨ofBytes b, by rw [ofHex, hread]⟩

/-- The text of a digest is sixteen digits in lower case. -/
theorem hex_digits (d : Digest) :
    d.hex.toList.length = 16 ∧ ∀ c ∈ d.hex.toList, Hex.IsDigit c ∧ c.toLower = c := by
  rw [toList_hex, Hex.length_flatMap_encodeByte, length_bytes]
  exact ⟨rfl, fun c => Hex.mem_flatMap_encodeByte⟩

theorem ofHex_hex (d : Digest) : ofHex d.hex = .ok d := by
  obtain ⟨hlength, hdigits⟩ := d.hex_digits
  refine ofHex_eq_ok_iff.mpr ⟨hlength, fun c hc => (hdigits c hc).1, ?_⟩
  rw [toList_hex, Hex.map_toLower_flatMap_encodeByte]

/-- A string literal is read as the text in it is. -/
theorem ofJson?_literal (text : String) :
    ofJson? (Json.literal text) = (ofHex text).toOption := by
  rw [ofJson?, Json.readString?_literal, Option.bind_some]

theorem escapeChar_digit {c : Char} : Hex.IsDigit c → Json.escapeChar c = [c] :=
  Hex.forall_isDigit (P := fun c => Json.escapeChar c = [c]) (by decide +kernel)

/-- No digit is escaped, so the literal is the text between quotes. -/
theorem toList_json (d : Digest) : d.json.toList = '"' :: d.hex.toList ++ ['"'] := by
  have hplain : d.hex.toList.flatMap Json.escapeChar = d.hex.toList := by
    rw [List.flatMap_congr fun c hc => escapeChar_digit (d.hex_digits.2 c hc).1,
      List.flatMap_singleton']
  rw [json, Json.literal, String.toList_ofList, hplain]

/-- A digest is written as the sixteen lowercase digits of its bytes, least significant byte
first and in each the higher digit first, and every form of it is read back. A text is read
if it has sixteen digits of either case, and then it is the text of what is read, in lower
case; another text is refused with its first fault. -/
theorem digest_forms :
    (∀ d : Digest,
      (d.bytes = (List.range 8).map (fun i => UInt8.ofNat (d.value.toNat / 256 ^ i)) ∧
        d.bytesBig = (List.range 8).map (fun i => UInt8.ofNat (d.value.toNat / 256 ^ (7 - i))) ∧
        d.bytesBig = d.bytes.reverse) ∧
      (d.hex.toList = d.bytes.flatMap (fun b =>
          [Nat.digitChar (b.toNat / 16), Nat.digitChar (b.toNat % 16)]) ∧
        d.hex.toList.length = 16 ∧ ∀ c ∈ d.hex.toList, Hex.IsDigit c ∧ c.toLower = c) ∧
      (toString d = d.hex ∧ d.json.toList = '"' :: d.hex.toList ++ ['"']) ∧
      ofHex d.hex = .ok d ∧ parse (toString d) = .ok d ∧ ofJson? d.json = some d ∧
        ofBytes d.bytes = d) ∧
    ∀ text : String,
      ((∃ d, ofHex text = .ok d) ↔
        text.toList.length = 16 ∧ ∀ c ∈ text.toList, Hex.IsDigit c) ∧
      (∀ d, ofHex text = .ok d ↔ text.toList.length = 16 ∧ (∀ c ∈ text.toList, Hex.IsDigit c) ∧
        d.hex.toList = text.toList.map Char.toLower) ∧
      (∀ e, ofHex text = .error e ↔
        ∃ fault, e = .invalidHex fault ∧ Hex.Fault 8 (utf8 text) fault) ∧
      parse text = ofHex text ∧
      ofJson? (Json.literal text) = (ofHex text).toOption := by
  refine ⟨fun d => ⟨⟨d.bytes_eq_map, d.bytesBig_eq_map, rfl⟩,
    ⟨Hex.toList_encode_eq_digits d.bytes, d.hex_digits⟩,
    ⟨rfl, d.toList_json⟩, d.ofHex_hex, d.ofHex_hex, ?_, d.ofBytes_bytes⟩, fun text => ?_⟩
  · rw [json, ofJson?_literal, ofHex_hex]
    rfl
  · exact ⟨exists_ofHex_iff, fun d => ofHex_eq_ok_iff, fun e => ofHex_eq_error_iff, rfl,
      ofJson?_literal text⟩

end Digest

end SipMigrate.Hash
