import SipMigrate.CommandLine.Output
import SipMigrate.Proofs.Files.Paths
import SipMigrate.Proofs.Hash.DigestCodec
import SipMigrate.Proofs.Text.JsonReading

/-! What is printed of a digest can be read in six ways: as hexadecimal text, as decimal
numbers of bytes, as one decimal number, and by each field of an object. All of them give
the number of the digest, so a text in one format determines the texts in all others. -/

namespace SipMigrate.CommandLine

open Text Hash

/-! ### Parts of values -/

/-- The value in a field of an object. -/
def field? (key : String) : Json → Option Json
  | .object fields => fields.lookup key
  | _ => none

def string? : Json → Option String
  | .string s => some s
  | _ => none

def number? : Json → Option Int
  | .number n => some n
  | _ => none

def items? : Json → Option (List Json)
  | .array items => some items
  | _ => none

/-! ### Readings of a digest -/

def byte? (n : Int) : Option UInt8 :=
  if 0 ≤ n ∧ n < 256 then some (UInt8.ofNat n.toNat) else none

/-- A number of 64 bits. -/
def word? (n : Int) : Option Nat :=
  if 0 ≤ n ∧ n.toNat < UInt64.size then some n.toNat else none

/-- The number of eight bytes, the least significant one first. -/
def wordOfBytes? (bytes : List UInt8) : Option Nat :=
  if bytes.length = 8 then some (littleEndian bytes) else none

def wordOfHex? (text : String) : Option Nat :=
  (Hex.decode (utf8 text)).toOption.bind wordOfBytes?

/-- A way of reading what is printed of a digest. -/
inductive DigestReading
  | hex
  | bytes
  | u64
  | jsonHex
  | jsonBytes
  | jsonValue

namespace DigestReading

/-- The format that is read. -/
def format : DigestReading → DigestFormat
  | hex => .hex
  | bytes => .bytes
  | u64 => .u64
  | jsonHex | jsonBytes | jsonValue => .json

def read? (text : String) : DigestReading → Option Nat
  | hex => wordOfHex? text
  | bytes => do
    wordOfBytes? (← (Files.piecesBetween ' ' text.toList).mapM fun l => do byte? (← natural? l))
  | u64 => do word? (← natural? text.toList)
  | jsonHex => do wordOfHex? (← string? (← field? "hex" (← Json.read? text)))
  | jsonBytes => do
    wordOfBytes? (← (← items? (← field? "bytes" (← Json.read? text))).mapM fun v => do
      byte? (← number? v))
  | jsonValue => do word? (← number? (← field? "value" (← Json.read? text)))

end DigestReading

/-! ### They all give the number of the digest -/

theorem byte?_toNat (b : UInt8) : byte? b.toNat = some b := by
  have hb : (0 : Int) ≤ b.toNat ∧ (b.toNat : Int) < 256 := by
    have := b.toNat_lt
    omega
  rw [byte?, if_pos hb, Int.toNat_natCast, UInt8.ofNat_toNat]

theorem word?_toNat (x : UInt64) : word? x.toNat = some x.toNat := by
  rw [word?, Int.toNat_natCast, if_pos ⟨Int.natCast_nonneg _, x.toNat_lt⟩]

theorem wordOfBytes?_bytes (d : Digest) : wordOfBytes? d.bytes = some d.value.toNat := by
  rw [wordOfBytes?, if_pos (show d.bytes.length = 8 from d.length_bytes), Digest.bytes,
    littleEndian_littleBytes d.value.toNat_lt]

theorem wordOfHex?_hex (d : Digest) : wordOfHex? d.hex = some d.value.toNat := by
  have hread := Digest.ofHex_eq_ok_iff_decodeExactly.mp d.ofHex_hex
  obtain ⟨hlength, hdigits, hbytes⟩ := Hex.decodeExactly_eq_ok_iff.mp hread
  have hdecode : Hex.decode (utf8 d.hex) = .ok d.bytes :=
    Hex.decode_eq_ok_iff.mpr ⟨by omega, hdigits, hbytes⟩
  rw [wordOfHex?, hdecode]
  exact wordOfBytes?_bytes d

/-- Bytes that are written one by one are read one by one. -/
theorem mapM_of_inverse {α : Type} {write : UInt8 → α} {read : α → Option UInt8}
    (h : ∀ b, read (write b) = some b) (bytes : List UInt8) :
    (bytes.map write).mapM read = some bytes := by
  induction bytes with
  | nil => rfl
  | cons b bytes ih => simp [List.mapM_cons, h, ih]

theorem piecesBetween_byteText (d : Digest) : Files.piecesBetween ' ' (byteText d).toList =
    d.bytes.map fun b => (toString b.toNat).toList := by
  have hne : d.bytes.map (fun b => (toString b.toNat).toList) ≠ [] := by
    rw [Ne, List.map_eq_nil_iff, ← List.length_eq_zero_iff, d.length_bytes]
    decide
  have hspace : ∀ piece ∈ d.bytes.map (fun b => (toString b.toNat).toList), ' ' ∉ piece := by
    intro piece hpiece hmem
    obtain ⟨b, -, rfl⟩ := List.mem_map.mp hpiece
    rw [Nat.toString_eq_repr, Nat.toList_repr] at hmem
    exact absurd (isDigit_of_mem_toDigits hmem) (by decide)
  have hjoin : (byteText d).toList =
      [' '].intercalate (d.bytes.map fun b => (toString b.toNat).toList) := by
    rw [byteText, String.toList_intercalate, List.map_map]
    rfl
  rw [hjoin, Files.piecesBetween_intercalate hne hspace]

section Fields

variable (d : Digest)

theorem field?_hex : field? "hex" (digestJson d) = some (.string d.hex) := rfl

theorem field?_bytes : field? "bytes" (digestJson d) =
    some (.array (d.bytes.map fun b => .number b.toNat)) := rfl

theorem field?_value : field? "value" (digestJson d) = some (.number d.value.toNat) := rfl

end Fields

/-- Every reading of what is printed of a digest gives its number. -/
theorem DigestReading.read?_digestText (r : DigestReading) (d : Digest) :
    r.read? (digestText d r.format) = some d.value.toNat := by
  have hjson : Json.read? (digestText d .json) = some (digestJson d) := Json.read?_pretty _
  cases r with
  | hex => simp only [read?, format, digestText, wordOfHex?_hex]
  | bytes =>
    have hbytes : (Files.piecesBetween ' ' (byteText d).toList).mapM
        (fun l => (natural? l).bind fun n => byte? n) = some d.bytes := by
      rw [piecesBetween_byteText]
      exact mapM_of_inverse (fun b => by rw [natural?_toString, Option.bind_some, byte?_toNat]) _
    simp only [read?, format, digestText, Option.bind_eq_bind, hbytes, Option.bind_some,
      wordOfBytes?_bytes]
  | u64 =>
    simp only [read?, format, digestText, natural?_toString, Option.bind_eq_bind,
      Option.bind_some, word?_toNat]
  | jsonHex =>
    simp only [read?, format, hjson, Option.bind_eq_bind, Option.bind_some, field?_hex, string?,
      wordOfHex?_hex]
  | jsonBytes =>
    have hbytes : (d.bytes.map fun b => Json.number b.toNat).mapM
        (fun v => (number? v).bind byte?) = some d.bytes :=
      mapM_of_inverse (fun b => by rw [number?, Option.bind_some, byte?_toNat]) _
    simp only [read?, format, hjson, Option.bind_eq_bind, Option.bind_some, field?_bytes, items?,
      hbytes, wordOfBytes?_bytes]
  | jsonValue =>
    simp only [read?, format, hjson, Option.bind_eq_bind, Option.bind_some, field?_value, number?,
      word?_toNat]

/-- A reading of each format. -/
theorem DigestReading.exists_format (f : DigestFormat) : ∃ r : DigestReading, r.format = f := by
  cases f with
  | hex => exact ⟨.hex, rfl⟩
  | bytes => exact ⟨.bytes, rfl⟩
  | u64 => exact ⟨.u64, rfl⟩
  | json => exact ⟨.jsonValue, rfl⟩

/-- What is printed of a digest tells the digest. -/
theorem digestText_injective (f : DigestFormat) :
    Function.Injective fun d : Digest => digestText d f := by
  intro d d' h
  obtain ⟨r, rfl⟩ := DigestReading.exists_format f
  have hvalue : some d.value.toNat = some d'.value.toNat := by
    rw [← r.read?_digestText, ← r.read?_digestText]
    exact congrArg r.read? h
  cases d
  cases d'
  simpa [UInt64.toNat_inj] using hvalue

end SipMigrate.CommandLine
