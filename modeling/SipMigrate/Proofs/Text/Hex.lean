import Mathlib
import SipMigrate.Text.Hex

/-! Hexadecimal text is written in one way and read in either case. Reading accepts an even
number of digits and nothing else, what is read is written as the text in lower case, and
what is refused is reported by its first fault. Since every byte of a character beyond
ASCII is above 127, the digits among the bytes of a text are the digits among its
characters. -/

namespace SipMigrate.Text

/-- The character of a byte's number. -/
def byteChar (b : UInt8) : Char := Char.ofNat b.toNat

theorem toNat_byteChar (b : UInt8) : (byteChar b).toNat = b.toNat := by
  have hb := b.toNat_lt
  rw [byteChar, Char.toNat_ofNat, if_pos (.inl (by omega))]

theorem utf8EncodeChar_of_ascii {c : Char} (h : c.toNat < 128) :
    String.utf8EncodeChar c = [UInt8.ofNat c.toNat] :=
  if_pos (Nat.le_of_lt_succ h)

theorem byteChar_ofNat_toNat {c : Char} (h : c.toNat < 128) :
    byteChar (UInt8.ofNat c.toNat) = c := by
  have hlow : (UInt8.ofNat c.toNat).toNat = c.toNat := by
    rw [UInt8.toNat_ofNat']
    omega
  rw [byteChar, hlow, Char.ofNat_toNat]

/-- The encoding of a character beyond ASCII begins with a byte beyond it. -/
theorem exists_mem_utf8EncodeChar {c : Char} (h : 128 ≤ c.toNat) :
    ∃ b ∈ String.utf8EncodeChar c, 128 ≤ b.toNat := by
  have hc : ¬ c.val.toNat ≤ 0x7f := Nat.not_le_of_lt h
  simp only [String.utf8EncodeChar, if_neg hc]
  split
  · exact ⟨_, List.mem_cons_self, by rw [UInt8.toNat_ofNat']; omega⟩
  split
  · exact ⟨_, List.mem_cons_self, by rw [UInt8.toNat_ofNat']; omega⟩
  · exact ⟨_, List.mem_cons_self, by rw [UInt8.toNat_ofNat']; omega⟩

namespace Hex

/-- A digit of either case. -/
def IsDigit (c : Char) : Prop := '0' ≤ c ∧ c ≤ '9' ∨ 'a' ≤ c ∧ c ≤ 'f' ∨ 'A' ≤ c ∧ c ≤ 'F'

instance (c : Char) : Decidable (IsDigit c) := inferInstanceAs (Decidable (_ ∨ _))

theorem IsDigit.toNat_lt {c : Char} (h : IsDigit c) : c.toNat < 128 := by
  have bound {last : Char} (hlast : last.toNat < 128) (hc : c ≤ last) : c.toNat < 128 :=
    Nat.lt_of_le_of_lt hc hlast
  rcases h with ⟨-, hc⟩ | ⟨-, hc⟩ | ⟨-, hc⟩
  · exact bound (by decide) hc
  · exact bound (by decide) hc
  · exact bound (by decide) hc

/-- What holds of every digit is checked on the ASCII characters. -/
theorem forall_isDigit {P : Char → Prop}
    (h : ∀ n < 128, IsDigit (Char.ofNat n) → P (Char.ofNat n)) {c : Char} (hc : IsDigit c) :
    P c := by
  have hchar := h c.toNat hc.toNat_lt
  rw [Char.ofNat_toNat] at hchar
  exact hchar hc

/-! ### Single digits -/

theorem digit_eq_digitChar : ∀ n < 16, digit n = Nat.digitChar n := by decide

theorem isDigit_digit : ∀ n < 16, IsDigit (digit n) ∧ (digit n).toLower = digit n := by decide

theorem digit_inj : ∀ m < 16, ∀ n < 16, digit m = digit n → m = n := by decide

theorem map_digit_value?_table : ∀ n < 256,
    (value? (UInt8.ofNat n)).map (fun v => digit v.toNat) =
      if IsDigit (Char.ofNat n) then some (Char.ofNat n).toLower else none := by
  decide +kernel

theorem value?_lt_table : ∀ n < 256, (value? (UInt8.ofNat n)).all (·.toNat < 16) := by
  decide +kernel

/-- Digits have a value, whose digit is the lower case, and other bytes have none. -/
theorem map_digit_value? (b : UInt8) : (value? b).map (fun v => digit v.toNat) =
    if IsDigit (byteChar b) then some (byteChar b).toLower else none := by
  have h := map_digit_value?_table b.toNat b.toNat_lt
  rwa [UInt8.ofNat_toNat] at h

theorem value?_eq_some {b v : UInt8} (h : value? b = some v) :
    v.toNat < 16 ∧ IsDigit (byteChar b) ∧ digit v.toNat = (byteChar b).toLower := by
  have hlt := value?_lt_table b.toNat b.toNat_lt
  have hdigit := map_digit_value? b
  rw [UInt8.ofNat_toNat, h] at hlt
  rw [h, Option.map_some] at hdigit
  split at hdigit
  · rename_i hb
    exact ⟨by simpa using hlt, hb, Option.some.inj hdigit⟩
  · cases hdigit

theorem value?_eq_none_iff {b : UInt8} : value? b = none ↔ ¬ IsDigit (byteChar b) := by
  rw [← Option.map_eq_none_iff (f := fun v : UInt8 => digit v.toNat), map_digit_value?]
  simp

theorem exists_value? {b : UInt8} (h : IsDigit (byteChar b)) : ∃ v, value? b = some v :=
  Option.ne_none_iff_exists'.mp fun hnone => value?_eq_none_iff.mp hnone h

/-! ### Writing -/

theorem encodeByte_eq_digitChar (b : UInt8) :
    encodeByte b = [Nat.digitChar (b.toNat / 16), Nat.digitChar (b.toNat % 16)] := by
  have hb := b.toNat_lt
  rw [encodeByte, digit_eq_digitChar _ (by omega), digit_eq_digitChar _ (by omega)]

theorem encodeByte_pair {h l : UInt8} (hh : h.toNat < 16) (hl : l.toNat < 16) :
    encodeByte (16 * h + l) = [digit h.toNat, digit l.toNat] := by
  have hnat : (16 * h + l).toNat = 16 * h.toNat + l.toNat := by
    rw [UInt8.toNat_add, UInt8.toNat_mul]
    simp
    omega
  rw [encodeByte, hnat]
  congr
  · omega
  · omega

theorem encodeByte_inj {a b : UInt8} (h : encodeByte a = encodeByte b) : a = b := by
  have ha := a.toNat_lt
  have hb := b.toNat_lt
  simp only [encodeByte, List.cons.injEq, and_true] at h
  have hhigh := digit_inj _ (by omega) _ (by omega) h.1
  have hlow := digit_inj _ (by omega) _ (by omega) h.2
  apply UInt8.toNat_inj.mp
  omega

theorem flatMap_encodeByte_inj {a b : List UInt8}
    (h : a.flatMap encodeByte = b.flatMap encodeByte) : a = b := by
  induction a generalizing b with
  | nil =>
    cases b with
    | nil => rfl
    | cons y b => cases h
  | cons x a ih =>
    cases b with
    | nil => cases h
    | cons y b =>
      rw [List.flatMap_cons, List.flatMap_cons] at h
      obtain ⟨hxy, hab⟩ := List.append_inj h rfl
      rw [encodeByte_inj hxy, ih hab]

theorem length_flatMap_encodeByte (b : List UInt8) :
    (b.flatMap encodeByte).length = 2 * b.length := by
  induction b with
  | nil => rfl
  | cons x b ih =>
    rw [List.flatMap_cons, List.length_append, ih, List.length_cons, encodeByte, List.length_cons,
      List.length_singleton]
    omega

theorem mem_flatMap_encodeByte {b : List UInt8} {c : Char} (h : c ∈ b.flatMap encodeByte) :
    IsDigit c ∧ c.toLower = c := by
  obtain ⟨x, -, hc⟩ := List.mem_flatMap.mp h
  have hx := x.toNat_lt
  simp only [encodeByte, List.mem_cons, List.not_mem_nil, or_false] at hc
  rcases hc with rfl | rfl
  · exact isDigit_digit _ (by omega)
  · exact isDigit_digit _ (by omega)

/-- What is written is in lower case. -/
theorem map_toLower_flatMap_encodeByte (b : List UInt8) :
    (b.flatMap encodeByte).map Char.toLower = b.flatMap encodeByte := by
  rw [List.map_congr_left (g := id) fun c hc => (mem_flatMap_encodeByte hc).2, List.map_id]

/-! ### Reading -/

/-- All bytes of a text are digits. -/
def AllDigits (text : List UInt8) : Prop := ∀ b ∈ text, IsDigit (byteChar b)

/-- The first byte that is no digit, and its index. -/
def FirstBad (text : List UInt8) (b : UInt8) (index : Nat) : Prop :=
  ∃ front rest, text = front ++ b :: rest ∧ front.length = index ∧ AllDigits front ∧
    ¬ IsDigit (byteChar b)

theorem allDigits_or_firstBad (text : List UInt8) :
    AllDigits text ∨ ∃ b index, FirstBad text b index := by
  induction text with
  | nil => exact .inl fun b hb => absurd hb List.not_mem_nil
  | cons x text ih =>
    by_cases hx : IsDigit (byteChar x)
    · rcases ih with h | ⟨b, index, front, rest, rfl, rfl, hfront, hb⟩
      · exact .inl (List.forall_mem_cons.mpr ⟨hx, h⟩)
      · exact .inr ⟨b, _, x :: front, rest, rfl, rfl, List.forall_mem_cons.mpr ⟨hx, hfront⟩, hb⟩
    · exact .inr ⟨x, 0, [], text, rfl, rfl, fun b hb => absurd hb List.not_mem_nil, hx⟩

/-- Digits are read two by two, and what is read is written as they are, in lower case. -/
theorem decodePairs_of_allDigits (index : Nat) {text : List UInt8} (heven : text.length % 2 = 0)
    (h : AllDigits text) : ∃ bytes, decodePairs index text = .ok bytes ∧
      bytes.flatMap encodeByte = text.map fun b => (byteChar b).toLower := by
  fun_induction decodePairs index text with
  | case1 => exact ⟨[], rfl, rfl⟩
  | case2 => simp at heven
  | case3 index high low rest hi lo hlow hhigh ih =>
    have hrest : rest.length % 2 = 0 := by
      rw [List.length_cons, List.length_cons] at heven
      omega
    obtain ⟨bytes, hread, hbytes⟩ := ih hrest fun b hb => h b (by simp [hb])
    obtain ⟨hhi, -, hhigh⟩ := value?_eq_some hhigh
    obtain ⟨hlo, -, hlow⟩ := value?_eq_some hlow
    refine ⟨(16 * hi + lo) :: bytes, by rw [hread, Except.map], ?_⟩
    rw [List.flatMap_cons, encodeByte_pair hhi hlo, hbytes, hhigh, hlow]
    rfl
  | case4 index high low rest hhigh =>
    exact absurd (h high (by simp)) (value?_eq_none_iff.mp hhigh)
  | case5 index high low rest _ hlow =>
    exact absurd (h low (by simp)) (value?_eq_none_iff.mp hlow)

theorem decodePairs_of_firstBad {text : List UInt8} {b : UInt8} {offset : Nat}
    (heven : text.length % 2 = 0) (h : FirstBad text b offset) (index : Nat) :
    decodePairs index text = .error (.badByte b (index + offset)) := by
  obtain ⟨front, rest, rfl, rfl, hfront, hb⟩ := h
  have hnone := value?_eq_none_iff.mpr hb
  induction front using List.twoStepInduction generalizing index with
  | nil =>
    match rest, heven with
    | low :: rest, _ => simp [decodePairs, hnone]
  | singleton x =>
    obtain ⟨v, hv⟩ := exists_value? (hfront x (List.mem_singleton_self x))
    simp [decodePairs, hv, hnone]
  | cons_cons x y front ih =>
    obtain ⟨v, hv⟩ := exists_value? (hfront x (by simp))
    obtain ⟨u, hu⟩ := exists_value? (hfront y (by simp))
    have hrest : (front ++ b :: rest).length % 2 = 0 := by
      rw [List.cons_append, List.cons_append, List.length_cons, List.length_cons] at heven
      omega
    have hread := ih (index + 2) hrest fun z hz => hfront z (by simp [hz])
    have hindex : index + 2 + front.length = index + (x :: y :: front).length := by
      rw [List.length_cons, List.length_cons]
      omega
    rw [hindex] at hread
    simp only [List.cons_append, decodePairs, hv, hu, hread, Except.map]

theorem decodePairs_eq_ok_iff {text bytes : List UInt8} (heven : text.length % 2 = 0) :
    decodePairs 0 text = .ok bytes ↔
      AllDigits text ∧ bytes.flatMap encodeByte = text.map fun b => (byteChar b).toLower := by
  constructor
  · intro hread
    rcases allDigits_or_firstBad text with h | ⟨b, index, h⟩
    · obtain ⟨bytes', hread', hbytes⟩ := decodePairs_of_allDigits 0 heven h
      rw [hread'] at hread
      cases hread
      exact ⟨h, hbytes⟩
    · rw [decodePairs_of_firstBad heven h] at hread
      cases hread
  · rintro ⟨h, hbytes⟩
    obtain ⟨bytes', hread, hbytes'⟩ := decodePairs_of_allDigits 0 heven h
    rw [hread, flatMap_encodeByte_inj (hbytes'.trans hbytes.symm)]

theorem decodePairs_eq_error_iff {text : List UInt8} {e : HexError} (heven : text.length % 2 = 0) :
    decodePairs 0 text = .error e ↔ ∃ b index, e = .badByte b index ∧ FirstBad text b index := by
  constructor
  · intro hread
    rcases allDigits_or_firstBad text with h | ⟨b, index, h⟩
    · obtain ⟨bytes, hread', -⟩ := decodePairs_of_allDigits 0 heven h
      rw [hread'] at hread
      cases hread
    · rw [decodePairs_of_firstBad heven h, Nat.zero_add] at hread
      cases hread
      exact ⟨b, index, rfl, h⟩
  · rintro ⟨b, index, rfl, h⟩
    rw [decodePairs_of_firstBad heven h, Nat.zero_add]

/-- What is wrong with a text that is to spell so many bytes, in order of precedence. -/
inductive Fault (size : Nat) (text : List UInt8) : HexError → Prop
  | oddLength (h : text.length % 2 = 1) : Fault size text .oddLength
  | wrongLength (heven : text.length % 2 = 0) (h : text.length ≠ 2 * size) :
    Fault size text .wrongLength
  | badByte {b : UInt8} {index : Nat} (hlength : text.length = 2 * size)
    (h : FirstBad text b index) : Fault size text (.badByte b index)

theorem decodeExactly_eq_ok_iff {size : Nat} {text bytes : List UInt8} :
    decodeExactly size text = .ok bytes ↔ text.length = 2 * size ∧ AllDigits text ∧
      bytes.flatMap encodeByte = text.map fun b => (byteChar b).toLower := by
  unfold decodeExactly
  split
  · simp
    omega
  split
  · simp
    omega
  · rw [decodePairs_eq_ok_iff (by omega)]
    exact ⟨fun h => ⟨by omega, h⟩, And.right⟩

theorem exists_decodeExactly {size : Nat} {text : List UInt8} (hlength : text.length = 2 * size)
    (h : AllDigits text) : ∃ bytes, decodeExactly size text = .ok bytes := by
  obtain ⟨bytes, hread, -⟩ := decodePairs_of_allDigits 0 (by omega) h
  exact ⟨bytes, by rw [decodeExactly, if_neg (by omega), if_neg (by omega), hread]⟩

theorem length_of_decodeExactly {size : Nat} {text bytes : List UInt8}
    (h : decodeExactly size text = .ok bytes) : bytes.length = size := by
  obtain ⟨hlength, -, hbytes⟩ := decodeExactly_eq_ok_iff.mp h
  have := congrArg List.length hbytes
  rw [length_flatMap_encodeByte, List.length_map] at this
  omega

theorem decodeExactly_eq_error_iff {size : Nat} {text : List UInt8} {e : HexError} :
    decodeExactly size text = .error e ↔ Fault size text e := by
  unfold decodeExactly
  split
  · constructor
    · rintro ⟨⟩
      exact .oddLength ‹_›
    · rintro (_ | _ | _) <;> first | rfl | omega
  split
  · constructor
    · rintro ⟨⟩
      exact .wrongLength (by omega) (by omega)
    · rintro (_ | _ | _) <;> first | rfl | omega
  · rw [decodePairs_eq_error_iff (by omega)]
    constructor
    · rintro ⟨b, index, rfl, h⟩
      exact .badByte (by omega) h
    · rintro (_ | _ | ⟨_, h⟩)
      · omega
      · omega
      · exact ⟨_, _, rfl, h⟩

theorem decode_eq_ok_iff {text bytes : List UInt8} :
    decode text = .ok bytes ↔ text.length % 2 = 0 ∧ AllDigits text ∧
      bytes.flatMap encodeByte = text.map fun b => (byteChar b).toLower := by
  unfold decode
  split
  · simp
    omega
  · rw [decodePairs_eq_ok_iff (by omega)]
    exact ⟨fun h => ⟨by omega, h⟩, And.right⟩

theorem length_of_decode {text bytes : List UInt8} (h : decode text = .ok bytes) :
    2 * bytes.length = text.length := by
  obtain ⟨-, -, hbytes⟩ := decode_eq_ok_iff.mp h
  rw [← length_flatMap_encodeByte, hbytes, List.length_map]

theorem exists_decode {text : List UInt8} (heven : text.length % 2 = 0) (h : AllDigits text) :
    ∃ bytes, decode text = .ok bytes := by
  obtain ⟨bytes, hread, -⟩ := decodePairs_of_allDigits 0 heven h
  exact ⟨bytes, by rw [decode, if_neg (by omega), hread]⟩

theorem decode_of_odd {text : List UInt8} (h : text.length % 2 = 1) :
    decode text = .error .oddLength :=
  if_pos h

theorem decode_of_firstBad {text : List UInt8} {b : UInt8} {index : Nat}
    (heven : text.length % 2 = 0) (h : FirstBad text b index) :
    decode text = .error (.badByte b index) := by
  rw [decode, if_neg (by omega), decodePairs_of_firstBad heven h, Nat.zero_add]

/-! ### Characters and bytes -/

theorem allDigits_utf8_iff (text : String) :
    AllDigits (utf8 text) ↔ ∀ c ∈ text.toList, IsDigit c := by
  constructor
  · intro h c hc
    have hbytes (b : UInt8) (hb : b ∈ String.utf8EncodeChar c) : IsDigit (byteChar b) :=
      h b (List.mem_flatMap.mpr ⟨c, hc, hb⟩)
    rcases Nat.lt_or_ge c.toNat 128 with hascii | hbeyond
    · rw [← byteChar_ofNat_toNat hascii]
      exact hbytes _ (by simp [utf8EncodeChar_of_ascii hascii])
    · obtain ⟨b, hb, hge⟩ := exists_mem_utf8EncodeChar hbeyond
      have hlt := (hbytes b hb).toNat_lt
      rw [toNat_byteChar] at hlt
      omega
  · intro h b hb
    obtain ⟨c, hc, hbc⟩ := List.mem_flatMap.mp hb
    have hascii := (h c hc).toNat_lt
    rw [utf8EncodeChar_of_ascii hascii, List.mem_singleton] at hbc
    rw [hbc, byteChar_ofNat_toNat hascii]
    exact h c hc

/-- The bytes of a text of digits are its characters. -/
theorem map_byteChar_utf8 {text : String} (h : ∀ c ∈ text.toList, IsDigit c) :
    (utf8 text).map byteChar = text.toList := by
  have hflat (l : List Char) (hl : ∀ c ∈ l, IsDigit c) :
      (l.flatMap String.utf8EncodeChar).map byteChar = l := by
    induction l with
    | nil => rfl
    | cons c l ih =>
      have hascii := (hl c List.mem_cons_self).toNat_lt
      rw [List.flatMap_cons, utf8EncodeChar_of_ascii hascii, List.map_append, List.map_singleton,
        byteChar_ofNat_toNat hascii, ih fun d hd => hl d (List.mem_cons_of_mem c hd)]
      rfl
  exact hflat _ h

theorem length_utf8_of_digits {text : String} (h : ∀ c ∈ text.toList, IsDigit c) :
    (utf8 text).length = text.toList.length := by
  rw [← map_byteChar_utf8 h, List.length_map]

theorem map_toLower_utf8 {text : String} (h : ∀ c ∈ text.toList, IsDigit c) :
    (utf8 text).map (fun b => (byteChar b).toLower) = text.toList.map Char.toLower := by
  rw [← map_byteChar_utf8 h, List.map_map, Function.comp_def]

theorem toList_encode (bytes : List UInt8) : (encode bytes).toList = bytes.flatMap encodeByte :=
  String.toList_ofList

theorem toList_encode_eq_digits (bytes : List UInt8) : (encode bytes).toList =
    bytes.flatMap fun b => [Nat.digitChar (b.toNat / 16), Nat.digitChar (b.toNat % 16)] := by
  rw [toList_encode, funext encodeByte_eq_digitChar]

/-- What a text spells may be told by its characters. -/
theorem spelled_utf8_iff (P : Nat → Prop) (text : String) (bytes : List UInt8) :
    (P (utf8 text).length ∧ AllDigits (utf8 text) ∧
        bytes.flatMap encodeByte = (utf8 text).map fun b => (byteChar b).toLower) ↔
      P text.toList.length ∧ (∀ c ∈ text.toList, IsDigit c) ∧
        (encode bytes).toList = text.toList.map Char.toLower := by
  rw [allDigits_utf8_iff, toList_encode]
  constructor
  · rintro ⟨hlength, h, hbytes⟩
    rw [length_utf8_of_digits h] at hlength
    rw [map_toLower_utf8 h] at hbytes
    exact ⟨hlength, h, hbytes⟩
  · rintro ⟨hlength, h, hbytes⟩
    rw [length_utf8_of_digits h, map_toLower_utf8 h]
    exact ⟨hlength, h, hbytes⟩

theorem decodeExactly_utf8_eq_ok_iff {size : Nat} {text : String} {bytes : List UInt8} :
    decodeExactly size (utf8 text) = .ok bytes ↔ text.toList.length = 2 * size ∧
      (∀ c ∈ text.toList, IsDigit c) ∧ (encode bytes).toList = text.toList.map Char.toLower :=
  decodeExactly_eq_ok_iff.trans (spelled_utf8_iff (· = 2 * size) text bytes)

end Hex
end SipMigrate.Text
