import SipMigrate.Hash.Hasher
import SipMigrate.Proofs.Text.LetterCase

/-! Hashing texts without regard to case. The text is lowercased as a whole, and what is
hashed are the bytes of its lowercase form. -/

namespace SipMigrate.Hash.Hasher

open Text

theorem hashText_fold (h : Hasher) (t : String) :
    h.hashText t true = h.hashText (lowercase t) false := rfl

/-- Whatever the key, texts that differ in the case of ASCII letters only have one digest when
case is folded, and it is the digest of the lowercase text, which folding leaves as it is. -/
theorem hashText_ignores_case (h : Hasher) (t : String) :
    (∀ u : String, Recased t.toList u.toList → h.hashText u true = h.hashText t true) ∧
      ∀ fold, h.hashText (lowercase t) fold = h.hashText t true := by
  refine ⟨fun u hu => ?_, fun fold => ?_⟩
  · rw [hashText_fold, hashText_fold, lowercase_of_recased hu]
  · cases fold with
    | false => rfl
    | true => rw [hashText_fold, hashText_fold, lowercase_lowercase]

/-- Sigmas at the end of a word and within it, with letters in either case around them. -/
theorem hashText_ignores_case_of_sigmas :
    let h : Hasher := ⟨1, 2⟩
    let t := "Os\u03a3 a\u03a3'B \u03a3i"
    let u := "oS\u03a3 A\u03a3'b \u03a3I"
    Recased t.toList u.toList ∧ h.hashText u true = h.hashText t true := by
  intro h t u
  have hu : Recased t.toList u.toList := by decide
  exact ⟨hu, (hashText_ignores_case h t).1 u hu⟩

end SipMigrate.Hash.Hasher
