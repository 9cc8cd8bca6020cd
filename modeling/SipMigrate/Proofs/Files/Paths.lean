import SipMigrate.Files.Tree

/-! The path of a name in a directory. Its last component is the name, and the
components before it lead where the path of the directory leads. -/

namespace SipMigrate.Files

section Pieces

variable {separator : Char}

theorem piecesBetween_ne_nil (l : List Char) : piecesBetween separator l ≠ [] := by
  cases l with
  | nil => simp [piecesBetween]
  | cons c rest =>
    unfold piecesBetween
    split
    · simp
    · split <;> simp

theorem piecesBetween_of_notMem {l : List Char} (h : separator ∉ l) :
    piecesBetween separator l = [l] := by
  induction l with
  | nil => rfl
  | cons c rest ih =>
    rw [List.mem_cons, not_or] at h
    rw [piecesBetween, if_neg (Ne.symm h.1), ih h.2]

theorem piecesBetween_append (a b : List Char) :
    piecesBetween separator (a ++ separator :: b) =
      piecesBetween separator a ++ piecesBetween separator b := by
  induction a with
  | nil => simp [piecesBetween]
  | cons c rest ih =>
    rw [List.cons_append, piecesBetween, piecesBetween, ih]
    by_cases hc : c = separator
    · rw [if_pos hc, if_pos hc, List.cons_append]
    · rw [if_neg hc, if_neg hc]
      cases hp : piecesBetween separator rest with
      | nil => exact absurd hp (piecesBetween_ne_nil rest)
      | cons piece more => rfl

/-- Pieces that are joined come apart again. -/
theorem piecesBetween_intercalate {pieces : List (List Char)} (hne : pieces ≠ [])
    (h : ∀ piece ∈ pieces, separator ∉ piece) :
    piecesBetween separator ([separator].intercalate pieces) = pieces := by
  induction pieces with
  | nil => exact absurd rfl hne
  | cons piece rest ih =>
    have hpiece := piecesBetween_of_notMem (h piece (by simp))
    cases rest with
    | nil => simpa [List.intercalate] using hpiece
    | cons next rest =>
      rw [List.intercalate_cons_cons, List.append_assoc, List.singleton_append,
        piecesBetween_append, hpiece, ih (by simp) fun q hq => h q (List.mem_cons_of_mem _ hq),
        List.singleton_append]

end Pieces

variable {directory name : String}

theorem components_of_notMem (h : '/' ∉ name.toList) : components name = [name] := by
  simp [components, pieces, piecesBetween_of_notMem h]

/-- A name comes after the components of its directory; the empty component behind a last
slash gives way to it. -/
theorem components_join (directory : String) (h : '/' ∉ name.toList) :
    ∃ before, components (join directory name) = before ++ [name] ∧
      (components directory = before ∨ components directory = before ++ [""]) := by
  by_cases hempty : directory = ""
  · refine ⟨[], ?_, .inr (by rw [hempty]; rfl)⟩
    simp [join, hempty, components_of_notMem h]
  by_cases hslash : directory.toList.getLast? = some '/'
  · obtain ⟨q, hq⟩ := List.getLast?_eq_some_iff.mp hslash
    refine ⟨(piecesBetween '/' q).map String.ofList, ?_, .inr ?_⟩
    · simp [join, components, pieces, hq, piecesBetween_append, piecesBetween_of_notMem h]
    · simp [components, pieces, hq, piecesBetween_append, piecesBetween]
  · refine ⟨components directory, ?_, .inl rfl⟩
    simp [join, hempty, hslash, components, pieces, piecesBetween_append,
      piecesBetween_of_notMem h]

/-- A component that leads to something below. -/
structure IsName (name : String) : Prop where
  ne_empty : name ≠ ""
  ne_dot : name ≠ "."
  ne_up : name ≠ ".."
  slash_notMem : '/' ∉ name.toList

theorem fileName?_join (h : IsName name) : fileName? (join directory name) = some name := by
  obtain ⟨before, hbefore, -⟩ := components_join directory h.slash_notMem
  have hlast : ((components (join directory name)).filter fun c => c ≠ "" && c ≠ ".").getLast? =
      some name := by
    rw [hbefore, List.filter_append, List.filter_cons_of_pos (by simp [h.ne_empty, h.ne_dot])]
    simp
  unfold fileName?
  rw [hlast]
  split
  · rename_i heq
    exact absurd (Option.some.inj heq) h.ne_up
  · rfl

namespace Tree

theorem plainPlace_join (hd : directory ≠ "") (h : IsName name) :
    plainPlace (join directory name) = plainPlace directory ++ [name] := by
  obtain ⟨before, hbefore, hdirectory⟩ := components_join directory h.slash_notMem
  have hhead : (join directory name).toList.head? = directory.toList.head? := by
    obtain ⟨c, rest, hc⟩ : ∃ c rest, directory.toList = c :: rest := by
      rw [← List.ne_nil_iff_exists_cons]
      simpa using hd
    unfold join
    split <;> simp [hc]
  unfold plainPlace
  rw [hbefore, hhead, List.foldl_append]
  rcases hdirectory with hdirectory | hdirectory <;> rw [hdirectory] <;>
    simp [List.foldl_append, h.ne_empty, h.ne_dot, h.ne_up]

end Tree

end SipMigrate.Files
