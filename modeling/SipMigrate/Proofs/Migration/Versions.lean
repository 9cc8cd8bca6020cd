import SipMigrate.Proofs.Migration.ControlRows

/-! The versions in a control table, and what the queries for the current and the
locked version make of them. -/

namespace SipMigrate.Sql

/-! ### Extreme values -/

def Value.isText : Value → Bool
  | text _ => true
  | _ => false

/-- The better one of the best value so far and another one. -/
def pick (o : Ordering) (best v : Value) : Value := if isBetter o v best then v else best

theorem extreme_eq_foldl (o : Ordering) (l : List Value) : extreme o l = l.foldl (pick o) .null :=
  rfl

theorem extreme_append (o : Ordering) (l : List Value) (v : Value) :
    extreme o (l ++ [v]) = pick o (extreme o l) v := by
  simp only [extreme_eq_foldl, List.foldl_append, List.foldl_cons, List.foldl_nil]

theorem pick_null (o : Ordering) (v : Value) : pick o .null v = v := by
  cases v <;> rfl

theorem pick_integer (j k : Int) : pick .gt (.integer j) (.integer k) = .integer (max j k) := by
  have : (compare k j == Ordering.gt) = decide (j < k) := by
    rw [Bool.eq_iff_iff]
    simp [Int.compare_eq_gt]
  by_cases hjk : j < k
  · simp [pick, isBetter, Value.isNull, Value.order, this, hjk]
    omega
  · simp [pick, isBetter, Value.isNull, Value.order, this, hjk]
    omega

theorem foldl_pick_integers (k : Int) (l : List Int) :
    (l.map .integer).foldl (pick .gt) (.integer k) = .integer (l.foldl max k) := by
  induction l generalizing k with
  | nil => rfl
  | cons j rest ih => rw [List.map_cons, List.foldl_cons, pick_integer, ih, List.foldl_cons]

/-- The best one among integers is the greatest of them. -/
theorem extreme_gt_integers {l : List Int} {m : Int} (hm : m ∈ l) (hl : ∀ k ∈ l, k ≤ m) :
    extreme .gt (l.map .integer) = .integer m := by
  cases l with
  | nil => cases hm
  | cons k rest =>
    rw [extreme_eq_foldl, List.map_cons, List.foldl_cons, pick_null, foldl_pick_integers]
    have := List.max?_eq_some_iff.mpr ⟨hm, hl⟩
    rw [List.max?_cons', Option.some.injEq] at this
    rw [this]

theorem isText_pick_gt {best v : Value} (h : best.isText = true ∨ v.isText = true) :
    (pick .gt best v).isText = true := by
  cases v with
  | text a =>
    cases best with
    | text b =>
      unfold pick
      split <;> rfl
    | null | integer | real => rfl
  | null | integer | real =>
    cases best with
    | text b => rfl
    | null | integer | real => simp [Value.isText] at h

/-- A text is better than all numbers. -/
theorem isText_extreme_gt {l : List Value} (h : ∃ v ∈ l, v.isText = true) :
    (extreme .gt l).isText = true := by
  rw [extreme_eq_foldl]
  generalize Value.null = best
  replace h : best.isText = true ∨ ∃ v ∈ l, v.isText = true := .inr h
  induction l generalizing best with
  | nil => exact h.resolve_right (by simp)
  | cons v rest ih =>
    refine ih _ ?_
    simp only [List.mem_cons, exists_eq_or_imp] at h
    rcases h with h | h | h
    · exact .inl (isText_pick_gt (.inl h))
    · exact .inl (isText_pick_gt (.inr h))
    · exact .inr h

theorem pick_ne_null {o : Ordering} {best v : Value} (h : best ≠ .null ∨ v ≠ .null) :
    pick o best v ≠ .null := by
  unfold pick isBetter
  cases v <;> cases best <;> simp_all [Value.isNull] <;> split <;> simp

/-- Only nulls have no extreme value. -/
theorem eq_null_of_extreme {o : Ordering} {l : List Value} (h : extreme o l = .null) :
    ∀ v ∈ l, v = .null := by
  suffices ∀ best, l.foldl (pick o) best = .null → best = .null ∧ ∀ v ∈ l, v = .null from
    (this .null h).2
  clear h
  induction l with
  | nil => simp
  | cons v rest ih =>
    intro best h
    obtain ⟨hp, hr⟩ := ih _ h
    have hp : ¬(best ≠ .null ∨ v ≠ .null) := fun h => pick_ne_null h hp
    simp only [not_or, Decidable.not_not] at hp
    simpa [hp] using hr

/-- An integer among some values that precedes all other ones, or follows them. -/
structure IsExtreme (o : Ordering) (l : List Value) (k : Int) : Prop where
  mem : .integer k ∈ l
  order : ∀ v ∈ l, v = .integer k ∨ (Value.integer k).order v = o

theorem Value.order_integer (v : Value) (k : Int) :
    v.order (.integer k) = ((Value.integer k).order v).swap := by
  cases v with
  | null | text | real => rfl
  | integer j =>
    show compare j k = (compare k j).swap
    exact Std.OrientedCmp.eq_swap

theorem pick_of_order {o : Ordering} {best v : Value}
    (h : best = .null ∨ best = v ∨ v.order best = o) (hv : v ≠ .null) : pick o best v = v := by
  have hn : v.isNull = false := by cases v <;> first | rfl | exact absurd rfl hv
  rcases h with rfl | rfl | h
  · exact pick_null o v
  · exact ite_self _
  · simp [pick, isBetter, hn, h]

theorem pick_of_swap {o : Ordering} (ho : o.swap ≠ o) {k : Int} {v : Value}
    (h : (Value.integer k).order v = o) : pick o (.integer k) v = .integer k := by
  have hb : isBetter o v (.integer k) = false := by
    simp [isBetter, Value.order_integer, h, ho, Value.isNull]
  rw [pick, hb]
  rfl

theorem extreme_of_isExtreme {o : Ordering} (ho : o.swap ≠ o) {l : List Value} {k : Int}
    (h : IsExtreme o l k) : extreme o l = .integer k := by
  -- either the integer is the best one so far, or it will take the place of the best one
  suffices ∀ best, best = .null ∨ best = .integer k ∨ (Value.integer k).order best = o →
      best = .integer k ∨ .integer k ∈ l → l.foldl (pick o) best = .integer k from
    this .null (.inl rfl) (.inr h.mem)
  obtain ⟨-, horder⟩ := h
  induction l with
  | nil =>
    rintro best - (rfl | hmem)
    · rfl
    · cases hmem
  | cons v rest ih =>
    rw [List.forall_mem_cons] at horder
    intro best hbest hmem
    rw [List.foldl_cons]
    refine ih horder.2 _ ?_ ?_
    · by_cases hpick : pick o best v = v
      · rw [hpick]
        exact .inr horder.1
      · have : pick o best v = best := by
          unfold pick at hpick ⊢
          split at hpick
          · exact absurd rfl hpick
          · rw [if_neg ‹_›]
        rwa [this]
    · rcases hmem with rfl | hmem
      · rcases horder.1 with rfl | hv
        · exact .inl (pick_of_order (.inr (.inl rfl)) nofun)
        · exact .inl (pick_of_swap ho hv)
      · rcases List.mem_cons.mp hmem with rfl | hmem
        · exact .inl (pick_of_order hbest nofun)
        · exact .inr hmem

end SipMigrate.Sql

namespace SipMigrate.Migration

open Sql ControlTable

/-! ### The state of a control table -/

/-- The current version of some rows is `n`, and no version is in flight. -/
structure AtVersion (n : Nat) (rows : List Row) : Prop where
  current : extreme .gt (versions true rows) = .integer n ∨
    extreme .gt (versions true rows) = .null ∧ n = 0
  lock : extreme .lt (versions false rows) = .null

/-- The rows are complete, and their versions are those up to `n`. -/
structure Complete (n : Nat) (rows : List Row) : Prop where
  versions : (rows.map (·.get 0)).Perm ((List.range' 1 n).map fun v => .integer v)
  created : ∀ s ∈ rows, (s.get 3).isNull = false

variable {n : Nat} {rows : List Row} {r : Record}

theorem versions_append (complete : Bool) (s : Row) :
    versions complete (rows ++ [s]) =
      versions complete rows ++ if (s.get 3).isNull != complete then [s.get 0] else [] := by
  unfold versions
  rw [List.filter_append, List.map_append, List.filter_cons]
  split <;> rfl

theorem store_ne_null {v : Value} (h : v ≠ .null) : Affinity.integer.store v ≠ .null := by
  cases v with
  | null => exact absurd rfl h
  | integer n => simp [Affinity.store, Value.toNumber, Value.settle]
  | real x =>
    simp only [Affinity.store, Value.toNumber, Value.settle]
    cases x.toInt64? <;> simp
  | text s =>
    simp only [Affinity.store, Value.toNumber]
    cases hn : Numeral.ofText? s with
    | none => simp [Value.settle]
    | some m =>
      have hm := Value.ofNumeral_ne_null m
      simp only [Option.elim_some]
      cases hv : Value.ofNumeral m with
      | null => exact absurd hv hm
      | integer n => simp [Value.settle]
      | real x =>
        simp only [Value.settle]
        cases x.toInt64? <;> simp
      | text s => simp [Value.settle]

/-- The row of a completed step tells so. -/
theorem isNull_row_complete : ((row (r.complete time)).get 3).isNull = false := by
  have : createdValue (r.complete time) ≠ .null := Value.ofNumeral_ne_null _
  simpa [row, Row.get, Value.isNull] using store_ne_null this

namespace AtVersion

/-- Once the next step is complete, its version is the current one. -/
theorem add (time : UInt64) (h : AtVersion n rows) (hr : r.version.toNat = n + 1) :
    AtVersion (n + 1) (rows ++ [row (r.complete time)]) where
  current := by
    rw [versions_append, isNull_row_complete]
    refine .inl ((extreme_append .gt _ _).trans ?_)
    show pick .gt _ (.integer r.version.toNat) = _
    rw [hr]
    rcases h.current with h | ⟨h, -⟩
    · rw [h, pick_integer]
      simp only [Value.integer.injEq]
      omega
    · rw [h, pick_null]
  lock := by
    rw [versions_append, isNull_row_complete, if_neg (by simp), List.append_nil, h.lock]

/-- No version is a text. -/
theorem isText (h : AtVersion n rows) {s : Row} (hs : s ∈ rows) : (s.get 0).isText = false := by
  rw [← Bool.not_eq_true]
  intro ht
  have hv (complete : Bool) (hc : ((s.get 3).isNull != complete) = true) :
      s.get 0 ∈ versions complete rows :=
    List.mem_map_of_mem (List.mem_filter.mpr ⟨hs, hc⟩)
  cases hn : (s.get 3).isNull with
  | true =>
    rw [eq_null_of_extreme h.lock _ (hv false (by rw [hn]; rfl))] at ht
    cases ht
  | false =>
    have he := isText_extreme_gt ⟨_, hv true (by rw [hn]; rfl), ht⟩
    rcases h.current with h | ⟨h, -⟩ <;> rw [h] at he <;> cases he

/-- A condition on a version finds only a row that has the version. -/
theorem matchesVersion (h : AtVersion n rows) (hv : rows.any (hasVersion r) = false) :
    ∀ s ∈ rows, matchesVersion r s = false := by
  intro s hs
  have hn : (s.get 0).toNumber = s.get 0 := by
    have ht := h.isText hs
    cases hg : s.get 0 with
    | text a =>
      rw [hg] at ht
      cases ht
    | null | integer | real => rfl
  rw [ControlTable.matchesVersion, hn]
  have := List.any_eq_false.mp hv s hs
  simpa [hasVersion] using this

end AtVersion

namespace Complete

theorem zero : Complete 0 [] := ⟨.nil, by simp⟩

theorem add (time : UInt64) (h : Complete n rows) (hr : r.version.toNat = n + 1) :
    Complete (n + 1) (rows ++ [row (r.complete time)]) where
  versions := by
    rw [List.range'_1_concat, List.map_append, List.map_append]
    refine h.versions.append ?_
    show List.Perm [Value.integer r.version.toNat] _
    rw [hr, Nat.add_comm]
    exact .refl _
  created := by
    intro s hs
    rcases List.mem_append.mp hs with hs | hs
    · exact h.created s hs
    · rw [List.mem_singleton.mp hs]
      exact isNull_row_complete

theorem versions_eq (h : Complete n rows) :
    ControlTable.versions true rows = rows.map (·.get 0) ∧
      ControlTable.versions false rows = [] := by
  unfold ControlTable.versions
  constructor
  · rw [List.filter_eq_self.mpr fun s hs => by simp [h.created s hs]]
  · rw [List.filter_eq_nil_iff.mpr fun s hs => by simp [h.created s hs]]
    rfl

theorem length (h : Complete n rows) : rows.length = n := by
  simpa using h.versions.length_eq

theorem atVersion (h : Complete n rows) : AtVersion n rows where
  current := by
    rw [h.versions_eq.1]
    -- the integers among the rows, in the order of the rows
    obtain ⟨l, hl⟩ : rows.map (·.get 0) ∈ Set.range (List.map Value.integer) := by
      rw [Set.range_list_map]
      intro v hv
      obtain ⟨k, -, hk⟩ := List.mem_map.mp (h.versions.subset hv)
      exact ⟨k, hk⟩
    have hp := h.versions
    rw [← hl] at hp ⊢
    have hmem (k : Int) : k ∈ l ↔ ∃ j : Nat, 1 ≤ j ∧ j ≤ n ∧ (j : Int) = k := by
      have := hp.mem_iff (a := Value.integer k)
      simp [List.mem_range'_1] at this
      grind
    cases n with
    | zero =>
      refine .inr ⟨?_, rfl⟩
      rw [show l = [] from List.map_eq_nil_iff.mp (List.perm_nil.mp hp)]
      rfl
    | succ n => exact .inl (extreme_gt_integers (by grind) (by grind))
  lock := by
    rw [h.versions_eq.2]
    rfl

end Complete

end SipMigrate.Migration
