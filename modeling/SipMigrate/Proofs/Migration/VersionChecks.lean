import SipMigrate.Executor.Script
import SipMigrate.Proofs.Migration.Effect

/-! What versions a run accepts. The steps of a run are in sequence if their versions are at
least one and ascend, and those above the current version follow on it without a gap. An
executor that answers every call gets exactly the steps applied that stand before the first
one out of sequence. -/

namespace SipMigrate.Migration

open Executor ControlTable

/-! ### Steps in sequence -/

/-- The steps that a run at version `c` has yet to apply. -/
def above (c : Version) (steps : List Step) : List Step := steps.filter (c < ·.version)

/-- Steps that can be applied at version `c`: the versions ascend, and those above `c` are the
next ones. -/
structure InSequence (c : Version) (steps : List Step) : Prop where
  positive : ∀ s ∈ steps, 1 ≤ s.version
  ascending : steps.Pairwise (·.version < ·.version)
  contiguous : (above c steps).map (·.version.toNat) =
    List.range' (c.toNat + 1) (above c steps).length

instance (c : Version) (steps : List Step) : Decidable (InSequence c steps) :=
  decidable_of_iff
    ((∀ s ∈ steps, 1 ≤ s.version) ∧ steps.Pairwise (·.version < ·.version) ∧
      (above c steps).map (·.version.toNat) = List.range' (c.toNat + 1) (above c steps).length)
    ⟨fun ⟨h₁, h₂, h₃⟩ => ⟨h₁, h₂, h₃⟩, fun h => ⟨h.positive, h.ascending, h.contiguous⟩⟩

/-- Steps in sequence that come after a step of version `p`, if there is one. -/
structure Admitted (c : Version) (p : Option Version) (steps : List Step) : Prop where
  follows : ∀ q ∈ p, ∀ s ∈ steps, q < s.version
  inSequence : InSequence c steps

variable {c v : Version} {p : Option Version} {s u : Step} {steps rest : List Step}

theorem admitted_none : Admitted c none steps ↔ InSequence c steps :=
  ⟨fun h => h.inSequence, fun h => ⟨nofun, h⟩⟩

theorem above_cons_of_le (h : s.version ≤ c) : above c (s :: rest) = above c rest :=
  List.filter_cons_of_neg (by simpa using h)

theorem above_cons_of_lt (h : c < s.version) : above c (s :: rest) = s :: above c rest :=
  List.filter_cons_of_pos (by simpa using h)

theorem above_eq_self (h : ∀ u ∈ rest, c < u.version) : above c rest = rest :=
  List.filter_eq_self.mpr (by simpa using h)

/-- Behind the next step, all steps are above it. -/
theorem above_cons_of_next (hs : s.version.toNat = c.toNat + 1)
    (hrest : ∀ u ∈ rest, s.version < u.version) :
    above c (s :: rest) = s :: rest ∧ above s.version rest = rest := by
  have hlt : c < s.version := by
    rw [UInt16.lt_iff_toNat_lt]
    omega
  refine ⟨?_, above_eq_self hrest⟩
  rw [above_cons_of_lt hlt, above_eq_self fun u hu => UInt16.lt_trans hlt (hrest u hu)]

theorem inSequence_nil (c : Version) : InSequence c [] := ⟨nofun, .nil, rfl⟩

theorem inSequence_cons_of_le (h : s.version ≤ c) :
    InSequence c (s :: rest) ↔
      1 ≤ s.version ∧ (∀ u ∈ rest, s.version < u.version) ∧ InSequence c rest := by
  constructor
  · rintro ⟨hpos, hasc, hcon⟩
    rw [above_cons_of_le h] at hcon
    rw [List.pairwise_cons] at hasc
    rw [List.forall_mem_cons] at hpos
    exact ⟨hpos.1, hasc.1, hpos.2, hasc.2, hcon⟩
  · rintro ⟨hs, hlt, hpos, hasc, hcon⟩
    refine ⟨List.forall_mem_cons.mpr ⟨hs, hpos⟩, List.pairwise_cons.mpr ⟨hlt, hasc⟩, ?_⟩
    rwa [above_cons_of_le h]

theorem inSequence_cons_of_lt (h : c < s.version) :
    InSequence c (s :: rest) ↔
      s.version.toNat = c.toNat + 1 ∧ (∀ u ∈ rest, s.version < u.version) ∧
        InSequence s.version rest := by
  -- behind the step, all versions are above `c` and above its own
  have habove (hlt : ∀ u ∈ rest, s.version < u.version) :
      above c rest = rest ∧ above s.version rest = rest :=
    ⟨above_eq_self fun u hu => UInt16.lt_trans h (hlt u hu), above_eq_self hlt⟩
  constructor
  · rintro ⟨hpos, hasc, hcon⟩
    rw [List.pairwise_cons] at hasc
    rw [List.forall_mem_cons] at hpos
    obtain ⟨hc, hs⟩ := habove hasc.1
    rw [above_cons_of_lt h, hc, List.map_cons, List.length_cons, List.range'_succ,
      List.cons.injEq] at hcon
    refine ⟨hcon.1, hasc.1, hpos.2, hasc.2, ?_⟩
    rw [hs, hcon.1, hcon.2]
  · rintro ⟨hs, hlt, hpos, hasc, hcon⟩
    obtain ⟨hc, hs'⟩ := habove hlt
    refine ⟨List.forall_mem_cons.mpr ⟨?_, hpos⟩, List.pairwise_cons.mpr ⟨hlt, hasc⟩, ?_⟩
    · rw [UInt16.le_iff_toNat_le, hs]
      simp
    · rw [hs'] at hcon
      rw [above_cons_of_lt h, hc, List.map_cons, List.length_cons, List.range'_succ, hcon, hs]

theorem toNat_next (c : Version) : (Version.next c).toNat = min (c.toNat + 1) 65535 := by
  have := c.toNat_lt
  unfold Version.next
  split
  · rename_i hc
    subst hc
    rfl
  · rename_i hc
    have : c.toNat ≠ 65535 := fun h => hc (UInt16.toNat_inj.mp h)
    rw [UInt16.toNat_add]
    simp only [UInt16.reduceToNat]
    omega

theorem one_le_iff : 1 ≤ v ↔ v ≠ 0 := by
  rw [UInt16.le_iff_toNat_le, ne_eq, ← UInt16.toNat_inj]
  simp only [UInt16.reduceToNat]
  omega

theorem isNext_eq_ok_iff {due : Bool} :
    isDue.isNext c v = .ok due ↔ due = false ∧ v ≤ c ∨ due = true ∧ v.toNat = c.toNat + 1 := by
  have hnext := toNat_next c
  have hv := v.toNat_lt
  unfold isDue.isNext
  by_cases hle : v ≤ c
  · have := UInt16.le_iff_toNat_le.mp hle
    simp [hle, show v.toNat ≠ c.toNat + 1 by omega, eq_comm]
  · have hlt : c.toNat < v.toNat := UInt16.lt_iff_toNat_lt.mp (UInt16.not_le.mp hle)
    by_cases heq : v = Version.next c
    · have : v.toNat = c.toNat + 1 := by
        rw [heq] at hlt ⊢
        omega
      simp [hle, ← heq, this, eq_comm]
    · have : v.toNat ≠ c.toNat + 1 := by
        intro h
        refine heq (UInt16.toNat_inj.mp ?_)
        omega
      simp [hle, heq, this]

/-- The version checks of one step. -/
theorem isDue_eq_ok_iff {due : Bool} :
    isDue c p v = .ok due ↔
      1 ≤ v ∧ (∀ q ∈ p, q < v) ∧ (due = false ∧ v ≤ c ∨ due = true ∧ v.toNat = c.toNat + 1) := by
  rw [← isNext_eq_ok_iff, one_le_iff]
  unfold isDue
  by_cases hv : v = 0
  · simp [hv]
  · cases p with
    | none => simp [hv]
    | some q =>
      by_cases hq : v ≤ q
      · simp [hv, hq]
      · simp [hv, hq, UInt16.not_le.mp hq]

theorem not_admitted_of_isDue {e : MigrationError} (h : isDue c p s.version = .error e) :
    ¬Admitted c p (s :: rest) := by
  rintro ⟨hfollows, hseq⟩
  have hdue : ∃ due, isDue c p s.version = .ok due := by
    have hp (q : Version) (hq : q ∈ p) : q < s.version := hfollows q hq s List.mem_cons_self
    by_cases hle : s.version ≤ c
    · exact ⟨false, isDue_eq_ok_iff.mpr
        ⟨((inSequence_cons_of_le hle).mp hseq).1, hp, .inl ⟨rfl, hle⟩⟩⟩
    · have hnext := ((inSequence_cons_of_lt (UInt16.not_le.mp hle)).mp hseq).1
      exact ⟨true, isDue_eq_ok_iff.mpr
        ⟨hseq.positive s List.mem_cons_self, hp, .inr ⟨rfl, hnext⟩⟩⟩
  obtain ⟨due, hdue⟩ := hdue
  rw [h] at hdue
  cases hdue

/-- A step that was applied before does not matter to those behind it. -/
theorem admitted_cons_of_skipped (h : isDue c p s.version = .ok false) :
    Admitted c p (s :: rest) ↔ Admitted c (some s.version) rest := by
  obtain ⟨hone, hp, ⟨-, hle⟩ | ⟨⟨⟩, -⟩⟩ := isDue_eq_ok_iff.mp h
  constructor
  · rintro ⟨-, hseq⟩
    obtain ⟨-, hlt, hrest⟩ := (inSequence_cons_of_le hle).mp hseq
    exact ⟨by simpa using hlt, hrest⟩
  · rintro ⟨hlt, hrest⟩
    have hlt : ∀ u ∈ rest, s.version < u.version := hlt s.version rfl
    refine ⟨?_, (inSequence_cons_of_le hle).mpr ⟨hone, hlt, hrest⟩⟩
    intro q hq
    exact List.forall_mem_cons.mpr ⟨hp q hq, fun u hu => UInt16.lt_trans (hp q hq) (hlt u hu)⟩

/-- Behind a step that is applied, the current version is its version. -/
theorem admitted_cons_of_applied (h : isDue c p s.version = .ok true) :
    Admitted c p (s :: rest) ↔ Admitted s.version (some s.version) rest := by
  obtain ⟨hone, hp, ⟨⟨⟩, -⟩ | ⟨-, hnext⟩⟩ := isDue_eq_ok_iff.mp h
  have hlt : c < s.version := by
    rw [UInt16.lt_iff_toNat_lt]
    omega
  constructor
  · rintro ⟨-, hseq⟩
    obtain ⟨-, hlt, hrest⟩ := (inSequence_cons_of_lt hlt).mp hseq
    exact ⟨by simpa using hlt, hrest⟩
  · rintro ⟨hrest, hseq⟩
    have hrest : ∀ u ∈ rest, s.version < u.version := hrest s.version rfl
    refine ⟨?_, (inSequence_cons_of_lt hlt).mpr ⟨hnext, hrest, hseq⟩⟩
    intro q hq
    exact List.forall_mem_cons.mpr ⟨hp q hq, fun u hu => UInt16.lt_trans (hp q hq) (hrest u hu)⟩

/-! ### Executors that answer every call -/

/-- A call that succeeds. It tells that `c` is the current version and that no step is in
flight, if it is asked. -/
def Favours (t : TableName) (c : Version) : Event → Prop
  | ⟨.query sql, .ok a⟩ =>
    (sql = selectCurrent t.text → versionOfAnswer a = .ok c) ∧ (sql = selectLock t.text → a = none)
  | ⟨_, .ok _⟩ => True
  | ⟨_, .error _⟩ => False

instance (t : TableName) (c : Version) : DecidablePred (Favours t c)
  | ⟨.query _, .ok _⟩ => inferInstanceAs (Decidable (_ ∧ _))
  | ⟨.execute _, .ok _⟩ | ⟨.tableExists _, .ok _⟩ | ⟨.begin, .ok _⟩ | ⟨.commit, .ok _⟩
  | ⟨.rollback, .ok _⟩ => isTrue trivial
  | ⟨.execute _, .error _⟩ | ⟨.query _, .error _⟩ | ⟨.tableExists _, .error _⟩
  | ⟨.begin, .error _⟩ | ⟨.commit, .error _⟩ | ⟨.rollback, .error _⟩ => isFalse id

section Favours

variable {t : TableName} {w : Surroundings} {l : List Event} {scripts : Step → List String}

theorem not_favours_error {call : Call} {e : ExecutorError} :
    ¬Favours t c ⟨call, .error e⟩ := by
  cases call <;> exact id

theorem Opening.of_favours {o : Except MigrationError Version} (h : Opening t l o)
    (hf : ∀ ev ∈ l, Favours t c ev) : o = .ok c := by
  have hno (call : Call) (e : ExecutorError) (hmem : ⟨call, .error e⟩ ∈ l) : o = .ok c :=
    absurd (hf _ hmem) not_favours_error
  have hcurrent {a : Option Int} (hmem : ⟨.query (selectCurrent t.text), .ok a⟩ ∈ l) :
      versionOfAnswer a = .ok c := by
    have h := hf ⟨.query (selectCurrent t.text), .ok a⟩ hmem
    exact h.1 rfl
  have hlock {a : Option Int} (hmem : ⟨.query (selectLock t.text), .ok a⟩ ∈ l) : a = none := by
    have h := hf ⟨.query (selectLock t.text), .ok a⟩ hmem
    exact h.2 rfl
  cases h with
  | create e => exact hno (.execute (ControlTable.create t.text)) e (by simp)
  | current e => exact hno (.query (selectCurrent t.text)) e (by simp)
  | lock h e => exact hno (.query (selectLock t.text)) e (by simp)
  | @currentOutOfRange n h =>
    have hn := hcurrent (a := some n) (by simp [looked])
    rw [versionOfAnswer, Option.elim_some, versionOfInt_of_not h] at hn
    cases hn
  | @lockOutOfRange a v n h hn => cases hlock (a := some n) (by simp)
  | @locked a v n h hn => cases hlock (a := some n) (by simp)
  | @free a v h => exact h.symm.trans (hcurrent (by simp [looked]))

theorem Interrupted.exists_error {r : Record} {statements : List String} {time : UInt64}
    {e : MigrationError} (h : Interrupted t r statements time l e) :
    ∃ call cause, ⟨call, .error cause⟩ ∈ l := by
  cases h with
  | begin e => exact ⟨.begin, e, by simp⟩
  | insert e a => exact ⟨.execute (ControlTable.insert t.text r), e, by simp⟩
  | @statement before after sql h e a b => exact ⟨.execute sql, e, by simp⟩
  | update e a b => exact ⟨.execute (ControlTable.update t.text (r.complete time)), e, by simp⟩
  | commit e a => exact ⟨.commit, e, by simp⟩

theorem StepCourse.of_favours {time : UInt64} {o : Except MigrationError Nat}
    (h : StepCourse t w time s l o) (hl : s.load w.read = .ok (scripts s))
    (hf : ∀ ev ∈ l, Favours t c ev) :
    o = .ok (scripts s).length ∧ l = block t (.inFlight s) (scripts s) time := by
  cases h with
  | unreadable h =>
    rw [hl] at h
    cases h
  | applied h =>
    obtain rfl : scripts s = _ := Except.ok.inj (hl.symm.trans h)
    exact ⟨rfl, rfl⟩
  | interrupted h hi =>
    obtain ⟨call, cause, hmem⟩ := hi.exists_error
    exact absurd (hf _ hmem) not_favours_error

/-- The events of the steps above version `c`, the first of which is the `n`-th one. -/
def blocksAbove (t : TableName) (w : Surroundings) (scripts : Step → List String) (c : Version)
    (n : Nat) (steps : List Step) : List Event :=
  blocks t w n ((above c steps).map fun u => (u, scripts u))

/-- What a run that began with report `r` reports once it has been through some steps. -/
structure Reports (scripts : Step → List String) (r : Report) (steps : List Step)
    (report : Report) : Prop where
  applied : report.applied = r.applied ++ (above r.finalVersion steps).map (·.version)
  skipped : report.skipped = r.skipped + steps.countP (·.version ≤ r.finalVersion)
  statements : report.statements =
    r.statements + ((above r.finalVersion steps).map fun u => (scripts u).length).sum
  finalVersion : report.finalVersion.toNat =
    r.finalVersion.toNat + (above r.finalVersion steps).length

/-- A run accepts all steps, or stops before the first one that is out of sequence. -/
inductive Checked (t : TableName) (w : Surroundings) (scripts : Step → List String) (r : Report)
    (p : Option Version) (steps : List Step) (l : List Event) : Except MigrationError Report → Prop
  | accepted {report : Report} (h : Admitted r.finalVersion p steps)
      (hr : Reports scripts r steps report)
      (hl : l = blocksAbove t w scripts r.finalVersion r.applied.length steps) :
    Checked t w scripts r p steps l (.ok report)
  | refused (passed : List Step) {rest : List Step} {u : Step} (expected : Version)
      (hs : steps = passed ++ u :: rest) (h : Admitted r.finalVersion p passed)
      (hu : ¬Admitted r.finalVersion p (passed ++ [u]))
      (hl : l = blocksAbove t w scripts r.finalVersion r.applied.length passed) :
    Checked t w scripts r p steps l (.error (.nonContiguous expected u.version))

variable {r report : Report}

/-- A step that was applied before is counted, and nothing else. -/
theorem Reports.skip (hle : s.version ≤ r.finalVersion) (h : Reports scripts r.skip rest report) :
    Reports scripts r (s :: rest) report where
  applied := by rw [above_cons_of_le hle]; exact h.applied
  skipped := by
    rw [List.countP_cons_of_pos (by simpa using hle), h.skipped]
    show r.skipped + 1 + rest.countP _ = r.skipped + (rest.countP _ + 1)
    rw [Nat.add_assoc, Nat.add_comm 1]
    rfl
  statements := by rw [above_cons_of_le hle]; exact h.statements
  finalVersion := by rw [above_cons_of_le hle]; exact h.finalVersion

theorem Reports.add (hs : s.version.toNat = r.finalVersion.toNat + 1)
    (hrest : ∀ u ∈ rest, s.version < u.version)
    (h : Reports scripts (r.add s.version (scripts s).length) rest report) :
    Reports scripts r (s :: rest) report := by
  obtain ⟨hcons, hself⟩ := above_cons_of_next hs hrest
  have hnone {c : Version} (hc : c ≤ s.version) : rest.countP (·.version ≤ c) = 0 := by
    rw [List.countP_eq_zero]
    intro u hu
    simpa using UInt16.lt_of_le_of_lt hc (hrest u hu)
  have hle : r.finalVersion ≤ s.version := by
    rw [UInt16.le_iff_toNat_le]
    omega
  have hskip : ¬s.version ≤ r.finalVersion := by
    rw [UInt16.le_iff_toNat_le]
    omega
  have hskipped : report.skipped = r.skipped + rest.countP (·.version ≤ s.version) := h.skipped
  obtain ⟨happlied, -, hstatements, hfinal⟩ := h
  simp only [Report.add, hself] at happlied hstatements hfinal
  refine ⟨?_, ?_, ?_, ?_⟩
  · rw [hcons, happlied, List.map_cons, List.append_assoc, List.singleton_append]
  · rw [List.countP_cons_of_neg (by simpa using hskip), hskipped, hnone hle,
      hnone (UInt16.le_refl _)]
  · rw [hcons, hstatements, List.map_cons, List.sum_cons, Nat.add_assoc]
  · rw [hcons, hfinal, hs, List.length_cons]
    omega

theorem Checked.skip {o : Except MigrationError Report}
    (hd : isDue r.finalVersion p s.version = .ok false)
    (h : Checked t w scripts r.skip (some s.version) rest l o) :
    Checked t w scripts r p (s :: rest) l o := by
  have hle := le_of_isDue_false hd
  have hblocks (steps : List Step) (h : l = blocksAbove t w scripts r.finalVersion
      r.applied.length steps) : l = blocksAbove t w scripts r.finalVersion r.applied.length
        (s :: steps) := by
    rw [h, blocksAbove, blocksAbove, above_cons_of_le hle]
  cases h with
  | accepted h hr hl =>
    exact .accepted ((admitted_cons_of_skipped hd).mpr h) (hr.skip hle) (hblocks _ hl)
  | refused passed expected hs h hu hl =>
    refine .refused (s :: passed) expected (by rw [hs]; rfl)
      ((admitted_cons_of_skipped hd).mpr h) ?_ (hblocks _ hl)
    rw [List.cons_append, admitted_cons_of_skipped hd]
    exact hu

theorem Checked.add {o : Except MigrationError Report}
    (hd : isDue r.finalVersion p s.version = .ok true)
    (h : Checked t w scripts (r.add s.version (scripts s).length) (some s.version) rest l o) :
    Checked t w scripts r p (s :: rest)
      (block t (.inFlight s) (scripts s) (w.completedAt r.applied.length) ++ l) o := by
  have hs := toNat_of_isDue_true hd
  have hblocks {steps : List Step} (h : Admitted s.version (some s.version) steps) :
      block t (.inFlight s) (scripts s) (w.completedAt r.applied.length) ++
        blocksAbove t w scripts s.version (r.add s.version (scripts s).length).applied.length
          steps = blocksAbove t w scripts r.finalVersion r.applied.length (s :: steps) := by
    obtain ⟨hcons, hself⟩ := above_cons_of_next hs (h.follows s.version rfl)
    simp only [blocksAbove, hcons, hself, List.map_cons, blocks, Report.add, List.length_append,
      List.length_singleton]
  cases h with
  | accepted h hr hl =>
    refine .accepted ((admitted_cons_of_applied hd).mpr h) (hr.add hs (h.follows s.version rfl)) ?_
    rw [hl]
    exact hblocks h
  | refused passed expected hrest h hu hl =>
    refine .refused (s :: passed) expected (by rw [hrest]; rfl)
      ((admitted_cons_of_applied hd).mpr h) ?_ ?_
    · rw [List.cons_append, admitted_cons_of_applied hd]
      exact hu
    · rw [hl]
      exact hblocks h

/-- The checks and the blocks of a run whose calls all succeed. -/
theorem Course.checked {o : Except MigrationError Report} (h : Course t w r p steps l o)
    (hl : ∀ u ∈ steps, u.load w.read = .ok (scripts u)) (hf : ∀ ev ∈ l, Favours t c ev) :
    Checked t w scripts r p steps l o := by
  induction h with
  | done r p =>
    exact .accepted ⟨by simp, inSequence_nil _⟩ ⟨by simp [above], by simp, by simp [above],
      by simp [above]⟩ rfl
  | @refused r p s rest e h =>
    obtain ⟨expected, rfl⟩ := isDue_eq_error h
    exact .refused [] expected rfl ⟨by simp, inSequence_nil _⟩
      (not_admitted_of_isDue h) rfl
  | @skipped r p s rest l o h _ ih =>
    exact (ih (fun u hu => hl u (List.mem_cons_of_mem _ hu)) hf).skip h
  | @applied r p s rest l₁ l₂ n o h h₁ _ ih =>
    rw [List.forall_mem_append] at hf
    obtain ⟨hn, rfl⟩ := h₁.of_favours (hl s List.mem_cons_self) hf.1
    obtain rfl := Except.ok.inj hn
    exact (ih (fun u hu => hl u (List.mem_cons_of_mem _ hu)) hf.2).add h
  | @stopped r p s rest l e h h₁ =>
    obtain ⟨hn, -⟩ := h₁.of_favours (hl s List.mem_cons_self) hf
    cases hn

end Favours

/-! ### Whole runs -/

/-- Steps that can be applied can be applied in part. -/
theorem InSequence.of_append {passed : List Step} (h : InSequence c (passed ++ rest)) :
    InSequence c passed where
  positive s hs := h.positive s (List.mem_append_left _ hs)
  ascending := h.ascending.sublist (List.sublist_append_left _ _)
  contiguous := by
    have hcon := h.contiguous
    simp only [above, List.filter_append, List.map_append, List.length_append,
      ← List.range'_append_1] at hcon
    exact (List.append_inj hcon (by simp)).1

/-- If all calls succeed, and the executor tells version `c` and no step in flight, then a run
succeeds exactly if its steps are in sequence. Otherwise it is refused at the first step that
is not, and names the version of that step. In both cases its calls are those of the opening
and of the steps above `c` up to there, each of which is committed. -/
theorem apply_checks_versions {σ : Type} (x : Executor σ) (t : TableName) (w : Surroundings)
    (steps : List Step) (scripts : Step → List String)
    (hl : ∀ u ∈ steps, u.load w.read = .ok (scripts u)) (s : σ) (c : Version)
    (hf : ∀ ev ∈ ((apply (logged x) t w steps).run ⟨s, []⟩).2.events, Favours t c ev) :
    let run := (apply (logged x) t w steps).run ⟨s, []⟩
    (run.1, run.2.inner) = (apply x t w steps).run s ∧
    (run.1.isOk ↔ InSequence c steps) ∧
    ∃ opening passed, Opening t opening (.ok c) ∧ InSequence c passed ∧
      run.2.events = opening ++ blocksAbove t w scripts c 0 passed ∧
      ((∃ report, passed = steps ∧ run.1 = .ok report ∧
          report.applied.map (·.toNat) = List.range' (c.toNat + 1) (above c steps).length ∧
          report.skipped = steps.countP (·.version ≤ c) ∧
          report.statements = ((above c steps).map fun u => (scripts u).length).sum ∧
          report.finalVersion.toNat = c.toNat + (above c steps).length) ∨
        ∃ u rest expected, steps = passed ++ u :: rest ∧ ¬InSequence c (passed ++ [u]) ∧
          run.1 = .error (.nonContiguous expected u.version)) := by
  intro run
  refine ⟨(apply_follows (logged_watches x) t w steps ⟨s, []⟩).symm, ?_⟩
  obtain ⟨events, ht, hcourse⟩ := apply_course (logged x) t w steps ⟨s, []⟩
  obtain ⟨he, -⟩ := ht.of_logged
  rw [List.nil_append] at he
  change run.2.events = events at he
  change RunCourse t w steps events run.1 at hcourse
  change ∀ ev ∈ run.2.events, Favours t c ev at hf
  rw [he] at hf ⊢
  generalize run.1 = o at hcourse ⊢
  cases hcourse with
  | @notOpened l e h => cases h.of_favours hf
  | @opened opening l current o h₁ h₂ =>
    rw [List.forall_mem_append] at hf
    obtain rfl := Except.ok.inj (h₁.of_favours hf.1)
    cases h₂.checked hl hf.2 with
    | @accepted report h hr hblocks =>
      have hseq : InSequence current steps := h.inSequence
      obtain ⟨happlied, hskipped, hstatements, hfinal⟩ := hr
      rw [List.nil_append] at happlied
      rw [Nat.zero_add] at hskipped hstatements
      refine ⟨iff_of_true rfl hseq, opening, steps, h₁, hseq, congrArg _ hblocks,
        .inl ⟨report, rfl, rfl, ?_, hskipped, hstatements, hfinal⟩⟩
      rw [happlied, List.map_map]
      exact hseq.contiguous
    | @refused passed rest u expected hs h hu hblocks =>
      have hu : ¬InSequence current (passed ++ [u]) := fun hseq => hu (admitted_none.mpr hseq)
      have hsteps : ¬InSequence current steps := by
        intro hseq
        rw [hs, List.append_cons] at hseq
        exact hu hseq.of_append
      exact ⟨iff_of_false Bool.false_ne_true hsteps, opening, passed, h₁, h.inSequence,
        congrArg _ hblocks, .inr ⟨u, rest, expected, hs, hu, rfl⟩⟩

/-- The statements of two small scripts. -/
def smallScripts (u : Step) : List String :=
  if u.version = 1 then ["CREATE TABLE a (x INTEGER)"]
  else ["INSERT INTO a VALUES (1)", "INSERT INTO a VALUES (2)"]

/-- Two steps at version 1, the second of which is to be applied. -/
theorem apply_checks_versions_at_one :
    ((apply (logged scripted) .standard smallFiles smallSteps).run
      ⟨⟨[some 1, none], []⟩, []⟩).1.isOk = true ∧
    ∃ opening, Opening .standard opening (.ok 1) ∧
      ((apply (logged scripted) .standard smallFiles smallSteps).run
        ⟨⟨[some 1, none], []⟩, []⟩).2.events =
        opening ++ blocksAbove .standard smallFiles smallScripts 1 0 smallSteps := by
  have hl : ∀ u ∈ smallSteps, u.load smallFiles.read = .ok (smallScripts u) := by
    decide +kernel
  have hf : ∀ ev ∈ ((apply (logged scripted) .standard smallFiles smallSteps).run
      ⟨⟨[some 1, none], []⟩, []⟩).2.events, Favours .standard 1 ev := by
    decide +kernel
  have hchecks := apply_checks_versions scripted .standard smallFiles smallSteps smallScripts hl
    ⟨[some 1, none], []⟩ 1 hf
  clear hf
  generalize (apply (logged scripted) .standard smallFiles smallSteps).run
    ⟨⟨[some 1, none], []⟩, []⟩ = run at hchecks ⊢
  obtain ⟨-, hok, opening, passed, ho, -, hevents, hend⟩ := hchecks
  have hrun : run.1.isOk = true := hok.mpr (by decide +kernel)
  refine ⟨hrun, opening, ho, ?_⟩
  rcases hend with ⟨report, rfl, -⟩ | ⟨u, rest, expected, -, -, he⟩
  · exact hevents
  · rw [he] at hrun
    cases hrun

end SipMigrate.Migration
