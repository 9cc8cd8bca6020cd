import SipMigrate.Proofs.Migration.Resumption
import SipMigrate.Proofs.Migration.VersionChecks

/-! The version that a refused run names as the expected one. It is the one that should have
come next, unless the step has version zero and stands behind another one, or stands behind a
step of the last version there is. -/

namespace SipMigrate.Migration

open Executor

variable {c v expected found : Version} {p : Option Version}

/-! ### Checks that fail -/

/-- The three ways in which a version can be refused. -/
theorem of_isDue_eq_error {e : MigrationError} (h : isDue c p v = .error e) :
    (v = 0 ∧ e = .nonContiguous 1 0) ∨
      (v ≠ 0 ∧ ∃ q ∈ p, v ≤ q ∧ e = .nonContiguous (Version.next q) v) ∨
      (v ≠ 0 ∧ c.toNat + 1 < v.toNat ∧ e = .nonContiguous (Version.next c) v) := by
  have hnext (h : isDue.isNext c v = .error e) :
      c.toNat + 1 < v.toNat ∧ e = .nonContiguous (Version.next c) v := by
    have htoNat := toNat_next c
    have hv := v.toNat_lt
    unfold isDue.isNext at h
    split at h
    · cases h
    · rename_i hle
      rw [UInt16.not_le, UInt16.lt_iff_toNat_lt] at hle
      split at h
      · cases h
      · rename_i hne
        have hne : v.toNat ≠ (Version.next c).toNat := fun h => hne (UInt16.toNat_inj.mp h)
        cases h
        exact ⟨by omega, rfl⟩
  unfold isDue at h
  split at h
  · rename_i hv
    cases h
    exact .inl ⟨hv, rfl⟩
  · rename_i hv
    cases p with
    | none => exact .inr (.inr ⟨hv, hnext h⟩)
    | some q =>
      dsimp only at h
      split at h
      · rename_i hle
        cases h
        exact .inr (.inl ⟨hv, q, rfl, hle, rfl⟩)
      · exact .inr (.inr ⟨hv, hnext h⟩)

/-- A version passes the checks if it is at least one, above the one before it, and not
beyond the next one. -/
theorem exists_isDue_eq_ok_iff :
    (∃ due, isDue c p v = .ok due) ↔ 1 ≤ v ∧ (∀ q ∈ p, q < v) ∧ v.toNat ≤ c.toNat + 1 := by
  simp only [isDue_eq_ok_iff, UInt16.le_iff_toNat_le (b := c)]
  constructor
  · rintro ⟨due, hv, hp, ⟨-, hle⟩ | ⟨-, heq⟩⟩
    · exact ⟨hv, hp, by omega⟩
    · exact ⟨hv, hp, by omega⟩
  · rintro ⟨hv, hp, hle⟩
    by_cases heq : v.toNat = c.toNat + 1
    · exact ⟨true, hv, hp, .inr ⟨rfl, heq⟩⟩
    · exact ⟨false, hv, hp, .inl ⟨rfl, by omega⟩⟩

theorem ne_last_iff {q : Version} : q ≠ 65535 ↔ q.toNat < 65535 := by
  have := q.toNat_lt
  rw [ne_eq, ← UInt16.toNat_inj]
  simp only [UInt16.reduceToNat]
  omega

theorem lt_next {q : Version} (hq : q ≠ 65535) : q < Version.next q := by
  have := ne_last_iff.mp hq
  rw [UInt16.lt_iff_toNat_lt, toNat_next]
  omega

/-- The version after one that is not the last one, and not above the current one, would
have been accepted. -/
theorem exists_isDue_next {q : Version} (hq : q ≠ 65535) (hc : q ≤ c) (hp : ∀ q' ∈ p, q' ≤ q) :
    ∃ due, isDue c p (Version.next q) = .ok due := by
  refine exists_isDue_eq_ok_iff.mpr ⟨?_, fun q' hq' => ?_, ?_⟩
  · have hlt := lt_next hq
    rw [UInt16.lt_iff_toNat_lt] at hlt
    rw [UInt16.le_iff_toNat_le]
    simp only [UInt16.reduceToNat]
    omega
  · exact UInt16.lt_of_le_of_lt (hp q' hq') (lt_next hq)
  · rw [toNat_next]
    rw [UInt16.le_iff_toNat_le] at hc
    omega

/-- The expected version of a refused one differs from it and would have been accepted, but for
two cases. -/
theorem isDue_expected (hp : ∀ q ∈ p, 1 ≤ q ∧ q ≤ c)
    (h : isDue c p v = .error (.nonContiguous expected found)) :
    v = found ∧ ((expected ≠ found ∧ ∃ due, isDue c p expected = .ok due) ↔
      ∀ q ∈ p, found ≠ 0 ∧ q ≠ 65535) := by
  rcases of_isDue_eq_error h with ⟨rfl, he⟩ | ⟨hv, q, hq, hle, he⟩ | ⟨hv, hlt, he⟩
  · -- version zero: one is expected, whatever comes before
    cases he
    refine ⟨rfl, ?_⟩
    cases p with
    | none =>
      refine iff_of_true ⟨by decide, exists_isDue_eq_ok_iff.mpr ⟨UInt16.le_refl _, nofun, ?_⟩⟩ nofun
      simp
    | some q =>
      refine iff_of_false ?_ fun hall => (hall q rfl).1 rfl
      rintro ⟨-, hdue⟩
      have hlt : q < 1 := (exists_isDue_eq_ok_iff.mp hdue).2.1 q rfl
      exact UInt16.not_le.mpr hlt (hp q rfl).1
  · -- not above the version before it
    cases he
    refine ⟨rfl, ?_⟩
    obtain rfl : p = some q := hq
    by_cases hlast : q = 65535
    · refine iff_of_false ?_ fun hall => (hall q rfl).2 hlast
      rintro ⟨-, hdue⟩
      have hlt : q < Version.next q := (exists_isDue_eq_ok_iff.mp hdue).2.1 q rfl
      rw [Version.next, if_pos hlast] at hlt
      exact UInt16.lt_irrefl q hlt
    · refine iff_of_true ⟨?_, exists_isDue_next hlast (hp q rfl).2 (by simp)⟩ (by simp [hv, hlast])
      rintro rfl
      exact UInt16.not_le.mpr (lt_next hlast) hle
  · -- beyond the next version
    cases he
    refine ⟨rfl, ?_⟩
    have hmax := v.toNat_lt
    have hc : c ≠ 65535 := ne_last_iff.mpr (by omega)
    refine iff_of_true ⟨?_, exists_isDue_next hc (UInt16.le_refl c) fun q hq => (hp q hq).2⟩ ?_
    · rintro rfl
      rw [toNat_next] at hlt
      omega
    · intro q hq
      refine ⟨hv, ne_last_iff.mpr ?_⟩
      have := UInt16.le_iff_toNat_le.mp (hp q hq).2
      omega

/-! ### Runs that are refused -/

section Runs

variable {σ : Type} {x : Executor σ} {t : TableName} {w : Surroundings} {s s' : σ}

theorem applyStep_ne_nonContiguous {time : UInt64} {u : Step} :
    (applyStep x t w time u).run s ≠ (.error (.nonContiguous expected found), s') := by
  intro h
  obtain ⟨l, -, hcourse⟩ := applyStep_course x t w time u s
  rw [h] at hcourse
  cases hcourse with
  | unreadable hload =>
    obtain ⟨cause, -, he⟩ := load_eq_error hload
    cases he
  | interrupted hload hi => cases hi

theorem openRun_ne_nonContiguous :
    (openRun x t).run s ≠ (.error (.nonContiguous expected found), s') := by
  intro h
  obtain ⟨l, -, hopening⟩ := openRun_opening x t s
  rw [h] at hopening
  cases hopening

/-- Where a run through some steps is refused: the steps before that one are accepted. -/
theorem applySteps_eq_nonContiguous {r : Report} {steps : List Step}
    (hp : ∀ q ∈ p, 1 ≤ q ∧ q ≤ r.finalVersion)
    (h : (applySteps x t w r p steps).run s = (.error (.nonContiguous expected found), s')) :
    ∃ passed u rest r', steps = passed ++ u :: rest ∧
      (applySteps x t w r p passed).run s = (.ok r', s') ∧
      (∀ q ∈ lastVersion p passed, 1 ≤ q ∧ q ≤ r'.finalVersion) ∧
      isDue r'.finalVersion (lastVersion p passed) u.version =
        .error (.nonContiguous expected found) := by
  induction steps generalizing r p s with
  | nil => cases h
  | cons u rest ih =>
    cases hd : isDue r.finalVersion p u.version with
    | error e =>
      rw [applySteps_of_refused hd] at h
      cases h
      exact ⟨[], u, rest, r, rfl, rfl, hp, hd⟩
    | ok due =>
      obtain ⟨hone, -, hdue⟩ := isDue_eq_ok_iff.mp hd
      cases due with
      | false =>
        rw [applySteps_of_skipped hd] at h
        have hu : ∀ q ∈ some u.version, 1 ≤ q ∧ q ≤ r.skip.finalVersion := by
          rintro q ⟨⟩
          exact ⟨hone, le_of_isDue_false hd⟩
        obtain ⟨passed, u', rest', r', rfl, hrun, hlast, hrefused⟩ := ih hu h
        refine ⟨u :: passed, u', rest', r', rfl, ?_, hlast, hrefused⟩
        rwa [applySteps_of_skipped hd]
      | true =>
        rcases hs : (applyStep x t w (w.completedAt r.applied.length) u).run s with ⟨e | k, s₁⟩
        · rw [applySteps_of_failed hd hs] at h
          cases h
          exact absurd hs applyStep_ne_nonContiguous
        · rw [applySteps_of_applied hd hs] at h
          have hu : ∀ q ∈ some u.version, 1 ≤ q ∧ q ≤ (r.add u.version k).finalVersion := by
            rintro q ⟨⟩
            exact ⟨hone, UInt16.le_refl _⟩
          obtain ⟨passed, u', rest', r', rfl, hrun, hlast, hrefused⟩ := ih hu h
          refine ⟨u :: passed, u', rest', r', rfl, ?_, hlast, hrefused⟩
          rwa [applySteps_of_applied hd hs]

end Runs

/-- A refused run names the version of the step at which it is refused. The version that it
expects differs from this one, and a step of that version would have been accepted in its place,
if and only if there is no step before it, or the refused version is not zero and the one before
it is not the last one there is. -/
theorem apply_refused_expects_iff {σ : Type} (x : Executor σ) (t : TableName) (w : Surroundings)
    (steps : List Step) (s s' : σ) (expected found : Version)
    (h : (apply x t w steps).run s = (.error (.nonContiguous expected found), s')) :
    ∃ passed u rest r, steps = passed ++ u :: rest ∧ u.version = found ∧
      (∀ others, (apply x t w (passed ++ others)).run s =
        (applySteps x t w r (lastVersion none passed) others).run s') ∧
      isDue r.finalVersion (lastVersion none passed) found =
        .error (.nonContiguous expected found) ∧
      ((expected ≠ found ∧ ∃ due,
          isDue r.finalVersion (lastVersion none passed) expected = .ok due) ↔
        ∀ q ∈ lastVersion none passed, found ≠ 0 ∧ q ≠ 65535) := by
  rcases ho : (openRun x t).run s with ⟨e | current, s₁⟩
  · rw [apply_of_openRun_error ho] at h
    cases h
    exact absurd ho openRun_ne_nonContiguous
  · rw [apply_of_openRun ho] at h
    obtain ⟨passed, u, rest, r, hsteps, hrun, hlast, hrefused⟩ :=
      applySteps_eq_nonContiguous (by simp) h
    obtain ⟨rfl, hexpected⟩ := isDue_expected hlast hrefused
    refine ⟨passed, u, rest, r, hsteps, rfl, fun others => ?_, hrefused, hexpected⟩
    rw [apply_of_openRun ho, applySteps_append, hrun]

/-- Two steps, the second of which has some version. -/
def stepsEndingWith (v : Version) : List Step :=
  [⟨1, "table", "1_table.sql"⟩, ⟨v, "rows", "2_rows.sql"⟩]

/-- A run over two such steps at version 1. -/
def runEndingWith (v : Version) : Except MigrationError Report × Script :=
  (apply scripted .standard smallFiles (stepsEndingWith v)).run ⟨[some 1], []⟩

/-- A run that is refused at a step of version zero, behind one that it has passed over. -/
theorem apply_refused_expects_iff_of_zero :
    ∃ s' passed u rest r, stepsEndingWith 0 = passed ++ u :: rest ∧ u.version = 0 ∧
      (∀ others, (apply scripted .standard smallFiles (passed ++ others)).run ⟨[some 1], []⟩ =
        (applySteps scripted .standard smallFiles r (lastVersion none passed) others).run s') ∧
      isDue r.finalVersion (lastVersion none passed) 0 = .error (.nonContiguous 1 0) ∧
      (((1 : Version) ≠ 0 ∧ ∃ due, isDue r.finalVersion (lastVersion none passed) 1 = .ok due) ↔
        ∀ q ∈ lastVersion none passed, (0 : Version) ≠ 0 ∧ q ≠ 65535) := by
  have hrun : ∃ s', (apply scripted .standard smallFiles (stepsEndingWith 0)).run
      ⟨[some 1], []⟩ = (.error (.nonContiguous 1 0), s') := by
    have houtcome : (runEndingWith 0).1 = .error (.nonContiguous 1 0) := by decide +kernel
    unfold runEndingWith at houtcome
    generalize (apply scripted .standard smallFiles (stepsEndingWith 0)).run
      ⟨[some 1], []⟩ = run at houtcome ⊢
    exact ⟨run.2, Prod.ext houtcome rfl⟩
  obtain ⟨s', hrun⟩ := hrun
  exact ⟨s', apply_refused_expects_iff scripted .standard smallFiles (stepsEndingWith 0)
    ⟨[some 1], []⟩ s' 1 0 hrun⟩

/-- Behind version 1 a step of version zero is refused in favour of version 1, which is refused
as well; version 2 should have come next. -/
theorem expected_refused_behind_first :
    (runEndingWith 0).1 = .error (.nonContiguous 1 0) ∧
      (runEndingWith 1).1 = .error (.nonContiguous 2 1) ∧ (runEndingWith 2).1.isOk = true := by
  refine ⟨?_, ?_, ?_⟩
  · decide +kernel
  · decide +kernel
  · decide +kernel

end SipMigrate.Migration
