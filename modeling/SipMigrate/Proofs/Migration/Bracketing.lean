import SipMigrate.Proofs.Migration.Course
import SipMigrate.Proofs.Migration.Watching

/-! A run brackets each step by a transaction. After the opening come the blocks
of the steps that are applied, each complete, and at most one more block, which
breaks off at its first failure and is cleaned up. This holds of every
executor: each of its calls may fail. -/

namespace SipMigrate.Migration

open Executor

/-- The events of applied steps; `n` steps were applied before them. -/
def blocks (t : TableName) (w : Surroundings) : Nat → List (Step × List String) → List Event
  | _, [] => []
  | n, (s, statements) :: rest =>
    block t (.inFlight s) statements (w.completedAt n) ++ blocks t w (n + 1) rest

/-- Of the steps that a run has been through, those above the version at its
beginning are applied: each with the statements of its file, and without a gap. -/
structure Applied (w : Surroundings) (current : Version) (passed : List Step)
    (done : List (Step × List String)) : Prop where
  steps : done.map (·.1) = passed.filter fun s => current < s.version
  versions : done.map (·.1.version.toNat) = List.range' (current.toNat + 1) done.length
  statements : ∀ d ∈ done, d.1.load w.read = .ok d.2

/-- How a run that began with report `r` ends after it has applied some steps: what
steps are left, what events come after the blocks, and the outcome. -/
inductive Ending (t : TableName) (w : Surroundings) (r : Report)
    (done : List (Step × List String)) :
    List Step → List Event → Except MigrationError Report → Prop
  | complete {report : Report} (h : report.applied = r.applied ++ done.map (·.1.version)) :
    Ending t w r done [] [] (.ok report)
  | refused (s : Step) (rest : List Step) (expected : Version) :
    Ending t w r done (s :: rest) [] (.error (.nonContiguous expected s.version))
  | unreadable {s : Step} (rest : List Step) {cause : Files.FileError}
      (h : w.read s.file = .error cause) :
    Ending t w r done (s :: rest) [] (.error (.fileRead s.version s.file cause))
  | interrupted {s : Step} (rest : List Step) {statements : List String} {l : List Event}
      {e : MigrationError} (hv : s.version.toNat = r.finalVersion.toNat + done.length + 1)
      (h : s.load w.read = .ok statements)
      (hl : Interrupted t (.inFlight s) statements
        (w.completedAt (r.applied.length + done.length)) l e) :
    Ending t w r done (s :: rest) l (.error e)

/-- An event that opens a transaction. -/
def opens (e : Event) : Bool := e.call = .begin && e.answer.isOk

/-- An event that is there to close a transaction: a commit that succeeds, or a rollback. -/
def closes (e : Event) : Bool := (e.call = .commit && e.answer.isOk) || e.call = .rollback

/-! ### Versions -/

section Versions

variable {current v : Version} {p : Option Version}

theorem isDue_eq_error {e : MigrationError} (h : isDue current p v = .error e) :
    ∃ expected, e = .nonContiguous expected v := by
  unfold isDue isDue.isNext at h
  grind

theorem lt_of_isDue {b : Bool} (h : isDue current p v = .ok b) : ∀ q ∈ p, q < v := by
  unfold isDue isDue.isNext at h
  grind

theorem le_of_isDue_false (h : isDue current p v = .ok false) : v ≤ current := by
  unfold isDue isDue.isNext at h
  grind

theorem toNat_of_isDue_true (h : isDue current p v = .ok true) :
    v.toNat = current.toNat + 1 := by
  have hv : ¬v ≤ current ∧ v = Version.next current := by
    unfold isDue isDue.isNext at h
    grind
  obtain ⟨hlt, rfl⟩ := hv
  unfold Version.next at hlt ⊢
  split at hlt
  · exact absurd (UInt16.le_refl _) hlt
  · rename_i hmax
    rw [if_neg hmax, UInt16.toNat_add]
    have : current.toNat ≠ 65535 := fun h => hmax (UInt16.toNat_inj.mp h)
    have := current.toNat_lt
    simp only [UInt16.reduceToNat]
    omega

end Versions

/-! ### From the course of a run to its blocks -/

variable {t : TableName} {w : Surroundings}

theorem load_eq_error {s : Step} {e : MigrationError} (h : s.load w.read = .error e) :
    ∃ cause, w.read s.file = .error cause ∧ e = .fileRead s.version s.file cause := by
  unfold Step.load at h
  split at h
  · cases h
  · rename_i cause hr
    cases h
    exact ⟨cause, hr, rfl⟩

theorem stepCourse_ok {time : UInt64} {s : Step} {l : List Event} {n : Nat}
    (h : StepCourse t w time s l (.ok n)) :
    ∃ statements, s.load w.read = .ok statements ∧
      l = block t (.inFlight s) statements time ∧ n = statements.length := by
  cases h with
  | applied h => exact ⟨_, h, rfl, rfl⟩

theorem find?_version {l : List Step} {s : Step} (hl : (l.map (·.version.toNat)).Nodup)
    (hs : s ∈ l) : l.find? (·.version = s.version) = some s := by
  induction l with
  | nil => cases hs
  | cons a rest ih =>
    rw [List.map_cons, List.nodup_cons] at hl
    rcases List.mem_cons.mp hs with rfl | hs
    · exact List.find?_cons_of_pos (by simp)
    · have hne : a.version ≠ s.version := by
        intro heq
        rw [heq] at hl
        exact hl.1 (List.mem_map_of_mem hs)
      rw [List.find?_cons_of_neg (by simpa using hne)]
      exact ih hl.2 hs

/-- Of the steps of one version it is the first one that is applied. -/
theorem Applied.find? {current : Version} {passed : List Step} {done : List (Step × List String)}
    (h : Applied w current passed done) {d : Step × List String} (hd : d ∈ done) :
    passed.find? (·.version = d.1.version) = some d.1 := by
  have hmem : d.1 ∈ done.map (·.1) := List.mem_map_of_mem hd
  have hnodup : ((done.map (·.1)).map (·.version.toNat)).Nodup := by
    rw [List.map_map]
    exact h.versions ▸ List.nodup_range'
  have hfirst := find?_version hnodup hmem
  rw [h.steps] at hmem hfirst
  have hlt : current < d.1.version := by simpa using (List.mem_filter.mp hmem).2
  rw [List.find?_filter] at hfirst
  rw [← hfirst]
  congr 1
  funext s
  by_cases hs : s.version = d.1.version <;> simp [hs, hlt]

/-- A step that is left out stands below the version at the beginning of the run. -/
theorem Applied.skip {current : Version} {s : Step} {passed : List Step}
    {done : List (Step × List String)} (h : Applied w current passed done)
    (hs : s.version ≤ current) : Applied w current (s :: passed) done where
  steps := by
    rw [h.steps, List.filter_cons_of_neg]
    simpa using hs
  versions := h.versions
  statements := h.statements

/-- A step that is applied comes right after the version at the beginning of the run,
and the steps behind it ascend. -/
theorem Applied.cons {current : Version} {s : Step} {passed : List Step}
    {done : List (Step × List String)} {statements : List String}
    (h : Applied w s.version passed done) (hl : s.load w.read = .ok statements)
    (hs : s.version.toNat = current.toNat + 1) (hp : ∀ u ∈ passed, s.version < u.version) :
    Applied w current (s :: passed) ((s, statements) :: done) where
  steps := by
    have hlt : current < s.version := by rw [UInt16.lt_iff_toNat_lt]; omega
    rw [List.map_cons, h.steps, List.filter_cons_of_pos (by simpa using hlt)]
    congr 1
    apply List.filter_congr
    intro u hu
    have := hp u hu
    simp [this, UInt16.lt_trans hlt this]
  versions := by
    rw [List.map_cons, h.versions, List.length_cons, List.range'_succ, hs]
  statements := by
    intro d hd
    rcases List.mem_cons.mp hd with rfl | hd
    · exact hl
    · exact h.statements d hd

theorem Ending.skip {r : Report} {done : List (Step × List String)} {left : List Step}
    {l : List Event} {o : Except MigrationError Report} (h : Ending t w r.skip done left l o) :
    Ending t w r done left l o := by
  cases h with
  | complete h => exact .complete h
  | refused u rest expected => exact .refused u rest expected
  | unreadable rest h => exact .unreadable rest h
  | interrupted rest hv h hl => exact .interrupted rest hv h hl

/-- A run that has applied a step ends as the run that begins behind the step does. -/
theorem Ending.cons {r : Report} {s : Step} {statements : List String}
    {done : List (Step × List String)} {left : List Step} {l : List Event}
    {o : Except MigrationError Report}
    (h : Ending t w (r.add s.version statements.length) done left l o)
    (hs : s.version.toNat = r.finalVersion.toNat + 1) :
    Ending t w r ((s, statements) :: done) left l o := by
  cases h with
  | complete h => exact .complete (by simpa [Report.add] using h)
  | refused u rest expected => exact .refused u rest expected
  | unreadable rest h => exact .unreadable rest h
  | interrupted rest hv h hl =>
    refine .interrupted rest ?_ h ?_
    · rw [hv, List.length_cons]
      show s.version.toNat + _ + _ = _
      omega
    · have : (r.add s.version statements.length).applied.length + done.length =
          r.applied.length + ((s, statements) :: done).length := by
        simp [Report.add]; omega
      rwa [this] at hl

/-- Versions ascend from the one before a step over the step to all that come after it. -/
theorem ascends_cons {current : Version} {p : Option Version} {s : Step} {passed : List Step}
    {b : Bool} (h : isDue current p s.version = .ok b)
    (hp : ∀ q ∈ some s.version, ∀ u ∈ passed, q < u.version) :
    ∀ q ∈ p, ∀ u ∈ s :: passed, q < u.version := by
  intro q hq u hu
  have hqs := lt_of_isDue h q hq
  rcases List.mem_cons.mp hu with rfl | hu
  · exact hqs
  · exact UInt16.lt_trans hqs (hp s.version rfl u hu)

/-- The course of a run is a list of complete blocks and an ending. -/
theorem Course.bracketed {r : Report} {p : Option Version} {steps : List Step} {l : List Event}
    {o : Except MigrationError Report} (h : Course t w r p steps l o) :
    ∃ passed left done tail, steps = passed ++ left ∧ (∀ q ∈ p, ∀ s ∈ passed, q < s.version) ∧
      l = blocks t w r.applied.length done ++ tail ∧ Applied w r.finalVersion passed done ∧
      Ending t w r done left tail o := by
  induction h with
  | done r p => exact ⟨[], [], [], [], rfl, by simp, rfl, ⟨rfl, rfl, by simp⟩, .complete (by simp)⟩
  | @refused r p s rest e h =>
    obtain ⟨expected, rfl⟩ := isDue_eq_error h
    exact ⟨[], _, [], [], rfl, by simp, rfl, ⟨rfl, rfl, by simp⟩, .refused s rest expected⟩
  | @skipped r p s rest l o h _ ih =>
    obtain ⟨passed, left, done, tail, rfl, hp, hl, ha, he⟩ := ih
    exact ⟨s :: passed, left, done, tail, rfl, ascends_cons h hp, hl,
      ha.skip (le_of_isDue_false h), he.skip⟩
  | @applied r p s rest l₁ l₂ n o h h₁ _ ih =>
    obtain ⟨passed, left, done, tail, rfl, hp, rfl, ha, he⟩ := ih
    obtain ⟨statements, hload, rfl, rfl⟩ := stepCourse_ok h₁
    have hs := toNat_of_isDue_true h
    refine ⟨s :: passed, left, (s, statements) :: done, tail, rfl, ascends_cons h hp, ?_,
      ha.cons hload hs (hp s.version rfl), he.cons hs⟩
    simp [blocks, Report.add]
  | @stopped r p s rest l e h hl =>
    refine ⟨[], s :: rest, [], l, rfl, by simp, rfl, ⟨rfl, rfl, by simp⟩, ?_⟩
    cases hl with
    | unreadable h =>
      obtain ⟨cause, hr, rfl⟩ := load_eq_error h
      exact .unreadable rest hr
    | interrupted h hl => exact .interrupted rest (toNat_of_isDue_true ‹_›) h hl

/-! ### Every transaction is closed -/

theorem countP_opens_executed (statements : List String) :
    (statements.map executed).countP opens = 0 := by
  simp [List.countP_eq_zero, opens, executed]

theorem countP_closes_executed (statements : List String) :
    (statements.map executed).countP closes = 0 := by
  simp [List.countP_eq_zero, closes, executed]

theorem block_balanced (r : Record) (statements : List String) (time : UInt64) :
    (block t r statements time).countP opens = (block t r statements time).countP closes := by
  simp only [block, opened, List.countP_append, countP_opens_executed, countP_closes_executed]
  rfl

theorem Interrupted.balanced {r : Record} {statements : List String} {time : UInt64}
    {l : List Event} {e : MigrationError} (h : Interrupted t r statements time l e) :
    l.countP opens = l.countP closes := by
  cases h with
  | begin | insert => rfl
  | statement | update | commit =>
    simp only [opened, List.countP_append, countP_opens_executed, countP_closes_executed]
    rfl

theorem blocks_balanced (n : Nat) (done : List (Step × List String)) :
    (blocks t w n done).countP opens = (blocks t w n done).countP closes := by
  induction done generalizing n with
  | nil => rfl
  | cons d rest ih => simp [blocks, ih, block_balanced]

theorem Ending.balanced {r : Report} {done : List (Step × List String)} {left : List Step}
    {l : List Event} {o : Except MigrationError Report} (h : Ending t w r done left l o) :
    l.countP opens = l.countP closes := by
  cases h with
  | interrupted _ _ _ hl => exact hl.balanced
  | _ => rfl

theorem Opening.balanced {l : List Event} {o : Except MigrationError Version}
    (h : Opening t l o) : l.countP opens = l.countP closes := by
  cases h <;> rfl

/-! ### The calls of a run -/

/-- The calls of a run are those of its opening; if that succeeds, the complete
blocks of the steps that are applied follow, and at most one block that breaks off.
Each transaction that is opened is closed once. -/
theorem apply_bracketed {σ : Type} (x : Executor σ) (t : TableName) (w : Surroundings)
    (steps : List Step) (s : σ) :
    let run := (apply (logged x) t w steps).run ⟨s, []⟩
    (run.1, run.2.inner) = (apply x t w steps).run s ∧
    run.2.events.countP opens = run.2.events.countP closes ∧
    ∃ opening rest o, run.2.events = opening ++ rest ∧ Opening t opening o ∧
      match o with
      | .error e => rest = [] ∧ run.1 = .error e
      | .ok current =>
        ∃ passed left done tail, steps = passed ++ left ∧ rest = blocks t w 0 done ++ tail ∧
          Applied w current passed done ∧
          Ending t w ⟨[], 0, 0, current⟩ done left tail run.1 := by
  intro run
  obtain ⟨events, ht, hc⟩ := apply_course (logged x) t w steps ⟨s, []⟩
  obtain ⟨he, hi⟩ := ht.of_logged
  rw [List.nil_append] at he
  refine ⟨(apply_follows (logged_watches x) t w steps ⟨s, []⟩).symm, ?_⟩
  show run.2.events.countP opens = _ ∧ _
  rw [show run.2.events = events from he]
  change RunCourse t w steps events run.1 at hc
  generalize run.1 = o at hc
  cases hc with
  | @notOpened l e h => exact ⟨h.balanced, events, [], .error e, by simp, h, rfl, rfl⟩
  | @opened opening rest current o h₁ h₂ =>
    obtain ⟨passed, left, done, tail, hs, -, rfl, ha, he⟩ := h₂.bracketed
    refine ⟨?_, opening, _, .ok current, rfl, h₁, passed, left, done, tail, hs, rfl, ha, he⟩
    rw [List.countP_append, List.countP_append, List.countP_append, List.countP_append,
      h₁.balanced, blocks_balanced, he.balanced]

end SipMigrate.Migration
