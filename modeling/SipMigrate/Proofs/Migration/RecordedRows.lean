import SipMigrate.Proofs.Migration.Foresight

/-! What a run leaves in the control table. The rows that were there stay as they are; behind
them comes one row for each step that the run applies, in the order in which the steps were
completed. It tells the version, the description and the name of the script of its step as
they are, and when the step was completed. -/

namespace SipMigrate.Migration

open Sql Executor ControlTable

/-- A row of the control table tells a step and its completion time. Seconds since the epoch
are stored as integers if they fit into 63 bits, as the seconds of a clock do. -/
structure Tells (row : Row) (s : Step) (time : UInt64) : Prop where
  version : row.get 0 = .integer s.version.toNat
  description : row.get 1 = .text s.description
  file : row.get 2 = .text s.fileName
  created : time.toNat < 2 ^ 63 → row.get 3 = .integer time.toNat

/-- The row of a step that has been completed. -/
def completedRow (w : Surroundings) (k : Nat) (s : Step) : Row :=
  row ((Record.inFlight s).complete (w.completedAt k))

/-- The rows of steps that have been completed one after the other, `k` other ones before them. -/
def completedRows (w : Surroundings) (k : Nat) (steps : List Step) : List Row :=
  steps.mapIdx fun i s => completedRow w (k + i) s

variable {t : TableName} {c c' : Connection} {n : Version} {rows : List Row} {s : Step}
  {w : Surroundings} {mayFail : Call → Prop}

theorem completedRows_cons (k : Nat) (s : Step) (rest : List Step) :
    completedRows w k (s :: rest) = completedRow w k s :: completedRows w (k + 1) rest := by
  simp only [completedRows, List.mapIdx_cons, Nat.add_zero, Nat.add_assoc, Nat.add_comm 1]

theorem tells_completedRow (w : Surroundings) (k : Nat) (s : Step) :
    Tells (completedRow w k s) s (w.completedAt k) where
  version := rfl
  description := rfl
  file := rfl
  created htime := by
    have hvalue : createdValue ((Record.inFlight s).complete (w.completedAt k)) =
        .integer (w.completedAt k).toNat := by
      refine Value.ofNumeral_ofNat ?_
      simp only [Text.isInt64, Bool.and_eq_true, decide_eq_true_eq]
      omega
    simp only [completedRow, row, hvalue]
    rfl

/-! ### Rows of one version -/

theorem hasVersion_completedRow (k : Nat) (s u : Step) :
    hasVersion (.inFlight s) (completedRow w k u) = decide (u.version = s.version) := by
  show (compare (u.version.toNat : Int) s.version.toNat == .eq) = _
  rw [Bool.eq_iff_iff, beq_iff_eq, compare_eq_iff_eq, decide_eq_true_eq, Int.ofNat_inj,
    UInt16.toNat_inj]

/-- Among the rows of steps of different versions, a step finds its own one only. -/
theorem filter_completedRows {steps : List Step} (hv : (steps.map (·.version)).Nodup) {k i : Nat}
    (hi : steps[i]? = some s) :
    (completedRows w k steps).filter (hasVersion (.inFlight s)) = [completedRow w (k + i) s] := by
  induction steps generalizing k i with
  | nil => simp at hi
  | cons u rest ih =>
    rw [List.map_cons, List.nodup_cons] at hv
    rw [completedRows_cons]
    cases i with
    | zero =>
      obtain rfl : u = s := by simpa using hi
      have hrest : (completedRows w (k + 1) rest).filter (hasVersion (.inFlight u)) = [] := by
        rw [List.filter_eq_nil_iff]
        intro r hr
        obtain ⟨j, hj, rfl⟩ := List.mem_mapIdx.mp hr
        rw [hasVersion_completedRow, decide_eq_true_eq]
        intro heq
        exact hv.1 (heq ▸ List.mem_map_of_mem (List.getElem_mem hj))
      rw [List.filter_cons_of_pos (by rw [hasVersion_completedRow]; simp), hrest, Nat.add_zero]
    | succ i =>
      have hi : rest[i]? = some s := by simpa using hi
      have hne : u.version ≠ s.version := fun heq =>
        hv.1 (heq ▸ List.mem_map_of_mem (List.mem_of_getElem? hi))
      rw [List.filter_cons_of_neg (by rw [hasVersion_completedRow]; simpa using hne), ih hv.2 hi,
        Nat.add_right_comm, Nat.add_assoc]

/-! ### Blocks -/

/-- A complete block adds the row of its step, which is the only one of its version. -/
theorem Ready.block {statements : List String} {k : Nat} (h : Ready t c n rows)
    (hv : s.version.toNat = n.toNat + 1)
    (hl : ∀ sql ∈ statements, Connection.TextAvoids t.text sql)
    (hp : Trail database mayFail c (block t (.inFlight s) statements (w.completedAt k)) c') :
    rows.any (hasVersion (.inFlight s)) = false ∧
      Ready t c' s.version (rows ++ [completedRow w k s]) := by
  obtain ⟨hfree, hw, -, -, -, hhas⟩ := block_adds h.isCreatable h.has rfl h.atVersion hl hp
  refine ⟨hfree, hw, h.isCreatable, hhas, ?_⟩
  rw [hv]
  exact h.atVersion.add _ hv

theorem Ready.blocks {k : Nat} {done : List (Step × List String)} (h : Ready t c n rows)
    (hv : done.map (·.1.version.toNat) = List.range' (n.toNat + 1) done.length)
    (hl : ∀ d ∈ done, ∀ sql ∈ d.2, Connection.TextAvoids t.text sql)
    (hp : Trail database mayFail c (blocks t w k done) c') :
    (∀ d ∈ done, rows.any (hasVersion (.inFlight d.1)) = false) ∧
      ∃ n', Ready t c' n' (rows ++ completedRows w k (done.map (·.1))) := by
  induction done generalizing c n rows k with
  | nil =>
    obtain rfl : c' = c := hp
    exact ⟨nofun, n, by simpa [completedRows] using h⟩
  | cons d rest ih =>
    obtain ⟨s, statements⟩ := d
    simp only [List.map_cons, List.length_cons, List.range'_succ, List.cons.injEq] at hv
    obtain ⟨hs, hrest⟩ := hv
    obtain ⟨c₁, hblock, htail⟩ := Trail.append_iff.mp hp
    obtain ⟨hfree, h₁⟩ := h.block hs (hl (s, statements) (by simp)) hblock
    obtain ⟨hlater, n', h'⟩ := ih h₁ (by rw [hrest, hs]) (fun d hd => hl d (by simp [hd])) htail
    refine ⟨?_, n', ?_⟩
    · rw [List.forall_mem_cons]
      refine ⟨hfree, fun d hd => ?_⟩
      have := hlater d hd
      rw [List.any_append, Bool.or_eq_false_iff] at this
      exact this.1
    · rw [List.append_assoc] at h'
      rw [List.map_cons, completedRows_cons]
      exact h'

/-! ### Runs -/

/-- What a run that succeeds makes of the control table. -/
theorem Ready.applySteps {steps : List Step} {report : Report} (h : Ready t c n rows)
    (hs : w.Harmless t steps)
    (hrun : (applySteps database t w ⟨[], 0, 0, n⟩ none steps).run c = (.ok report, c')) :
    let applied := steps.filter fun s => s.version ∈ report.applied
    applied.map (·.version) = report.applied ∧ report.applied.Nodup ∧
      (∀ s ∈ applied, rows.any (hasVersion (.inFlight s)) = false) ∧
      ∃ n', Ready t c' n' (rows ++ completedRows w 0 applied) := by
  intro applied
  obtain ⟨l, htrace, hcourse⟩ := applySteps_course database t w ⟨[], 0, 0, n⟩ none steps c
  rw [hrun] at htrace hcourse
  have hfilter := hcourse.filter_applied
  have hversions : report.applied = applied.map (·.version) := by
    rw [show applied = _ from hfilter]
    exact hcourse.applied_eq
  obtain ⟨passed, left, done, tail, rfl, -, rfl, hdone, hend⟩ := hcourse.bracketed
  cases hend with
  | complete hreport =>
    have happlied : applied = done.map (·.1) := by
      rw [hdone.steps, ← List.append_nil passed]
      exact hfilter
    rw [List.append_nil] at htrace hs
    have htrail : Trail database (fun _ => False) c (Migration.blocks t w 0 done) c' :=
      .of_trace htrace
    obtain ⟨hfree, hready⟩ := h.blocks hdone.versions
      (fun d hd => hs d.1 (List.mem_of_find?_eq_some (hdone.find? hd)) d.2
        (hdone.statements d hd)) htrail
    refine ⟨hversions.symm, ?_, ?_, by rwa [happlied]⟩
    · have hnodup : (done.map (·.1.version.toNat)).Nodup := by
        rw [hdone.versions]
        exact List.nodup_range'
      rw [hversions, happlied, List.map_map]
      exact List.Nodup.of_map UInt16.toNat (by simpa [Function.comp_def] using hnodup)
    · rw [happlied]
      simpa using hfree

/-- A run that succeeds leaves the rows of the control table as they were, and adds one row for
each step that it applies. The row tells the step as it is, and is the only one of its version.
The scripts may do anything but use the control table or end the transaction. -/
theorem apply_records (t : TableName) (c : Connection) (hw : c.working = none) (rows : List Row)
    (hc : Stores t c.committed rows) (w : Surroundings) (steps : List Step)
    (hs : w.Harmless t steps) (report : Report) (c' : Connection)
    (h : (apply database t w steps).run c = (.ok report, c')) :
    let applied := steps.filter fun s => s.version ∈ report.applied
    applied.map (·.version) = report.applied ∧ c'.working = none ∧
      ∃ added, Holds t c'.committed (rows ++ added) ∧ added.length = applied.length ∧
        ∀ (k : Nat) (s : Step), applied[k]? = some s → ∃ r, added[k]? = some r ∧
          Tells r s (w.completedAt k) ∧
          (rows ++ added).filter (hasVersion (.inFlight s)) = [r] := by
  intro applied
  obtain ⟨o, c₀, hopen, -, -, hready⟩ := openRun_of_stores hw hc
  cases o with
  | error e =>
    rw [apply_of_openRun_error hopen] at h
    cases h
  | ok n =>
    rw [apply_of_openRun hopen] at h
    obtain ⟨hversions, hnodup, hfree, n', hend⟩ := (hready n rfl).applySteps hs h
    refine ⟨hversions, hend.working, completedRows w 0 applied,
      holds_iff.mpr ⟨hend.isCreatable, hend.has⟩, List.length_mapIdx, fun k s hk => ?_⟩
    refine ⟨completedRow w k s, ?_, tells_completedRow w k s, ?_⟩
    · simp only [completedRows, List.getElem?_mapIdx, Nat.zero_add]
      rw [hk, Option.map_some]
    · have hnone : rows.filter (hasVersion (.inFlight s)) = [] := by
        rw [List.filter_eq_nil_iff]
        exact List.any_eq_false.mp (hfree s (List.mem_of_getElem? hk))
      have hmine := filter_completedRows (w := w) (k := 0) (hversions.symm ▸ hnodup) hk
      rw [List.filter_append, hnone, List.nil_append, hmine, Nat.zero_add]

/-- Two steps, the second of which has a quote in its description and in the name of its
script. -/
def quotedSteps : List Step := [⟨1, "table", "1_table.sql"⟩, ⟨2, "it's", "m/2_it's.sql"⟩]

/-- A database in which the first step was applied at some time. -/
def afterTable : Connection :=
  .start ⟨[table .standard [row ((Record.inFlight ⟨1, "table", "1_table.sql"⟩).complete 7)],
    ⟨"a", [⟨"x", "INTEGER", false, false, false⟩], [], "a (x INTEGER)"⟩]⟩

theorem apply_records_quoted_step :
    ∃ c', (apply database .standard smallFiles quotedSteps).run afterTable =
        (.ok ⟨[2], 1, 2, 2⟩, c') ∧
      ∃ r, Holds .standard c'.committed
          [row ((Record.inFlight ⟨1, "table", "1_table.sql"⟩).complete 7), r] ∧
        r.get 1 = .text "it's" ∧ r.get 2 = .text "2_it's.sql" ∧ r.get 3 = .integer 0 := by
  have hreport : ((apply database .standard smallFiles quotedSteps).run afterTable).1 =
      .ok ⟨[2], 1, 2, 2⟩ := by
    decide +kernel
  have hholds : Holds .standard afterTable.committed
      [row ((Record.inFlight ⟨1, "table", "1_table.sql"⟩).complete 7)] :=
    holds_iff.mpr ⟨isCreatable_standard, rfl⟩
  rcases hrun : (apply database .standard smallFiles quotedSteps).run afterTable with ⟨o, c'⟩
  obtain rfl : o = .ok ⟨[2], 1, 2, 2⟩ := by rw [← hreport, hrun]
  obtain ⟨-, -, added, hadded, hlength, htells⟩ := apply_records .standard afterTable rfl _
    (.inr hholds) smallFiles quotedSteps smallFiles_harmless _ c' hrun
  obtain ⟨r, hr, htell, -⟩ := htells 0 ⟨2, "it's", "m/2_it's.sql"⟩ (by decide)
  obtain rfl : added = [r] := by
    obtain ⟨u, rfl⟩ := List.length_eq_one_iff.mp (hlength.trans (by decide))
    simpa using hr
  exact ⟨c', rfl, r, hadded, htell.description, htell.file.trans (by decide),
    htell.created (by decide)⟩

end SipMigrate.Migration
