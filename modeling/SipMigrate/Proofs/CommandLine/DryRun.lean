import SipMigrate.CommandLine.Run
import SipMigrate.Proofs.Migration.Foresight

/-! A dry run before a run. It looks at the control table and lists the steps that
stand above the current version. -/

namespace SipMigrate.CommandLine

open Sql Executor Migration

/-- An open database answers a computation as its connection does. -/
theorem OpenDatabase.ask_fst {α : Type} {o : OpenDatabase} {c : Connection}
    (h : o.handle = .sound c) (f : {σ : Type} → Executor σ → Run σ α) :
    (o.ask f).1 = ((f database).run c).1 := by
  unfold ask
  rw [h]
  dsimp only
  rcases (f database).run c with ⟨r, after⟩
  cases o.place with
  | none => rfl
  | some p =>
    dsimp only
    split <;> rfl

theorem ofString_text (t : TableName) : TableName.ofString t.text = .ok t :=
  dif_pos t.isTableName_text

/-- Where a run succeeds, a look at the control table just before tells which steps it
applies and from which version on, precisely if the table has the exact name that is
looked for, or there is no such table, or nothing in it. With it the dry run in a file
lists the steps that the run with the same arguments applies. Of databases with views in
them, which a look passes over and a query does not, nothing is said. -/
theorem dryRun_foretells (t : TableName) (c : Connection) (hw : c.working = none)
    (w : Surroundings) (steps : List Step) (report : Report) (c' : Connection)
    (h : (apply database t w steps).run c = (.ok report, c')) :
    (Foretold t c steps report ↔ Reveals t c.committed report) ∧
    ∀ (world : World) (path directory : String) (o : OpenDatabase),
      world.files.hasPath path = true → openDatabase world path = .ok o →
      o.handle = .sound c → world.surroundings = w → world.steps directory = .ok steps →
      (runMigrations world path directory t.text false).output =
        .ok (unlines (reportLines report)) ∧
      (Reveals t c.committed report →
        (runMigrations world path directory t.text true).output =
          .ok (unlines (dryRunLines (steps.filter fun s => s.version ∈ report.applied)))) := by
  have hiff := foretold_iff hw h
  refine ⟨hiff, ?_⟩
  rintro world path directory o hpath hopen hsound rfl hsteps
  constructor
  · have hrun : (o.ask fun x => apply x t world.surroundings steps).1 = .ok report := by
      rw [o.ask_fst hsound, h]
    simp only [runMigrations, ofString_text, hsteps, Bool.false_eq_true, if_false, applyTo,
      askDatabase, hopen, hrun]
    rfl
  · intro hr
    have hlook : (o.ask fun x => pending x t steps).1 =
        .ok (steps.filter fun s => s.version ∈ report.applied) := by
      rw [o.ask_fst hsound, (hiff.mpr hr).pending]
    simp only [runMigrations, ofString_text, hsteps, if_true, dryRun, hpath, askDatabase, hopen,
      hlook]
    rfl

open ControlTable in
/-- A database in which the first of two steps was applied. -/
def halfway : Connection :=
  .start ⟨[table .standard [row ((Record.inFlight ⟨1, "table", "1_table.sql"⟩).complete 0)],
    ⟨"a", [⟨"x", "INTEGER", false, false, false⟩], [], "a (x INTEGER)"⟩]⟩

/-- The database in a file, beside the directory of both steps. -/
def halfwayWorld : World where
  files := ⟨[(["m"], .directory),
    (["m", "1_table.sql"], .file (.ofText "CREATE TABLE a (x INTEGER);\n")),
    (["m", "2_rows.sql"], .file (.ofText "INSERT INTO a VALUES (1);\n")),
    (["app.db"], .file (.database halfway.committed))]⟩
  completedAt _ := 0
  freshKey := ⟨List.replicate Hash.keySize 0, by decide⟩
  recover _ := .discard

def halfwaySteps : List Step :=
  [⟨1, "table", "m/1_table.sql"⟩, ⟨2, "rows", "m/2_rows.sql"⟩]

theorem steps_halfwayWorld : halfwayWorld.steps "m" = .ok halfwaySteps := by
  have hlisting : halfwayWorld.files.readDirectory "m" =
      .ok [⟨"1_table.sql", true⟩, ⟨"2_rows.sql", true⟩] :=
    congrArg Except.ok (List.mergeSort_of_pairwise (by decide))
  rw [World.steps, hlisting]
  exact congrArg Except.ok (List.mergeSort_of_pairwise (by decide))

/-- The second step is foretold, and a dry run lists it. -/
theorem dryRun_foretells_second_step :
    Foretold .standard halfway halfwaySteps ⟨[2], 1, 1, 2⟩ ∧
      (runMigrations halfwayWorld "app.db" "m" "schema_version" false).output =
        .ok (unlines (reportLines ⟨[2], 1, 1, 2⟩)) ∧
      (runMigrations halfwayWorld "app.db" "m" "schema_version" true).output =
        .ok (unlines (dryRunLines [⟨2, "rows", "m/2_rows.sql"⟩])) := by
  have hreport : ((apply database .standard halfwayWorld.surroundings halfwaySteps).run
      halfway).1 = .ok ⟨[2], 1, 1, 2⟩ := by
    decide +kernel
  have hreveals : Reveals .standard halfway.committed ⟨[2], 1, 1, 2⟩ := .inl (by decide)
  rcases hrun : (apply database .standard halfwayWorld.surroundings halfwaySteps).run halfway
    with ⟨o, c'⟩
  obtain rfl : o = .ok ⟨[2], 1, 1, 2⟩ := by rw [← hreport, hrun]
  obtain ⟨hiff, hfile⟩ := dryRun_foretells .standard halfway rfl halfwayWorld.surroundings
    halfwaySteps _ c' hrun
  obtain ⟨hwet, hdry⟩ := hfile halfwayWorld "app.db" "m"
    ⟨.sound halfway, some ["app.db"], halfwayWorld.files⟩ (by decide +kernel) rfl rfl rfl
    steps_halfwayWorld
  exact ⟨hiff.mpr hreveals, hwet, hdry hreveals⟩

/-- The name of the control table in capitals means the same table. -/
def capitals : TableName := ⟨"SCHEMA_VERSION", by decide⟩

/-- Under another spelling of the name a run goes on from the control table that is
there, but a look finds no table. -/
theorem not_foretold_of_capitals :
    ((apply database capitals smallFiles (smallSteps.take 1)).run halfway).1 =
        .ok ⟨[], 1, 0, 1⟩ ∧
      ((pending database capitals (smallSteps.take 1)).run halfway).1 =
        .ok (smallSteps.take 1) ∧
      ((status database capitals).run halfway).1 = .ok ⟨0, none, 0⟩ ∧
      ¬Foretold capitals halfway (smallSteps.take 1) ⟨[], 1, 0, 1⟩ := by
  have hstatus : (status database capitals).run halfway = (.ok ⟨0, none, 0⟩, halfway) :=
    status_of_not_hasTable rfl (by decide)
  refine ⟨by decide +kernel, ?_, by rw [hstatus], fun h => ?_⟩
  · rw [pending, Run.run_bind_of_ok hstatus]
    rfl
  · obtain ⟨s, hs, hversion⟩ := h.status
    rw [hs, Prod.mk.injEq, Except.ok.injEq] at hstatus
    obtain ⟨rfl, -⟩ := hstatus
    exact absurd hversion (by decide)

end SipMigrate.CommandLine
