import SipMigrate.Migration.Discovery
import SipMigrate.Proofs.Files.Paths
import SipMigrate.Proofs.Migration.FileNames
import SipMigrate.Proofs.Migration.Foresight

/-! What is found in a directory: a step for each file whose name has something before the
ending of a script, in the order of the versions. All else in the directory does not
matter, nor does the order in which its entries are listed, but for steps of one
version; and those are never applied. -/

namespace SipMigrate.Migration

open Files Executor

variable {directory name : String} {entries listing : List Entry} {steps steps' : List Step}

/-! ### Files that are scripts -/

/-- A file whose name ends as a script's and is longer than the ending. -/
def IsScriptFile (e : Entry) : Prop :=
  e.isFile = true ∧ ".sql".toList <:+ e.name.toList ∧ 4 < e.name.length

instance : DecidablePred IsScriptFile := fun _ => inferInstanceAs (Decidable (_ ∧ _ ∧ _))

theorem isScript_iff : FileName.isScript name = true ↔
    ".sql".toList <:+ name.toList ∧ 4 < name.length := by
  have hending : FileName.ending = ".sql".toList := by simp [FileName.ending]
  rw [← String.length_toList, ← hending]
  unfold FileName.isScript
  cases hstem : FileName.stem? name.toList with
  | none =>
    refine iff_of_false Bool.false_ne_true ?_
    rintro ⟨⟨stem, hs⟩, -⟩
    rw [FileName.stem?_eq_some_iff.mpr hs.symm] at hstem
    cases hstem
  | some stem =>
    rw [FileName.stem?_eq_some_iff.mp hstem, List.length_append]
    have hlen : FileName.ending.length = 4 := rfl
    rw [hlen, Nat.lt_add_left_iff_pos, List.length_pos_iff]
    simp

theorem isStepEntry_iff {e : Entry} : isStepEntry e = true ↔ IsScriptFile e := by
  rw [isStepEntry, Bool.and_eq_true, isScript_iff, IsScriptFile]

theorem isScriptFile_of_spells {description : String} {v : Version}
    (h : FileName.Spells name v description) : IsScriptFile ⟨name, true⟩ := by
  obtain ⟨digits, rest, rfl, -⟩ := h
  refine ⟨rfl, ⟨(digits ++ "_" ++ rest).toList, by simp⟩, ?_⟩
  show 4 < (digits ++ "_" ++ rest ++ ".sql").length
  have hending : ".sql".length = 4 := by decide
  have hunderscore : "_".length = 1 := by decide
  simp only [String.length_append, hending, hunderscore]
  omega

theorem IsScriptFile.isName {e : Entry} (h : IsScriptFile e) (hs : '/' ∉ e.name.toList) :
    IsName e.name := by
  have hne (s : String) (hlen : s.length ≤ 4) : e.name ≠ s := by
    rintro rfl
    exact absurd h.2.2 (Nat.not_lt.mpr hlen)
  exact ⟨hne "" (by decide), hne "." (by decide), hne ".." (by decide), hs⟩

/-! ### Steps of files -/

theorem ofFile_eq_ok_iff {s : Step} :
    Step.ofFile directory name = .ok s ↔
      FileName.parse name = .ok (s.version, s.description) ∧ s.file = join directory name := by
  unfold Step.ofFile
  cases FileName.parse name with
  | error e => simp [bind, Except.bind]
  | ok r =>
    obtain ⟨v, description⟩ := r
    obtain ⟨version, text, file⟩ := s
    simp [bind, Except.bind, pure, Except.pure, and_assoc, eq_comm]

theorem ofFile_eq_error {e : MigrationError} (h : Step.ofFile directory name = .error e) :
    FileName.parse name = .error e ∧ e = .invalidFileName name := by
  unfold Step.ofFile at h
  rcases FileName.parse_cases name with ⟨⟨v, description⟩, hp⟩ | hp
  · rw [hp] at h
    cases h
  · rw [hp] at h
    cases h
    exact ⟨hp, rfl⟩

section MapM

variable {α β ε : Type} {f : α → Except ε β}

theorem mapM_eq_ok_iff {l : List α} {l' : List β} :
    l.mapM f = .ok l' ↔ List.Forall₂ (fun a b => f a = .ok b) l l' := by
  induction l generalizing l' with
  | nil => simp [pure, Except.pure, eq_comm]
  | cons a rest ih =>
    rw [List.mapM_cons]
    cases ha : f a with
    | error e =>
      constructor
      · nofun
      · rintro (_ | ⟨h, -⟩)
        rw [ha] at h
        cases h
    | ok b =>
      cases hr : rest.mapM f with
      | error e => cases l' <;> simp [bind, Except.bind, ← ih, ha, hr]
      | ok more => cases l' <;> simp [bind, Except.bind, pure, Except.pure, ← ih, ha, hr]

theorem mapM_eq_error {l : List α} {e : ε} (h : l.mapM f = .error e) : ∃ a ∈ l, f a = .error e := by
  induction l with
  | nil => cases h
  | cons a rest ih =>
    rw [List.mapM_cons] at h
    cases ha : f a with
    | error e' =>
      rw [ha] at h
      cases h
      exact ⟨a, List.mem_cons_self, ha⟩
    | ok b =>
      cases hr : rest.mapM f with
      | error e' =>
        rw [ha, hr] at h
        cases h
        obtain ⟨c, hc, hce⟩ := ih hr
        exact ⟨c, List.mem_cons_of_mem a hc, hce⟩
      | ok l' =>
        rw [ha, hr] at h
        cases h

end MapM

/-! ### The steps in order -/

/-- The scripts among the entries of a directory. -/
def scriptFiles (entries : List Entry) : List Entry := entries.filter IsScriptFile

theorem filter_isStepEntry (entries : List Entry) :
    entries.filter isStepEntry = scriptFiles entries :=
  List.filter_congr fun _ _ => by simp [← isStepEntry_iff]

theorem ascending_mergeSort (l : List Step) :
    (l.mergeSort fun a b => a.version ≤ b.version).Pairwise (·.version ≤ ·.version) := by
  have h : (l.mergeSort fun a b => a.version ≤ b.version).Pairwise
      fun a b => decide (a.version ≤ b.version) = true := by
    refine List.pairwise_mergeSort ?_ ?_ l
    · intro a b c hab hbc
      exact decide_eq_true (UInt16.le_trans (of_decide_eq_true hab) (of_decide_eq_true hbc))
    · intro a b
      simpa using UInt16.le_total a.version b.version
  simpa using h

theorem stepsOfEntries_eq (directory : String) (entries : List Entry) :
    stepsOfEntries directory entries =
      ((scriptFiles entries).mapM fun e => Step.ofFile directory e.name).map
        fun l => l.mergeSort fun a b => a.version ≤ b.version := by
  rw [stepsOfEntries, filter_isStepEntry]
  cases (scriptFiles entries).mapM fun e => Step.ofFile directory e.name <;> rfl

theorem stepsOfEntries_eq_ok_iff :
    stepsOfEntries directory entries = .ok steps ↔
      ∃ l, List.Forall₂ (fun e s => Step.ofFile directory e.name = .ok s) (scriptFiles entries) l ∧
        steps = l.mergeSort fun a b => a.version ≤ b.version := by
  rw [stepsOfEntries_eq]
  simp only [← mapM_eq_ok_iff]
  cases (scriptFiles entries).mapM fun e => Step.ofFile directory e.name with
  | error e => simp [Except.map]
  | ok l => simp [Except.map, eq_comm]

theorem ascending_of_eq_ok (h : stepsOfEntries directory entries = .ok steps) :
    steps.Pairwise (·.version ≤ ·.version) := by
  obtain ⟨l, -, rfl⟩ := stepsOfEntries_eq_ok_iff.mp h
  exact ascending_mergeSort l

/-- A failure names a script whose name cannot be read. -/
theorem stepsOfEntries_eq_error {e : MigrationError}
    (h : stepsOfEntries directory entries = .error e) :
    ∃ f ∈ scriptFiles entries, FileName.parse f.name = .error e ∧ e = .invalidFileName f.name := by
  rw [stepsOfEntries_eq] at h
  cases hm : (scriptFiles entries).mapM fun f => Step.ofFile directory f.name with
  | ok l =>
    rw [hm] at h
    cases h
  | error e' =>
    rw [hm] at h
    obtain rfl := Except.error.inj h
    obtain ⟨f, hf, hfile⟩ := mapM_eq_error hm
    exact ⟨f, hf, ofFile_eq_error hfile⟩

/-- The steps of the scripts among some entries, each once and in the order of the versions. -/
structure Finds (directory : String) (entries : List Entry) (steps : List Step) : Prop where
  names : (steps.map (·.fileName)).Perm ((scriptFiles entries).map (·.name))
  parsed : ∀ s ∈ steps, FileName.parse s.fileName = .ok (s.version, s.description) ∧
    s.file = join directory s.fileName
  ascending : steps.Pairwise (·.version ≤ ·.version)

/-- A step is recorded under the name of its file. -/
theorem steps_of_files {files : List Entry} (hn : ∀ e ∈ files, IsName e.name)
    (h : List.Forall₂ (fun e s => Step.ofFile directory e.name = .ok s) files steps) :
    steps.map (·.fileName) = files.map (·.name) ∧
      ∀ s ∈ steps, FileName.parse s.fileName = .ok (s.version, s.description) ∧
        s.file = join directory s.fileName := by
  induction h with
  | nil => simp
  | @cons e s files steps hs _ ih =>
    obtain ⟨hparse, hfile⟩ := ofFile_eq_ok_iff.mp hs
    obtain ⟨hnames, hparsed⟩ := ih fun f hf => hn f (List.mem_cons_of_mem e hf)
    have hname : s.fileName = e.name := by
      rw [Step.fileName, hfile, fileName?_join (hn e List.mem_cons_self)]
      rfl
    refine ⟨by rw [List.map_cons, List.map_cons, hname, hnames], ?_⟩
    intro u hu
    rcases List.mem_cons.mp hu with rfl | hu
    · rw [hname]
      exact ⟨hparse, hfile⟩
    · exact hparsed u hu

theorem finds_of_eq_ok (hn : ∀ e ∈ entries, '/' ∉ e.name.toList)
    (h : stepsOfEntries directory entries = .ok steps) : Finds directory entries steps := by
  obtain ⟨l, hl, rfl⟩ := stepsOfEntries_eq_ok_iff.mp h
  have hperm : (l.mergeSort fun a b => a.version ≤ b.version).Perm l := List.mergeSort_perm _ _
  have hnames : ∀ e ∈ scriptFiles entries, IsName e.name := by
    intro e he
    obtain ⟨hmem, hscript⟩ := List.mem_filter.mp he
    exact (of_decide_eq_true hscript).isName (hn e hmem)
  obtain ⟨hl, hparsed⟩ := steps_of_files hnames hl
  exact ⟨hl ▸ hperm.map _, fun s hs => hparsed s (hperm.mem_iff.mp hs), ascending_mergeSort l⟩

theorem exists_steps_iff :
    (∃ steps, stepsOfEntries directory entries = .ok steps) ↔
      ∀ e ∈ entries, IsScriptFile e → ∃ r, FileName.parse e.name = .ok r := by
  constructor
  · rintro ⟨steps, h⟩ e he hscript
    obtain ⟨l, hl, -⟩ := stepsOfEntries_eq_ok_iff.mp h
    have hparsed : ∀ f ∈ scriptFiles entries, ∃ r, FileName.parse f.name = .ok r :=
      ((List.forall₂_and_left _ _).mp
        (hl.imp fun f s hs => ⟨⟨_, (ofFile_eq_ok_iff.mp hs).1⟩, hs⟩)).1
    exact hparsed e (List.mem_filter.mpr ⟨he, decide_eq_true hscript⟩)
  · intro h
    cases hsteps : stepsOfEntries directory entries with
    | ok steps => exact ⟨steps, rfl⟩
    | error e =>
      obtain ⟨f, hf, hparse, -⟩ := stepsOfEntries_eq_error hsteps
      obtain ⟨hmem, hscript⟩ := List.mem_filter.mp hf
      obtain ⟨r, hr⟩ := h f hmem (of_decide_eq_true hscript)
      rw [hparse] at hr
      cases hr

/-! ### Other orders of the entries -/

/-- The same steps, with the same versions in the same places: at most steps of one version
have changed places. -/
def SameButTies (steps steps' : List Step) : Prop :=
  steps.map (·.version) = steps'.map (·.version) ∧
    ∀ v, (steps.filter (·.version = v)).Perm (steps'.filter (·.version = v))

theorem sameButTies_of_perm (h : steps.Perm steps')
    (hs : steps.Pairwise (·.version ≤ ·.version)) (hs' : steps'.Pairwise (·.version ≤ ·.version)) :
    SameButTies steps steps' := by
  refine ⟨?_, fun v => h.filter _⟩
  have hmap : (steps.map (·.version)).Pairwise (· ≤ ·) := List.pairwise_map.mpr hs
  have hmap' : (steps'.map (·.version)).Pairwise (· ≤ ·) := List.pairwise_map.mpr hs'
  exact (h.map _).eq_of_pairwise (fun a b _ _ hab hba => UInt16.le_antisymm hab hba) hmap hmap'

theorem stepsOfEntries_perm (h : entries.Perm listing)
    (hs : stepsOfEntries directory entries = .ok steps) :
    ∃ steps', stepsOfEntries directory listing = .ok steps' ∧ steps.Perm steps' := by
  obtain ⟨l, hl, rfl⟩ := stepsOfEntries_eq_ok_iff.mp hs
  have hfiles : (scriptFiles listing).Perm (scriptFiles entries) := (h.filter _).symm
  obtain ⟨l', hl', hperm⟩ := List.perm_comp_forall₂ hfiles hl
  refine ⟨_, stepsOfEntries_eq_ok_iff.mpr ⟨l', hl', rfl⟩, ?_⟩
  calc (l.mergeSort fun a b => a.version ≤ b.version).Perm l := List.mergeSort_perm _ _
    _ |>.Perm l' := hperm.symm
    _ |>.Perm _ := (List.mergeSort_perm _ _).symm

/-- Where each version is there once, the order is settled. -/
theorem eq_mergeSort_of_perm (h : steps.Perm steps')
    (hs : steps.Pairwise (·.version ≤ ·.version)) (hd : (steps'.map (·.version)).Nodup) :
    steps = steps'.mergeSort fun a b => a.version ≤ b.version := by
  have hsorted : (steps'.mergeSort fun a b => a.version ≤ b.version).Perm steps' :=
    List.mergeSort_perm _ _
  refine (h.trans hsorted.symm).eq_of_pairwise ?_ hs (ascending_mergeSort steps')
  intro a b ha hb hab hba
  exact List.inj_on_of_nodup_map hd (h.mem_iff.mp ha) (hsorted.mem_iff.mp hb)
    (UInt16.le_antisymm hab hba)

/-! ### Steps of one version -/

section Apply

variable {t : TableName} {w : Surroundings} {r report : Report} {p : Option Version}
  {l : List Event}

/-- The versions of the steps of a run with a report ascend. -/
theorem Course.ascends {o : Except MigrationError Report} (h : Course t w r p steps l o)
    (ho : o = .ok report) :
    (∀ q ∈ p, ∀ s ∈ steps, q < s.version) ∧ steps.Pairwise (·.version < ·.version) := by
  induction h with
  | done r p => simp
  | refused | stopped => cases ho
  | skipped hd _ ih | applied hd _ _ ih =>
    obtain ⟨hp, hpair⟩ := ih ho
    exact ⟨ascends_cons hd hp, List.pairwise_cons.mpr ⟨hp _ rfl, hpair⟩⟩

theorem apply_ok_ascends {σ : Type} {x : Executor σ} {s s' : σ}
    (h : (apply x t w steps).run s = (.ok report, s')) :
    steps.Pairwise (·.version < ·.version) := by
  rcases ho : (openRun x t).run s with ⟨e | v, s₁⟩
  · rw [apply_of_openRun_error ho] at h
    cases h
  · rw [apply_of_openRun ho] at h
    obtain ⟨l, hl⟩ := applySteps_course_of_ok h
    exact (hl.ascends rfl).2

end Apply

/-! ### What is discovered -/

/-- Steps are discovered precisely if the names of all scripts can be read, and then one for
each script, in the order of the versions. Another order of the entries exchanges at most
steps of one version, and where two steps have one version, no run with them succeeds.
Nothing but the scripts matters. Names are texts here: of entries whose names are no UTF-8
nothing is said. -/
theorem discover_exact (directory : String) (entries : List Entry)
    (hn : ∀ e ∈ entries, '/' ∉ e.name.toList) :
    ((∃ steps, discover directory (.ok entries) = .ok steps) ↔
      ∀ e ∈ entries, IsScriptFile e → ∃ r, FileName.parse e.name = .ok r) ∧
    (∀ steps, discover directory (.ok entries) = .ok steps →
      Finds directory entries steps ∧
      (∀ listing, entries.Perm listing →
        ∃ steps', discover directory (.ok listing) = .ok steps' ∧ SameButTies steps steps') ∧
      (¬(steps.map (·.version)).Nodup → ∀ {σ : Type} (x : Executor σ) t w s report,
        ((apply x t w steps).run s).1 ≠ .ok report)) ∧
    ∀ others, scriptFiles others = scriptFiles entries →
      discover directory (.ok others) = discover directory (.ok entries) := by
  refine ⟨exists_steps_iff, fun steps hs => ⟨finds_of_eq_ok hn hs, ?_, ?_⟩, ?_⟩
  · intro listing h
    obtain ⟨steps', hs', hperm⟩ := stepsOfEntries_perm h hs
    exact ⟨steps', hs',
      sameButTies_of_perm hperm (ascending_of_eq_ok hs) (ascending_of_eq_ok hs')⟩
  · intro hdup σ x t w s report h
    have hrun : (apply x t w steps).run s = (.ok report, ((apply x t w steps).run s).2) :=
      Prod.ext h rfl
    exact hdup (List.pairwise_map.mpr
      ((apply_ok_ascends hrun).imp fun hlt => UInt16.ne_of_lt hlt))
  · intro others h
    simp only [discover, stepsOfEntries_eq, h]

/-- Two scripts of version 1, among entries that are no scripts. -/
def doubled : List Entry :=
  [⟨"1_first.sql", true⟩, ⟨".sql", true⟩, ⟨"2_no_file.sql", false⟩, ⟨"notes.txt", true⟩,
    ⟨"001_.again.sql", true⟩]

theorem discover_exact_doubled :
    (∀ e ∈ doubled, '/' ∉ e.name.toList) ∧
    ∃ steps, discover "m" (.ok doubled) = .ok steps ∧
      steps.map (·.fileName) = ["1_first.sql", "001_.again.sql"] ∧
      ¬(steps.map (·.version)).Nodup ∧
      ∀ {σ : Type} (x : Executor σ) t w s report, ((apply x t w steps).run s).1 ≠ .ok report := by
  have hn : ∀ e ∈ doubled, '/' ∉ e.name.toList := by decide
  have hsteps : discover "m" (.ok doubled) =
      .ok [⟨1, "first", "m/1_first.sql"⟩, ⟨1, ".again", "m/001_.again.sql"⟩] :=
    congrArg Except.ok (List.mergeSort_of_pairwise (by decide))
  have hdup : ¬(List.map Step.version
      [⟨1, "first", "m/1_first.sql"⟩, ⟨1, ".again", "m/001_.again.sql"⟩]).Nodup := by decide
  refine ⟨hn, _, hsteps, by decide, hdup, ?_⟩
  exact ((discover_exact "m" doubled hn).2.1 _ hsteps).2.2 hdup

end SipMigrate.Migration
