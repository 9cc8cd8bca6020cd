import SipMigrate.Fixture.StepDirectory
import SipMigrate.Proofs.Files.Places
import SipMigrate.Proofs.Migration.Discovery

/-! A directory that is filled step by step. The name that is written for a step is read
as the version and the description of the step, so that the directory, listed in any
order, is discovered as its steps. -/

namespace SipMigrate.Fixture

open Files Migration

namespace StepDirectory

variable {d : StepDirectory} {v : Version} {name sql path : String}

@[simp] theorem start_path : (start path).path = path := rfl

@[simp] theorem add_path : (d.add v name sql).path = d.path := by simp only [add]

/-- The step of a script that is added. -/
def added (d : StepDirectory) (version : Version) (name : String) : Step :=
  ⟨version, String.ofList (FileName.spaced name.toList), d.scriptPath version name⟩

@[simp] theorem add_steps : (d.add v name sql).steps = d.steps ++ [d.added v name] := rfl

/-! ### The names of scripts -/

theorem scriptName_spells (hv : 1 ≤ v) (hn : name ≠ "") :
    FileName.Spells (scriptName v name) v (String.ofList (FileName.spaced name.toList)) := by
  refine ⟨.ofList ((Nat.toDigits 10 v.toNat).leftpad 3 '0'), name, rfl, ?_, ?_, ?_,
    UInt16.le_iff_toNat_le.mp hv, hn, ?_⟩
  · have := Nat.toDigits_ne_nil (n := v.toNat) (b := 10)
    simp [List.leftpad, this]
  · intro c hc
    rw [String.toList_ofList, List.leftpad, List.mem_append] at hc
    rcases hc with hc | hc
    · rw [List.eq_of_mem_replicate hc]
      decide
    · exact FileName.isDigit_iff_le.mp (Nat.isDigit_of_mem_toDigits (by decide) (by decide) hc)
  · -- zeros in front do not change the value
    rw [String.toList_ofList, List.leftpad, Nat.ofDigitChars_append,
      Nat.ofDigitChars_replicate_zero, Nat.mul_zero, Nat.ofDigitChars_ten_toDigits]
  · rw [← String.toList_inj]
    simp [FileName.spaced]

theorem parse_scriptName (hv : 1 ≤ v) (hn : name ≠ "") :
    FileName.parse (scriptName v name) =
      .ok (v, String.ofList (FileName.spaced name.toList)) :=
  FileName.parse_eq_ok_iff.mpr (scriptName_spells hv hn)

theorem slash_notMem_scriptName (hs : '/' ∉ name.toList) : '/' ∉ (scriptName v name).toList := by
  have hdigits : '/' ∉ Nat.toDigits 10 v.toNat := fun h =>
    absurd (Nat.isDigit_of_mem_toDigits (by decide) (by decide) h) (by decide)
  simp [scriptName, hdigits, hs]

/-! ### Scripts that are written -/

/-- A directory in which there are the scripts of its steps and nothing else. -/
structure Holds (d : StepDirectory) : Prop where
  leads : d.files.place d.path = .ok (Tree.plainPlace d.path)
  directory : d.files.node? (Tree.plainPlace d.path) = some .directory
  stands : ∀ k, (d.files.node? ((Tree.plainPlace d.path).take k)).isSome
  written : d.files.written (Tree.plainPlace d.path) = d.steps.map fun s => ⟨s.fileName, true⟩
  scripts : ∀ s ∈ d.steps, IsScriptFile ⟨s.fileName, true⟩ ∧
    Step.ofFile d.path s.fileName = .ok s

theorem holds_start (h : (start path).files.place path = .ok (Tree.plainPlace path)) :
    Holds (start path) where
  leads := h
  directory := Tree.node?_set_directory
  stands := Tree.put_stands _ _
  written := Tree.written_put_empty
  scripts _ hs := nomatch hs

section Add

variable (hv : 1 ≤ v) (hn : name ≠ "") (hs : '/' ∉ name.toList)

include hv hn

theorem isScriptFile_scriptName : IsScriptFile ⟨scriptName v name, true⟩ :=
  isScriptFile_of_spells (scriptName_spells hv hn)

theorem ofFile_scriptName :
    Step.ofFile d.path (scriptName v name) = .ok (d.added v name) :=
  ofFile_eq_ok_iff.mpr ⟨parse_scriptName hv hn, rfl⟩

/-- Another script of this name would be of this version. -/
theorem Holds.ne_scriptName (h : Holds d) (hnew : v ∉ d.steps.map (·.version)) :
    ∀ e ∈ d.files.written (Tree.plainPlace d.path), e.name ≠ scriptName v name := by
  intro e he heq
  rw [h.written] at he
  obtain ⟨s, hmem, rfl⟩ := List.mem_map.mp he
  have hread := (h.scripts s hmem).2
  rw [show s.fileName = scriptName v name from heq, ofFile_scriptName hv hn] at hread
  obtain rfl := Except.ok.inj hread
  exact hnew (List.mem_map_of_mem hmem)

include hs

theorem isName_scriptName : IsName (scriptName v name) :=
  (isScriptFile_scriptName hv hn).isName (slash_notMem_scriptName hs)

theorem fileName_added : (d.added v name).fileName = scriptName v name := by
  rw [Step.fileName, added, scriptPath, fileName?_join (isName_scriptName hv hn hs)]
  rfl

/-- A step is added whose version is new. -/
theorem Holds.add (h : Holds d) (hnew : v ∉ d.steps.map (·.version)) (sql : String) :
    Holds (d.add v name sql) := by
  have hname := isName_scriptName hv hn hs
  have hpath : d.path ≠ "" := by
    intro hempty
    have := h.leads
    rw [hempty] at this
    cases this
  have hplace : Tree.plainPlace (d.scriptPath v name) =
      Tree.plainPlace d.path ++ [scriptName v name] := Tree.plainPlace_join hpath hname
  have hfresh := h.ne_scriptName hv hn hnew
  have hmissing := Tree.node?_of_not_written hfresh (by
    intro hslash
    exact hname.slash_notMem (by rw [hslash]; decide))
  have hfiles : (d.add v name sql).files =
      d.files.set (Tree.plainPlace d.path ++ [scriptName v name]) (.file (.ofText sql)) := by
    show d.files.put (Tree.plainPlace (d.scriptPath v name)) _ = _
    rw [hplace, Tree.put, List.dropLast_concat, Tree.makeDirectories_of_stands h.stands]
  have hkept {r : Place} {n : Node Content} (hr : d.files.node? r = some n) :
      (d.add v name sql).files.node? r = some n := by
    rw [hfiles]
    exact Tree.node?_set_of_some hmissing hr
  constructor
  case leads =>
    rw [add_path]
    exact Tree.place_of_directories (fun r hr => hkept hr) h.leads
  case directory =>
    rw [add_path]
    exact hkept h.directory
  case stands =>
    intro k
    obtain ⟨n, hk⟩ := Option.isSome_iff_exists.mp (h.stands k)
    rw [add_path, hkept hk]
    rfl
  case written =>
    rw [hfiles, add_path, Tree.written_set hfresh, h.written, add_steps, List.map_append,
      List.map_singleton, fileName_added hv hn hs]
    rfl
  case scripts =>
    intro s hmem
    rw [add_steps, List.mem_append, List.mem_singleton] at hmem
    rw [add_path]
    rcases hmem with hmem | rfl
    · exact h.scripts s hmem
    · rw [fileName_added hv hn hs]
      exact ⟨isScriptFile_scriptName hv hn, ofFile_scriptName hv hn⟩

end Add

/-- A script to be written. -/
structure Addition where
  version : Version
  name : String
  sql : String

/-- A version that a script may have, and a name in a directory. -/
structure Addition.IsPlain (a : Addition) : Prop where
  one_le : 1 ≤ a.version
  name_ne : a.name ≠ ""
  slash_notMem : '/' ∉ a.name.toList

def addAll (d : StepDirectory) (l : List Addition) : StepDirectory :=
  l.foldl (fun d a => d.add a.version a.name a.sql) d

variable {l : List Addition}

theorem addAll_cons (a : Addition) :
    d.addAll (a :: l) = (d.add a.version a.name a.sql).addAll l := by
  rw [addAll, addAll, List.foldl_cons]

@[simp] theorem addAll_path : (d.addAll l).path = d.path := by
  induction l generalizing d with
  | nil => rfl
  | cons a rest ih => rw [addAll_cons, ih, add_path]

theorem addAll_versions :
    (d.addAll l).steps.map (·.version) = d.steps.map (·.version) ++ l.map (·.version) := by
  induction l generalizing d with
  | nil => simp [addAll]
  | cons a rest ih =>
    rw [addAll_cons, ih, add_steps]
    simp [added]

theorem Holds.addAll (h : Holds d) (hl : ∀ a ∈ l, a.IsPlain)
    (hd : (d.steps.map (·.version) ++ l.map (·.version)).Nodup) : Holds (d.addAll l) := by
  induction l generalizing d with
  | nil => exact h
  | cons a rest ih =>
    obtain ⟨hv, hn, hs⟩ := hl a List.mem_cons_self
    have hnew : a.version ∉ d.steps.map (·.version) := fun hmem =>
      (List.nodup_append.mp hd).2.2 _ hmem _ List.mem_cons_self rfl
    rw [addAll_cons]
    refine ih (h.add hv hn hs hnew a.sql) (fun b hb => hl b (List.mem_cons_of_mem a hb)) ?_
    rw [add_steps]
    simpa [added] using hd

/-- The steps of a directory are found in it, however it is listed. -/
theorem Holds.discover (h : Holds d) (hd : (d.steps.map (·.version)).Nodup) :
    ∃ listing, d.files.readDirectory d.path = .ok listing ∧ ∀ entries, entries.Perm listing →
      discover d.path (.ok entries) = .ok (d.steps.mergeSort fun a b => a.version ≤ b.version) := by
  have hlisting : d.files.readDirectory d.path =
      .ok (d.files.children (Tree.plainPlace d.path)) := by
    simp only [Tree.readDirectory, h.leads, bind, Except.bind, h.directory]
  have hsteps : stepsOfEntries d.path (d.files.written (Tree.plainPlace d.path)) =
      .ok (d.steps.mergeSort fun a b => a.version ≤ b.version) := by
    refine stepsOfEntries_eq_ok_iff.mpr ⟨d.steps, ?_, rfl⟩
    have hall : scriptFiles (d.steps.map fun s => ⟨s.fileName, true⟩) =
        d.steps.map fun s => ⟨s.fileName, true⟩ := by
      refine List.filter_eq_self.mpr fun e he => ?_
      obtain ⟨s, hs, rfl⟩ := List.mem_map.mp he
      exact decide_eq_true (h.scripts s hs).1
    rw [h.written, hall, List.forall₂_map_left_iff, List.forall₂_same]
    exact fun s hs => (h.scripts s hs).2
  refine ⟨_, hlisting, fun entries hentries => ?_⟩
  have hperm := (hentries.trans (Tree.children_perm _ _)).symm
  obtain ⟨steps', hsteps', hsame⟩ := stepsOfEntries_perm hperm hsteps
  show stepsOfEntries d.path entries = _
  rw [hsteps', eq_mergeSort_of_perm (hsame.symm.trans (List.mergeSort_perm _ _))
    (ascending_of_eq_ok hsteps') hd]

/-- A name is read precisely if it spells a version and a description, and told as it is
if it does not. The name that is written for a step is read as its version and its
description; so a directory that is filled with steps of different versions is discovered
as its steps in the order of the versions, in whatever order its entries are listed. Names
are texts here: of names that are no UTF-8 nothing is said. -/
theorem scripts_read_back :
    (∀ name,
      (∀ v description, FileName.parse name = .ok (v, description) ↔
        FileName.Spells name v description) ∧
      ((∀ v description, ¬FileName.Spells name v description) →
        FileName.parse name = .error (.invalidFileName name))) ∧
    (∀ (d : StepDirectory) v name sql, 1 ≤ v → name ≠ "" →
      ∃ s, (d.add v name sql).steps = d.steps ++ [s] ∧
        s.file = join d.path (scriptName v name) ∧ s.version = v ∧
        FileName.parse (scriptName v name) = .ok (s.version, s.description)) ∧
    ∀ path additions, (start path).files.place path = .ok (Tree.plainPlace path) →
      (∀ a ∈ additions, a.IsPlain) → (additions.map (·.version)).Nodup →
      ∃ listing, ((start path).addAll additions).files.readDirectory path = .ok listing ∧
        ∀ entries, entries.Perm listing → discover path (.ok entries) =
          .ok (((start path).addAll additions).steps.mergeSort
            fun a b => a.version ≤ b.version) := by
  refine ⟨fun name => ⟨fun v description => FileName.parse_eq_ok_iff,
    FileName.parse_eq_error_iff.mpr⟩, ?_, ?_⟩
  · intro d v name sql hv hn
    exact ⟨d.added v name, rfl, rfl, rfl, parse_scriptName hv hn⟩
  · intro path additions hpath hplain hdistinct
    have hholds : Holds ((start path).addAll additions) :=
      (holds_start hpath).addAll hplain hdistinct
    have hversions : (((start path).addAll additions).steps.map (·.version)).Nodup := by
      rw [addAll_versions]
      exact hdistinct
    simpa using hholds.discover hversions

/-- Two scripts, the second one first. -/
def reversed : List Addition := [⟨2, "more_rows", "INSERT"⟩, ⟨1, "rows", "CREATE"⟩]

theorem scripts_read_back_reversed :
    ∃ listing, ((start "/tmp/m").addAll reversed).files.readDirectory "/tmp/m" = .ok listing ∧
      ∀ entries, entries.Perm listing → discover "/tmp/m" (.ok entries) =
        .ok [⟨1, "rows", "/tmp/m/001_rows.sql"⟩, ⟨2, "more rows", "/tmp/m/002_more_rows.sql"⟩] := by
  have hplain : ∀ a ∈ reversed, a.IsPlain := by
    intro a ha
    rcases List.mem_pair.mp ha with rfl | rfl
    · exact ⟨by decide, by decide, by decide⟩
    · exact ⟨by decide, by decide, by decide⟩
  obtain ⟨listing, hlisting, hfound⟩ :=
    scripts_read_back.2.2 "/tmp/m" reversed (by rfl) hplain (by decide)
  refine ⟨listing, hlisting, fun entries h => (hfound entries h).trans (congrArg Except.ok ?_)⟩
  exact (eq_mergeSort_of_perm (.swap _ _ []) (by decide) (by decide)).symm

end StepDirectory

end SipMigrate.Fixture
