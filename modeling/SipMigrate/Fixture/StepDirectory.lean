import SipMigrate.Files.Content
import SipMigrate.Migration.Step

/-! What tests are made with: a directory of scripts that is filled step by step, and how much
work a randomized test may do. -/

namespace SipMigrate.Fixture

open Files Migration

structure StepDirectory where
  /-- The path of the directory. -/
  path : String
  files : FileTree
  /-- The steps in the order in which they were added. -/
  steps : List Step

namespace StepDirectory

def start (path : String) : StepDirectory :=
  ⟨path, Tree.empty.put (Tree.plainPlace path) .directory, []⟩

/-- The name of a script, with a version of three digits at least. -/
def scriptName (version : Version) (name : String) : String :=
  String.ofList ((Nat.toDigits 10 version.toNat).leftpad 3 '0') ++ "_" ++ name ++ ".sql"

def scriptPath (d : StepDirectory) (version : Version) (name : String) : String :=
  join d.path (scriptName version name)

/-- Writes a script and adds its step; underscores of the name are spaces of
the description. -/
def add (d : StepDirectory) (version : Version) (name sql : String) : StepDirectory :=
  let file := d.scriptPath version name
  { d with
    files := d.files.put (Tree.plainPlace file) (.file (.ofText sql))
    steps := d.steps ++ [⟨version, String.ofList (FileName.spaced name.toList), file⟩] }

/-- Adds a step without a script. -/
def addMissing (d : StepDirectory) (version : Version) (name : String) : StepDirectory :=
  { d with steps := d.steps ++ [⟨version, name, d.scriptPath version name⟩] }

end StepDirectory

/-- How much work a randomized test may do. -/
structure Budget where
  cases : Nat
  maxShrinks : Nat
deriving DecidableEq, Repr

namespace Budget

def quick : Budget := ⟨32, 100⟩

def thorough : Budget := ⟨1024, 10000⟩

end Budget

end SipMigrate.Fixture
