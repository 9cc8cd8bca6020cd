import SipMigrate.Files.Tree
import SipMigrate.Migration.Step

/-! The steps found in a directory: one for each file with the ending of a
script, in the order of their versions. The names in the directory are texts. -/

namespace SipMigrate.Migration

open Files

/-- The step of a file in a directory. -/
def Step.ofFile (directory name : String) : Except MigrationError Step := do
  let (version, description) ← FileName.parse name
  return ⟨version, description, join directory name⟩

def isStepEntry (e : Entry) : Bool := e.isFile && FileName.isScript e.name

/-- The steps of the entries of a directory. Steps of one version stay in the
order of the entries. -/
def stepsOfEntries (directory : String) (entries : List Entry) :
    Except MigrationError (List Step) := do
  let steps ← (entries.filter isStepEntry).mapM fun e => Step.ofFile directory e.name
  return steps.mergeSort fun a b => a.version ≤ b.version

def discover (directory : String) (listing : Except FileError (List Entry)) :
    Except MigrationError (List Step) :=
  match listing with
  | .ok entries => stepsOfEntries directory entries
  | .error cause => .error (.directoryRead directory cause)

end SipMigrate.Migration
