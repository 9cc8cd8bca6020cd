import SipMigrate.CommandLine.Arguments
import SipMigrate.Hash.Digest
import SipMigrate.Migration.Runner
import SipMigrate.Text.Json

/-! What the commands print. -/

namespace SipMigrate.CommandLine

open Text Hash Migration

def unlines (lines : List String) : String := String.join (lines.map (· ++ "\n"))

/-! ### Digests -/

def byteText (d : Digest) : String :=
  " ".intercalate (d.bytes.map fun b => toString b.toNat)

def digestJson (d : Digest) : Json :=
  .object [("hex", .string d.hex),
    ("bytes", .array (d.bytes.map fun b => .number b.toNat)),
    ("value", .number d.value.toNat)]

def digestText (d : Digest) : DigestFormat → String
  | .hex => d.hex
  | .bytes => byteText d
  | .u64 => toString d.value.toNat
  | .json => (digestJson d).pretty

/-! ### Migrations -/

def stepLine (s : Step) : String :=
  "  v" ++ toString s.version.toNat ++ ": " ++ s.description ++ " (" ++ s.fileName ++ ")"

def nothingPending : String := "✓ No pending migrations to run."

def dryRunLines : List Step → List String
  | [] => [nothingPending]
  | steps =>
    ("Dry run - would apply " ++ toString steps.length ++ " migration(s):") :: steps.map stepLine

def reportLines (r : Report) : List String :=
  [if r.applied.isEmpty then nothingPending
    else "✓ Successfully applied " ++ toString r.applied.length ++ " migration(s), " ++
      toString r.statements ++ " statement(s)",
    "  Final version: " ++ toString r.finalVersion.toNat]

def lockLines : Option Version → List String
  | some v =>
    ["", "⚠ Migration v" ++ toString v.toNat ++ " is in progress or was interrupted.",
      "  New runs are refused until its control row is removed."]
  | none => []

/-- The pending steps, when a directory was listed. -/
def pendingLines : Option (List Step) → List String
  | none => []
  | some [] => ["", "✓ Up to date."]
  | some steps => "" :: "Pending Migrations:" :: steps.map stepLine

def statusLines (s : Status) (pending : Option (List Step)) : List String :=
  ["Migration Status", "================",
    "  Current version: " ++ toString s.current.toNat,
    "  Applied migrations: " ++ toString s.applied] ++ lockLines s.locked ++ pendingLines pending

def stepJson (s : Step) : Json :=
  .object [("version", .number s.version.toNat), ("description", .string s.description),
    ("file", .string s.fileName)]

def statusJson (s : Status) (pending : Option (List Step)) : Json :=
  .object [("current_version", .number s.current.toNat),
    ("locked_version", s.locked.elim .null fun v => .number v.toNat),
    ("applied_count", .number s.applied),
    ("pending", .array ((pending.getD []).map stepJson))]

def statusText (s : Status) (pending : Option (List Step)) : StatusFormat → String
  | .text => unlines (statusLines s pending)
  | .json => (statusJson s pending).pretty ++ "\n"

/-! ### Versions -/

def programVersion : String := "0.3.0"

def versionLine : String := "auxkit " ++ programVersion

def versionLines : List String :=
  ["AuxKit CLI v" ++ programVersion, "AuxKit Hash v" ++ programVersion,
    "AuxKit Migrate v" ++ programVersion]

end SipMigrate.CommandLine
