import SipMigrate.CommandLine.Run
import Std.Time.DateTime.Timestamp

/-! The program. The files that a command names are read into a tree, the
command runs on the tree, and a database that it has made or changed is
written back as the text that builds it. -/

namespace SipMigrate.Main

open Files CommandLine

/-! ### Reading files -/

def pathOf : Place → String
  | "/" :: names => "/" ++ "/".intercalate names
  | names => "/".intercalate names

/-- The places on the way to a path, the last one itself. -/
def onTheWay (path : String) : List Place :=
  let parts := pieces path.toList
  (List.range parts.length).map fun n =>
    Tree.plainPlace (String.ofList (List.intercalate ['/'] (parts.take (n + 1))))

/-- Adds what stands at a place: a directory without its entries, or a file. -/
def loadNode (files : FileTree) (place : Place) : IO FileTree := do
  let here := (← IO.currentDir) / pathOf place
  if place = [] || place = Tree.top then return files
  else if ← here.isDir then return files.set place .directory
  else if ← here.pathExists then
    return files.set place (.file (.ofBytes (← IO.FS.readBinFile here).toList))
  else return files

def load (files : FileTree) (path : String) : IO FileTree := (onTheWay path).foldlM loadNode files

/-- Adds a directory with its entries. -/
def loadDirectory (files : FileTree) (path : String) : IO FileTree := do
  let files ← load files path
  let here := (← IO.currentDir) / pathOf (Tree.plainPlace path)
  if ← here.isDir then
    (← here.readDir).foldlM (fun files e => load files (join path e.fileName)) files
  else return files

/-- Adds a database, and what may stand beside it. -/
def loadDatabase (files : FileTree) (text : String) : IO FileTree := do
  let files ← load files text
  match Address.ofText text with
  | .ok a =>
    let files ← load files a.path
    let place := Tree.plainPlace a.path
    [journalPlace place, logPlace place].foldlM loadNode files
  | .error _ => return files

/-- The files that a command names. -/
def loadFor : Command → IO FileTree
  | .hash _ (.file path) _ _ => load .empty path
  | .migrate database directory _ _ => do loadDirectory (← loadDatabase .empty database) directory
  | .status database (some directory) _ _ => do
    loadDirectory (← loadDatabase .empty database) directory
  | .status database none _ _ => loadDatabase .empty database
  | _ => return .empty

/-! ### Running -/

def freshKey : IO Hash.Key := do
  let bytes := (← IO.getRandomBytes 16).toList
  match Hash.Key.ofBytes bytes with
  | .ok k => return k
  | .error e => throw (IO.userError e.message)

def world (files : FileTree) : IO World := do
  let now := (← Std.Time.Timestamp.now).toSecondsSinceUnixEpoch.val
  return ⟨files, fun _ => UInt64.ofNat now.toNat, ← freshKey, fun _ => .discard⟩

/-- The bytes of the file at a place. -/
def bytesAt (files : FileTree) (place : Place) : Option (List UInt8) :=
  match files.node? place with
  | some (.file content) => some content.toBytes
  | _ => none

def removeAt (place : Place) : IO Unit := do
  IO.FS.removeFile ((← IO.currentDir) / pathOf place)

/-- Writes back the database at an address if it has changed, and removes what was left beside
it if it has been recovered. -/
def saveDatabase (before after : FileTree) (text : String) : IO Unit := do
  let .ok a := Address.ofText text | return
  let .ok place := before.shortened a.path | return
  for companion in [journalPlace place, logPlace place] do
    if (bytesAt before companion).isSome && (bytesAt after companion).isNone then
      removeAt companion
  let some bytes := bytesAt after place | return
  if bytesAt before place ≠ some bytes then
    IO.FS.writeBinFile ((← IO.currentDir) / pathOf place) ⟨bytes.toArray⟩

def run (arguments : List String) : IO UInt32 := do
  let command := Command.ofArguments arguments
  let files ← match command with
    | .ok c => loadFor c
    | .error _ => pure .empty
  let o := runArguments (← world files) arguments
  match command with
  | .ok (.migrate database _ _ _) | .ok (.status database _ _ _) =>
    saveDatabase files o.files database
  | _ => pure ()
  IO.print o.output
  if let some line := o.error then IO.eprintln line
  return UInt32.ofNat o.exit

end SipMigrate.Main

def main (arguments : List String) : IO UInt32 := SipMigrate.Main.run arguments
