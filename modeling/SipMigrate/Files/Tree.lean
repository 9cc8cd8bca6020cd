import SipMigrate.Files.Error
import SipMigrate.Files.Path
import SipMigrate.Text.Basic

/-! Trees of directories and files. A tree lists what stands at which place; a
place is the list of names that lead to it. -/

namespace SipMigrate.Files

open Text

abbrev Place := List String

inductive Node (α : Type)
  | directory
  | file (content : α)
deriving DecidableEq, Repr

def Node.isFile {α : Type} : Node α → Bool
  | .file _ => true
  | .directory => false

structure Tree (α : Type) where
  nodes : List (Place × Node α)

/-- A name in a directory. Names are texts; one whose bytes are no text is not represented. -/
structure Entry where
  name : String
  isFile : Bool
deriving DecidableEq, Repr

namespace Tree

variable {α : Type}

def empty : Tree α := ⟨[]⟩

/-- Where absolute paths begin. -/
def top : Place := ["/"]

def node? (t : Tree α) (p : Place) : Option (Node α) :=
  if p = [] || p = top then some .directory
  else (t.nodes.find? fun n => n.1 = p).map (·.2)

def parent (p : Place) : Place := if p = top then top else p.dropLast

def nameLimit : Nat := 255

def pathLimit : Nat := 4096

/-- Follows components one by one; each is looked up in a directory. -/
def walk (t : Tree α) (here : Place) : List String → Except FileError Place
  | [] => .ok here
  | c :: rest =>
    match t.node? here with
    | none => .error .notFound
    | some (.file _) => .error .notADirectory
    | some .directory =>
      if c = "" || c = "." then t.walk here rest
      else if c = ".." then t.walk (parent here) rest
      else if nameLimit < (utf8 c).length then .error .nameTooLong
      else t.walk (here ++ [c]) rest

/-- The place that a path leads to; nothing need stand there. -/
def place (t : Tree α) (path : String) : Except FileError Place :=
  if path.toList.contains '\x00' then .error .nulInPath
  else if path = "" then .error .notFound
  else if pathLimit ≤ (utf8 path).length then .error .nameTooLong
  else t.walk (if path.toList.head? = some '/' then top else []) (components path)

/-- Follows names from where they begin. -/
def look (t : Tree α) (p : Place) : Except FileError Place :=
  match p with
  | "/" :: names => t.walk top names
  | names => t.walk [] names

def find (t : Tree α) (path : String) : Except FileError (Node α) := do
  match t.node? (← t.place path) with
  | some n => .ok n
  | none => .error .notFound

def hasPath (t : Tree α) (path : String) : Bool := (t.find path).isOk

def readFile (t : Tree α) (path : String) : Except FileError α := do
  match ← t.find path with
  | .file content => .ok content
  | .directory => .error .isADirectory

/-- The names that stand directly in a place, in order. -/
def children (t : Tree α) (p : Place) : List Entry :=
  (t.nodes.filterMap fun n =>
    match n.1.getLast? with
    | some name => if n.1.dropLast = p then some ⟨name, n.2.isFile⟩ else none
    | none => none).mergeSort fun a b => decide (a.name ≤ b.name)

def readDirectory (t : Tree α) (path : String) : Except FileError (List Entry) := do
  let p ← t.place path
  match t.node? p with
  | some .directory => .ok (t.children p)
  | some (.file _) => .error .notADirectory
  | none => .error .notFound

def set (t : Tree α) (p : Place) (n : Node α) : Tree α :=
  ⟨t.nodes.filter (fun m => m.1 ≠ p) ++ [(p, n)]⟩

/-- Makes the directories that lead to a place, from the outermost one. -/
def makeDirectories (t : Tree α) (p : Place) : Tree α :=
  (List.range (p.length + 1)).foldl
    (fun t n => if (t.node? (p.take n)).isSome then t else t.set (p.take n) .directory) t

/-- Writes at a place, with the directories that lead to it. -/
def put (t : Tree α) (p : Place) (n : Node α) : Tree α := (t.makeDirectories p.dropLast).set p n

/-- Removes a place and all below it. -/
def remove (t : Tree α) (p : Place) : Tree α := ⟨t.nodes.filter fun m => !p.isPrefixOf m.1⟩

/-- The place that the components of a path name, whatever stands on the way. -/
def plainPlace (path : String) : Place :=
  (components path).foldl
    (fun here c =>
      if c = "" || c = "." then here else if c = ".." then here.dropLast else here ++ [c])
    (if path.toList.head? = some '/' then top else [])

end Tree

end SipMigrate.Files
