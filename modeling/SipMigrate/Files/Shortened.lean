import SipMigrate.Files.Tree

/-! Paths that are shortened before they are used. A component that leads
upwards undoes the one before it, whether that exists or not. -/

namespace SipMigrate.Files.Tree

open Text

variable {α : Type}

/-- The number of bytes of a shortened path. -/
def pathLength (p : Place) : Nat :=
  (p.filter (· ≠ "/")).foldl (fun n name => n + (utf8 name).length + 1) 0

/-- The limit of a shortened path. -/
def shortenedLimit : Nat := 504

/-- The limit of what a path is on the way. -/
def shorteningLimit : Nat := 511

/-- Shortens a path component by component. After each name it is looked at
what stands there; it may be missing. -/
def shorten (t : Tree α) (here : Place) : List String → Except FileError Place
  | [] => if shortenedLimit < pathLength here then .error .nameTooLong else .ok here
  | c :: rest =>
    if c = "" || c = "." then t.shorten here rest
    else if c = ".." then t.shorten (parent here) rest
    else if shorteningLimit < pathLength (here ++ [c]) then .error .nameTooLong
    else
      match t.look (here ++ [c]) with
      | .error .notFound => t.shorten (here ++ [c]) rest
      | .error e => .error e
      | .ok _ => t.shorten (here ++ [c]) rest

/-- The place that a path names when it is shortened. -/
def shortened (t : Tree α) (path : String) : Except FileError Place :=
  t.shorten (if path.toList.head? = some '/' then top else []) (components path)

/-- The place beside another one whose name is longer by a suffix. -/
def beside (p : Place) (suffix : String) : Place :=
  p.dropLast ++ p.getLast?.toList.map (· ++ suffix)

def isDirectory (t : Tree α) (p : Place) : Bool :=
  match t.node? p with
  | some .directory => true
  | _ => false

end SipMigrate.Files.Tree
