/-! Paths as texts. Components are separated by slashes; empty components and
the component `.` say nothing. -/

namespace SipMigrate.Files

/-- The pieces between separators. -/
def piecesBetween (separator : Char) : List Char → List (List Char)
  | [] => [[]]
  | c :: rest =>
    if c = separator then [] :: piecesBetween separator rest
    else
      match piecesBetween separator rest with
      | piece :: more => (c :: piece) :: more
      | [] => [[c]]

/-- The pieces between the slashes. -/
def pieces (path : List Char) : List (List Char) := piecesBetween '/' path

def components (path : String) : List String := (pieces path.toList).map String.ofList

/-- The path of a name in a directory. -/
def join (directory name : String) : String :=
  if directory = "" || directory.toList.getLast? = some '/' then directory ++ name
  else directory ++ "/" ++ name

/-- The last component that says something, unless it leads upwards. -/
def fileName? (path : String) : Option String :=
  match ((components path).filter fun c => c ≠ "" && c ≠ ".").getLast? with
  | some ".." => none
  | last => last

end SipMigrate.Files
