import SipMigrate.Text.Quoted

/-! Failures of reading and writing files. -/

namespace SipMigrate.Files

open Text

inductive FileError
  | notFound
  | notADirectory
  | isADirectory
  | nameTooLong
  /-- A path with a NUL character. -/
  | nulInPath
  /-- The content of a file is not a UTF-8 text. -/
  | notText
  /-- A failure that a source of data gives itself. -/
  | custom (kind message : String)
deriving DecidableEq, Repr

namespace FileError

/-- The number, the kind and the description of a failure that the system reports. -/
def system? : FileError → Option (Nat × String × String)
  | notFound => some (2, "NotFound", "No such file or directory")
  | notADirectory => some (20, "NotADirectory", "Not a directory")
  | isADirectory => some (21, "IsADirectory", "Is a directory")
  | nameTooLong => some (36, "InvalidFilename", "File name too long")
  | _ => none

def notTextMessage : String := "stream did not contain valid UTF-8"

def nulInPathMessage : String := "file name contained an unexpected NUL byte"

def message (e : FileError) : String :=
  match e with
  | notText => notTextMessage
  | nulInPath => nulInPathMessage
  | custom _ m => m
  | e =>
    match e.system? with
    | some (code, _, text) => text ++ " (os error " ++ toString code ++ ")"
    | none => ""

def form (e : FileError) : String :=
  match e with
  | notText => Form.record "Error" [("kind", "InvalidData"), ("message", quoted notTextMessage)]
  | nulInPath =>
    Form.record "Error" [("kind", "InvalidInput"), ("message", quoted nulInPathMessage)]
  | custom kind m => Form.record "Custom" [("kind", kind), ("error", quoted m)]
  | e =>
    match e.system? with
    | some (code, kind, text) =>
      Form.record "Os" [("code", toString code), ("kind", kind), ("message", quoted text)]
    | none => ""

end FileError

end SipMigrate.Files
