import SipMigrate.CommandLine.Grammar
import SipMigrate.Migration.Config
import SipMigrate.Text.Decimal

/-! The commands and their arguments. -/

namespace SipMigrate.CommandLine

open Text

inductive HashInput
  | text (s : String)
  | file (path : String)
  | number (n : Int64)
deriving DecidableEq, Repr

inductive DigestFormat
  | hex
  | bytes
  | u64
  | json
deriving DecidableEq, Repr

inductive StatusFormat
  | text
  | json
deriving DecidableEq, Repr

inductive Command
  | hash (key : String) (input : HashInput) (foldCase : Bool) (format : DigestFormat)
  | keygen
  | migrate (database directory table : String) (dryRun : Bool)
  | status (database : String) (directory : Option String) (table : String)
      (format : StatusFormat)
  | version
deriving DecidableEq, Repr

/-! ### Values -/

def digestFormats : List (String × DigestFormat) :=
  [("hex", .hex), ("bytes", .bytes), ("u64", .u64), ("json", .json)]

def statusFormats : List (String × StatusFormat) := [("text", .text), ("json", .json)]

def int64? (s : String) : Option Int64 :=
  match integer? s.toList with
  | some n => if isInt64 n then some (Int64.ofInt n) else none
  | none => none

/-! ### Levels -/

def textOption (long : String) (short : Option Char) : OptionRule :=
  ⟨long, short, .value false fun _ => true⟩

/-- A path must not be empty. -/
def pathOption (long : String) (short : Option Char) : OptionRule :=
  ⟨long, short, .value false fun s => s ≠ ""⟩

def flagOption (long : String) (short : Option Char) : OptionRule := ⟨long, short, .flag⟩

/-- The options of every level. -/
def commonOptions : List OptionRule :=
  [flagOption "verbose" (some 'v'), ⟨"help", some 'h', .help⟩]

def rootLevel : Level :=
  ⟨⟨"version", some 'V', .version⟩ :: commonOptions,
    ["hash", "keygen", "migrate", "version", "help"]⟩

def hashLevel : Level :=
  ⟨[textOption "key" (some 'k'), textOption "text" (some 't'), pathOption "file" (some 'f'),
    ⟨"number", some 'n', .value true fun s => (int64? s).isSome⟩,
    flagOption "fold-case" none,
    ⟨"format", none, .value false fun s => (digestFormats.lookup s).isSome⟩] ++ commonOptions, []⟩

def migrateLevel : Level := ⟨commonOptions, ["run", "status", "help"]⟩

def runLevel : Level :=
  ⟨[pathOption "db" none, pathOption "dir" none, textOption "table" none,
    flagOption "dry-run" (some 'd')] ++ commonOptions, []⟩

def statusLevel : Level :=
  ⟨[pathOption "db" none, pathOption "dir" none, textOption "table" none,
    ⟨"format", some 'f', .value false fun s => (statusFormats.lookup s).isSome⟩] ++
      commonOptions, []⟩

def plainLevel : Level := ⟨commonOptions, []⟩

/-! ### Commands -/

/-- The value of an option that must be given. -/
def Given.required (g : Given) (long : String) : Except Stop String :=
  match g.lookup long with
  | some v => .ok v
  | none => .error .refused

def Given.table (g : Given) : String := (g.lookup "table").getD Migration.Config.standard.table

/-- Exactly one input is given. -/
def hashInput (g : Given) : Except Stop HashInput :=
  match g.lookup "text", g.lookup "file", (g.lookup "number").bind int64? with
  | some s, none, none => .ok (.text s)
  | none, some path, none => .ok (.file path)
  | none, none, some n => .ok (.number n)
  | _, _, _ => .error .refused

def readHash (arguments : List String) : Except Stop Command := do
  let g := (← read hashLevel [] none arguments).given
  let key ← g.required "key"
  let input ← hashInput g
  let format := ((g.lookup "format").bind (digestFormats.lookup ·)).getD .hex
  return .hash key input (g.has "fold-case") format

def readRun (arguments : List String) : Except Stop Command := do
  let g := (← read runLevel [] none arguments).given
  return .migrate (← g.required "db") (← g.required "dir") g.table (g.has "dry-run")

def readStatus (arguments : List String) : Except Stop Command := do
  let g := (← read statusLevel [] none arguments).given
  let format := ((g.lookup "format").bind (statusFormats.lookup ·)).getD .text
  return .status (← g.required "db") (g.lookup "dir") g.table format

def readMigrate (arguments : List String) : Except Stop Command := do
  match (← read migrateLevel [] none arguments).subcommand with
  | some ("run", rest) => readRun rest
  | some ("status", rest) => readStatus rest
  | some _ => throw .help
  | none => throw .refused

/-- A command without arguments of its own. -/
def readPlain (c : Command) (arguments : List String) : Except Stop Command := do
  let _ ← read plainLevel [] none arguments
  return c

def Command.ofArguments (arguments : List String) : Except Stop Command := do
  match (← read rootLevel [] none arguments).subcommand with
  | some ("hash", rest) => readHash rest
  | some ("keygen", rest) => readPlain .keygen rest
  | some ("migrate", rest) => readMigrate rest
  | some ("version", rest) => readPlain .version rest
  | some _ => throw .help
  | none => throw .refused

end SipMigrate.CommandLine
