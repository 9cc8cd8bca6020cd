/-! Command lines. A level of commands has options and subcommands. Arguments
are read from the left; the first one that does not fit refuses the line. -/

namespace SipMigrate.CommandLine

/-- What may follow the name of an option. -/
inductive OptionKind
  | flag
  /-- A value, which may begin with a hyphen or not; some values are refused. -/
  | value (hyphens : Bool) (accepts : String → Bool)
  | help
  | version

structure OptionRule where
  long : String
  short : Option Char
  kind : OptionKind

structure Level where
  options : List OptionRule
  subcommands : List String

/-- Why a line is not read to its end. -/
inductive Stop
  | refused
  | help
  | version
deriving DecidableEq, Repr

/-- The values of options by long name; flags have the empty value. -/
abbrev Given := List (String × String)

structure Reading where
  given : Given
  /-- The subcommand, and the arguments after it. -/
  subcommand : Option (String × List String)

def Given.has (g : Given) (long : String) : Bool := (g.lookup long).isSome

/-- Gives an option its value; no option is given twice. -/
def Given.give (g : Given) (r : OptionRule) (value : String) : Except Stop Given :=
  if g.has r.long then .error .refused else .ok (g ++ [(r.long, value)])

def Given.giveValue (g : Given) (r : OptionRule) (value : String) : Except Stop Given :=
  match r.kind with
  | .value _ accepts => if accepts value then g.give r value else .error .refused
  | _ => .error .refused

/-- Gives an option that stands without a value; one that takes a value waits for it. -/
def Given.giveAlone (g : Given) (r : OptionRule) : Except Stop (Given × Option OptionRule) :=
  match r.kind with
  | .flag => (g.give r "").map fun g => (g, none)
  | .value _ _ => .ok (g, some r)
  | .help => .error .help
  | .version => .error .version

/-- Reads the letters after one hyphen: flags, or an option whose value is the
rest, after an equals sign if there is one. -/
def readLetters (l : Level) (g : Given) : List Char → Except Stop (Given × Option OptionRule)
  | [] => .ok (g, none)
  | c :: rest =>
    match l.options.find? fun r => r.short = some c with
    | none => .error .refused
    | some r =>
      match r.kind, rest with
      | .value _ _, '=' :: value => (g.giveValue r (String.ofList value)).map fun g => (g, none)
      | .value _ _, d :: more => (g.giveValue r (String.ofList (d :: more))).map fun g => (g, none)
      | _, rest => do
        let (g, waiting) ← g.giveAlone r
        if rest.isEmpty then return (g, waiting) else readLetters l g rest

/-- Reads what stands after two hyphens: a name, with a value after an equals sign. -/
def readLong (l : Level) (g : Given) (text : List Char) :
    Except Stop (Given × Option OptionRule) :=
  match l.options.find? fun r => r.long.toList = text.takeWhile (· ≠ '=') with
  | none => .error .refused
  | some r =>
    match text.dropWhile (· ≠ '=') with
    | _ :: value => (g.giveValue r (String.ofList value)).map fun g => (g, none)
    | [] => g.giveAlone r

/-- Whether an argument can be a value of an option that takes no hyphens. -/
def isPlain (argument : String) : Bool :=
  argument = "-" || argument.toList.head? ≠ some '-'

def OptionRule.takes (r : OptionRule) (argument : String) : Bool :=
  match r.kind with
  | .value hyphens _ => hyphens || isPlain argument
  | _ => false

/-- Reads arguments; `waiting` is an option whose value comes next. Two hyphens
alone end the options, and nothing may follow them. -/
def read (l : Level) (g : Given) (waiting : Option OptionRule) :
    List String → Except Stop Reading
  | [] => if waiting.isNone then .ok ⟨g, none⟩ else .error .refused
  | argument :: rest =>
    match waiting with
    | some r =>
      if r.takes argument then do read l (← g.giveValue r argument) none rest
      else .error .refused
    | none =>
      if l.subcommands.contains argument then .ok ⟨g, some (argument, rest)⟩
      else
        match argument.toList with
        | ['-', '-'] => if rest.isEmpty then .ok ⟨g, none⟩ else .error .refused
        | '-' :: '-' :: text => do
          let (g, waiting) ← readLong l g text
          read l g waiting rest
        | '-' :: c :: letters => do
          let (g, waiting) ← readLetters l g (c :: letters)
          read l g waiting rest
        | _ => .error .refused

end SipMigrate.CommandLine
