/-!
# Options

Arguments are options and free arguments in any order.  An option has a long name and may
have a short one; it may take a value, which follows it or is written with it
(`--jobs 3`, `--jobs=3`, `-j 3`, `-j3`).  Short options without a value may be written
together, and what follows `--` is free.
-/

namespace Provision.CommandLine

/-- An option that the program knows. -/
structure OptionSpec where
  short : Option Char
  long : String
  takesValue : Bool
  /-- Whether the option may be given more than once. -/
  repeatable : Bool
  /-- What the option is for, with what its value is called. -/
  description : String
  valueName : String
deriving DecidableEq, Repr

/-- The name of an option as it is given. -/
inductive OptionName
  | short (c : Char)
  | long (name : String)
deriving DecidableEq, Repr

namespace OptionName

/-- The name that follows two dashes.  A name of one byte is a short name. -/
def ofLong (name : String) : OptionName :=
  match name.toList with
  | [c] => if c.toNat < 128 then short c else long name
  | _ => long name

/-- The wording of a name. -/
def text : OptionName → String
  | short c => String.singleton c
  | long name => name

end OptionName

/-- Why arguments are refused. -/
inductive OptionError
  | unrecognized (name : OptionName)
  | valueMissing (name : OptionName)
  | valueUnexpected (name : OptionName)
  | repeated (long : String)
deriving DecidableEq, Repr

/-- The wording of a refusal. -/
def OptionError.message : OptionError → String
  | unrecognized name => s!"Unrecognized option: '{name.text}'"
  | valueMissing name => s!"Argument to option '{name.text}' missing"
  | valueUnexpected name => s!"Option '{name.text}' does not take an argument"
  | repeated long => s!"Option '{long}' given more than once"

/-- An option as it was given. -/
structure Given where
  option : OptionSpec
  value : Option String
deriving DecidableEq, Repr

/-- Arguments sorted out. -/
structure Arguments where
  given : List Given
  free : List String
deriving DecidableEq, Repr

namespace Arguments

/-- Puts given options in front. -/
def addGiven (given : List Given) (a : Arguments) : Arguments :=
  { a with given := given ++ a.given }

/-- Puts a free argument in front. -/
def addFree (argument : String) (a : Arguments) : Arguments :=
  { a with free := argument :: a.free }

end Arguments

/-- The option of a name. -/
def findOption (specs : List OptionSpec) (name : OptionName) : Except OptionError OptionSpec :=
  let found := specs.find? fun spec =>
    match name with
    | .short c => spec.short = some c
    | .long name => spec.long = name
  match found with
  | some spec => .ok spec
  | none => .error (.unrecognized name)

/-- What short options written together come to: those without a value, and at the end
perhaps one that takes a value, with what is written behind it. -/
structure Cluster where
  given : List Given
  waiting : Option (OptionName × OptionSpec × List Char)
deriving DecidableEq, Repr

/-- Reads short options that are written together. -/
def readCluster (specs : List OptionSpec) : List Char → Except OptionError Cluster
  | [] => .ok ⟨[], none⟩
  | c :: rest => do
    let spec ← findOption specs (.short c)
    if spec.takesValue then return ⟨[], some (.short c, spec, rest)⟩
    let cluster ← readCluster specs rest
    return { cluster with given := ⟨spec, none⟩ :: cluster.given }

/-- A long option with the value that is written with it, if there is one. -/
def splitLong (text : List Char) : OptionName × Option String :=
  let name := OptionName.ofLong (String.ofList (text.takeWhile (· ≠ '=')))
  match text.dropWhile (· ≠ '=') with
  | _ :: value => (name, some (String.ofList value))
  | [] => (name, none)

/-- Reads arguments one after the other; `waiting` is an option whose value comes next. -/
def readArguments (specs : List OptionSpec) (waiting : Option (OptionName × OptionSpec)) :
    List String → Except OptionError Arguments
  | [] =>
    match waiting with
    | some (name, _) => .error (.valueMissing name)
    | none => .ok ⟨[], []⟩
  | argument :: rest =>
    match waiting with
    | some (_, spec) => do
      return (← readArguments specs none rest).addGiven [⟨spec, some argument⟩]
    | none =>
      match argument.toList with
      | '-' :: '-' :: [] => .ok ⟨[], rest⟩
      | '-' :: '-' :: text => do
        let (name, value) := splitLong text
        let spec ← findOption specs name
        match spec.takesValue, value with
        | true, some value =>
          return (← readArguments specs none rest).addGiven [⟨spec, some value⟩]
        | true, none => readArguments specs (some (name, spec)) rest
        | false, some _ => throw (.valueUnexpected name)
        | false, none => return (← readArguments specs none rest).addGiven [⟨spec, none⟩]
      | '-' :: c :: letters => do
        let cluster ← readCluster specs (c :: letters)
        match cluster.waiting with
        | none => return (← readArguments specs none rest).addGiven cluster.given
        | some (name, spec, []) =>
          return (← readArguments specs (some (name, spec)) rest).addGiven cluster.given
        | some (_, spec, value) =>
          return (← readArguments specs none rest).addGiven
            (cluster.given ++ [⟨spec, some (String.ofList value)⟩])
      | _ => return (← readArguments specs none rest).addFree argument

/-- The first option that was given more often than it may be. -/
def findRepeated? (specs : List OptionSpec) (given : List Given) : Option OptionSpec :=
  specs.find? fun spec => !spec.repeatable && 1 < (given.filter (·.option = spec)).length

/-- Sorts arguments out. -/
def parseArguments (specs : List OptionSpec) (arguments : List String) :
    Except OptionError Arguments := do
  let parsed ← readArguments specs none arguments
  match findRepeated? specs parsed.given with
  | some spec => throw (.repeated spec.long)
  | none => return parsed

/-! ## The options of the program -/

def helpOption : OptionSpec :=
  ⟨some 'h', "help", false, false, "Show help", ""⟩

def repositoryOption : OptionSpec :=
  ⟨some 'r', "repo", true, true, "Repository index to load, a file or a url", "PATH|URL"⟩

def configOption : OptionSpec :=
  ⟨some 'c', "config", true, false, "Config file to use instead of the default one", "PATH"⟩

def cascadeOption : OptionSpec :=
  ⟨none, "cascade", false, false,
    "Also uninstall installed packages depending on uninstalled ones", ""⟩

def jobsOption : OptionSpec :=
  ⟨some 'j', "jobs", true, false, "Number of steps applied at the same time", "N"⟩

def yesOption : OptionSpec :=
  ⟨some 'y', "yes", false, false, "Commit changes without asking", ""⟩

def userOption : OptionSpec :=
  ⟨none, "user", false, false, "Act on the user target instead of the system one", ""⟩

/-- All options of the program. -/
def allOptions : List OptionSpec :=
  [helpOption, repositoryOption, configOption, cascadeOption, jobsOption, yesOption, userOption]

/-- The line of the help text that tells of an option. -/
def OptionSpec.usage (spec : OptionSpec) : String :=
  let short := (spec.short.map fun c => s!"-{c}, ").getD "    "
  let name := "    " ++ short ++ "--" ++ spec.long
  let name := if spec.takesValue then name ++ " " ++ spec.valueName else name
  let gap :=
    if name.length < 24 then String.ofList (List.replicate (24 - name.length) ' ')
    else "\n" ++ String.ofList (List.replicate 24 ' ')
  name ++ gap ++ spec.description

/-- The help text. -/
def usage : String :=
  "Usage: pkgtx-terminal [options] (status|install|uninstall) [PACKAGE...]\n\nOptions:\n" ++
    "\n".intercalate (allOptions.map OptionSpec.usage) ++ "\n"

namespace Arguments

/-- Whether an option was given. -/
def has (a : Arguments) (spec : OptionSpec) : Bool :=
  a.given.any (·.option = spec)

/-- The values of an option, in the order they were given in. -/
def values (a : Arguments) (spec : OptionSpec) : List String :=
  (a.given.filter (·.option = spec)).filterMap (·.value)

end Arguments

end Provision.CommandLine
