import Provision.Client
import Provision.CommandLine.Options
import Provision.CommandLine.Prompt
import Provision.CommandLine.Remote
import Provision.Config.Json
import Provision.Key.Parser
import Provision.Repository.Json
import Provision.Store.Directory.Install

/-!
# The program

The program loads settings and repositories, and then shows the status of packages, or
plans a change, asks, and carries it out.  It stops once on the way, at the question whether
to go ahead: `start` leads up to it, `goOn` and `giveUp` lead on from it, and `run` does it
all for an input that is known from the start.
-/

namespace Provision.CommandLine

/-- Why the program ends early. -/
inductive CommandError
  | document (cause : DocumentError)
  | transaction (cause : TransactionError)
  | remote (reason : String)
  | key (cause : KeyError)
  | unknownPackage (reference : String)
  | missingArgument
  | invalidJobs (text : String)
  | unknownCommand (name : String)
  | cancelledByUser
  /-- The store did not return. -/
  | crashed

namespace CommandError

/-- The wording of an error. -/
def message : CommandError → String
  | document cause => s!"pkgtx error: {cause.message}"
  | transaction cause => cause.message
  | remote reason => s!"reqwest error: {reason}"
  | key cause => s!"invalid package key: {cause.message}"
  | unknownPackage reference => s!"package `{reference}` is not in any loaded repository"
  | missingArgument => "Missing argument"
  | invalidJobs text => s!"jobs must be a number, got `{text}`"
  | unknownCommand name => s!"unknown command `{name}`"
  | cancelledByUser => "User cancelled an action"
  | crashed => "store crashed"

/-- The code that the program ends with. -/
def code : CommandError → UInt32
  | transaction cause => cause.code
  | cancelledByUser => 0
  | _ => 1

end CommandError

/-- A line of the log. -/
inductive LogLine
  | note (text : String)
  | warning (text : String)
  | error (text : String)
deriving DecidableEq, Repr

/-- The wording of a line of the log. -/
def LogLine.text : LogLine → String
  | note text => text
  | warning text => "WARN : " ++ text
  | error text => "ERROR: " ++ text

/-- The program under way. -/
structure Console where
  files : FileSystem
  /-- What has been shown. -/
  shown : String
  log : List LogLine

namespace Console

/-- The program before it has done anything. -/
def begin (files : FileSystem) : Console := ⟨files, "", []⟩

/-- Shows a text. -/
def print (console : Console) (text : String) : Console :=
  { console with shown := console.shown ++ text }

/-- Adds a line to the log. -/
def report (console : Console) (line : LogLine) : Console :=
  { console with log := console.log ++ [line] }

end Console

/-- The program at its end. -/
structure Finished where
  console : Console
  code : UInt32

namespace Finished

/-- The end after an error. -/
def ofError (console : Console) (cause : CommandError) : Finished :=
  ⟨console.report (.error cause.message), cause.code⟩

end Finished

/-- A step of the program. -/
abbrev Act := ExceptT CommandError (StateM Console)

namespace Act

def showLine (text : String) : Act Unit :=
  modify (·.print (text ++ "\n"))

def warn (text : String) : Act Unit :=
  modify (·.report (.warning text))

/-- Looks at the file system. -/
def inspect {ε α : Type} (wrap : ε → CommandError) (question : FileSystem → Except ε α) :
    Act α := do
  match question (← get).files with
  | .ok value => return value
  | .error cause => throw (wrap cause)

/-- Works on the file system. -/
def work {ε α : Type} (wrap : ε → CommandError) (disk : Disk ε α) : Act α := do
  let console ← get
  let (result, files) := disk console.files
  set { console with files }
  match result with
  | .ok value => return value
  | .error cause => throw (wrap cause)

end Act

/-- The number that a text is. -/
def parseCount? (text : String) : Option UInt64 :=
  let digits :=
    match text.toList with
    | '+' :: rest => rest
    | all => all
  if digits = [] ∨ digits.any (!·.isDigit) then none
  else
    let n := digits.foldl (fun n c => 10 * n + (c.toNat - '0'.toNat)) 0
    if n < UInt64.size then some (UInt64.ofNat n) else none

/-- Loads the settings file that was asked for, or the usual one.  Only the usual one may be
missing or broken. -/
def loadConfigFile (env : Environment) (a : Arguments) : Act Config := do
  match a.values configOption with
  | path :: _ => Act.inspect .document (Config.load env (.ofString path))
  | [] =>
    match Config.load env (Config.defaultPath env) (← get).files with
    | .ok config => return config
    | .error cause => do
      Act.warn s!"Failed to read config file: {cause.message}"
      Act.warn "Using default config."
      return Config.default env

/-- The settings, with what options change in them. -/
def loadConfig (env : Environment) (a : Arguments) : Act Config := do
  let config ← loadConfigFile env a
  let config := if a.has cascadeOption then config.setCascadeUninstall true else config
  match a.values jobsOption with
  | [] => return config
  | text :: _ =>
    match parseCount? text with
    | some jobs => return config.setMaxConcurrentSteps jobs
    | none => throw (.invalidJobs text)

/-- Loads a repository. -/
def loadRepository (httpsOnly : Bool) (source : String) : Act Repository := do
  match Web.Address.ofString? source with
  | some address => throw (.remote (refusal httpsOnly address))
  | none => Act.inspect .document (Repository.load (.ofString source))

/-- A client of the store that settings name. -/
def makeClient (config : Config) (repositories : List Repository) :
    Act (Client FileSystem) := do
  let store ← Act.work (fun cause => .document (.io cause))
    (DirectoryStore.create config (fetchAny config.httpsOnly))
  return Client.new config store.store (.ofRepositories repositories) (← get).files

/-- The key that a reference names: a whole key, or an id. -/
def findKey (snapshot : Snapshot) (reference : String) : Except CommandError PackageKey :=
  if Text.holds "://".toList reference.toList then
    match PackageKey.parse reference with
    | .error cause => .error (.key cause)
    | .ok key =>
      if snapshot.contains key then .ok key else .error (.unknownPackage reference)
  else
    match snapshot.findById? reference with
    | some package => .ok package.key
    | none => .error (.unknownPackage reference)

/-- Shows the status of packages, of all where none is named. -/
def showStatus (client : Client FileSystem) (target : Target) (references : List String) :
    Act Unit := do
  let keys ←
    if references = [] then pure (client.snapshot.packages.map (·.key))
    else liftExcept (references.mapM (findKey client.snapshot))
  keys.forM fun key => Act.showLine s!"{key}: {client.status key target}"
where
  liftExcept {α : Type} (e : Except CommandError α) : Act α :=
    match e with
    | .ok value => return value
    | .error cause => throw cause

/-- A change that has been planned. -/
structure Planned where
  client : Client FileSystem
  transaction : Transaction

/-- Plans a change.  Gives none where nothing is to be done. -/
def plan (client : Client FileSystem) (kind : ActionKind) (target : Target)
    (references : List String) : Act (Option Planned) := do
  if references = [] then throw .missingArgument
  match references.mapM (findKey client.snapshot) with
  | .error cause => throw cause
  | .ok keys =>
    match client.createTransaction (keys.map fun key => ⟨kind, target, key⟩) with
    | (.error cause, _) => throw (.transaction cause)
    | (.ok transaction, client) =>
      if transaction.isEmpty then
        Act.showLine "Nothing to do."
        return none
      Act.showLine "Steps:"
      transaction.steps.forM fun step => Act.showLine s!"\t{step}"
      return some ⟨client, transaction⟩

/-- What is shown of an event. -/
def eventLine? : Event → Option String
  | .download _ key progress =>
    if 0 < progress.total ∧ progress.current = progress.total then
      some s!"Downloaded {key.id} ({progress.total} bytes)"
    else none
  | .step _ key kind => some s!"{kind} {key.id} done"

/-- Carries out a change. -/
def carryOut (planned : Planned) : Act Unit := do
  let (applied, _, client) :=
    planned.client.runTransaction planned.transaction none (fun _ => []) (fun _ => false)
  modify fun console => { console with files := client.state }
  (applied.events.filterMap eventLine?).forM Act.showLine
  match applied.outcome with
  | .done () => Act.showLine "Transaction complete."
  | .failed cause => throw (.transaction cause)
  | .crashed => throw .crashed

/-- Does what the first free argument asks for, up to the question whether to go ahead. -/
def command (a : Arguments) (client : Client FileSystem) : Act (Option Planned) := do
  let target : Target := if a.has userOption then .user else .system
  match a.free with
  | [] => throw .missingArgument
  | "status" :: references => do
    showStatus client target references
    return none
  | "install" :: references => plan client .install target references
  | "uninstall" :: references => plan client .uninstall target references
  | name :: _ => throw (.unknownCommand name)

/-- The way up to the question whether to go ahead. -/
def prepare (env : Environment) (a : Arguments) : Act (Option Planned) := do
  let config ← loadConfig env a
  let repositories ← (a.values repositoryOption).mapM (loadRepository config.httpsOnly)
  if repositories.isEmpty then
    Act.warn "No repositories given, every package will be unknown."
  command a (← makeClient config repositories)

/-- How far the program has come. -/
inductive Stage
  | finished (f : Finished)
  /-- The question whether to go ahead has been shown. -/
  | asking (planned : Planned) (console : Console)

/-- Goes on with a change that has been planned. -/
def goOn (planned : Planned) (console : Console) : Finished :=
  match carryOut planned console with
  | (.ok (), console) => ⟨console, 0⟩
  | (.error cause, console) => .ofError console cause

/-- Gives up a change that has been planned. -/
def giveUp (console : Console) : Finished :=
  .ofError console .cancelledByUser

/-- Starts the program. -/
def start (env : Environment) (arguments : List String) (files : FileSystem) : Stage :=
  let console := Console.begin files
  match parseArguments allOptions arguments with
  | .error cause => .finished ⟨console.print s!"Unable to parse options: {cause.message}\n", 0⟩
  | .ok a =>
    if a.has helpOption then .finished ⟨console.report (.note usage), 0⟩
    else
      match prepare env a console with
      | (.error cause, console) => .finished (.ofError console cause)
      | (.ok none, console) => .finished ⟨console, 0⟩
      | (.ok (some planned), console) =>
        if a.has yesOption then .finished (goOn planned console)
        else .asking planned (console.print Prompt.question)

/-- Runs the program on an input. -/
def run (env : Environment) (arguments : List String) (input : Bytes) (files : FileSystem) :
    Finished :=
  match start env arguments files with
  | .finished f => f
  | .asking planned console =>
    let decision := Prompt.confirm input
    let console := console.print decision.shown
    if decision.goesAhead then goOn planned console else giveUp console

end Provision.CommandLine
