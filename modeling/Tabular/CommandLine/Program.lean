import Tabular.CommandLine.Arguments
import Tabular.CommandLine.Help
import Tabular.Json.Printer
import Tabular.Run

/-!
The program: from arguments to what is printed and the exit status, by way of steps on files and
servers.
-/
namespace Tabular.CommandLine

/-- What a program printed, and its exit status. -/
structure Outcome where
  output : String := ""
  errors : String := ""
  status : Nat := 0
  deriving DecidableEq, Repr

/-- The exit status for arguments that cannot be read. -/
def malformedStatus : Nat := 2

/-- Checks the settings of the log, which is not kept. -/
def checkLog (a : Arguments) : Except Fault Unit := do
  let verbosity := lowered ((a.get? .verbosity).getD "info")
  if verbosity ∉ ["debug", "info", "warn", "error"] then
    throw (.config s!"unknown verbosity '{verbosity}'")
  let format := (a.get? .logFormat).getD "text"
  if format ∉ ["json", "text"] then throw (.config s!"unknown log format '{format}'")

def overrideTarget (a : Arguments) (engine : Option Engine) (t : Target) : Target :=
  { t with
    engine := engine.getD t.engine
    location := (a.get? .location).or t.location
    port := ((a.get? .port).bind Arguments.portNumber?).getD t.port
    user := (a.get? .user).getD t.user
    password := (a.get? .password).getD t.password
    trustCertificate := t.trustCertificate || a.has .trustCertificate }

def overrideOptions (a : Arguments) (o : Options) : Options :=
  { owner := (a.get? .owner).getD o.owner
    tablePrefix := (a.get? .tablePrefix).getD o.tablePrefix
    overwrite := o.overwrite || a.has .force
    useExisting := o.useExisting || a.has .existing }

/-- A configuration with what the arguments say instead. -/
def override (a : Arguments) (engine : Option Engine) (c : Config) : Config where
  schemaFile := (a.get? .schema).or c.schemaFile
  database := (a.get? .name).or c.database
  target := overrideTarget a engine c.target
  create := overrideOptions a c.create

/-- The configuration that the arguments describe, on top of a file if they name one. -/
def configure (a : Arguments) : HostTask Config := do
  let engine ← HostTask.ofExcept ((a.get? .type).mapM Engine.parse)
  match a.get? .config, engine with
  | some path, _ => return override a engine (← HostTask.ofFiles (Config.load path))
  | none, some e => return override a engine { target := { engine := e } }
  | none, none => throw (.argument "type" "No database type given")

def stepLabel : DatabaseStep → String
  | .created => "created"
  | .usedExisting => "existing"

def summary (r : Report) : String :=
  let skipped := if r.skipped.isEmpty then [] else
    s!"  Skipped: {r.skipped.length}" :: r.skipped.map ("    - " ++ ·)
  let lines :=
    ["", s!"Database {r.database} ready on {r.engine.name}", "  Database: " ++ stepLabel r.step,
      s!"  Tables: {r.tablesCreated}", s!"  Primary keys: {r.primaryKeysCreated}",
      s!"  Relations: {r.relationsCreated}", s!"  Statements: {r.statementsExecuted}"] ++ skipped
  String.join (lines.map (· ++ "\n"))

/-- Prints a script or writes it to a file. Gives what is printed. -/
def writeScript (path script : String) : HostTask String :=
  if path == "-" then return script
  else do
    HostTask.ofFiles (ExceptT.mk do
      return (← FileTask.write path script).mapError FileError.fault)
    return ""

/-- What is printed, and the fault that still makes the program fail. -/
abbrev Printed := String × Option Fault

def runScript (r : Run) (path : String) : HostTask Printed := do
  let (script, c) ← HostTask.ofExcept r.script
  let output ← writeScript path script
  return (output, if c.isComplete then none else some (.incomplete c.failures))

def runCreate (r : Run) (asJson : Bool) : HostTask Printed := do
  let report ← r.create
  let output := if asJson then report.toJson.pretty ++ "\n" else summary report
  return (output, report.incompleteness?)

def execute (a : Arguments) : HostTask Printed := do
  HostTask.ofExcept (checkLog a)
  let config ← configure a
  let r ← HostTask.ofFiles (Run.ofConfig config)
  match a.get? .script with
  | some path => runScript r path
  | none => runCreate r (a.has .outputJson)

/-- How a fault is reported: with instructions where the arguments are to blame, and with its
details elsewhere. -/
def complaint (f : Fault) : String :=
  match f with
  | .missingFile _ => f.message ++ "\n"
  | f =>
    if f.isArgument then
      "-- Error --\n" ++ f.message ++ "\n\n-- Instructions --\n" ++ help ++ "\n"
    else f.detailed ++ "\n"

def outcome (r : Except Fault Printed) : Outcome :=
  match r with
  | .ok (output, none) => { output }
  | .ok (output, some f) => { output, errors := complaint f, status := f.exitStatus }
  | .error f => { errors := complaint f, status := f.exitStatus }

/-- Runs the program. -/
def run (arguments : List String) : Dialogue HostQuery HostQuery.Reply Outcome :=
  match Arguments.read arguments with
  | .error .help => return { output := help }
  | .error .version => return { output := version }
  | .error .malformed =>
    return { errors := "error: malformed arguments\n\nFor more information, try '--help'.\n"
             status := malformedStatus }
  | .ok a => do return outcome (← (execute a).run)

end Tabular.CommandLine
