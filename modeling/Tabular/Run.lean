import Tabular.Catalog.Creation
import Tabular.Config
import Tabular.Schema.Source
import Tabular.Server.Creation

/-!
A run: a schema with the configuration to create it by, on whichever engine the configuration
targets, or as a script.
-/
namespace Tabular

/-- A step on files, or on the server of a target. -/
inductive HostQuery where
  | file (q : FileQuery)
  | server (target : Target) (q : ServerQuery)
  deriving DecidableEq, Repr

def HostQuery.Reply : HostQuery → Type
  | file q => q.Reply
  | server _ q => q.Reply

/-- A computation over files and servers. -/
abbrev HostTask := ExceptT Fault (Dialogue HostQuery HostQuery.Reply)

namespace HostTask

def ofFiles {α : Type} (task : ExceptT Fault FileTask α) : HostTask α :=
  ExceptT.mk (task.run.answer fun q => Dialogue.query (HostQuery.file q))

def ofServer {α : Type} (target : Target) (task : ServerTask α) : HostTask α :=
  ExceptT.mk (task.run.answer fun q => Dialogue.query (HostQuery.server target q))

def ofExcept {α : Type} (r : Except Fault α) : HostTask α := ExceptT.mk (pure r)

end HostTask

/-- Where a database is created. -/
inductive Destination where
  | server (target : Target)
  | directory (d : CatalogDirectory)
  deriving DecidableEq, Repr

namespace Destination

def ofTarget (t : Target) : Except Fault Destination :=
  match t.engine with
  | .sql => .ok (.server t)
  | .jet => .ok (.directory ⟨t.catalogDirectory⟩)
  | .oledb => .error (.argument "type" "The OleDb engine type is not supported")

def engine : Destination → Engine
  | server _ => .sql
  | directory _ => .jet

/-- Creates a database without tables. -/
def createDatabase (d : Destination) (s : Schema) (overwrite : Bool) : HostTask Unit :=
  match d with
  | server t => HostTask.ofServer t (Server.createDatabase s overwrite)
  | directory d => HostTask.ofFiles (d.createDatabase s overwrite)

/-- Creates the database of a schema with its tables and keys. -/
def create (d : Destination) (s : Schema) (o : Options) : HostTask Report :=
  match d with
  | server t => HostTask.ofServer t (Server.create s o)
  | directory d => HostTask.ofFiles (d.create s o)

end Destination

structure Run where
  config : Config
  schema : Schema
  deriving DecidableEq, Repr

namespace Run

/-- A run for a schema, under the name that the configuration gives it. -/
def ofSchema (c : Config) (s : Schema) : Except Fault Run := do
  c.target.engine.ensureSupported
  match c.database with
  | none => return ⟨c, s⟩
  | some name =>
    if isBlankText name then throw (.argument "name" "The database name passed is empty")
    return ⟨c, { s with name }⟩

/-- A run for the schema in the configured file. -/
def ofConfig (c : Config) : ExceptT Fault FileTask Run := do
  ExceptT.mk (pure c.target.engine.ensureSupported)
  match c.schemaFile with
  | none => throw (.argument "schema" "No schema file given")
  | some path =>
    let s ← Schema.load path
    ExceptT.mk (pure (ofSchema c s))

/-- Creates the database. -/
def create (r : Run) : HostTask Report := do
  HostTask.ofExcept r.config.validate
  let d ← HostTask.ofExcept (Destination.ofTarget r.config.target)
  d.create r.schema r.config.create

/-- The script in place of a connection, with its compilation. -/
def script (r : Run) : Except Fault (String × Compilation) :=
  let engine := r.config.target.engine
  if engine == .sql then
    let c := r.schema.compileScript r.config.create
    .ok (c.script (some SqlText.batchSeparator), c)
  else
    .error (.argument "script"
      s!"Script output is only available for the sql engine, not {engine.name}")

end Run

end Tabular
