import Tabular.Engine
import Tabular.Files.Basic
import Tabular.Options
import Tabular.Schema.Document
import Tabular.Text.Quoted
import Tabular.Yaml.Document

/-!
The configuration of a run: where the schema is, what to create and where.
-/
namespace Tabular

/-- The engine to create a database on, and how to reach it. -/
structure Target where
  engine : Engine
  /-- The host of a server, or the directory of catalogs. -/
  location : Option String := none
  port : UInt16 := 1433
  user : String := ""
  password : String := ""
  /-- Encrypt the connection. -/
  encrypt : Bool := true
  /-- Take the server's certificate as it is. -/
  trustCertificate : Bool := false
  /-- Seconds to wait for a connection. -/
  connectTimeout : UInt64 := 30
  deriving DecidableEq, Repr

structure Config where
  schemaFile : Option String := none
  /-- The name of the database, if it is not that of the schema. -/
  database : Option String := none
  target : Target
  create : Options := {}
  deriving DecidableEq, Repr

open Document

section Reading

variable {ν : Type} [Document ν]

def Engine.read? (v : ν) : Option Engine := do Engine.ofName? (← variant? v)

def Target.fieldNames : List String :=
  ["type", "location", "port", "user", "password", "encrypt", "trust_server_cert",
    "connect_timeout_secs"]

def Target.read? (v : ν) : Option Target := do
  let fs ← fields? Target.fieldNames v
  return { engine := ← required fs "type" Engine.read?
           location := ← optional fs "location" text?
           port := ← withDefault fs "port" 1433 uint16?
           user := ← withDefault fs "user" "" text?
           password := ← withDefault fs "password" "" text?
           encrypt := ← withDefault fs "encrypt" true flag?
           trustCertificate := ← withDefault fs "trust_server_cert" false flag?
           connectTimeout := ← withDefault fs "connect_timeout_secs" 30 uint64? }

def Config.fieldNames : List String := ["schema_file", "database", "target", "create"]

def Config.read? (v : ν) : Option Config := do
  let fs ← fields? Config.fieldNames v
  return { schemaFile := ← optional fs "schema_file" text?
           database := ← optional fs "database" text?
           target := ← required fs "target" Target.read?
           create := ← withDefault fs "create" {} Options.read? }

end Reading

namespace Target

/-- Is no location given? -/
def lacksLocation (t : Target) : Bool := t.location.all isBlankText

/-- The directory of catalogs, the working directory unless one is given. -/
def catalogDirectory (t : Target) : String :=
  match t.location with
  | some l => if isBlankText l then "." else l
  | none => "."

/-- The first defect of a target. -/
def defect? (t : Target) : Option String :=
  if t.engine == .oledb then
    some "target.type 'oledb' is not supported (use 'sql' or 'jet')"
  else if t.engine.requiresLocation && t.lacksLocation then
    some s!"target.location (server host) is required for type '{t.engine.name}'"
  else if t.engine == .sql && t.port == 0 then some "target.port must be non-zero"
  else if t.engine == .sql && isBlankText t.user then some "target.user is required for type 'sql'"
  else if t.connectTimeout == 0 then some "target.connect_timeout_secs must be at least 1"
  else none

/-- What engines are called in descriptions of targets. -/
def engineLabel : Engine → String
  | .sql => "Sql"
  | .jet => "Jet"
  | .oledb => "OleDb"

/-- A description that keeps the password to itself. -/
def describe (t : Target) : String :=
  let location := match t.location with
    | some l => "Some(" ++ quoted l ++ ")"
    | none => "None"
  "TargetConfig \x7b engine: " ++ engineLabel t.engine ++ ", location: " ++ location ++
    s!", port: {t.port}, user: " ++ quoted t.user ++ ", password: \"[REDACTED]\"" ++
    s!", encrypt: {t.encrypt}, trust_server_cert: {t.trustCertificate}" ++
    s!", connect_timeout_secs: {t.connectTimeout} \x7d"

/-- The target without its password. -/
def toJson (t : Target) : Json :=
  .object [("type", .string t.engine.name), ("location", Json.optionalText t.location),
    ("port", .nat t.port.toNat), ("user", .string t.user), ("encrypt", .bool t.encrypt),
    ("trust_server_cert", .bool t.trustCertificate),
    ("connect_timeout_secs", .nat t.connectTimeout.toNat)]

end Target

namespace Config

/-- The first defect of a configuration. -/
def defect? (c : Config) : Option String :=
  c.target.defect?.or
    (if c.database.any isBlankText then some "database must not be empty" else none)

def validate (c : Config) : Except Fault Unit :=
  match c.defect? with
  | some message => .error (.config message)
  | none => .ok ()

/-- Reads a configuration, which is not validated yet. -/
def parse (yaml : String) : Except Fault Config :=
  match Yaml.read? read? yaml with
  | some c => .ok c
  | none => .error (.yaml "not a configuration")

/-- Reads the configuration in a file. -/
def load (path : String) : ExceptT Fault FileTask Config := do
  let text ← ExceptT.mk (do return (← FileTask.read path).mapError FileError.fault)
  ExceptT.mk (pure (parse text))

def toJson (c : Config) : Json :=
  .object [("schema_file", Json.optionalText c.schemaFile),
    ("database", Json.optionalText c.database), ("target", c.target.toJson),
    ("create", c.create.toJson)]

end Config

end Tabular
