import Tabular.Options
import Tabular.Statement
import Tabular.Validation

/-!
From a schema to SQL Server statements: the database, then every table, then every primary key,
then every foreign key, each group in declared order. A table or relation that cannot be expressed
is left out with a fault, and the rest is compiled all the same.
-/
namespace Tabular

/-- Statements with the entities left out and the warnings about lossy types. -/
structure Compilation where
  statements : List Statement := []
  failures : List Fault := []
  warnings : List String := []
  deriving Repr, Inhabited

namespace Compilation

def ofKind (c : Compilation) (k : CommandKind) : List Statement :=
  c.statements.filter (·.kind == k)

def isComplete (c : Compilation) : Bool := c.failures.isEmpty

/-- One batch for each statement. Without a separator the statements follow each other. -/
def script (c : Compilation) (separator : Option String) : String :=
  let close := match separator with
    | some s => s ++ "\n"
    | none => ""
  String.join (c.statements.map fun s => s.sql ++ "\n" ++ close)

end Compilation

def succeeded {ε α : Type} (rs : List (Except ε α)) : List α := rs.filterMap Except.toOption

def failed {ε α : Type} (rs : List (Except ε α)) : List ε :=
  rs.filterMap fun
    | .error e => some e
    | .ok _ => none

/-- Charges the faults of a computation to an entity. -/
def chargedTo {α : Type} (entity : String) (r : Except Fault α) : Except Fault α :=
  r.mapError (·.forEntity entity)

/-- The statement that creates a database, with no prefix on its name. -/
def createDatabaseStatement (o : Options) (database : String) : Except Fault Statement := do
  if isBlankText database then
    throw (.argument "databaseName" "The database name passed is empty")
  let name ← Identifier.forServer database
  return ⟨database, .createDatabase name o.overwrite⟩

namespace Options

def qualified (o : Options) (table : String) : Except Fault QualifiedName := do
  let name ← Identifier.forServer (o.tablePrefix ++ table)
  QualifiedName.ofOwner o.owner name

end Options

def serverNames (names : List String) : Except Fault (List Identifier) :=
  names.mapM Identifier.forServer

namespace Table

/-- The definitions of a table's columns, with the warnings about those before the first fault. -/
def columnDefinitions (t : Table) :
    List Column → List String × Except Fault (List ColumnDefinition)
  | [] => ([], .ok [])
  | c :: cs =>
    match chargedTo t.name (Identifier.forServer c.name) with
    | .error e => ([], .error e)
    | .ok name =>
      match c.sqlType t with
      | .error e => ([], .error e)
      | .ok type =>
        let warning := (c.sqlLoss?.map fun loss => s!"{t.name}.{c.name}: {loss}").toList
        let (warnings, rest) := columnDefinitions t cs
        (warning ++ warnings, rest.map (⟨name, type⟩ :: ·))

/-- The statement that creates a table, and the warnings on the way. -/
def createStatement (t : Table) (o : Options) : List String × Except Fault Statement :=
  match chargedTo t.name (o.qualified t.name) with
  | .error e => ([], .error e)
  | .ok name =>
    let (warnings, columns) := t.columnDefinitions t.columns
    (warnings, columns.map fun cs => ⟨t.name, .createTable name cs⟩)

def primaryKeyStatement (t : Table) (o : Options) : Except Fault Statement := do
  let name ← o.qualified t.name
  let constraint ← Identifier.forServer ("PK_" ++ o.tablePrefix ++ t.name)
  let columns ← serverNames t.keyColumns
  return ⟨t.name, .primaryKey name constraint columns⟩

end Table

namespace Relation

def foreignKeyStatement (r : Relation) (o : Options) : Except Fault Statement := do
  let child ← o.qualified r.childTable
  let parent ← o.qualified r.parentTable
  let constraint ← Identifier.forServer r.name
  let childColumns ← serverNames r.childColumns
  let parentColumns ← serverNames r.parentColumns
  return ⟨r.name, .foreignKey child constraint childColumns parent parentColumns⟩

/-- A foreign key needs both of its tables. -/
def compile (r : Relation) (o : Options) (created : List String) : Except Fault Statement :=
  match [r.parentTable, r.childTable].find? (!created.contains ·) with
  | some missing =>
    .error (.argument r.name s!"skipped because table {missing} was not created")
  | none => chargedTo r.name (r.foreignKeyStatement o)

end Relation

namespace Schema

/-- The sound tables with their statements, or the faults that stand in for them. -/
def tableResults (s : Schema) (o : Options) :
    List (Table × List String × Except Fault Statement) :=
  (s.soundTables .script).map fun t => (t, t.createStatement o)

/-- The tables that got a statement. -/
def createdTables (s : Schema) (o : Options) : List Table :=
  (s.tableResults o).filterMap fun
    | (t, _, .ok _) => some t
    | (_, _, .error _) => none

def keyResults (s : Schema) (o : Options) : List (Except Fault Statement) :=
  ((s.createdTables o).filter (·.hasKey)).map fun t => chargedTo t.name (t.primaryKeyStatement o)

def relationResults (s : Schema) (o : Options) : List (Except Fault Statement) :=
  let created := (s.createdTables o).map (·.name)
  (s.soundRelations .script).map fun r => r.compile o created

/-- Tables, primary keys and relations. -/
def compileEntities (s : Schema) (o : Options) : Compilation :=
  let tables := s.tableResults o
  let tableStatements := tables.map (·.2.2)
  let keys := s.keyResults o
  let relations := s.relationResults o
  { statements := succeeded tableStatements ++ succeeded keys ++ succeeded relations
    failures :=
      s.entityFaults .script ++ failed tableStatements ++ failed keys ++ failed relations
    warnings := tables.flatMap (·.2.1) }

/-- The whole schema, with the database in front unless it exists already. -/
def compile (s : Schema) (o : Options) : Compilation :=
  let c := s.compileEntities o
  if o.useExisting then c
  else
    match createDatabaseStatement o s.name with
    | .ok statement => { c with statements := statement :: c.statements }
    | .error e => { c with failures := e :: c.failures }

/-- Puts a statement behind the statement that creates the database. -/
def insertUse (use : Statement) : List Statement → List Statement
  | [] => [use]
  | s :: ss => if s.kind == .createDatabase then s :: insertUse use ss else use :: s :: ss

/-- A script to be run on its own, which switches into the database. -/
def compileScript (s : Schema) (o : Options) : Compilation :=
  let c := s.compile o
  match Identifier.forServer s.name with
  | .ok database =>
    { c with statements := insertUse ⟨s.name, .useDatabase database⟩ c.statements }
  | .error _ => c

end Schema

end Tabular
