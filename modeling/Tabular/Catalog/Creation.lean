import Tabular.Catalog.Handle
import Tabular.Compilation
import Tabular.Report

/-!
From a schema to a catalog in a directory: every table, then every primary key, then every foreign
key. A table that cannot be expressed is left out; a refusal of the catalog ends the run, and the
catalog is closed either way.
-/
namespace Tabular

/-- A computation over an open catalog. What it has changed stays changed if it fails. -/
abbrev CatalogSession := ExceptT Fault (StateT CatalogHandle FileTask)

namespace CatalogSession

/-- A session of one operation. -/
def ofStep {α : Type} (step : CatalogHandle → FileTask (Except Fault α × CatalogHandle)) :
    CatalogSession α :=
  ExceptT.mk step

def ofExcept {α : Type} (r : Except Fault α) : CatalogSession α := ExceptT.mk (pure r)

end CatalogSession

def catalogName (name : String) : Except Fault String := do
  return (← Identifier.forCatalog name).bare

def catalogNames (names : List String) : Except Fault (List String) := names.mapM catalogName

namespace Table

/-- The name of a table in a catalog. -/
def storedName (t : Table) (o : Options) : Except Fault String :=
  catalogName (o.tablePrefix ++ t.name)

def storedColumns (t : Table) : Except Fault (List StoredColumn) :=
  t.columns.mapM fun column => do
    let type ← column.nativeType t
    return ⟨← catalogName column.name, type⟩

/-- Appends a table, in place of one of that name. -/
def append (t : Table) (o : Options) : CatalogSession Unit := do
  let name ← CatalogSession.ofExcept (t.storedName o)
  if ((← get).catalog.table? name).isSome then CatalogSession.ofStep (·.dropTable name)
  let columns ← CatalogSession.ofExcept t.storedColumns
  CatalogSession.ofStep (·.appendTable name columns)

/-- Appends a table, or tells why it is left out. -/
def appendOrSkip (t : Table) (o : Options) : CatalogSession (Option Fault) :=
  tryCatch (do t.append o; return none) fun
    | .argument entity message => return some ((Fault.argument entity message).forEntity t.name)
    | .unsupportedType table column typeName engineName =>
      return some (.unsupportedType table column typeName engineName)
    | e => throw e

/-- The primary key has the name of its table. -/
def storedKey (t : Table) (name : String) : Except Fault StoredKey := do
  return .primary name (← catalogNames t.keyColumns)

def appendKey (t : Table) (o : Options) : CatalogSession Unit := do
  let name ← CatalogSession.ofExcept (t.storedName o)
  let key ← CatalogSession.ofExcept (t.storedKey name)
  CatalogSession.ofStep (·.appendKey name key)

end Table

namespace Relation

/-- The foreign key of a relation, with the name of its table. -/
def storedKey (r : Relation) (o : Options) : Except Fault (String × StoredKey) := do
  let child ← catalogName (o.tablePrefix ++ r.childTable)
  let parent ← catalogName (o.tablePrefix ++ r.parentTable)
  let name ← catalogName r.name
  let childColumns ← catalogNames r.childColumns
  let parentColumns ← catalogNames r.parentColumns
  return (child, .foreign name childColumns parent parentColumns)

/-- Appends the foreign key of a relation between created tables, or tells why it is left out. -/
def appendOrSkip (r : Relation) (o : Options) (created : List String) :
    CatalogSession (Option Fault) := do
  if !created.contains r.parentTable || !created.contains r.childTable then
    return some (.argument r.name "skipped because a related table was not created")
  let (table, key) ← CatalogSession.ofExcept (r.storedKey o)
  CatalogSession.ofStep (·.appendKey table key)
  return none

end Relation

namespace CatalogSession

/-- Appends elements in order, and notes each of them in a report. Gives the elements appended. -/
def appendEach {α : Type} (kind : CommandKind) (append : α → CatalogSession (Option Fault)) :
    Report → List α → CatalogSession (List α × Report)
  | r, [] => return ([], r)
  | r, x :: xs => do
    let fault ← append x
    let (appended, r) ← appendEach kind append (r.note kind fault) xs
    match fault with
    | none => return (x :: appended, r)
    | some _ => return (appended, r)

end CatalogSession

namespace Schema

/-- Appends the tables, the primary keys and the foreign keys of a schema. -/
def populate (s : Schema) (o : Options) (step : DatabaseStep) : CatalogSession Report := do
  let report : Report := { engine := .jet, database := s.name, step }
  let (tables, report) ←
    CatalogSession.appendEach .createTable (Table.appendOrSkip · o)
      (report.skipAll (s.entityFaults .catalog)) (s.soundTables .catalog)
  let report ← (tables.filter (·.hasKey)).foldlM
    (fun r t => do t.appendKey o; return r.count .primaryKey) report
  let (_, report) ←
    CatalogSession.appendEach .foreignKey (Relation.appendOrSkip · o (tables.map (·.name)))
      report (s.soundRelations .catalog)
  return report

end Schema

/-- The directory that catalogs stand in. -/
structure CatalogDirectory where
  path : String
  deriving DecidableEq, Repr

namespace CatalogDirectory

def working : CatalogDirectory := ⟨"."⟩

/-- The path of the catalog of a database. -/
def catalogPath (d : CatalogDirectory) (database : String) : Except Fault String := do
  if isBlankText database then
    throw (.argument "databaseName" "The database name passed is empty")
  return CatalogHandle.pathOf d.path (← catalogName database)

/-- Creates a catalog. One that exists is opened, or deleted first if it is to be overwritten. -/
def openOrCreate (d : CatalogDirectory) (database : String) (overwrite : Bool) :
    ExceptT Fault FileTask CatalogHandle := do
  let path ← d.catalogPath database
  let present ← ExceptT.lift (FileTask.isFile path)
  if present && !overwrite then ExceptT.mk (CatalogHandle.openAt path)
  else
    if present then ExceptT.mk (CatalogHandle.delete path)
    ExceptT.mk (CatalogHandle.create path database)

/-- Creates a catalog without tables. -/
def createDatabase (d : CatalogDirectory) (s : Schema) (overwrite : Bool) :
    ExceptT Fault FileTask Unit := do
  let h ← d.openOrCreate s.name overwrite
  ExceptT.mk h.close

def openFor (d : CatalogDirectory) (s : Schema) (o : Options) :
    ExceptT Fault FileTask (CatalogHandle × DatabaseStep) := do
  if o.useExisting then
    return (← ExceptT.mk (CatalogHandle.openAt (← d.catalogPath s.name)), .usedExisting)
  else return (← d.openOrCreate s.name o.overwrite, .created)

/-- Creates the catalog of a schema with its tables and keys. A fault of the session wins over one
of closing the catalog. -/
def create (d : CatalogDirectory) (s : Schema) (o : Options) : ExceptT Fault FileTask Report := do
  let (h, step) ← d.openFor s o
  let (populated, h) ← ExceptT.lift ((s.populate o step).run.run h)
  let closed ← ExceptT.lift h.close
  let report ← ExceptT.mk (pure populated)
  ExceptT.mk (pure closed)
  return report

end CatalogDirectory

end Tabular
