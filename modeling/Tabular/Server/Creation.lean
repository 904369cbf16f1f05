import Tabular.Compilation
import Tabular.Report
import Tabular.Server.Basic

/-!
From a schema to a database on a server. The statement that creates the database runs on a
connection of its own; all others run on one connection to the database, which is closed whether
they succeed or not.
-/
namespace Tabular

namespace Server

/-- The name of the database of a schema. -/
def databaseName (s : Schema) : Except Fault String := do
  if isBlankText s.name then
    throw (.argument "databaseName" "The database name passed is empty")
  return (← Identifier.forServer s.name).bare

/-- Creates a database without tables. -/
def createDatabase (s : Schema) (overwrite : Bool) : ServerTask Unit := do
  let statement ← ExceptT.mk (pure (createDatabaseStatement { overwrite } s.name))
  let c ← ServerTask.connect none
  ServerTask.thenClose c (ServerTask.execute c statement.sql)

/-- The report before anything is executed in the database. The statement that made the database
counts. -/
def startReport (s : Schema) (o : Options) (database : String) : Report :=
  let base : Report :=
    { engine := .sql, database
      step := if o.useExisting then .usedExisting else .created
      statementsExecuted := if o.useExisting then 0 else 1 }
  base.skipAll (s.compileEntities o).failures

/-- Executes statements in order, and counts each of them in a report. -/
def executeAll (c : Connection) (ss : List Statement) (r : Report) : ServerTask Report :=
  ss.foldlM (fun r x => do ServerTask.execute c x.sql; return r.countExecuted x.kind) r

/-- Creates the database of a schema with its tables and keys. -/
def create (s : Schema) (o : Options) : ServerTask Report := do
  let database ← ExceptT.mk (pure (databaseName s))
  if !o.useExisting then createDatabase s o.overwrite
  let report := startReport s o database
  let c ← ServerTask.connect (some database)
  ServerTask.thenClose c (executeAll c (s.compileEntities o).statements report)

end Server

end Tabular
