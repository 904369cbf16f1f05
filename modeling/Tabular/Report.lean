import Tabular.Engine
import Tabular.Json.Basic
import Tabular.Statement

/-!
The summary of a run that creates a database.
-/
namespace Tabular

inductive DatabaseStep where
  /-- The database was created, recreated or kept. -/
  | created
  /-- The run was told to use a database that exists. -/
  | usedExisting
  deriving DecidableEq, Repr, Inhabited

def DatabaseStep.name : DatabaseStep → String
  | created => "created"
  | usedExisting => "used_existing"

structure Report where
  engine : Engine
  database : String
  step : DatabaseStep
  statementsExecuted : Nat := 0
  tablesCreated : Nat := 0
  primaryKeysCreated : Nat := 0
  relationsCreated : Nat := 0
  /-- The entities left out, as texts. -/
  skipped : List String := []
  /-- The faults behind them, until they are taken. -/
  failures : List Fault := []
  deriving Repr, Inhabited

namespace Report

def skip (r : Report) (f : Fault) : Report :=
  { r with skipped := r.skipped ++ [f.message], failures := r.failures ++ [f] }

def skipAll (r : Report) (fs : List Fault) : Report := fs.foldl skip r

/-- Counts what was made. Databases are not counted. -/
def count (r : Report) : CommandKind → Report
  | .createTable => { r with tablesCreated := r.tablesCreated + 1 }
  | .primaryKey => { r with primaryKeysCreated := r.primaryKeysCreated + 1 }
  | .foreignKey => { r with relationsCreated := r.relationsCreated + 1 }
  | .createDatabase | .useDatabase => r

/-- Counts a statement that was executed, and what it made. -/
def countExecuted (r : Report) (k : CommandKind) : Report :=
  { r with statementsExecuted := r.statementsExecuted + 1 }.count k

/-- Notes what was to be made: it counts, or it is skipped with its fault. -/
def note (r : Report) (k : CommandKind) : Option Fault → Report
  | none => r.count k
  | some f => r.skip f

def isComplete (r : Report) : Bool := r.failures.isEmpty

/-- The faults as one, if there are any. -/
def incompleteness? (r : Report) : Option Fault :=
  if r.isComplete then none else some (.incomplete r.failures)

/-- Takes the faults out of a report. -/
def takeFailures (r : Report) : Option Fault × Report :=
  (r.incompleteness?, { r with failures := [] })

theorem skipAll_eq (r : Report) (fs : List Fault) :
    r.skipAll fs = { r with skipped := r.skipped ++ fs.map Fault.message
                            failures := r.failures ++ fs } := by
  induction fs generalizing r with
  | nil => simp [skipAll]
  | cons f fs ih =>
    have rest := ih (r.skip f)
    simp_all [skipAll, skip]

@[simp] theorem failures_skipAll (r : Report) (fs : List Fault) :
    (r.skipAll fs).failures = r.failures ++ fs := by
  rw [skipAll_eq]

theorem foldl_count (r : Report) (ks : List CommandKind) :
    ks.foldl count r =
      { r with tablesCreated := r.tablesCreated + ks.count .createTable
               primaryKeysCreated := r.primaryKeysCreated + ks.count .primaryKey
               relationsCreated := r.relationsCreated + ks.count .foreignKey } := by
  induction ks generalizing r with
  | nil => rfl
  | cons k ks ih =>
    rw [List.foldl_cons, ih]
    cases k <;> simp [count, Nat.add_comm, Nat.add_left_comm]

theorem foldl_countExecuted (r : Report) (ks : List CommandKind) :
    ks.foldl countExecuted r =
      { ks.foldl count r with statementsExecuted := r.statementsExecuted + ks.length } := by
  induction ks generalizing r with
  | nil => rfl
  | cons k ks ih =>
    rw [List.foldl_cons, ih, foldl_count, foldl_count]
    cases k <;> simp [countExecuted, count, Nat.add_comm, Nat.add_left_comm]

def toJson (r : Report) : Json :=
  .object [("engine", .string r.engine.name), ("database", .string r.database),
    ("database_step", .string r.step.name), ("statements_executed", .nat r.statementsExecuted),
    ("tables_created", .nat r.tablesCreated),
    ("primary_keys_created", .nat r.primaryKeysCreated),
    ("relations_created", .nat r.relationsCreated),
    ("skipped", .array (r.skipped.map .string))]

end Report

end Tabular
