/-!
What can go wrong, as causes. The wording of each cause, its exit status and its detailed text are
functions of the cause.
-/
namespace Tabular

inductive Fault where
  /-- Malformed or missing input for a named schema, table or relation. -/
  | argument (entity message : String)
  /-- A column's abstract type has no counterpart on the engine. -/
  | unsupportedType (table column typeName engineName : String)
  /-- The engine refused an operation, perhaps with a native code. -/
  | engine (code : Option Int) (message : String)
  /-- A connection or catalog could not be acquired or released. -/
  | resource (message context : String)
  | config (message : String)
  | missingFile (path : String)
  /-- A schema source that could not be understood. -/
  | schemaFormat (message : String)
  /-- Some entities were skipped while the others were created. -/
  | incomplete (failures : List Fault)
  | io (message : String)
  | yaml (message : String)
  | json (message : String)
  deriving Repr, Inhabited

namespace Fault

/-- The text shown to a user. -/
def message : Fault → String
  | argument entity message => s!"Invalid argument for {entity}: {message}"
  | unsupportedType table column typeName engineName =>
    s!"No type mapping is provided for {typeName} on {engineName} (column {table}.{column})"
  | engine (some code) message => s!"Database engine error {code}: {message}"
  | engine none message => s!"Database engine error: {message}"
  | resource message context => s!"Resource error: {message}\n  Context: {context}"
  | config message => s!"Configuration error: {message}"
  | missingFile path => s!"File not found: {path}"
  | schemaFormat message => s!"Schema format error: {message}"
  | incomplete failures =>
    let count := failures.length
    s!"{count} schema entities were skipped"
  | io message => s!"IO error: {message}"
  | yaml message => s!"YAML error: {message}"
  | json message => s!"JSON error: {message}"

/-- Charges a fault about an identifier to the table or relation it was found in; every other fault
stays as it is. -/
def forEntity (f : Fault) (entity : String) : Fault :=
  match f with
  | argument identifier message =>
    if identifier == entity then argument identifier message
    else argument entity s!"{message} (identifier {identifier})"
  | f => f

/-- Caused by bad input and not by the surroundings. -/
def isArgument : Fault → Bool
  | argument .. | config _ | schemaFormat _ => true
  | _ => false

def engineCode? : Fault → Option Int
  | engine code _ => code
  | _ => none

mutual

/-- The exit status of a program that ends with this fault. -/
def exitStatus : Fault → Nat
  | argument .. | config _ | schemaFormat _ | yaml _ | json _ => 1
  | unsupportedType .. => 3
  | engine .. => 4
  | resource .. => 5
  | missingFile _ => 6
  | io _ => 7
  | incomplete [] => 1
  | incomplete (f :: fs) => max f.exitStatus (greatestStatus fs)

def greatestStatus : List Fault → Nat
  | [] => 0
  | f :: fs => max f.exitStatus (greatestStatus fs)

end

/-- The cause underneath, if the fault only passes one on. -/
def cause? : Fault → Option String
  | io message => some message
  | _ => none

/-- The message, a line for each skipped entity and the cause underneath. -/
def detailed (f : Fault) : String :=
  let skipped := match f with
    | incomplete failures => String.join (failures.map fun x => "  - " ++ x.message ++ "\n")
    | _ => ""
  let cause := match f.cause? with
    | some text => "\nCaused by:\n  1: " ++ text
    | none => ""
  "Error: " ++ f.message ++ "\n" ++ skipped ++ cause

end Fault

end Tabular
