import Tabular.Identifier
import Tabular.Schema

/-!
Structural validation of a schema. Tables and relations are judged by position, so that a repeated
name only invalidates the later declaration, and each is charged with its first defect.
-/
namespace Tabular

/-- What the schema is validated for. -/
inductive ValidationMode where
  /-- A script, in which every table needs a column. -/
  | script
  /-- A catalog, which can hold tables without columns. -/
  | catalog
  deriving DecidableEq, Repr

def isValidName (name : String) : Bool := (Identifier.validate name).isOk

inductive TableDefect where
  | invalidName
  | repeated
  | noColumns
  | invalidColumnName (name : String)
  | repeatedColumn (name : String)
  | unresolvedType (sourceName column : String)
  | emptyKey
  | missingKeyColumn (name : String)
  deriving DecidableEq, Repr

def TableDefect.message : TableDefect → String
  | invalidName => "invalid table name"
  | repeated => "Table is declared more than once"
  | noColumns => "Table does not contain any columns"
  | invalidColumnName name => "invalid column name " ++ quoted name
  | repeatedColumn name => s!"Column {name} is declared more than once"
  | unresolvedType sourceName column => s!"cannot resolve type '{sourceName}' of column {column}"
  | emptyKey => "Primary key has an empty column list"
  | missingKeyColumn name => s!"Primary key column {name} does not exist"

inductive Side where
  | parent | child
  deriving DecidableEq, Repr

def Side.name : Side → String
  | parent => "parent"
  | child => "child"

inductive RelationDefect where
  | repeated
  | invalidName
  | emptyColumns
  | unevenColumns (parents children : Nat)
  | missingTable (side : Side) (table : String)
  | missingColumn (side : Side) (table column : String)
  deriving DecidableEq, Repr

def RelationDefect.message : RelationDefect → String
  | repeated => "Relationship is declared more than once"
  | invalidName => "invalid relation name"
  | emptyColumns => "Relationship has an empty column list"
  | unevenColumns parents children =>
    s!"Relationship pairs {parents} parent columns with {children} child columns"
  | missingTable side table => s!"{side.name} table {table} does not exist"
  | missingColumn side table column => s!"{side.name} column {table}.{column} does not exist"

namespace Table

/-- The first defect of the columns after columns named `seen`. -/
def columnDefect? (seen : List String) : List Column → Option TableDefect
  | [] => none
  | c :: cs =>
    if !isValidName c.name then some (.invalidColumnName c.name)
    else if seen.contains c.name then some (.repeatedColumn c.name)
    else if c.type.isNone then some (.unresolvedType (c.sourceType.getD "?") c.name)
    else columnDefect? (c.name :: seen) cs

def keyDefect? (t : Table) : Option TableDefect :=
  match t.primaryKey with
  | none => none
  | some [] => some .emptyKey
  | some key => (key.find? fun c => (t.column? c).isNone).map .missingKeyColumn

/-- The first defect of a table, its name apart. -/
def bodyDefect? (mode : ValidationMode) (t : Table) : Option TableDefect :=
  if t.columns.isEmpty && mode == .script then some .noColumns
  else (columnDefect? [] t.columns).or t.keyDefect?

/-- The defects of tables after tables named `seen`. An invalid name is not remembered. -/
def defects (mode : ValidationMode) (seen : List String) : List Table → List (Option TableDefect)
  | [] => []
  | t :: ts =>
    if !isValidName t.name then some .invalidName :: defects mode seen ts
    else if seen.contains t.name then some .repeated :: defects mode seen ts
    else t.bodyDefect? mode :: defects mode (t.name :: seen) ts

end Table

namespace Relation

def sideDefect? (s : Schema) (side : Side) (table : String) (columns : List String) :
    Option RelationDefect :=
  match s.table? table with
  | none => some (.missingTable side table)
  | some t => (columns.find? fun c => (t.column? c).isNone).map (.missingColumn side table)

/-- The first defect of a relation, a repeated name apart. -/
def bodyDefect? (s : Schema) (r : Relation) : Option RelationDefect :=
  if !isValidName r.name then some .invalidName
  else if r.parentColumns.isEmpty || r.childColumns.isEmpty then some .emptyColumns
  else if r.parentColumns.length != r.childColumns.length then
    some (.unevenColumns r.parentColumns.length r.childColumns.length)
  else
    (sideDefect? s .parent r.parentTable r.parentColumns).or
      (sideDefect? s .child r.childTable r.childColumns)

/-- The defects of relations after relations named `seen`. -/
def defects (s : Schema) (seen : List String) : List Relation → List (Option RelationDefect)
  | [] => []
  | r :: rs =>
    (if seen.contains r.name then some .repeated else r.bodyDefect? s) ::
      defects s (r.name :: seen) rs

end Relation

/-- What a violation is about, by name. -/
inductive Entity where
  | schema (name : String)
  | table (name : String)
  | relation (name : String)
  deriving DecidableEq, Repr

namespace Entity

def kind : Entity → String
  | schema _ => "schema"
  | table _ => "table"
  | relation _ => "relation"

def name : Entity → String
  | schema n | table n | relation n => n

end Entity

structure Violation where
  entity : Entity
  message : String
  deriving DecidableEq, Repr

def Violation.fault (v : Violation) : Fault := .argument v.entity.name v.message

/-- The outcome of validation: the schema's name, and each table and relation by position. -/
structure Validation where
  nameIsBlank : Bool
  tableDefects : List (Option TableDefect)
  relationDefects : List (Option RelationDefect)
  deriving DecidableEq, Repr

namespace Schema

def validate (s : Schema) (mode : ValidationMode) : Validation where
  nameIsBlank := isBlankText s.name
  tableDefects := Table.defects mode [] s.tables
  relationDefects := Relation.defects s [] s.relations

/-- The elements whose defect is none. -/
def sound {α δ : Type} (xs : List α) (defects : List (Option δ)) : List α :=
  (xs.zip defects).filterMap fun p => if p.2.isNone then some p.1 else none

/-- The tables without a defect, in order. -/
def soundTables (s : Schema) (mode : ValidationMode) : List Table :=
  sound s.tables (s.validate mode).tableDefects

/-- The relations without a defect, in order. -/
def soundRelations (s : Schema) (mode : ValidationMode) : List Relation :=
  sound s.relations (s.validate mode).relationDefects

def nameViolations (s : Schema) : List Violation :=
  if isBlankText s.name then [⟨.schema s.name, "The database name passed is empty"⟩] else []

/-- One violation for each table and each relation with a defect. -/
def entityViolations (s : Schema) (mode : ValidationMode) : List Violation :=
  let v := s.validate mode
  ((s.tables.zip v.tableDefects).filterMap fun p =>
    p.2.map fun d => ⟨.table p.1.name, d.message⟩) ++
  ((s.relations.zip v.relationDefects).filterMap fun p =>
    p.2.map fun d => ⟨.relation p.1.name, d.message⟩)

def violations (s : Schema) (mode : ValidationMode) : List Violation :=
  s.nameViolations ++ s.entityViolations mode

/-- The faults of tables and relations. -/
def entityFaults (s : Schema) (mode : ValidationMode) : List Fault :=
  (s.entityViolations mode).map Violation.fault

end Schema

end Tabular
