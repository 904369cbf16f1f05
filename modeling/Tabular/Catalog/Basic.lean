import Tabular.Json.Printer
import Tabular.Json.Tree
import Tabular.Timestamp
import Tabular.TypeMap

/-!
Desktop catalogs: tables with native columns, keys and rows. Tables, columns and keys are found by
name in any ASCII case; a row is kept under the names that its columns were declared with.
-/
namespace Tabular

/-- Do two names differ in ASCII case only? -/
def sameName (a b : String) : Bool := a.toList.map Char.toLower == b.toList.map Char.toLower

@[simp] theorem sameName_refl (a : String) : sameName a a = true := by simp [sameName]

theorem sameName_comm (a b : String) : sameName a b = sameName b a := BEq.comm

/-- Values by column, in the order of the names. -/
abbrev Row := List (String × Json)

namespace Row

def get? (r : Row) (column : String) : Option Json := (r.find? (·.1 == column)).map (·.2)

/-- The value of a column, null if there is none. -/
def value (r : Row) (column : String) : Json := (r.get? column).getD .null

def put (r : Row) (column : String) (v : Json) : Row := Json.insertMember column v r

/-- The values of columns, in the order of the columns. -/
def project (r : Row) (columns : List String) : List Json := columns.map r.value

end Row

/-- Are two lists of values equal but for the signs of zeros? -/
def agreeing (as bs : List Json) : Bool :=
  decide (as.map Json.unsignedZeros = bs.map Json.unsignedZeros)

structure StoredColumn where
  name : String
  type : NativeType
  deriving DecidableEq, Repr, Inhabited

inductive KeyKind where
  | primary | foreign
  deriving DecidableEq, Repr, Inhabited

/-- What happens to related rows. -/
inductive KeyRule where
  | nothing
  | cascade
  deriving DecidableEq, Repr, Inhabited

structure StoredKey where
  name : String
  kind : KeyKind
  columns : List String
  relatedTable : Option String := none
  relatedColumns : List String := []
  deleteRule : KeyRule := .nothing
  updateRule : KeyRule := .nothing
  deriving DecidableEq, Repr, Inhabited

namespace StoredKey

def primary (name : String) (columns : List String) : StoredKey :=
  { name, kind := .primary, columns }

/-- A foreign key that deletes rows with the row they refer to, and ignores updates. -/
def foreign (name : String) (columns : List String) (table : String) (related : List String) :
    StoredKey :=
  { name, kind := .foreign, columns, relatedTable := some table, relatedColumns := related
    deleteRule := .cascade }

def isPrimary (k : StoredKey) : Bool := k.kind == .primary

def isForeign (k : StoredKey) : Bool := k.kind == .foreign

/-- The name of the table referred to, empty if there is none. -/
def target (k : StoredKey) : String := k.relatedTable.getD ""

/-- Is this a foreign key to that table? -/
def refersTo (k : StoredKey) (table : String) : Bool :=
  k.isForeign && k.relatedTable.any (sameName · table)

end StoredKey

structure StoredTable where
  name : String
  columns : List StoredColumn
  keys : List StoredKey := []
  rows : List Row := []
  deriving DecidableEq, Repr, Inhabited

namespace StoredTable

def column? (t : StoredTable) (name : String) : Option StoredColumn :=
  t.columns.find? (sameName ·.name name)

def primaryKey? (t : StoredTable) : Option StoredKey := t.keys.find? (·.isPrimary)

def foreignKeys (t : StoredTable) : List StoredKey := t.keys.filter (·.isForeign)

end StoredTable

structure Catalog where
  name : String
  createdAt : Timestamp
  tables : List StoredTable := []
  deriving DecidableEq

namespace Catalog

def table? (c : Catalog) (name : String) : Option StoredTable :=
  c.tables.find? (sameName ·.name name)

end Catalog

/-- Why a catalog refuses an operation. -/
inductive Refusal where
  | tableExists (table : String)
  | repeatedColumn (table column : String)
  | keyExists (key : String)
  | missingTable (table : String)
  | missingColumn (table column : String)
  | primaryKeyExists (table : String)
  /-- A foreign key does not refer to the primary key of its table. -/
  | noUniqueIndex (table : String)
  | nullValue (table column : String)
  | repeatedKey (table : String)
  | missingRelatedRow (table : String)
  | databaseExists (path : String)
  | wrongType (column : StoredColumn) (value : Json)
  | tooLong (column : String)
  deriving Repr

namespace Refusal

/-- The native error number. -/
def code : Refusal → Int
  | tableExists _ => 3010
  | keyExists _ => 3012
  | repeatedKey _ => 3022
  | tooLong _ => 3163
  | noUniqueIndex _ => 3173
  | repeatedColumn .. => 3191
  | missingRelatedRow _ => 3201
  | databaseExists _ => 3204
  | missingTable _ | missingColumn .. => 3265
  | primaryKeyExists _ => 3283
  | nullValue .. => 3314
  | wrongType .. => 3421

def message : Refusal → String
  | tableExists table => s!"Table '{table}' already exists."
  | repeatedColumn table column => s!"Field '{column}' is defined more than once in '{table}'."
  | keyExists key => s!"Object '{key}' already exists."
  | missingTable table => s!"Item not found in this collection: table {table}"
  | missingColumn table column => s!"Item not found in this collection: column {table}.{column}"
  | primaryKeyExists table => s!"Primary key already exists on '{table}'."
  | noUniqueIndex table =>
    s!"No unique index found for the referenced field of the primary table '{table}'."
  | nullValue table column => s!"You must enter a value in the '{table}.{column}' field."
  | repeatedKey table =>
    s!"The changes you requested to the table '{table}' were not successful because they would" ++
      " create duplicate values in the primary key."
  | missingRelatedRow table =>
    "You cannot add or change a record because a related record is required in table" ++
      s!" '{table}'."
  | databaseExists path => s!"Database '{path}' already exists."
  | wrongType column value =>
    s!"Data type conversion error: {value.compact} for field '{column.name}'" ++
      s!" ({column.type.kind.name})."
  | tooLong column =>
    s!"The field '{column}' is too small to accept the amount of data you attempted to add."

def fault (r : Refusal) : Fault := .engine (some r.code) r.message

end Refusal

end Tabular
