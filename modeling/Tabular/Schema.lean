import Tabular.ColumnType

/-!
The relational schema: tables with columns and primary keys, and relations between tables. Tables
and columns are referred to by name, so that relations may form cycles.
-/
namespace Tabular

structure Column where
  name : String
  /-- Absent where no type could be found. -/
  type : Option ColumnType
  /-- The type's name in the source, where no type could be found. -/
  sourceType : Option String := none
  /-- Greatest length; no bound if negative. -/
  maxLength : Int32 := -1
  nullable : Bool := true
  deriving DecidableEq, Repr, Inhabited

structure Table where
  name : String
  columns : List Column := []
  /-- The names of the key's columns in order, if a key is declared. -/
  primaryKey : Option (List String) := none
  deriving DecidableEq, Repr, Inhabited

namespace Table

def column? (t : Table) (name : String) : Option Column := t.columns.find? (·.name == name)

/-- The names of the key's columns, none without a key. -/
def keyColumns (t : Table) : List String := t.primaryKey.getD []

/-- Is there a key with at least one column? -/
def hasKey (t : Table) : Bool := !t.keyColumns.isEmpty

def isKeyColumn (t : Table) (name : String) : Bool := t.keyColumns.contains name

end Table

/-- A foreign key from a child table to a parent table. -/
structure Relation where
  name : String
  parentTable : String
  parentColumns : List String
  childTable : String
  childColumns : List String
  deriving DecidableEq, Repr, Inhabited

def Relation.involves (r : Relation) (table : String) : Bool :=
  r.parentTable == table || r.childTable == table

structure Schema where
  name : String
  tables : List Table := []
  relations : List Relation := []
  deriving DecidableEq, Repr, Inhabited

/-- The first table of that name. -/
def Schema.table? (s : Schema) (name : String) : Option Table := s.tables.find? (·.name == name)

end Tabular
