import Tabular.Schema
import Tabular.Document
import Tabular.Json.Document

/-!
The schema as a document: reading it from any format, and writing it as JSON.
-/
namespace Tabular

open Document

section Reading

variable {ν : Type} [Document ν]

def ColumnType.read? (v : ν) : Option ColumnType := do ColumnType.ofKey? (← variant? v)

def Column.fieldNames : List String := ["name", "type", "source_type", "max_length", "nullable"]

def Column.read? (v : ν) : Option Column := do
  let fs ← fields? Column.fieldNames v
  return { name := ← required fs "name" text?
           type := ← optional fs "type" ColumnType.read?
           sourceType := ← optional fs "source_type" text?
           maxLength := ← withDefault fs "max_length" (-1) int32?
           nullable := ← withDefault fs "nullable" true flag? }

def Table.fieldNames : List String := ["name", "columns", "primary_key"]

def Table.read? (v : ν) : Option Table := do
  let fs ← fields? Table.fieldNames v
  return { name := ← required fs "name" text?
           columns := ← withDefault fs "columns" [] (list Column.read?)
           primaryKey := ← optional fs "primary_key" texts }

def Relation.fieldNames : List String :=
  ["name", "parent_table", "parent_columns", "child_table", "child_columns"]

def Relation.read? (v : ν) : Option Relation := do
  let fs ← fields? Relation.fieldNames v
  return { name := ← required fs "name" text?
           parentTable := ← required fs "parent_table" text?
           parentColumns := ← required fs "parent_columns" texts
           childTable := ← required fs "child_table" text?
           childColumns := ← required fs "child_columns" texts }

def Schema.fieldNames : List String := ["name", "tables", "relations"]

def Schema.read? (v : ν) : Option Schema := do
  let fs ← fields? Schema.fieldNames v
  return { name := ← required fs "name" text?
           tables := ← withDefault fs "tables" [] (list Table.read?)
           relations := ← withDefault fs "relations" [] (list Relation.read?) }

end Reading

def Json.texts (names : List String) : Json := .array (names.map .string)

def Json.optionalText : Option String → Json
  | some s => .string s
  | none => .null

/-- The type is written as null where absent, the source type not at all. -/
def Column.toJson (c : Column) : Json :=
  .object ([("name", .string c.name), ("type", Json.optionalText (c.type.map (·.key)))] ++
    (match c.sourceType with
      | some s => [("source_type", .string s)]
      | none => []) ++
    [("max_length", .int c.maxLength.toInt), ("nullable", .bool c.nullable)])

def Table.toJson (t : Table) : Json :=
  .object ([("name", .string t.name), ("columns", .array (t.columns.map Column.toJson))] ++
    match t.primaryKey with
    | some key => [("primary_key", Json.texts key)]
    | none => [])

def Relation.toJson (r : Relation) : Json :=
  .object [("name", .string r.name), ("parent_table", .string r.parentTable),
    ("parent_columns", Json.texts r.parentColumns), ("child_table", .string r.childTable),
    ("child_columns", Json.texts r.childColumns)]

def Schema.toJson (s : Schema) : Json :=
  .object [("name", .string s.name), ("tables", .array (s.tables.map Table.toJson)),
    ("relations", .array (s.relations.map Relation.toJson))]

end Tabular
