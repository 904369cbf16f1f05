import Tabular.Catalog.Basic
import Tabular.Json.Document
import Tabular.Json.Parser
import Tabular.Schema.Document

/-!
Catalogs as JSON documents: the form that is written, with the members of each record in a fixed
order, and a reading that asks for no order and passes over unknown members.
-/
namespace Tabular

open Document

/-! ### Writing -/

def KeyKind.name : KeyKind → String
  | primary => "primary"
  | foreign => "foreign"

def KeyRule.name : KeyRule → String
  | nothing => "none"
  | cascade => "cascade"

def StoredColumn.toJson (c : StoredColumn) : Json :=
  .object [("name", .string c.name), ("data_type", .string c.type.kind.name),
    ("defined_size", .nat c.type.size.toNat), ("nullable", .bool c.type.nullable)]

/-- An absent related table and an empty list of related columns are not written. -/
def StoredKey.toJson (k : StoredKey) : Json :=
  .object ([("name", .string k.name), ("kind", .string k.kind.name),
      ("columns", Json.texts k.columns)] ++
    (match k.relatedTable with
      | some table => [("related_table", .string table)]
      | none => []) ++
    (if k.relatedColumns.isEmpty then [] else [("related_columns", Json.texts k.relatedColumns)]) ++
    [("delete_rule", .string k.deleteRule.name), ("update_rule", .string k.updateRule.name)])

def StoredTable.toJson (t : StoredTable) : Json :=
  .object [("name", .string t.name), ("columns", .array (t.columns.map StoredColumn.toJson)),
    ("keys", .array (t.keys.map StoredKey.toJson)), ("rows", .array (t.rows.map .object))]

namespace Catalog

/-- The version of the form of documents. -/
def formatVersion : UInt32 := 1

def toJson (c : Catalog) : Json :=
  .object [("format_version", .nat formatVersion.toNat), ("name", .string c.name),
    ("created_at", .string c.createdAt.text), ("tables", .array (c.tables.map StoredTable.toJson))]

/-- The text of a document. -/
def toText (c : Catalog) : String := c.toJson.pretty

/-- How deep lists and objects may nest in a document. -/
def depthLimit : Nat := 127

/-- How deep a row's value or an unknown member of a column may nest, inside the document, the
list of tables, a table, its list, and the row or column. -/
def innerDepth : Nat := depthLimit - 5

end Catalog

/-! ### Reading -/

/-- A kind of values is a case without data; an empty object counts as no data here. -/
def NativeKind.read? : JsonTree → Option NativeKind
  | .object [(some name, .object [])] => ofName? name
  | t => do ofName? (← variant? t)

def KeyKind.read? (t : JsonTree) : Option KeyKind := do
  let name ← variant? t
  [primary, foreign].find? (·.name == name)

def KeyRule.read? (t : JsonTree) : Option KeyRule := do
  let name ← variant? t
  [nothing, cascade].find? (·.name == name)

def StoredColumn.fieldNames : List String := ["name", "data_type", "defined_size", "nullable"]

/-- Is every member that is not a name within the depth for values? -/
def StoredColumn.hasValues (members : List (Option String × JsonTree)) : Bool :=
  members.all fun (k, t) => k == some "name" || (t.value? Catalog.innerDepth).isSome

/-- A column is always an object, and its unknown members need to have values. -/
def StoredColumn.read? : JsonTree → Option StoredColumn
  | .object members => do
    if !hasValues members then none
    let fs ← JsonTree.knownMembers? fieldNames members
    return { name := ← required fs "name" text?
             type := { kind := ← required fs "data_type" NativeKind.read?
                       size := ← required fs "defined_size" uint32?
                       nullable := ← required fs "nullable" flag? } }
  | _ => none

def StoredKey.fieldNames : List String :=
  ["name", "kind", "columns", "related_table", "related_columns", "delete_rule", "update_rule"]

def StoredKey.read? (t : JsonTree) : Option StoredKey := do
  let fs ← fields? StoredKey.fieldNames t
  return { name := ← required fs "name" text?
           kind := ← required fs "kind" KeyKind.read?
           columns := ← required fs "columns" texts
           relatedTable := ← optional fs "related_table" text?
           relatedColumns := ← withDefault fs "related_columns" [] texts
           deleteRule := ← required fs "delete_rule" KeyRule.read?
           updateRule := ← required fs "update_rule" KeyRule.read? }

def Row.read? : JsonTree → Option Row
  | .object members => do
    return Json.sortMembers (← JsonTree.memberValues? Catalog.innerDepth members)
  | _ => none

def StoredTable.fieldNames : List String := ["name", "columns", "keys", "rows"]

def StoredTable.read? (t : JsonTree) : Option StoredTable := do
  let fs ← fields? StoredTable.fieldNames t
  return { name := ← required fs "name" text?
           columns := ← required fs "columns" (list StoredColumn.read?)
           keys := ← withDefault fs "keys" [] (list StoredKey.read?)
           rows := ← withDefault fs "rows" [] (list Row.read?) }

namespace Catalog

def fieldNames : List String := ["format_version", "name", "created_at", "tables"]

/-- A catalog with the version of its form. -/
def read? (t : JsonTree) : Option (UInt32 × Catalog) := do
  let fs ← fields? fieldNames t
  let version ← required fs "format_version" uint32?
  let name ← required fs "name" text?
  let createdAt ← required fs "created_at" fun t => do Timestamp.read? (← text? t)
  let tables ← required fs "tables" (list StoredTable.read?)
  return (version, { name, createdAt, tables })

/-- Reads the text of a document. -/
def parse? (text : String) : Option (UInt32 × Catalog) := do read? (← JsonTree.parse text)

end Catalog

end Tabular
