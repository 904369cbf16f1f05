import Tabular.Proofs.Documents
import Tabular.Schema.Source

/-!
The document of a schema read back. Columns come back with their types, lengths and what is left out
of them, tables with or without a key, and relations with both sides, in the order of the schema.
-/
namespace Tabular

open Document

@[simp] theorem isNull?_null : isNull? JsonTree.null = some true := rfl

@[simp] theorem isNull?_texts (names : List String) :
    isNull? (Json.texts names).printed = some false := rfl

theorem ColumnType.read?_key (type : ColumnType) :
    read? (JsonTree.string (some type.key)) = some type :=
  ofKey?_key type

theorem int32?_toInt (n : Int32) : int32? (Json.int n.toInt).printed = some n := by
  have low := n.le_toInt
  have high := n.toInt_lt
  have number : (Number.int n.toInt).reread? = some (.int n.toInt) :=
    Number.reread?_int (by omega) (by omega)
  have read : integer? (Json.int n.toInt).printed = some n.toInt := by
    rw [Json.int, Json.printed, number]
    rfl
  have range : (-0x80000000 ≤ n.toInt && n.toInt < 0x80000000) = true := by
    rw [Bool.and_eq_true, decide_eq_true_eq, decide_eq_true_eq]
    omega
  unfold int32?
  rw [read, Option.bind_eq_bind, Option.bind_some, if_pos range, Int32.ofInt_toInt]

namespace Column

def printedFields (c : Column) : List (String × JsonTree) :=
  [("name", .string (some c.name)), ("type", (Json.optionalText (c.type.map (·.key))).printed)] ++
  (c.sourceType.map fun s => ("source_type", JsonTree.string (some s))).toList ++
  [("max_length", (Json.int c.maxLength.toInt).printed), ("nullable", .bool c.nullable)]

theorem printed_toJson (c : Column) :
    c.toJson.printed = .object (c.printedFields.map fun m => (some m.1, m.2)) := by
  obtain ⟨name, type, sourceType, maxLength, nullable⟩ := c
  cases sourceType <;> simp [toJson, printedFields, Json.printed, Json.printedMembers]

theorem read?_printed (c : Column) : read? c.toJson.printed = some c := by
  obtain ⟨name, type, sourceType, maxLength, isNullable⟩ := c
  rw [printed_toJson, read?, fields?_object]
  · cases type <;> cases sourceType <;>
      simp [printedFields, required, withDefault, Document.optional, Document.nullable, field?,
        Json.optionalText, Json.printed, ColumnType.read?_key, int32?_toInt]
  · cases sourceType <;> simp [printedFields, fieldNames]
  · cases sourceType <;> simp [printedFields]

end Column

namespace Table

def printedFields (t : Table) : List (String × JsonTree) :=
  [("name", .string (some t.name)),
    ("columns", (Json.array (t.columns.map Column.toJson)).printed)] ++
  (t.primaryKey.map fun key => ("primary_key", (Json.texts key).printed)).toList

theorem printed_toJson (t : Table) :
    t.toJson.printed = .object (t.printedFields.map fun m => (some m.1, m.2)) := by
  obtain ⟨name, columns, primaryKey⟩ := t
  cases primaryKey <;> simp [toJson, printedFields, Json.printed, Json.printedMembers]

theorem read?_printed (t : Table) : read? t.toJson.printed = some t := by
  obtain ⟨name, columns, primaryKey⟩ := t
  have read :
      list Column.read? (Json.array (columns.map Column.toJson)).printed = some columns := by
    rw [list_printed, StoredTable.mapM_map_eq_some Column.read?_printed, StoredTable.mapM_some]
  rw [printed_toJson, read?, fields?_object]
  · cases primaryKey <;>
      simp [printedFields, required, withDefault, Document.optional, nullable, field?, read,
        texts_printed]
  · cases primaryKey <;> simp [printedFields, fieldNames]
  · cases primaryKey <;> simp [printedFields]

end Table

theorem Relation.read?_printed (r : Relation) : read? r.toJson.printed = some r := by
  have text : r.toJson.printed = .object (List.map (fun m => (some m.1, m.2))
      [("name", .string (some r.name)), ("parent_table", .string (some r.parentTable)),
        ("parent_columns", (Json.texts r.parentColumns).printed),
        ("child_table", .string (some r.childTable)),
        ("child_columns", (Json.texts r.childColumns).printed)]) := by
    simp [toJson, Json.printed, Json.printedMembers]
  rw [text, read?, fields?_object _ _ (by simp [fieldNames]) (by simp)]
  simp [required, field?, texts_printed]

namespace Schema

theorem read?_printed (s : Schema) : read? s.toJson.printed = some s := by
  have text : s.toJson.printed = .object (List.map (fun m => (some m.1, m.2))
      [("name", .string (some s.name)),
        ("tables", (Json.array (s.tables.map Table.toJson)).printed),
        ("relations", (Json.array (s.relations.map Relation.toJson)).printed)]) := by
    simp [toJson, Json.printed, Json.printedMembers]
  have tables : list Table.read? (Json.array (s.tables.map Table.toJson)).printed =
      some s.tables := by
    rw [list_printed, StoredTable.mapM_map_eq_some Table.read?_printed, StoredTable.mapM_some]
  have relations : list Relation.read? (Json.array (s.relations.map Relation.toJson)).printed =
      some s.relations := by
    rw [list_printed, StoredTable.mapM_map_eq_some Relation.read?_printed, StoredTable.mapM_some]
  rw [text, read?, fields?_object _ _ (by simp [fieldNames]) (by simp)]
  simp [required, withDefault, field?, tables, relations]

/-- In any layout the text of a schema is read as the schema. -/
theorem ofText_laidOut (l : Layout) {text : String} {s : Schema}
    (h : text.toList = s.toJson.laidOut l 0) : ofText .json text = .ok s := by
  unfold ofText
  dsimp only
  rw [JsonTree.parse_laidOut l h, Option.bind_some, s.read?_printed]

/-- A schema is read back from its text, in one line or indented; so a text that is read as a schema
can be replaced by the text of the schema, whatever it leaves out or says in another way. -/
theorem ofText_print (s : Schema) (text : String) :
    ofText .json s.toJson.compact = .ok s ∧ ofText .json s.toJson.pretty = .ok s ∧
      (ofText .json text >>= fun t => ofText .json t.toJson.compact) = ofText .json text ∧
      (ofText .json text >>= fun t => ofText .json t.toJson.pretty) = ofText .json text := by
  have compact (t : Schema) : ofText .json t.toJson.compact = .ok t :=
    ofText_laidOut .dense (Json.toList_compact 0 t.toJson)
  have pretty (t : Schema) : ofText .json t.toJson.pretty = .ok t :=
    ofText_laidOut .indented (Json.toList_prettyAt 0 t.toJson)
  refine ⟨compact s, pretty s, ?_, ?_⟩
  · simp only [compact]
    exact bind_pure _
  · simp only [pretty]
    exact bind_pure _

end Schema

end Tabular
