import Tabular.Catalog.Document
import Tabular.Proofs.Rereading

/-!
The document of a catalog read back. Tables come back with their names, columns and keys, and with
every row as its text is read.
-/
namespace Tabular

open Document

/-! ### Records -/

namespace JsonTree

/-- The members of a record in which every name is known and stands once. -/
theorem knownMembers?_of_nodup (names : List String) (ms : List (String × JsonTree))
    (known : ms.map (·.1) ⊆ names) (nodup : (ms.map (·.1)).Nodup) :
    knownMembers? names (ms.map fun m => (some m.1, m.2)) = some ms := by
  induction ms with
  | nil => rfl
  | cons m ms ih =>
    obtain ⟨k, t⟩ := m
    rw [List.map_cons, List.nodup_cons] at nodup
    rw [List.map_cons, List.cons_subset] at known
    have inside : (!names.contains k) = false := by simpa using known.1
    have fresh : ms.any (·.1 == k) = false := by
      rw [List.any_eq_false]
      intro n hn
      have : n.1 ≠ k := fun same => nodup.1 (List.mem_map.mpr ⟨n, hn, same⟩)
      simpa using this
    rw [List.map_cons, knownMembers?, ih known.2 nodup.2]
    simp only [Option.bind_eq_bind, Option.bind_some, inside, fresh, Bool.false_eq_true, if_false]
    rfl

end JsonTree

open JsonTree (knownMembers? knownMembers?_of_nodup)

@[simp] theorem text?_string (s : Option String) : Document.text? (JsonTree.string s) = s := rfl

@[simp] theorem flag?_bool (b : Bool) : Document.flag? (JsonTree.bool b) = some b := rfl

@[simp] theorem isNull?_string (s : Option String) :
    Document.isNull? (JsonTree.string s) = some false := rfl

theorem fields?_object (names : List String) (ms : List (String × JsonTree))
    (known : ms.map (·.1) ⊆ names) (nodup : (ms.map (·.1)).Nodup) :
    Document.fields? names (JsonTree.object (ms.map fun m => (some m.1, m.2))) = some ms :=
  knownMembers?_of_nodup names ms known nodup

theorem natural?_nat (n : Nat) (h : n < 2 ^ 64) :
    JsonTree.natural? (Json.nat n).printed = some n := by
  have read : (Number.int n).reread? = some (.int n) := Number.reread?_int (by omega) (by omega)
  simp [Json.nat, Json.printed, read, JsonTree.natural?, JsonTree.integer?]

theorem uint32?_nat (n : UInt32) : uint32? (Json.nat n.toNat).printed = some n := by
  have small := n.toNat_lt
  have read := natural?_nat n.toNat (by omega)
  unfold uint32?
  change (JsonTree.natural? (Json.nat n.toNat).printed).bind _ = _
  rw [read]
  simp [UInt32.size, small]

theorem texts_printed (names : List String) : texts (Json.texts names).printed = some names := by
  unfold texts list
  change (some (Json.printedItems (names.map .string))).bind _ = _
  rw [Option.bind_some]
  induction names with
  | nil => rfl
  | cons name names ih =>
    rw [List.map_cons, Json.printedItems, List.mapM_cons, ih]
    rfl

theorem list_printed {α : Type} (read : JsonTree → Option α) (vs : List Json) :
    list read (Json.array vs).printed = vs.mapM fun v => read v.printed := by
  unfold list
  change (some (Json.printedItems vs)).bind _ = _
  rw [Option.bind_some]
  induction vs with
  | nil => rfl
  | cons v vs ih => rw [Json.printedItems, List.mapM_cons, List.mapM_cons, ih]

theorem NativeKind.read?_name (kind : NativeKind) :
    read? (.string (some kind.name)) = some kind := by
  cases kind <;> decide

theorem KeyKind.read?_name (kind : KeyKind) : read? (.string (some kind.name)) = some kind := by
  cases kind <;> decide

theorem KeyRule.read?_name (rule : KeyRule) : read? (.string (some rule.name)) = some rule := by
  cases rule <;> decide

theorem StoredColumn.read?_printed (c : StoredColumn) : read? c.toJson.printed = some c := by
  obtain ⟨name, kind, size, nullable⟩ := c
  have text : Json.printed (toJson ⟨name, kind, size, nullable⟩) = .object
      [(some "name", .string (some name)), (some "data_type", .string (some kind.name)),
        (some "defined_size", (Json.nat size.toNat).printed),
        (some "nullable", .bool nullable)] := by
    simp [toJson, Json.printed, Json.printedMembers]
  have known : knownMembers? fieldNames _ = some _ := knownMembers?_of_nodup fieldNames
    [("name", .string (some name)), ("data_type", .string (some kind.name)),
      ("defined_size", (Json.nat size.toNat).printed), ("nullable", .bool nullable)]
    (by simp [fieldNames]) (by simp)
  have small := size.toNat_lt
  have number : (Number.int size.toNat).reread? = some (.int size.toNat) :=
    Number.reread?_int (by omega) (by omega)
  have valued : ((Json.nat size.toNat).printed.value? Catalog.innerDepth).isSome = true := by
    simp [Json.nat, Json.printed, number, JsonTree.value?]
  simp only [List.map_cons, List.map_nil] at known
  rw [text, read?, known]
  simp [hasValues, JsonTree.value?, valued, required, field?, NativeKind.read?_name, uint32?_nat]

namespace StoredKey

def printedFields (k : StoredKey) : List (String × JsonTree) :=
  [("name", .string (some k.name)), ("kind", .string (some k.kind.name)),
    ("columns", (Json.texts k.columns).printed)] ++
  (k.relatedTable.map fun t => ("related_table", JsonTree.string (some t))).toList ++
  (if k.relatedColumns.isEmpty then []
    else [("related_columns", (Json.texts k.relatedColumns).printed)]) ++
  [("delete_rule", .string (some k.deleteRule.name)),
    ("update_rule", .string (some k.updateRule.name))]

theorem printed_toJson (k : StoredKey) :
    k.toJson.printed = .object (k.printedFields.map fun m => (some m.1, m.2)) := by
  obtain ⟨name, kind, columns, table, related, deleteRule, updateRule⟩ := k
  cases table <;> cases related <;>
    simp [toJson, printedFields, Json.printed, Json.printedMembers]

theorem read?_printed (k : StoredKey) : read? k.toJson.printed = some k := by
  obtain ⟨name, kind, columns, table, related, deleteRule, updateRule⟩ := k
  rw [printed_toJson, read?, fields?_object]
  · cases table <;> cases related <;>
      simp [printedFields, required, withDefault, Document.optional, nullable, field?,
        KeyKind.read?_name, KeyRule.read?_name, texts_printed]
  · cases table <;> cases related <;> simp [printedFields, fieldNames]
  · cases table <;> cases related <;> simp [printedFields]

end StoredKey

def Row.reread? (r : Row) : Option Row := Row.read? (Json.object r).printed

namespace StoredTable

def reread? (t : StoredTable) : Option StoredTable := do
  return { t with rows := ← t.rows.mapM Row.reread? }

theorem mapM_map_eq_some {α β : Type} {write : α → Json} {read : JsonTree → Option β} {as : List α}
    {f : α → Option β} (h : ∀ a, read (write a).printed = f a) :
    (as.map write).mapM (fun v => read v.printed) = as.mapM f := by
  induction as with
  | nil => rfl
  | cons a as ih => rw [List.map_cons, List.mapM_cons, List.mapM_cons, ih, h]

theorem mapM_some {α : Type} (as : List α) : as.mapM some = some as := by
  induction as with
  | nil => rfl
  | cons a as ih =>
    rw [List.mapM_cons, ih]
    rfl

theorem read?_printed (t : StoredTable) : read? t.toJson.printed = t.reread? := by
  have text : t.toJson.printed = .object (List.map (fun m => (some m.1, m.2))
      [("name", .string (some t.name)),
        ("columns", (Json.array (t.columns.map StoredColumn.toJson)).printed),
        ("keys", (Json.array (t.keys.map StoredKey.toJson)).printed),
        ("rows", (Json.array (t.rows.map .object)).printed)]) := by
    simp [toJson, Json.printed, Json.printedMembers]
  have columns : list StoredColumn.read? (Json.array (t.columns.map StoredColumn.toJson)).printed =
      some t.columns := by
    rw [list_printed, mapM_map_eq_some StoredColumn.read?_printed, mapM_some]
  have keys : list StoredKey.read? (Json.array (t.keys.map StoredKey.toJson)).printed =
      some t.keys := by
    rw [list_printed, mapM_map_eq_some StoredKey.read?_printed, mapM_some]
  have rows : list Row.read? (Json.array (t.rows.map .object)).printed =
      t.rows.mapM Row.reread? := by
    rw [list_printed]
    exact mapM_map_eq_some fun r => rfl
  rw [text, read?, fields?_object _ _ (by simp [fieldNames]) (by simp)]
  simp [required, withDefault, field?, columns, keys, rows, reread?]

end StoredTable

namespace Catalog

/-- A catalog as it comes back from its document, if it does. -/
def reread? (c : Catalog) : Option Catalog := do
  return { c with tables := ← c.tables.mapM StoredTable.reread? }

theorem read?_printed (c : Catalog) :
    read? c.toJson.printed = c.reread?.map fun c' => (formatVersion, c') := by
  have text : c.toJson.printed = .object (List.map (fun m => (some m.1, m.2))
      [("format_version", (Json.nat formatVersion.toNat).printed), ("name", .string (some c.name)),
        ("created_at", .string (some c.createdAt.text)),
        ("tables", (Json.array (c.tables.map StoredTable.toJson)).printed)]) := by
    simp [toJson, Json.printed, Json.printedMembers]
  have tables : list StoredTable.read? (Json.array (c.tables.map StoredTable.toJson)).printed =
      c.tables.mapM StoredTable.reread? := by
    rw [list_printed]
    exact StoredTable.mapM_map_eq_some StoredTable.read?_printed
  rw [text, read?, fields?_object _ _ (by simp [fieldNames]) (by simp)]
  cases h : c.tables.mapM StoredTable.reread? <;>
    simp [required, field?, uint32?_nat, Timestamp.read?_text, tables, reread?, h]

/-- The document of a catalog is read as the catalog with every row read again. -/
theorem parse?_toText (c : Catalog) :
    parse? c.toText = c.reread?.map fun c' => (formatVersion, c') := by
  unfold parse? toText
  rw [JsonTree.parse_pretty]
  exact c.read?_printed

end Catalog

end Tabular
