import Tabular.Catalog.Basic

/-!
Operations that define the tables and keys of a catalog. Names of tables, of the columns of a table
and of the keys of a table are taken once; a foreign key refers to a primary key, column by column.
-/
namespace Tabular

/-- Elements that some earlier element repeats, by a test. -/
def firstRepeated? {α : Type} (same : α → α → Bool) : List α → List α → Option α
  | _, [] => none
  | seen, x :: xs => if seen.any (same · x) then some x else firstRepeated? same (seen ++ [x]) xs

namespace Catalog

/-- The first table of a name, with its position. -/
def locate (c : Catalog) (name : String) : Except Refusal (Nat × StoredTable) :=
  match c.tables.zipIdx.find? (sameName ·.1.name name) with
  | some (t, i) => .ok (i, t)
  | none => .error (.missingTable name)

def replace (c : Catalog) (i : Nat) (t : StoredTable) : Catalog :=
  { c with tables := c.tables.set i t }

def appendTable (c : Catalog) (name : String) (columns : List StoredColumn) :
    Except Refusal Catalog :=
  if (c.table? name).isSome then .error (.tableExists name)
  else
    match firstRepeated? (fun a b => sameName a.name b.name) [] columns with
    | some column => .error (.repeatedColumn name column.name)
    | none => .ok { c with tables := c.tables ++ [{ name, columns }] }

/-- Drops a table, and the foreign keys to that name. -/
def dropTable (c : Catalog) (name : String) : Except Refusal Catalog := do
  let (i, _) ← c.locate name
  return { c with tables := (c.tables.eraseIdx i).map fun t =>
    { t with keys := t.keys.filter (!·.refersTo name) } }

/-- Does a foreign key pair its columns with the columns of a primary key? -/
def pairsWith (k primary : StoredKey) : Bool :=
  k.columns.length == k.relatedColumns.length &&
    primary.columns.length == k.relatedColumns.length &&
    (primary.columns.zip k.relatedColumns).all fun p => sameName p.1 p.2

def checkForeignKey (c : Catalog) (k : StoredKey) : Except Refusal Unit := do
  let (_, related) ← c.locate k.target
  match k.relatedColumns.find? fun column => (related.column? column).isNone with
  | some column => throw (.missingColumn k.target column)
  | none =>
    if !related.primaryKey?.any (pairsWith k) then throw (.noUniqueIndex k.target)

/-- The columns of a primary key never take null. -/
def requireColumns (names : List String) (columns : List StoredColumn) : List StoredColumn :=
  columns.map fun column =>
    if names.any (sameName · column.name) then
      { column with type := { column.type with nullable := false } }
    else column

def appendKey (c : Catalog) (table : String) (k : StoredKey) : Except Refusal Catalog := do
  let (i, t) ← c.locate table
  if t.keys.any (sameName ·.name k.name) then throw (.keyExists k.name)
  match k.columns.find? fun column => (t.column? column).isNone with
  | some column => throw (.missingColumn table column)
  | none =>
    match k.kind with
    | .primary =>
      if t.primaryKey?.isSome then throw (.primaryKeyExists table)
      return c.replace i { t with columns := requireColumns k.columns t.columns
                                  keys := t.keys ++ [k] }
    | .foreign =>
      c.checkForeignKey k
      return c.replace i { t with keys := t.keys ++ [k] }

end Catalog

end Tabular
