import Tabular.Catalog.Definition
import Tabular.Catalog.Value

/-!
Operations on the rows of a catalog. An inserted row obeys the columns and keys of its table. A
deletion follows the foreign keys that cascade, row by row, until no row is left to go; it ends
because every step but the last ones removes a row.
-/
namespace Tabular

namespace StoredTable

/-- The named columns with the values to be stored in them. -/
def coerceAll (t : StoredTable) (table : String) :
    List (String × Json) → Except Refusal (List (String × Json))
  | [] => .ok []
  | (name, v) :: rest =>
    match t.column? name with
    | none => .error (.missingColumn table name)
    | some column => do
      let w ← column.coerce v
      return (column.name, w) :: (← t.coerceAll table rest)

/-- A row of values. A later value for a column stands in for an earlier one. -/
def rowOf (values : List (String × Json)) : Row := values.foldl (fun r p => r.put p.1 p.2) []

/-- The first column that takes no null and has none but null. -/
def missingValue? (t : StoredTable) (r : Row) : Option StoredColumn :=
  t.columns.find? fun column => !column.type.nullable && (r.value column.name).isNull

/-- Is there a row with these values in these columns? -/
def holds (t : StoredTable) (columns : List String) (values : List Json) : Bool :=
  t.rows.any fun r => agreeing (r.project columns) values

/-- Is the row's primary key taken already? -/
def repeatsKey (t : StoredTable) (r : Row) : Bool :=
  match t.primaryKey? with
  | some k => t.holds k.columns (r.project k.columns)
  | none => false

end StoredTable

/-- The values that rows have to have in some columns. -/
abbrev Criteria := List (String × Json)

/-- Does a row store every value of the criteria? -/
def Row.meets (r : Row) (criteria : Criteria) : Bool :=
  criteria.all fun p => (r.get? p.1).any (·.agrees p.2)

namespace Catalog

/-- A foreign key with a null in it asks for nothing. -/
def checkReference (c : Catalog) (r : Row) (k : StoredKey) : Except Refusal Unit := do
  let values := r.project k.columns
  if values.any (·.isNull) then return ()
  let (_, related) ← c.locate k.target
  if !related.holds k.relatedColumns values then throw (.missingRelatedRow k.target)

def insert (c : Catalog) (table : String) (values : List (String × Json)) :
    Except Refusal Catalog := do
  let (i, t) ← c.locate table
  let r := StoredTable.rowOf (← t.coerceAll table values)
  match t.missingValue? r with
  | some column => throw (.nullValue table column.name)
  | none =>
    if t.repeatsKey r then throw (.repeatedKey table)
    t.foreignKeys.forM (c.checkReference r)
    return c.replace i { t with rows := t.rows ++ [r] }

/-! ### Deletion -/

def rowCount : List StoredTable → Nat
  | [] => 0
  | t :: ts => t.rows.length + rowCount ts

/-- The rows of a table that meet the criteria. -/
def meeting (t : StoredTable) (criteria : Criteria) : List Row :=
  t.rows.filter (·.meets criteria)

/-- The tables without the rows of one table that meet the criteria. -/
def without (tables : List StoredTable) (i : Nat) (t : StoredTable) (criteria : Criteria) :
    List StoredTable :=
  tables.set i { t with rows := t.rows.filter (!·.meets criteria) }

/-- The foreign keys that cascade deletions from a table, with the positions of their tables. -/
def cascades (tables : List StoredTable) (name : String) : List (Nat × StoredKey) :=
  tables.zipIdx.flatMap fun (t, i) =>
    (t.foreignKeys.filter fun k => k.deleteRule == .cascade && k.refersTo name).map (i, ·)

/-- The criteria for the rows that refer to a row. -/
def dependents (r : Row) (k : StoredKey) : Criteria := k.columns.zip (r.project k.relatedColumns)

theorem rowCount_set {tables : List StoredTable} {i : Nat} {t u : StoredTable}
    (h : tables[i]? = some t) :
    rowCount (tables.set i u) + t.rows.length = rowCount tables + u.rows.length := by
  induction tables generalizing i with
  | nil => simp at h
  | cons x xs ih =>
    cases i with
    | zero =>
      simp only [List.getElem?_cons_zero, Option.some.injEq] at h
      subst h
      simp only [rowCount, List.set_cons_zero]
      omega
    | succ i =>
      simp only [List.getElem?_cons_succ] at h
      have := ih h
      simp only [rowCount, List.set_cons_succ]
      omega

theorem rowCount_without {tables : List StoredTable} {i : Nat} {t : StoredTable}
    (criteria : Criteria) (h : tables[i]? = some t) :
    rowCount (without tables i t criteria) + (meeting t criteria).length = rowCount tables := by
  have count := rowCount_set (u := { t with rows := t.rows.filter (!·.meets criteria) }) h
  have split := List.length_eq_countP_add_countP (·.meets criteria) (l := t.rows)
  simp only [List.countP_eq_length_filter, Bool.not_eq_true, Bool.decide_eq_false] at split
  simp only [without, meeting]
  dsimp only at count
  omega

/-- The work that the deletion of a row leads to. -/
def dependentWork (tables : List StoredTable) (name : String) (r : Row) : List (Nat × Criteria) :=
  (cascades tables name).map fun (j, k) => (j, dependents r k)

/-- Deletes the rows that meet pending criteria, each for the table at a position, and the rows
that depend on them. Gives the tables left and the number of rows removed. -/
def deleteAll (tables : List StoredTable) : List (Nat × Criteria) → List StoredTable × Nat
  | [] => (tables, 0)
  | (i, criteria) :: pending =>
    match _found : tables[i]? with
    | none => deleteAll tables pending
    | some t =>
      let gone := meeting t criteria
      let left := without tables i t criteria
      if gone.isEmpty then deleteAll left pending
      else
        let (final, removed) := deleteAll left (gone.flatMap (dependentWork left t.name) ++ pending)
        (final, gone.length + removed)
termination_by pending => (rowCount tables, pending.length)
decreasing_by
  · exact Prod.Lex.right _ (by simp)
  · have count := rowCount_without criteria _found
    rcases Nat.lt_or_eq_of_le (Nat.le.intro count) with fewer | same
    · exact Prod.Lex.left _ _ fewer
    · rw [same]
      exact Prod.Lex.right _ (by simp)
  · rename_i nonempty
    have count := rowCount_without criteria _found
    have : 0 < (meeting t criteria).length :=
      List.length_pos_iff.2 fun none => nonempty (by simp [gone, none])
    exact Prod.Lex.left _ _ (by omega)

/-- Deletes the rows that store every given value, and the rows that depend on them. -/
def deleteRows (c : Catalog) (table : String) (criteria : List (String × Json)) :
    Except Refusal (Nat × Catalog) := do
  let (i, t) ← c.locate table
  let resolved ← t.coerceAll table criteria
  let (tables, removed) := deleteAll c.tables [(i, resolved)]
  return (removed, { c with tables })

end Catalog

end Tabular
