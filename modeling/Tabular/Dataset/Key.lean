import Tabular.Dataset.Name
import Tabular.Schema

/-!
Keys and relations of a data-set document. Keys come from `key` and marked `unique` constraints,
relations from `keyref` constraints and from annotations; the first of a name counts.
-/
namespace Tabular.Dataset

open Markup

/-- A key or unique constraint. -/
structure KeyConstraint where
  name : String
  table : String
  columns : List String
  isPrimary : Bool
  deriving DecidableEq, Repr

/-- The table and the columns of a constraint. -/
def constraintTarget (e : Element) (name : String) : Except Fault (String × List String) :=
  let selector := e.children.find? (isSchemaElement · "selector")
  match selector.bind (·.attribute? "xpath") with
  | none => .error (.schemaFormat s!"constraint {name} has no selector")
  | some path =>
    let fields := e.children.filter (isSchemaElement · "field")
    .ok (selectorTable path, (fields.filterMap (·.attribute? "xpath")).map fieldColumn)

/-- Whether a constraint is a primary key, for the elements that are key constraints. -/
def isPrimaryKey? (e : Element) : Option Bool :=
  let marked := (annotation? e "PrimaryKey").map isTrue
  if isSchemaElement e "key" then some (marked.getD true)
  else if isSchemaElement e "unique" then some (marked.getD false)
  else none

def readKey (e : Element) (isPrimary : Bool) : Except Fault KeyConstraint := do
  let name ← required e "name" "key constraint"
  let (table, columns) ← constraintTarget e name
  return ⟨name, table, columns, isPrimary⟩

/-- Every key constraint of the document, in document order. -/
def readKeys (root : Element) : Except Fault (List KeyConstraint) :=
  (root.descendants.filterMap fun e => (isPrimaryKey? e).map (e, ·)).mapM fun p => readKey p.1 p.2

/-- Gives the first table of that name the key, if the table has none yet; none without such a
table. -/
def setKey? (k : KeyConstraint) : List Tabular.Table → Option (List Tabular.Table)
  | [] => none
  | t :: ts =>
    if t.name == k.table then
      some ((if t.primaryKey.isNone then { t with primaryKey := some k.columns } else t) :: ts)
    else (setKey? k ts).map (t :: ·)

def applyKeys (tables : List Tabular.Table) : List KeyConstraint →
    Except Fault (List Tabular.Table)
  | [] => .ok tables
  | k :: ks =>
    match setKey? k tables with
    | some tables => applyKeys tables ks
    | none => .error (.schemaFormat s!"key {k.name} selects undeclared table {k.table}")

def readKeyReference (keys : List KeyConstraint) (e : Element) : Except Fault Relation := do
  let name ← required e "name" "keyref"
  let reference := localName (← required e "refer" "keyref")
  match keys.find? (·.name == reference) with
  | none => throw (.schemaFormat s!"keyref {name} refers to undeclared key {reference}")
  | some key =>
    let (childTable, childColumns) ← constraintTarget e name
    return ⟨name, key.table, key.columns, childTable, childColumns⟩

def readRelationship (e : Element) : Except Fault Relation := do
  let name ← required e "name" "msdata:Relationship"
  let part (key : String) : Except Fault String :=
    match annotation? e key with
    | some value => .ok value
    | none => .error (.schemaFormat s!"relationship {name} without msdata:{key}")
  let parent ← part "parent"
  let parentKey ← part "parentkey"
  let child ← part "child"
  let childKey ← part "childkey"
  return ⟨name, parent, keyList parentKey, child, keyList childKey⟩

/-- The relation that an element declares, if it declares one. -/
def readRelation? (keys : List KeyConstraint) (e : Element) : Except Fault (Option Relation) :=
  if isSchemaElement e "keyref" then some <$> readKeyReference keys e
  else if e.isNamed annotationUri "Relationship" then some <$> readRelationship e
  else .ok none

/-- The relations without those whose name came before. -/
def firstOfName (seen : List String) : List Relation → List Relation
  | [] => []
  | r :: rs =>
    if seen.contains r.name then firstOfName seen rs else r :: firstOfName (r.name :: seen) rs

def readRelations (keys : List KeyConstraint) (root : Element) : Except Fault (List Relation) := do
  let found ← root.descendants.mapM (readRelation? keys)
  return firstOfName [] (found.filterMap id)

end Tabular.Dataset
