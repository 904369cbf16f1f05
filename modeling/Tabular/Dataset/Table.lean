import Tabular.Dataset.SimpleType
import Tabular.Schema

/-!
Tables of a data-set document. An element with a complex type is a table; its simple particles and
its attributes are the columns, and its complex particles are tables that follow it.
-/
namespace Tabular.Dataset

open Markup

/-- The column's own annotation decides, then whether the value may be left out. -/
def isNullable (e : Element) (isAttribute : Bool) : Bool :=
  match annotation? e "AllowDBNull" with
  | some value => isTrue value
  | none =>
    if isAttribute then e.attribute? "use" != some "required"
    else (e.attribute? "minOccurs").any (trimmed · == "0") || (e.attribute? "nillable").any isTrue

/-- The column type, or the text of the type that has none. -/
def columnType (e : Element) (simple : SimpleType) : ColumnType ⊕ String :=
  match annotation? e "DataType" with
  | some name =>
    match annotatedType? name with
    | some type => .inl type
    | none => .inr name
  | none =>
    match simple.builtin.bind builtinType? with
    | some type => .inl type
    | none => .inr simple.declared

def readColumn (d : Declarations) (table : String) (isAttribute : Bool) (e : Element) :
    Except Fault Column := do
  let name ← required e "name" s!"column of table {table}"
  let simple ← simpleTypeOf d e
  let (type, sourceType) := match columnType e simple with
    | .inl type => (some type, none)
    | .inr source => (none, some source)
  return { name, type, sourceType, maxLength := simple.maxLength
           nullable := isNullable e isAttribute }

/-- What a particle contributes to the table it stands in. -/
inductive Contribution where
  | column (c : Column)
  | tables (ts : List Tabular.Table)

def Contribution.column? : Contribution → Option Column
  | column c => some c
  | tables _ => none

def Contribution.nested : Contribution → List Tabular.Table
  | column _ => []
  | tables ts => ts

/-- The attributes of a complex type that are columns. -/
def attributesOf (complexType : Element) : List Element :=
  complexType.children.filter fun e =>
    isSchemaElement e "attribute" && e.attribute? "use" != some "prohibited"

/-- The table of an element and the tables inside it, which nest at most `levels` deep. -/
def readTable (d : Declarations) : Nat → Element → Element → Except Fault (List Tabular.Table)
  | levels, element, complexType => do
    let name ← required element "name" "table element"
    match levels with
    | 0 => throw (.schemaFormat s!"table {name} is nested too deeply")
    | levels + 1 =>
      let contributions ← (particles complexType).mapM fun particle => do
        let particle ← d.resolve particle
        match d.complexTypeOf? particle with
        | some inner => return .tables (← readTable d levels particle inner)
        | none => return .column (← readColumn d name false particle)
      let attributes ← (attributesOf complexType).mapM (readColumn d name true)
      let columns := contributions.filterMap Contribution.column? ++ attributes
      return { name, columns } :: contributions.flatMap Contribution.nested

end Tabular.Dataset
