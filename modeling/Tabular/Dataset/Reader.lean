import Tabular.Dataset.Key
import Tabular.Dataset.Table
import Tabular.Markup.Parser

/-!
Reading a schema from a data-set document. One top-level element stands for the data set and holds
the tables; without such an element every top-level element is a table.
-/
namespace Tabular.Dataset

open Markup

/-- The name of a data set that has no element and no name. -/
def defaultName : String := "NewDataSet"

/-- Does an element hold a table? References that lead nowhere do not count. -/
def holdsTables (d : Declarations) (e : Element) : Bool :=
  match d.complexTypeOf? e with
  | none => false
  | some complexType => (particles complexType).any fun particle =>
    match d.resolve particle with
    | .ok target => (d.complexTypeOf? target).isSome
    | .error _ => false

/-- The marked element, or else the first one that holds a table. -/
def datasetElement? (d : Declarations) (top : List Element) : Option Element :=
  (top.find? fun e => (annotation? e "IsDataSet").any isTrue).or (top.find? (holdsTables d))

/-- The name of the data set and the elements that declare its tables. -/
def readDataset (d : Declarations) (root : Element) : Except Fault (String × List Element) :=
  let top := root.children.filter (isSchemaElement · "element")
  if top.isEmpty then .error (.schemaFormat "schema declares no elements")
  else
    match datasetElement? d top with
    | some e => do
      let name ← required e "name" "dataset element"
      return (name, ((d.complexTypeOf? e).map particles).getD [])
    | none =>
      let id := (root.attribute? "id").filter fun id => !isBlankText id
      .ok (id.getD defaultName, top)

/-- The tables of an element that declares one, and none for any other element. -/
def readTables (d : Declarations) (e : Element) : Except Fault (List Tabular.Table) := do
  let e ← d.resolve e
  match d.complexTypeOf? e with
  | some complexType => readTable d depthLimit e complexType
  | none => return []

/-- The schema of a document, given by its root element. -/
def readSchema (root : Element) : Except Fault Schema := do
  if !isSchemaElement root "schema" then
    throw (.schemaFormat s!"root element <{root.name}> is not xs:schema")
  let d := Declarations.of root
  let (name, elements) ← readDataset d root
  let tables ← elements.mapM (readTables d)
  let keys ← readKeys root
  let tables ← applyKeys tables.flatten (keys.filter (·.isPrimary))
  let relations ← readRelations keys root
  return { name, tables, relations }

/-- The schema of a document's text. -/
def parse (text : String) : Except Fault Schema :=
  match Markup.parse text with
  | some root => readSchema root
  | none => .error (.schemaFormat "the document is not well-formed XML")

end Tabular.Dataset
