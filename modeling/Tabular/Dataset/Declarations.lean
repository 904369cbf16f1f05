import Tabular.Dataset.Name

/-!
The declarations at the top of a data-set document, and what elements refer to them: other elements
by `ref`, complex and simple types by `type` and `base`.
-/
namespace Tabular.Dataset

open Markup

/-- Top-level declarations by name, the last of a name first. -/
structure Declarations where
  elements : List (String × Element)
  complexTypes : List (String × Element)
  simpleTypes : List (String × Element)
  deriving Inhabited

def declared (root : Element) (kind : String) : List (String × Element) :=
  (root.children.filterMap fun e =>
    if isSchemaElement e kind then (e.attribute? "name").map (·, e) else none).reverse

def Declarations.of (root : Element) : Declarations where
  elements := declared root "element"
  complexTypes := declared root "complexType"
  simpleTypes := declared root "simpleType"

def lookUp (declarations : List (String × Element)) (name : String) : Option Element :=
  (declarations.find? (·.1 == name)).map (·.2)

namespace Declarations

/-- The declaration that an element refers to, or the element itself. -/
def resolve (d : Declarations) (e : Element) : Except Fault Element :=
  match e.attribute? "ref" with
  | none => .ok e
  | some reference =>
    match lookUp d.elements (localName reference) with
    | some target => .ok target
    | none => .error (.schemaFormat s!"element ref '{reference}' is not declared")

/-- The complex type inside an element, or the one of its type's name. -/
def complexTypeOf? (d : Declarations) (e : Element) : Option Element :=
  match e.children.find? (isSchemaElement · "complexType") with
  | some inner => some inner
  | none => (e.attribute? "type").bind fun type => lookUp d.complexTypes (localName type)

end Declarations

/-- The groups whose content belongs to what is around them. -/
def isGroup (e : Element) : Bool :=
  isSchemaElement e "sequence" || isSchemaElement e "choice" || isSchemaElement e "all"

mutual

/-- The particles that an element contributes: itself, or those of a group. -/
def particlesOf : Element → List Element
  | ⟨uri, name, attributes, scope, children⟩ =>
    let e : Element := ⟨uri, name, attributes, scope, children⟩
    if isSchemaElement e "element" then [e]
    else if isGroup e then particlesAmong children
    else []

def particlesAmong : List Element → List Element
  | [] => []
  | e :: es => particlesOf e ++ particlesAmong es

end

/-- The particles of a complex type in document order, groups opened. -/
def particles (complexType : Element) : List Element := particlesAmong complexType.children

end Tabular.Dataset
