/-!
Trees of XML elements. Names are expanded, every element knows the namespace prefixes in scope, and
text between elements is not kept.
-/
namespace Tabular.Markup

structure Attribute where
  /-- None for an attribute without a prefix. -/
  uri : Option String
  name : String
  value : String
  deriving DecidableEq, Repr, Inhabited

/-- Prefixes and what they stand for, the nearest declaration first. No prefix is the default. -/
abbrev Scope := List (Option String × String)

structure Element where
  uri : Option String
  name : String
  attributes : List Attribute
  scope : Scope
  children : List Element
  deriving Repr, Inhabited

namespace Element

/-- The value of an attribute without a namespace. -/
def attribute? (e : Element) (name : String) : Option String :=
  (e.attributes.find? fun a => a.uri.isNone && a.name == name).map (·.value)

/-- The value of an attribute in a namespace. -/
def attributeIn? (e : Element) (uri name : String) : Option String :=
  (e.attributes.find? fun a => a.uri == some uri && a.name == name).map (·.value)

def isNamed (e : Element) (uri name : String) : Bool := e.uri == some uri && e.name == name

/-- What a prefix stands for at this element. -/
def namespace? (e : Element) (key : Option String) : Option String :=
  (e.scope.find? (·.1 == key)).map (·.2)

mutual

/-- The element and all below it, each before its children. -/
def descendants : Element → List Element
  | ⟨uri, name, attributes, scope, children⟩ =>
    ⟨uri, name, attributes, scope, children⟩ :: descendantsOf children

def descendantsOf : List Element → List Element
  | [] => []
  | e :: es => e.descendants ++ descendantsOf es

end

end Element

end Tabular.Markup
