import Tabular.Dataset.Declarations

/-!
The simple type of a column, followed through restrictions to its root. A chain takes at most
seventeen restrictions, so that a cycle of types is refused.
-/
namespace Tabular.Dataset

open Markup

/-- How many restrictions a chain may have, and how deep tables may nest. -/
def depthLimit : Nat := 17

structure SimpleType where
  /-- The type as written, for messages. -/
  declared : String
  /-- The built-in type at the root, if the chain ends in one. -/
  builtin : Option String
  /-- The bound nearest to the column; no bound if negative. -/
  maxLength : Int32
  deriving DecidableEq, Repr

/-- The bound that a restriction states, if it does. -/
def lengthFacet? (restriction : Element) : Except Fault (Option Int32) :=
  match restriction.children.find? fun e =>
      isSchemaElement e "maxLength" || isSchemaElement e "length" with
  | none => .ok none
  | some facet => do
    let value ← required facet "value" "length facet"
    match length? value with
    | some n => return some n
    | none => throw (.schemaFormat s!"invalid length facet value '{value}'")

/-- Is a qualified name, read at an element, one of the types of XML Schema itself? -/
def isBuiltinName (context : Element) (name : String) : Bool :=
  context.namespace? (namePrefix? name) == some schemaUri

/-- The type at the end of a `simpleType` element, after at most `levels` restrictions. -/
def restrictionType (d : Declarations) : Nat → Element → Except Fault SimpleType
  | 0, _ => .error (.schemaFormat "simple type derivation is too deep")
  | levels + 1, simple =>
    match simple.children.find? (isSchemaElement · "restriction") with
    | none => .ok ⟨"xs:simpleType", none, -1⟩
    | some restriction => do
      let base ← match restriction.attribute? "base" with
        | some name =>
          if isBuiltinName restriction name then
            pure (⟨name, some (localName name), -1⟩ : SimpleType)
          else
            match lookUp d.simpleTypes (localName name) with
            | some next => do
              let type ← restrictionType d levels next
              pure { type with declared := name }
            | none => pure ⟨name, none, -1⟩
        | none =>
          match restriction.children.find? (isSchemaElement · "simpleType") with
          | some inner => restrictionType d levels inner
          | none => pure ⟨"xs:restriction", none, -1⟩
      match ← lengthFacet? restriction with
      | some n => return { base with maxLength := n }
      | none => return base

/-- The type of a name, read at an element. -/
def namedType (d : Declarations) (context : Element) (name : String) : Except Fault SimpleType :=
  if isBuiltinName context name then .ok ⟨name, some (localName name), -1⟩
  else
    match lookUp d.simpleTypes (localName name) with
    | some simple => do
      let type ← restrictionType d (depthLimit - 1) simple
      return { type with declared := name }
    | none => .ok ⟨name, none, -1⟩

/-- The type of a column: the one inside it, or the one it names, or text. -/
def simpleTypeOf (d : Declarations) (column : Element) : Except Fault SimpleType :=
  match column.children.find? (isSchemaElement · "simpleType") with
  | some inner => restrictionType d depthLimit inner
  | none =>
    match column.attribute? "type" with
    | some name => namedType d column name
    | none => .ok ⟨"xs:string", some "string", -1⟩

end Tabular.Dataset
