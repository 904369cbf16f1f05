import Tabular.Document
import Tabular.Yaml.Node

/-!
YAML documents as documents of records. What a plain scalar stands for depends on what is asked
for: any scalar is a text, and only a plain one is a number, a flag or null.
-/
namespace Tabular.Yaml

/-- A node of a document. -/
structure Value where
  named : List (Nat × Node)
  node : Node

namespace Value

/-- The node itself, or the node that an alias stands for. -/
def resolved (v : Value) : Node :=
  match v.node with
  | .alias n => ((v.named.find? (·.1 == n)).map (·.2)).getD .absent
  | node => node

/-- Tags of the common types. -/
def commonTag (name : String) : List Char := ("tag:yaml.org,2002:" ++ name).toList

/-- The text of a scalar that may stand for another value: a plain one, or a literal one that is
tagged as such. -/
def bare? (v : Value) (type : String) : Option String :=
  match v.resolved with
  | .scalar _ .plain text => some text
  | .scalar tag .literal text => if tag == some (commonTag type) then some text else none
  | _ => none

def text? (v : Value) : Option String :=
  match v.resolved with
  | .scalar _ _ text => some text
  | _ => none

def flag? (v : Value) : Option Bool := do
  let text ← v.bare? "bool"
  if text ∈ ["true", "True", "TRUE"] then some true
  else if text ∈ ["false", "False", "FALSE"] then some false
  else none

/-- The value of digits in a base. -/
def digits? (base : Nat) (cs : List Char) : Option Nat :=
  if cs.isEmpty then none
  else cs.foldlM (fun n c => do
    let d ← hexValue? c
    if d < base then some (base * n + d) else none) 0

/-- The digits of a number in another base, and that base. -/
def based? : List Char → Option (Nat × List Char)
  | '0' :: 'x' :: cs => some (16, cs)
  | '0' :: 'o' :: cs => some (8, cs)
  | '0' :: 'b' :: cs => some (2, cs)
  | _ => none

/-- A number without a sign. A decimal one has no zero in front. -/
def magnitude? (cs : List Char) : Option Nat :=
  match based? cs with
  | some (base, cs) => digits? base cs
  | none => if 1 < cs.length && cs.head? == some '0' then none else digits? 10 cs

def natural? (v : Value) : Option Nat := do
  match (← v.bare? "int").toList with
  | '+' :: cs => magnitude? cs
  | cs => magnitude? cs

def integer? (v : Value) : Option Int := do
  match (← v.bare? "int").toList with
  | '+' :: cs => return (← magnitude? cs)
  | '-' :: cs => return -(← magnitude? cs)
  | cs => return (← magnitude? cs)

/-- Does a list or a mapping take this scalar for an empty one? -/
def isEmpty : Node → Bool
  | .scalar _ .plain text => text.isEmpty
  | _ => false

def items? (v : Value) : Option (List Value) :=
  match v.resolved with
  | .sequence items => some (items.map (⟨v.named, ·⟩))
  | node => if isEmpty node then some [] else none

def isNullText (text : String) : Bool := text ∈ ["null", "Null", "NULL", "~"]

/-- A plain scalar is null if it is empty or says so. One that is tagged as null has to say so. -/
def isNull? (v : Value) : Option Bool :=
  match v.resolved with
  | .scalar none .plain text => some (text.isEmpty || isNullText text)
  | .scalar (some tag) .plain text =>
    if tag == commonTag "null" then (if isNullText text then some true else none) else some false
  | _ => some false

/-- The case that a tag of one exclamation mark names. -/
def tagName? : Option (List Char) → Option String
  | some ('!' :: name) => some (String.ofList (if name.isEmpty then ['!'] else name))
  | _ => none

/-- A case is named by a scalar, or by the tag of a null. -/
def variant? (v : Value) : Option String :=
  match v.resolved with
  | .scalar tag style text =>
    match tagName? tag with
    | some name => if style == .plain && (text.isEmpty || isNullText text) then some name else none
    | none => some text
  | _ => none

/-- The known entries of a mapping, if no known one is repeated. Every key has to be a scalar. -/
def knownEntries? (named : List (Nat × Node)) (names : List String) :
    List (Node × Node) → Option (List (String × Value))
  | [] => some []
  | (k, v) :: rest => do
    let name ← text? ⟨named, k⟩
    let fields ← knownEntries? named names rest
    if !names.contains name then return fields
    else if fields.any (·.1 == name) then none
    else return (name, ⟨named, v⟩) :: fields

def fields? (names : List String) (v : Value) : Option (List (String × Value)) :=
  match v.resolved with
  | .mapping entries => knownEntries? v.named names entries
  | node => if isEmpty node then some [] else none

instance : Tabular.Document Value where
  text? := text?
  flag? := flag?
  integer? := integer?
  natural? := natural?
  items? := items?
  isNull? := isNull?
  variant? := variant?
  fields? := fields?

end Value

/-- Reads a record from the one document of a text. -/
def read? {α : Type} (read : Value → Option α) (text : String) : Option α := do
  let d ← Document.ofText? text
  read ⟨d.named, d.root⟩

end Tabular.Yaml
