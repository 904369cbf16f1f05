import Tabular.Document
import Tabular.Json.Tree

/-!
JSON trees as documents. A record is an object, in which unknown members are passed over and a
known one stands at most once, or a list of its leading fields in order.
-/
namespace Tabular

namespace JsonTree

def text? : JsonTree → Option String
  | string s => s
  | _ => none

def flag? : JsonTree → Option Bool
  | bool b => some b
  | _ => none

def integer? : JsonTree → Option Int
  | number (some (.int v)) => some v
  | _ => none

def natural? (t : JsonTree) : Option Nat := do
  let v ← t.integer?
  if 0 ≤ v then some v.toNat else none

def items? : JsonTree → Option (List JsonTree)
  | array items => some items
  | _ => none

def isNull : JsonTree → Bool
  | null => true
  | _ => false

/-- The name itself, or an object of the one member `name: null`. -/
def variant? : JsonTree → Option String
  | string s => s
  | object [(some name, null)] => some name
  | _ => none

/-- The known members of an object, if no known one is repeated. -/
def knownMembers? (names : List String) :
    List (Option String × JsonTree) → Option (List (String × JsonTree))
  | [] => some []
  | (none, _) :: _ => none
  | (some k, t) :: ms => do
    let fields ← knownMembers? names ms
    if !names.contains k then return fields
    else if fields.any (·.1 == k) then none
    else return (k, t) :: fields

def fields? (names : List String) : JsonTree → Option (List (String × JsonTree))
  | object members => knownMembers? names members
  | array items => if items.length ≤ names.length then some (names.zip items) else none
  | _ => none

instance : Document JsonTree where
  text? := text?
  flag? := flag?
  integer? := integer?
  natural? := natural?
  items? := items?
  isNull? t := some t.isNull
  variant? := variant?
  fields? := fields?

end JsonTree

end Tabular
