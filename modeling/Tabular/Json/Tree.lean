import Tabular.Json.Basic

/-!
A JSON text as it stands. Members keep their order and repetitions; a numeral beyond every double
and a string with half a surrogate pair are well formed but have no value.
-/
namespace Tabular

inductive JsonTree where
  | null
  | bool (b : Bool)
  | number (n : Option Number)
  | string (s : Option String)
  | array (items : List JsonTree)
  | object (members : List (Option String × JsonTree))
  deriving Repr, Inhabited

namespace Json

/-- Puts a member in its place by name; a member of that name gives way. -/
def insertMember (name : String) (v : Json) : List (String × Json) → List (String × Json)
  | [] => [(name, v)]
  | (k, w) :: ms =>
    if name < k then (name, v) :: (k, w) :: ms
    else if name == k then (name, v) :: ms
    else (k, w) :: insertMember name v ms

/-- Members sorted by name, the last of each name. -/
def sortMembers (ms : List (String × Json)) : List (String × Json) :=
  ms.foldl (fun acc m => insertMember m.1 m.2 acc) []

mutual

/-- The tree that the printed value is read as. -/
def toTree : Json → JsonTree
  | null => .null
  | bool b => .bool b
  | number n => .number (some n)
  | string s => .string (some s)
  | array items => .array (toTreeList items)
  | object members => .object (toTreeMembers members)

def toTreeList : List Json → List JsonTree
  | [] => []
  | v :: vs => v.toTree :: toTreeList vs

def toTreeMembers : List (String × Json) → List (Option String × JsonTree)
  | [] => []
  | (k, v) :: ms => (some k, v.toTree) :: toTreeMembers ms

end

end Json

namespace JsonTree

mutual

/-- The value of a tree in which lists and objects nest at most `depth` deep. Members are sorted
by name and the last of each name stays. -/
def value? : Nat → JsonTree → Option Json
  | _, null => some .null
  | _, bool b => some (.bool b)
  | _, number n => n.map .number
  | _, string s => s.map .string
  | 0, array _ | 0, object _ => none
  | depth + 1, array items => (values? depth items).map .array
  | depth + 1, object members => (memberValues? depth members).map fun ms =>
      .object (Json.sortMembers ms)

def values? : Nat → List JsonTree → Option (List Json)
  | _, [] => some []
  | depth, t :: ts => do return (← value? depth t) :: (← values? depth ts)

def memberValues? : Nat → List (Option String × JsonTree) → Option (List (String × Json))
  | _, [] => some []
  | depth, (k, t) :: ts => do return (← k, ← value? depth t) :: (← memberValues? depth ts)

end

end JsonTree

end Tabular
