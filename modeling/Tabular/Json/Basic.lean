import Tabular.Number.Shortest

/-!
JSON values. A number is an integer of 64 bits or a double, and the two never agree with each
other; the two zeros of a double agree.
-/
namespace Tabular

inductive Number where
  /-- From `-2 ^ 63` up to, but not including, `2 ^ 64`. -/
  | int (v : Int)
  | double (d : Double)
  deriving DecidableEq, Repr, Inhabited

namespace Number

def toText : Number → String
  | int v => toString v
  | double d => d.toText

def unsignedZero : Number → Number
  | int v => int v
  | double d => double d.unsignedZero

end Number

inductive Json where
  | null
  | bool (b : Bool)
  | number (n : Number)
  | string (s : String)
  | array (items : List Json)
  | object (members : List (String × Json))
  deriving Repr, Inhabited

namespace Json

def isNull : Json → Bool
  | null => true
  | _ => false

def text? : Json → Option String
  | string s => some s
  | _ => none

def int (v : Int) : Json := number (.int v)

def nat (n : Nat) : Json := number (.int n)

/-- The first member of that name. -/
def get? (v : Json) (name : String) : Option Json :=
  match v with
  | object members => (members.find? (·.1 == name)).map (·.2)
  | _ => none

mutual

/-- The value with every zero unsigned. -/
def unsignedZeros : Json → Json
  | null => null
  | bool b => bool b
  | number n => number n.unsignedZero
  | string s => string s
  | array items => array (unsignedZerosList items)
  | object members => object (unsignedZerosMembers members)

def unsignedZerosList : List Json → List Json
  | [] => []
  | v :: vs => v.unsignedZeros :: unsignedZerosList vs

def unsignedZerosMembers : List (String × Json) → List (String × Json)
  | [] => []
  | (k, v) :: ms => (k, v.unsignedZeros) :: unsignedZerosMembers ms

end

mutual

def decEq : (a b : Json) → Decidable (a = b)
  | null, null => isTrue rfl
  | bool a, bool b => if h : a = b then isTrue (h ▸ rfl) else isFalse (by simp [h])
  | number a, number b => if h : a = b then isTrue (h ▸ rfl) else isFalse (by simp [h])
  | string a, string b => if h : a = b then isTrue (h ▸ rfl) else isFalse (by simp [h])
  | array a, array b =>
    match decEqList a b with
    | isTrue h => isTrue (h ▸ rfl)
    | isFalse h => isFalse (by simp [h])
  | object a, object b =>
    match decEqMembers a b with
    | isTrue h => isTrue (h ▸ rfl)
    | isFalse h => isFalse (by simp [h])
  | null, bool _ | null, number _ | null, string _ | null, array _ | null, object _
  | bool _, null | bool _, number _ | bool _, string _ | bool _, array _ | bool _, object _
  | number _, null | number _, bool _ | number _, string _ | number _, array _
  | number _, object _ | string _, null | string _, bool _ | string _, number _
  | string _, array _ | string _, object _ | array _, null | array _, bool _
  | array _, number _ | array _, string _ | array _, object _ | object _, null
  | object _, bool _ | object _, number _ | object _, string _ | object _, array _ =>
    isFalse (by simp)

def decEqList : (a b : List Json) → Decidable (a = b)
  | [], [] => isTrue rfl
  | [], _ :: _ | _ :: _, [] => isFalse (by simp)
  | a :: as, b :: bs =>
    match decEq a b, decEqList as bs with
    | isTrue h, isTrue t => isTrue (by rw [h, t])
    | isFalse h, _ => isFalse (by simp [h])
    | _, isFalse t => isFalse (by simp [t])

def decEqMembers : (a b : List (String × Json)) → Decidable (a = b)
  | [], [] => isTrue rfl
  | [], _ :: _ | _ :: _, [] => isFalse (by simp)
  | (k, a) :: as, (l, b) :: bs =>
    if hk : k = l then
      match decEq a b, decEqMembers as bs with
      | isTrue h, isTrue t => isTrue (by rw [hk, h, t])
      | isFalse h, _ => isFalse (by simp [h])
      | _, isFalse t => isFalse (by simp [t])
    else isFalse (by simp [hk])

end

instance : DecidableEq Json := decEq

/-- Two values agree if they are equal but for the signs of zeros. -/
def agrees (a b : Json) : Bool := decide (a.unsignedZeros = b.unsignedZeros)

theorem agrees_iff {a b : Json} : a.agrees b = true ↔ a.unsignedZeros = b.unsignedZeros := by
  simp [agrees]

end Json

end Tabular
