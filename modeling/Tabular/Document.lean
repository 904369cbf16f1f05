/-!
Reading records from structured documents of any format. A format says how its values are viewed;
a record is read once, over this interface.
-/
namespace Tabular

/-- The views of a format's values. Each is none where the value has no such view. -/
class Document (ν : Type) where
  text? : ν → Option String
  flag? : ν → Option Bool
  integer? : ν → Option Int
  natural? : ν → Option Nat
  items? : ν → Option (List ν)
  /-- Does the value stand for an absent one? None if it says so and is not. -/
  isNull? : ν → Option Bool
  /-- The name of a case without data. -/
  variant? : ν → Option String
  /-- The fields of a record that knows the given names, each at most once. -/
  fields? : List String → ν → Option (List (String × ν))

namespace Document

variable {ν α : Type} [Document ν]

def field? (fields : List (String × ν)) (name : String) : Option ν :=
  (fields.find? (·.1 == name)).map (·.2)

/-- A field that has to be there. -/
def required (fields : List (String × ν)) (name : String) (read : ν → Option α) : Option α := do
  read (← field? fields name)

/-- A field with a value for its absence. -/
def withDefault (fields : List (String × ν)) (name : String) (value : α) (read : ν → Option α) :
    Option α :=
  match field? fields name with
  | none => some value
  | some v => read v

def nullable (read : ν → Option α) (v : ν) : Option (Option α) := do
  if ← isNull? v then return none
  else return some (← read v)

/-- A field that may be missing or null. -/
def optional (fields : List (String × ν)) (name : String) (read : ν → Option α) :
    Option (Option α) :=
  withDefault fields name none (nullable read)

def list (read : ν → Option α) (v : ν) : Option (List α) := do
  (← items? v).mapM read

def texts (v : ν) : Option (List String) := list text? v

def int32? (v : ν) : Option Int32 := do
  let n ← integer? v
  if -0x80000000 ≤ n && n < 0x80000000 then some (Int32.ofInt n) else none

def uint16? (v : ν) : Option UInt16 := do
  let n ← natural? v
  if n < UInt16.size then some (UInt16.ofNat n) else none

def uint32? (v : ν) : Option UInt32 := do
  let n ← natural? v
  if n < UInt32.size then some (UInt32.ofNat n) else none

def uint64? (v : ν) : Option UInt64 := do
  let n ← natural? v
  if n < UInt64.size then some (UInt64.ofNat n) else none

end Document

end Tabular
