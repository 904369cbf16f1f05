import Tabular.Catalog.Basic

/-!
Values for columns. A column takes null and the values of its kind; a GUID is stored in one
spelling, whichever it came in.
-/
namespace Tabular

namespace Guid

/-- How many digits stand between the hyphens. -/
def groups : List Nat := [8, 4, 4, 4, 12]

/-- Divides digits into groups by hyphens. -/
def group : List Nat → List Char → List Char
  | [], cs | [_], cs => cs
  | n :: ns, cs => cs.take n ++ '-' :: group ns (cs.drop n)

/-- The characters of groups without the hyphens between them. -/
def ungroup? : List Nat → List Char → Option (List Char)
  | [], cs => if cs.isEmpty then some [] else none
  | [n], cs => if cs.length = n then some cs else none
  | n :: ns, cs =>
    match cs.drop n with
    | '-' :: rest => (ungroup? ns rest).map (cs.take n ++ ·)
    | _ => none

def isHexDigit (c : Char) : Bool :=
  c.isDigit || ('a' ≤ c && c ≤ 'f') || ('A' ≤ c && c ≤ 'F')

/-- In front of a GUID that is written as a name. -/
def urn : List Char := "urn:uuid:".toList

/-- The characters in place of digits, if the text has the shape of a GUID. -/
def body? (cs : List Char) : Option (List Char) :=
  if cs.length = 32 then some cs
  else if urn.isPrefixOf cs then ungroup? groups (cs.drop urn.length)
  else ungroup? groups cs

def isBrace (c : Char) : Bool := c == '\x7b' || c == '\x7d'

def trimBraces (cs : List Char) : List Char :=
  ((cs.dropWhile isBrace).reverse.dropWhile isBrace).reverse

/-- The one spelling of a GUID: small letters in hyphened groups. Braces around it are ignored. -/
def canonical? (text : String) : Option String := do
  let body ← body? (trimBraces text.toList)
  if body.all isHexDigit then some (String.ofList (group groups (body.map Char.toLower))) else none

end Guid

namespace StoredColumn

/-- The text of a value for a column of texts. -/
def text (c : StoredColumn) (v : Json) : Except Refusal String :=
  match v with
  | .string s => .ok s
  | v => .error (.wrongType c v)

/-- The value to be stored for a value given. A text has as many characters as the column is
sized for, if it is sized. -/
def coerce (c : StoredColumn) (v : Json) : Except Refusal Json :=
  match v with
  | .null => .ok .null
  | v =>
    match c.type.kind with
    | .guid => do
      match Guid.canonical? (← c.text v) with
      | some g => return .string g
      | none => throw (.wrongType c v)
    | .wChar | .longVarWChar => do
      let s ← c.text v
      if 0 < c.type.size && c.type.size.toNat < s.length then throw (.tooLong c.name)
      return v
    | .boolean =>
      match v with
      | .bool b => .ok (.bool b)
      | v => .error (.wrongType c v)
    | .bigInt | .unsignedBigInt | .integer | .unsignedInt | .smallInt | .unsignedSmallInt
    | .tinyInt | .double | .decimal =>
      match v with
      | .number n => .ok (.number n)
      | v => .error (.wrongType c v)
    | .date | .dbTime | .longVarBinary => .ok v

end StoredColumn

end Tabular
