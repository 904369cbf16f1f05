import Tabular.Json.Tree

/-!
Reading JSON texts. The scanners take a list of characters and return what they read with the
rest; none means that the text is not JSON.
-/
namespace Tabular

namespace JsonTree

def isSpace (c : Char) : Bool := c == ' ' || c == '\t' || c == '\n' || c == '\r'

def skipSpace (cs : List Char) : List Char := cs.dropWhile isSpace

/-- A numeral by its parts: digits before the point, after it, and the exponent. -/
structure Numeral where
  negative : Bool
  whole : List Nat
  fraction : Option (List Nat)
  exponent : Option (Bool × List Nat)

def digitValue (c : Char) : Nat := c.toNat - '0'.toNat

def scanDigits (cs : List Char) : List Nat × List Char :=
  ((cs.takeWhile Char.isDigit).map digitValue, cs.dropWhile Char.isDigit)

def scanFraction : List Char → Option (Option (List Nat) × List Char)
  | '.' :: cs =>
    match scanDigits cs with
    | ([], _) => none
    | (ds, rest) => some (some ds, rest)
  | cs => some (none, cs)

def scanExponent : List Char → Option (Option (Bool × List Nat) × List Char)
  | c :: cs =>
    if c == 'e' || c == 'E' then
      let (negative, cs) := match cs with
        | '+' :: cs => (false, cs)
        | '-' :: cs => (true, cs)
        | cs => (false, cs)
      match scanDigits cs with
      | ([], _) => none
      | (ds, rest) => some (some (negative, ds), rest)
    else some (none, c :: cs)
  | [] => some (none, [])

/-- A numeral's whole part is `0` or begins with another digit. -/
def scanNumeral (cs : List Char) : Option (Numeral × List Char) := do
  let (negative, cs) := match cs with
    | '-' :: cs => (true, cs)
    | cs => (false, cs)
  let (whole, cs) := scanDigits cs
  guard (whole == [0] || (whole != [] && whole.head? != some 0))
  let (fraction, cs) ← scanFraction cs
  let (exponent, cs) ← scanExponent cs
  return (⟨negative, whole, fraction, exponent⟩, cs)

/-- Digits are taken up as long as the significand stays below `2 ^ 64`. -/
def takeUp (significand : Nat) : List Nat → Nat × Nat × List Nat
  | [] => (significand, 0, [])
  | d :: ds =>
    if 10 * significand + d < Nat.pow 2 64 then
      let (s, n, rest) := takeUp (10 * significand + d) ds
      (s, n + 1, rest)
    else (significand, 0, d :: ds)

def digitsToNat (ds : List Nat) : Nat := ds.foldl (fun n d => 10 * n + d) 0

/-- The value of a numeral. Without a point, an exponent or too many digits it is an integer, but
for minus zero; else it is the double of the digits that fit into 64 bits, scaled by the power of
ten that is left. -/
def Numeral.value? (n : Numeral) : Option Number := do
  let (s, _, dropped) := takeUp 0 n.whole
  let signed (d : Double) : Number := .double (if n.negative then d.neg else d)
  if dropped.isEmpty && n.fraction.isNone && n.exponent.isNone then
    if !n.negative then return .int s
    else if s == 0 || Nat.pow 2 63 < s then return signed (← Double.ofNat s)
    else return .int (-s)
  let (s, places, _) := takeUp s (n.fraction.getD [])
  let scale : Int := (dropped.length : Int) - places
  match n.exponent with
  | none => return signed (← Double.ofDecimal s scale)
  | some (negative, ds) =>
    let e := digitsToNat ds
    if e < Nat.pow 2 31 then
      return signed (← Double.ofDecimal s (if negative then scale - e else scale + e))
    else if s == 0 || negative then return signed Double.zero
    else none

def hexValue? (c : Char) : Option Nat :=
  if '0' ≤ c && c ≤ '9' then some (c.toNat - '0'.toNat)
  else if 'a' ≤ c && c ≤ 'f' then some (c.toNat - 'a'.toNat + 10)
  else if 'A' ≤ c && c ≤ 'F' then some (c.toNat - 'A'.toNat + 10)
  else none

def scanHex4 : List Char → Option (Nat × List Char)
  | a :: b :: c :: d :: rest => do
    return (4096 * (← hexValue? a) + 256 * (← hexValue? b) + 16 * (← hexValue? c) + (← hexValue? d),
      rest)
  | _ => none

def isLeading (n : Nat) : Bool := 0xd800 ≤ n && n < 0xdc00
def isTrailing (n : Nat) : Bool := 0xdc00 ≤ n && n < 0xe000

/-- A character, or half of a surrogate pair. -/
inductive Piece where
  | char (c : Char)
  | half (n : Nat)

def scanEscape : List Char → Option (Piece × List Char)
  | '"' :: cs => some (.char '"', cs)
  | '\\' :: cs => some (.char '\\', cs)
  | '/' :: cs => some (.char '/', cs)
  | 'b' :: cs => some (.char '\x08', cs)
  | 'f' :: cs => some (.char '\x0c', cs)
  | 'n' :: cs => some (.char '\n', cs)
  | 'r' :: cs => some (.char '\r', cs)
  | 't' :: cs => some (.char '\t', cs)
  | 'u' :: cs => do
    let (n, rest) ← scanHex4 cs
    return (if isLeading n || isTrailing n then .half n else .char (Char.ofNat n), rest)
  | _ => none

/-- The pieces up to the closing quote. -/
def scanPieces : Nat → List Char → Option (List Piece × List Char)
  | 0, _ => none
  | _, [] => none
  | fuel + 1, c :: cs =>
    if c == '"' then some ([], cs)
    else if c == '\\' then do
      let (p, rest) ← scanEscape cs
      let (ps, rest) ← scanPieces fuel rest
      return (p :: ps, rest)
    else if c.toNat < 0x20 then none
    else do
      let (ps, rest) ← scanPieces fuel cs
      return (.char c :: ps, rest)

/-- Joins the halves of surrogate pairs; a half on its own has no character. -/
def joinPieces : List Piece → Option (List Char)
  | [] => some []
  | .char c :: ps => (joinPieces ps).map (c :: ·)
  | .half a :: .half b :: ps =>
    if isLeading a && isTrailing b then
      (joinPieces ps).map (Char.ofNat (0x10000 + (a - 0xd800) * 0x400 + (b - 0xdc00)) :: ·)
    else none
  | .half _ :: _ => none

def scanString (cs : List Char) : Option (Option String × List Char) := do
  let (ps, rest) ← scanPieces (cs.length + 1) cs
  return ((joinPieces ps).map String.ofList, rest)

def scanWord (word : List Char) (t : JsonTree) (cs : List Char) : Option (JsonTree × List Char) :=
  if word.isPrefixOf cs then some (t, cs.drop word.length) else none

mutual

/-- Reads a value; `fuel` bounds the number of values and separators still to be read. -/
def scanValue : Nat → List Char → Option (JsonTree × List Char)
  | 0, _ => none
  | fuel + 1, cs =>
    match skipSpace cs with
    | 'n' :: rest => scanWord ['u', 'l', 'l'] null rest
    | 't' :: rest => scanWord ['r', 'u', 'e'] (bool true) rest
    | 'f' :: rest => scanWord ['a', 'l', 's', 'e'] (bool false) rest
    | '"' :: rest => do
      let (s, rest) ← scanString rest
      return (string s, rest)
    | '[' :: rest =>
      match skipSpace rest with
      | ']' :: rest => some (array [], rest)
      | rest => do
        let (items, rest) ← scanItems fuel rest
        return (array items, rest)
    | '\x7b' :: rest =>
      match skipSpace rest with
      | '\x7d' :: rest => some (object [], rest)
      | rest => do
        let (members, rest) ← scanMembers fuel rest
        return (object members, rest)
    | rest => do
      let (n, rest) ← scanNumeral rest
      return (number n.value?, rest)

/-- Reads the items up to the closing bracket. -/
def scanItems : Nat → List Char → Option (List JsonTree × List Char)
  | 0, _ => none
  | fuel + 1, cs => do
    let (item, rest) ← scanValue fuel cs
    match skipSpace rest with
    | ',' :: rest =>
      let (items, rest) ← scanItems fuel rest
      return (item :: items, rest)
    | ']' :: rest => return ([item], rest)
    | _ => none

/-- Reads the members up to the closing brace. -/
def scanMembers : Nat → List Char → Option (List (Option String × JsonTree) × List Char)
  | 0, _ => none
  | fuel + 1, cs =>
    match skipSpace cs with
    | '"' :: rest => do
      let (name, rest) ← scanString rest
      match skipSpace rest with
      | ':' :: rest =>
        let (v, rest) ← scanValue fuel rest
        match skipSpace rest with
        | ',' :: rest =>
          let (members, rest) ← scanMembers fuel rest
          return ((name, v) :: members, rest)
        | '\x7d' :: rest => return ([(name, v)], rest)
        | _ => none
      | _ => none
    | _ => none

end

/-- The tree of a whole text. -/
def parse (s : String) : Option JsonTree := do
  let cs := s.toList
  let (t, rest) ← scanValue (2 * cs.length + 1) cs
  if (skipSpace rest).isEmpty then some t else none

end JsonTree

end Tabular
