import Tabular.Number.Double

/-!
The shortest decimal text of a double: the fewest digits that read back as the same double, and of
those the nearest to its value.
-/
namespace Tabular

namespace Double

def digitCount (n : Nat) : Nat := (Nat.toDigits 10 n).length

/-- The `k` with `10 ^ k ≤ num / den < 10 ^ (k + 1)`, for a positive ratio. -/
def decimalExponent (num den : Nat) : Int :=
  if den ≤ num then (digitCount (num / den) : Int) - 1
  else
    let ceiling := (den + num - 1) / num
    Int.negOfNat (digitCount (ceiling - 1))

/-- Bounds and value of the reals that round to a double, over one denominator. -/
structure Interval where
  low : Nat
  value : Nat
  high : Nat
  den : Nat
  closed : Bool

def interval (d : Double) : Interval :=
  let lowGap := if d.significand == Nat.pow 2 52 && d.exponent != -1074 then 1 else 2
  let up := Nat.pow 2 (d.exponent - 2).toNat
  { low := (4 * d.significand - lowGap) * up
    value := 4 * d.significand * up
    high := (4 * d.significand + 2) * up
    den := Nat.pow 2 (2 - d.exponent).toNat
    closed := d.significand % 2 == 0 }

/-- `s * 10 ^ t` over the interval's denominator, with both sides scaled to naturals. -/
def Interval.place (i : Interval) (s : Nat) (t : Int) : Nat × Nat :=
  (s * Nat.pow 10 t.toNat * i.den, Nat.pow 10 (-t).toNat)

def Interval.has (i : Interval) (s : Nat) (t : Int) : Bool :=
  let (x, scale) := i.place s t
  if i.closed then i.low * scale ≤ x && x ≤ i.high * scale
  else i.low * scale < x && x < i.high * scale

/-- The point of the grid of `10 ^ t` that reads back and is nearest to the value, if one does. -/
def Interval.pick? (i : Interval) (t : Int) : Option Nat :=
  let s := i.value * Nat.pow 10 (-t).toNat / (i.den * Nat.pow 10 t.toNat)
  match i.has s t, i.has (s + 1) t with
  | false, false => none
  | true, false => some s
  | false, true => some (s + 1)
  | true, true =>
    let (x, scale) := i.place s t
    let (y, _) := i.place (s + 1) t
    if y - i.value * scale < i.value * scale - x then some (s + 1) else some s

/-- Tries grids of ever more digits, the first with one digit. -/
def shortestFrom (i : Interval) : Nat → Int → Nat × Int
  | 0, t => (i.value * Nat.pow 10 (-t).toNat / (i.den * Nat.pow 10 t.toNat), t)
  | fuel + 1, t =>
    match i.pick? t with
    | some s => (s, t)
    | none => shortestFrom i fuel (t - 1)

/-- Digits without trailing zeros, and the exponent of the first one. -/
def shortest (d : Double) : List Char × Int :=
  if d.isZero then (['0'], 0)
  else
    let i := d.interval
    let (s, t) := shortestFrom i 17 (decimalExponent i.value i.den)
    let digits := Nat.toDigits 10 s
    ((digits.reverse.dropWhile (· == '0')).reverse, (digits.length : Int) - 1 + t)

/-- Exponents from -5 to 15 are written with a point among the digits. -/
def isPositional (k : Int) : Bool := -5 ≤ k && k ≤ 15

def positional (digits : List Char) (k : Int) : List Char :=
  if k < 0 then ['0', '.'] ++ List.replicate (-k - 1).toNat '0' ++ digits
  else
    let whole := k.toNat + 1
    if digits.length ≤ whole then
      digits ++ List.replicate (whole - digits.length) '0' ++ ['.', '0']
    else digits.take whole ++ '.' :: digits.drop whole

/-- An exponent has a sign and at least two digits. -/
def exponential (digits : List Char) (k : Int) : List Char :=
  let mantissa := match digits with
    | d :: rest@(_ :: _) => d :: '.' :: rest
    | ds => ds
  let sign := if k < 0 then '-' else '+'
  let magnitude := Nat.toDigits 10 k.natAbs
  let padded := if magnitude.length < 2 then '0' :: magnitude else magnitude
  mantissa ++ 'e' :: sign :: padded

def toText (d : Double) : String :=
  let (digits, k) := d.shortest
  let body := if isPositional k then positional digits k else exponential digits k
  String.ofList (if d.negative then '-' :: body else body)

end Double

end Tabular
