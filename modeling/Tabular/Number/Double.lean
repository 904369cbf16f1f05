/-!
Binary floating-point numbers of 64 bits as exact values: a sign and `significand * 2 ^ exponent`.
Every operation is an exact ratio of naturals rounded once, to nearest with ties to even.
-/
namespace Tabular

/-- A finite double. The significand is below `2 ^ 53` and the exponent at least `-1074`; a
significand below `2 ^ 52` has the exponent `-1074`. -/
structure Double where
  negative : Bool
  significand : Nat
  exponent : Int
  deriving DecidableEq, Repr, Inhabited

namespace Double

def zero : Double := ⟨false, 0, -1074⟩

def neg (d : Double) : Double := { d with negative := !d.negative }

def isZero (d : Double) : Bool := d.significand == 0

/-- Zero has one value in spite of its two signs. -/
def unsignedZero (d : Double) : Double := if d.isZero then zero else d

/-- The quotient rounded to a natural number, a half going to the even neighbour. -/
def divideToEven (num den : Nat) : Nat :=
  let q := num / den
  let twice := 2 * (num % den)
  if twice < den then q
  else if den < twice then q + 1
  else q + q % 2

/-- The quotient `num * 2 ^ (-e) / den` as a numerator and a denominator. -/
def scaled (num den : Nat) (e : Int) : Nat × Nat :=
  if 0 ≤ e then (num, den * Nat.pow 2 e.toNat) else (num * Nat.pow 2 (-e).toNat, den)

/-- The exponent that leaves 53 binary digits before the point, or the smallest exponent. -/
def exponentOf (num den : Nat) : Int :=
  let guess : Int := (num.log2 : Int) - den.log2 - 52
  let (n, d) := scaled num den guess
  let e := if n / d < Nat.pow 2 52 then guess - 1 else guess
  if e < -1074 then -1074 else e

/-- The double nearest to `num / den`; none if that is beyond the largest one. -/
def ofRatio (num den : Nat) : Option Double :=
  if num == 0 then some zero
  else
    let e := exponentOf num den
    let (n, d) := scaled num den e
    let m := divideToEven n d
    let (m, e) := if m == Nat.pow 2 53 then (Nat.pow 2 52, e + 1) else (m, e)
    if 971 < e then none else some ⟨false, m, e⟩

/-- Numerator and denominator of the magnitude. -/
def ratio (d : Double) : Nat × Nat :=
  if 0 ≤ d.exponent then (d.significand * Nat.pow 2 d.exponent.toNat, 1)
  else (d.significand, Nat.pow 2 (-d.exponent).toNat)

def ofNat (n : Nat) : Option Double := ofRatio n 1

/-- The product of the magnitudes. -/
def mul (a b : Double) : Option Double :=
  ofRatio (a.ratio.1 * b.ratio.1) (a.ratio.2 * b.ratio.2)

/-- The quotient of the magnitudes, for a divisor other than zero. -/
def div (a b : Double) : Option Double :=
  ofRatio (a.ratio.1 * b.ratio.2) (a.ratio.2 * b.ratio.1)

/-- The double nearest to a power of ten. -/
def powerOfTen (n : Nat) : Option Double := ofNat (Nat.pow 10 n)

/-- The magnitude divided by `10 ^ n`, in steps of at most 308 powers, each rounded. -/
def scaleDown (d : Double) : Nat → Nat → Option Double
  | 0, _ => some zero
  | fuel + 1, n =>
    if n ≤ 308 then do d.div (← powerOfTen n)
    else if d.isZero then some d
    else do scaleDown (← d.div (← powerOfTen 308)) fuel (n - 308)

/-- `significand * 10 ^ exponent`, rounded once for the significand, once for the power and once
for the result; none beyond the largest double. Below `10 ^ -924` nothing is left of it. -/
def ofDecimal (significand : Nat) (exponent : Int) : Option Double := do
  let d ← ofNat significand
  if 0 ≤ exponent then
    if exponent ≤ 308 then d.mul (← powerOfTen exponent.toNat)
    else if d.isZero then some d
    else none
  else scaleDown d 4 (-exponent).toNat

end Double

end Tabular
