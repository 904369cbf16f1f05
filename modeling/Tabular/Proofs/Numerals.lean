import Mathlib
import Tabular.Json.Parser
import Tabular.Number.Shortest

/-!
Numerals in a text. The text of a number, in front of what cannot go on with it, is read as one
numeral. The value is the number again if it is an integer; a double may come back as another one.
-/
namespace Tabular

open JsonTree (Numeral digitValue scanDigits scanFraction scanExponent scanNumeral)

/-- Does no numeral go on with these characters? -/
def Ends (rest : List Char) : Prop :=
  ∀ c ∈ rest.head?, c.isDigit = false ∧ c ≠ '.' ∧ c ≠ 'e' ∧ c ≠ 'E'

theorem ends_nil : Ends [] := by
  intro c hc
  cases hc

theorem ends_cons {c : Char} (rest : List Char)
    (h : c.isDigit = false ∧ c ≠ '.' ∧ c ≠ 'e' ∧ c ≠ 'E') : Ends (c :: rest) := by
  intro d hd
  obtain rfl := Option.some.inj hd
  exact h

def IsDigits (cs : List Char) : Prop := cs ≠ [] ∧ ∀ c ∈ cs, c.isDigit = true

theorem isDigits_zero : IsDigits ['0'] :=
  ⟨List.cons_ne_nil _ _, List.forall_mem_singleton.mpr (by decide)⟩

/-! ### Parts of numerals -/

theorem scanDigits_append {ds rest : List Char} (digits : ∀ c ∈ ds, c.isDigit = true)
    (stop : ∀ c ∈ rest.head?, c.isDigit = false) :
    scanDigits (ds ++ rest) = (ds.map digitValue, rest) := by
  have none : rest.takeWhile Char.isDigit = [] ∧ rest.dropWhile Char.isDigit = rest := by
    cases rest with
    | nil => exact ⟨rfl, rfl⟩
    | cons c cs =>
      have := stop c rfl
      simp [this]
  unfold scanDigits
  rw [List.takeWhile_append_of_pos digits, List.dropWhile_append_of_pos digits, none.1, none.2,
    List.append_nil]

structure Spelling where
  negative : Bool
  whole : List Char
  fraction : Option (List Char)
  exponent : Option (Bool × List Char)

namespace Spelling

def fractionText : Option (List Char) → List Char
  | none => []
  | some ds => '.' :: ds

def exponentText : Option (Bool × List Char) → List Char
  | none => []
  | some (negative, ds) => 'e' :: (if negative then '-' else '+') :: ds

def text (p : Spelling) : List Char :=
  (if p.negative then ['-'] else []) ++
    (p.whole ++ (fractionText p.fraction ++ exponentText p.exponent))

def numeral (p : Spelling) : Numeral :=
  ⟨p.negative, p.whole.map digitValue, p.fraction.map (·.map digitValue),
    p.exponent.map fun e => (e.1, e.2.map digitValue)⟩

structure IsProper (p : Spelling) : Prop where
  whole : IsDigits p.whole
  leading : p.whole = ['0'] ∨ p.whole.head? ≠ some '0'
  fraction : ∀ ds ∈ p.fraction, IsDigits ds
  exponent : ∀ e ∈ p.exponent, IsDigits e.2

theorem scanFraction_text {fraction : Option (List Char)} {rest : List Char}
    (digits : ∀ ds ∈ fraction, IsDigits ds)
    (stop : ∀ c ∈ rest.head?, c.isDigit = false ∧ c ≠ '.') :
    scanFraction (fractionText fraction ++ rest) =
      some (fraction.map (·.map digitValue), rest) := by
  cases fraction with
  | none =>
    change scanFraction rest = some (none, rest)
    unfold scanFraction
    split
    · next cs => exact absurd rfl (stop '.' rfl).2
    · rfl
  | some ds =>
    obtain ⟨nonempty, all⟩ := digits ds rfl
    change scanFraction ('.' :: (ds ++ rest)) = _
    unfold scanFraction
    simp only [scanDigits_append all fun c hc => (stop c hc).1]
    cases ds with
    | nil => exact absurd rfl nonempty
    | cons d ds => rfl

theorem scanExponent_text {exponent : Option (Bool × List Char)} {rest : List Char}
    (digits : ∀ e ∈ exponent, IsDigits e.2) (ends : Ends rest) :
    scanExponent (exponentText exponent ++ rest) =
      some (exponent.map fun e => (e.1, e.2.map digitValue), rest) := by
  cases exponent with
  | none =>
    change scanExponent rest = some (none, rest)
    cases rest with
    | nil => rfl
    | cons c cs =>
      obtain ⟨-, -, small, capital⟩ := ends c rfl
      simp [scanExponent, small, capital]
  | some e =>
    obtain ⟨negative, ds⟩ := e
    obtain ⟨nonempty, all⟩ : IsDigits ds := digits _ rfl
    have scanned := scanDigits_append all fun c hc => (ends c hc).1
    cases ds with
    | nil => exact absurd rfl nonempty
    | cons d ds =>
      rw [exponentText, List.cons_append, List.cons_append]
      rw [List.cons_append] at scanned
      cases negative <;> simp [scanExponent, scanned]

theorem digitValue_eq_zero_iff {c : Char} (h : c.isDigit = true) : digitValue c = 0 ↔ c = '0' := by
  unfold Char.isDigit at h
  rw [Bool.and_eq_true, decide_eq_true_eq, decide_eq_true_eq] at h
  have low := UInt32.le_iff_toNat_le.mp h.1
  have zero : ('0' : Char).toNat = 48 := rfl
  have : ('0' : Char).val.toNat = 48 := rfl
  unfold digitValue
  constructor
  · intro none
    apply Char.ext
    apply UInt32.toNat_inj.mp
    change c.toNat = 48
    change 48 ≤ c.toNat at low
    omega
  · rintro rfl
    rfl

def scanUnsigned (negative : Bool) (cs : List Char) : Option (Numeral × List Char) := do
  let (whole, cs) := scanDigits cs
  guard (whole == [0] || (whole != [] && whole.head? != some 0))
  let (fraction, cs) ← scanFraction cs
  let (exponent, cs) ← scanExponent cs
  return (⟨negative, whole, fraction, exponent⟩, cs)

theorem scanNumeral_minus (cs : List Char) : scanNumeral ('-' :: cs) = scanUnsigned true cs := rfl

theorem scanNumeral_of_head_ne {cs : List Char} (h : cs.head? ≠ some '-') :
    scanNumeral cs = scanUnsigned false cs := by
  cases cs with
  | nil => rfl
  | cons c cs =>
    have : c ≠ '-' := fun same => h (congrArg some same)
    simp [scanNumeral, scanUnsigned, this]

/-- What follows the digits of a fraction is neither a digit nor a point. -/
theorem head?_exponentText (exponent : Option (Bool × List Char)) {rest : List Char}
    (ends : Ends rest) :
    ∀ c ∈ (exponentText exponent ++ rest).head?, c.isDigit = false ∧ c ≠ '.' := by
  intro c hc
  cases exponent with
  | none => exact ⟨(ends c hc).1, (ends c hc).2.1⟩
  | some e =>
    obtain rfl := Option.some.inj hc
    decide

/-- What follows the whole digits is no digit. -/
theorem head?_fractionText (fraction : Option (List Char)) {rest : List Char}
    (stop : ∀ c ∈ rest.head?, c.isDigit = false) :
    ∀ c ∈ (fractionText fraction ++ rest).head?, c.isDigit = false := by
  intro c hc
  cases fraction with
  | none => exact stop c hc
  | some ds =>
    obtain rfl := Option.some.inj hc
    decide

/-- The whole digits are those of one zero, or do not begin with a zero. -/
theorem IsProper.guarded {p : Spelling} (proper : p.IsProper) :
    (p.whole.map digitValue == [0] ||
      (p.whole.map digitValue != [] && (p.whole.map digitValue).head? != some 0)) = true := by
  obtain ⟨nonempty, all⟩ := proper.whole
  rcases proper.leading with zero | leading
  · rw [zero]
    decide
  · cases h : p.whole with
    | nil => exact absurd h nonempty
    | cons c cs =>
      have : digitValue c ≠ 0 := by
        intro zero
        have := (digitValue_eq_zero_iff (all c (by simp [h]))).mp zero
        exact leading (by rw [h, this]; rfl)
      simp [this]

theorem scanUnsigned_text {p : Spelling} {rest : List Char} (proper : p.IsProper)
    (ends : Ends rest) :
    scanUnsigned p.negative (p.whole ++ (fractionText p.fraction ++
      (exponentText p.exponent ++ rest))) = some (p.numeral, rest) := by
  have exponentStop := head?_exponentText p.exponent ends
  have fractionStop := head?_fractionText p.fraction fun c hc => (exponentStop c hc).1
  unfold scanUnsigned
  simp only [scanDigits_append proper.whole.2 fractionStop, proper.guarded, guard, if_true,
    scanFraction_text proper.fraction exponentStop, Option.bind_eq_bind, Option.pure_def,
    Option.bind_some, scanExponent_text proper.exponent ends]
  rfl

theorem scanNumeral_text {p : Spelling} {rest : List Char} (proper : p.IsProper)
    (ends : Ends rest) : scanNumeral (p.text ++ rest) = some (p.numeral, rest) := by
  have unsigned := scanUnsigned_text proper ends
  unfold text
  cases h : p.negative with
  | true =>
    rw [h] at unsigned
    simp only [if_true, List.append_assoc, List.cons_append, List.nil_append]
    rw [scanNumeral_minus, unsigned]
  | false =>
    rw [h] at unsigned
    simp only [Bool.false_eq_true, if_false, List.nil_append, List.append_assoc]
    rw [scanNumeral_of_head_ne, unsigned]
    obtain ⟨nonempty, all⟩ := proper.whole
    cases hw : p.whole with
    | nil => exact absurd hw nonempty
    | cons c cs =>
      intro minus
      obtain rfl : c = '-' := Option.some.inj minus
      exact absurd (all '-' (by simp [hw])) (by decide)

end Spelling

/-! ### Digits of naturals -/

theorem isDigits_toDigits (n : Nat) : IsDigits (Nat.toDigits 10 n) :=
  ⟨Nat.toDigits_ne_nil, fun _ hc => Nat.isDigit_of_mem_toDigits (by decide) (by decide) hc⟩

theorem head?_toDigits_ne {n : Nat} (h : 0 < n) : (Nat.toDigits 10 n).head? ≠ some '0' := by
  induction n using Nat.strongRecOn with
  | ind n ih =>
    rw [Nat.toDigits_eq_if (by decide)]
    split
    · next small =>
      have nonzero : ∀ m < 10, 0 < m → Nat.digitChar m ≠ '0' := by decide
      intro zero
      exact nonzero n small h (Option.some.inj zero)
    · next large =>
      have shorter := ih (n / 10) (by omega) (by omega)
      obtain ⟨c, cs, hs⟩ := List.exists_cons_of_ne_nil (Nat.toDigits_ne_nil (n := n / 10) (b := 10))
      rw [hs] at shorter ⊢
      exact shorter

namespace Double

theorem pow_digitCount_le {n : Nat} (h : 0 < n) : 10 ^ (digitCount n - 1) ≤ n := by
  rcases Nat.eq_zero_or_pos (digitCount n - 1) with none | some
  · rw [none]
    exact h
  · apply Nat.le_of_not_lt
    intro less
    have := (Nat.length_toDigits_le_iff (by decide) some).mpr less
    unfold digitCount at this some
    omega

theorem lt_pow_digitCount (n : Nat) : n < 10 ^ digitCount n :=
  (Nat.length_toDigits_le_iff (by decide) Nat.length_toDigits_pos).mp (Nat.le_refl _)

/-- A ratio reaches every power of ten up to that of its first digit. -/
theorem pow_decimalExponent_le {num den : Nat} {j : Int} (hnum : 0 < num) (hden : 0 < den)
    (h : j ≤ decimalExponent num den) :
    den * 10 ^ j.toNat ≤ num * 10 ^ (-j).toNat := by
  unfold decimalExponent at h
  split at h
  · next large =>
    have quotient : 0 < num / den := Nat.div_pos large hden
    have reached := pow_digitCount_le quotient
    have inside : den * (num / den) ≤ num := Nat.mul_div_le num den
    have smaller : 10 ^ j.toNat ≤ 10 ^ (digitCount (num / den) - 1) :=
      Nat.pow_le_pow_right (by decide) (by omega)
    calc den * 10 ^ j.toNat ≤ den * (num / den) :=
          Nat.mul_le_mul_left den (Nat.le_trans smaller reached)
      _ ≤ num := inside
      _ ≤ num * 10 ^ (-j).toNat := Nat.le_mul_of_pos_right num (Nat.pow_pos (by decide))
  · next small =>
    have reached := lt_pow_digitCount ((den + num - 1) / num - 1)
    have places : digitCount ((den + num - 1) / num - 1) ≤ (-j).toNat := by
      rw [Int.negOfNat_eq, Int.ofNat_eq_natCast] at h
      omega
    have larger : 10 ^ digitCount ((den + num - 1) / num - 1) ≤ 10 ^ (-j).toNat :=
      Nat.pow_le_pow_right (by decide) places
    have rounded : den ≤ num * ((den + num - 1) / num) := by
      have := Nat.div_add_mod (den + num - 1) num
      have := Nat.mod_lt (den + num - 1) hnum
      omega
    have none : j.toNat = 0 := by
      have : 0 < digitCount ((den + num - 1) / num - 1) := Nat.length_toDigits_pos
      rw [Int.negOfNat_eq, Int.ofNat_eq_natCast] at h
      omega
    rw [none, Nat.pow_zero, Nat.mul_one]
    exact Nat.le_trans rounded (Nat.mul_le_mul_left num (by omega))

/-! ### Digits of doubles -/

theorem Interval.pos_of_has {i : Interval} {s : Nat} {t : Int} (low : 0 < i.low)
    (h : i.has s t = true) : 0 < s := by
  rcases Nat.eq_zero_or_pos s with rfl | some
  · have scale : 0 < i.low * 10 ^ (-t).toNat := Nat.mul_pos low (Nat.pow_pos (by decide))
    simp only [has, place, Nat.zero_mul] at h
    split at h
    · simp at h
      omega
    · simp at h
  · exact some

theorem Interval.pos_of_pick? {i : Interval} {s : Nat} {t : Int} (low : 0 < i.low)
    (h : i.pick? t = some s) : 0 < s := by
  unfold pick? at h
  dsimp only at h
  split at h
  · cases h
  · next here _ =>
    rw [← Option.some.inj h]
    exact pos_of_has low here
  · rw [← Option.some.inj h]
    exact Nat.succ_pos _
  · next here _ =>
    split at h
    · rw [← Option.some.inj h]
      exact Nat.succ_pos _
    · rw [← Option.some.inj h]
      exact pos_of_has low here

/-- Some digit is found, at the latest on the last grid. -/
theorem shortestFrom_pos {i : Interval} {fuel : Nat} {t : Int} (low : 0 < i.low) (den : 0 < i.den)
    (h : i.den * 10 ^ (t - fuel).toNat ≤ i.value * 10 ^ (-(t - fuel)).toNat) :
    0 < (shortestFrom i fuel t).1 := by
  induction fuel generalizing t with
  | zero =>
    rw [Int.natCast_zero, Int.sub_zero] at h
    exact Nat.div_pos h (Nat.mul_pos den (Nat.pow_pos (by decide)))
  | succ fuel ih =>
    unfold shortestFrom
    split
    · next found => exact Interval.pos_of_pick? low found
    · refine ih ?_
      have : t - ((fuel + 1 : Nat) : Int) = t - 1 - fuel := by omega
      rwa [this] at h

theorem strip_cons {c : Char} (h : c ≠ '0') (cs : List Char) :
    ((c :: cs).reverse.dropWhile (· == '0')).reverse =
      c :: (cs.reverse.dropWhile (· == '0')).reverse := by
  rw [List.reverse_cons, List.dropWhile_append]
  split
  · next none =>
    rw [List.isEmpty_iff.mp none]
    simp [h]
  · rw [List.reverse_append]
    rfl

/-- The digits of a double other than zero begin with one other than zero. -/
theorem shortest_digits {d : Double} (h : d.isZero = false) :
    IsDigits d.shortest.1 ∧ d.shortest.1.head? ≠ some '0' := by
  have significand : 0 < d.significand := by
    unfold isZero at h
    rw [beq_eq_false_iff_ne] at h
    omega
  have up : 0 < 2 ^ (d.exponent - 2).toNat := Nat.pow_pos (by decide)
  have den : 0 < d.interval.den := Nat.pow_pos (by decide)
  have low : 0 < d.interval.low := by
    refine Nat.mul_pos ?_ up
    split <;> omega
  have value : 0 < d.interval.value := Nat.mul_pos (by omega) up
  have pos : 0 < (shortestFrom d.interval 17 (decimalExponent d.interval.value d.interval.den)).1 :=
    shortestFrom_pos low den (pow_decimalExponent_le value den (by omega))
  unfold shortest
  rw [h]
  simp only [Bool.false_eq_true, if_false]
  generalize (shortestFrom d.interval 17 (decimalExponent d.interval.value d.interval.den)).1 = s
    at pos
  have digits := isDigits_toDigits s
  have leading := head?_toDigits_ne pos
  cases hs : Nat.toDigits 10 s with
  | nil => exact absurd hs Nat.toDigits_ne_nil
  | cons c cs =>
    rw [hs] at leading digits
    have nonzero : c ≠ '0' := fun zero => leading (congrArg some zero)
    rw [strip_cons nonzero]
    refine ⟨⟨by simp, fun x hx => digits.2 x ?_⟩, leading⟩
    rcases List.mem_cons.mp hx with rfl | hx
    · exact List.mem_cons_self
    · have := (List.dropWhile_sublist _).subset (List.mem_reverse.mp hx)
      exact List.mem_cons_of_mem c (List.mem_reverse.mp this)

/-! ### Spellings -/

def positionalSpelling (negative : Bool) (digits : List Char) (k : Int) : Spelling :=
  if k < 0 then ⟨negative, ['0'], some (List.replicate (-k - 1).toNat '0' ++ digits), none⟩
  else if digits.length ≤ k.toNat + 1 then
    ⟨negative, digits ++ List.replicate (k.toNat + 1 - digits.length) '0', some ['0'], none⟩
  else ⟨negative, digits.take (k.toNat + 1), some (digits.drop (k.toNat + 1)), none⟩

def exponentialSpelling (negative : Bool) (digits : List Char) (k : Int) : Spelling :=
  let magnitude := Nat.toDigits 10 k.natAbs
  { negative
    whole := digits.take 1
    fraction := if digits.tail.isEmpty then none else some digits.tail
    exponent := some (decide (k < 0),
      if magnitude.length < 2 then '0' :: magnitude else magnitude) }

def spelling (d : Double) : Spelling :=
  if isPositional d.shortest.2 then positionalSpelling d.negative d.shortest.1 d.shortest.2
  else exponentialSpelling d.negative d.shortest.1 d.shortest.2

theorem text_positionalSpelling (negative : Bool) (digits : List Char) (k : Int) :
    (positionalSpelling negative digits k).text =
      (if negative then ['-'] else []) ++ positional digits k := by
  unfold positionalSpelling positional
  by_cases below : k < 0
  · simp [below, Spelling.text, Spelling.fractionText, Spelling.exponentText]
  · by_cases short : digits.length ≤ k.toNat + 1
    · simp only [below, short, if_true, if_false]
      simp [Spelling.text, Spelling.fractionText, Spelling.exponentText]
    · simp only [below, short, if_false]
      simp [Spelling.text, Spelling.fractionText, Spelling.exponentText]

theorem text_exponentialSpelling {negative : Bool} {digits : List Char} (k : Int)
    (nonempty : digits ≠ []) :
    (exponentialSpelling negative digits k).text =
      (if negative then ['-'] else []) ++ exponential digits k := by
  unfold exponentialSpelling exponential
  match digits with
  | [] => exact absurd rfl nonempty
  | [d] => simp [Spelling.text, Spelling.fractionText, Spelling.exponentText]
  | d :: e :: ds => simp [Spelling.text, Spelling.fractionText, Spelling.exponentText]

theorem shortest_isDigits (d : Double) : IsDigits d.shortest.1 := by
  cases h : d.isZero with
  | true =>
    have : d.shortest = (['0'], 0) := by simp [shortest, h]
    rw [this]
    exact isDigits_zero
  | false => exact (shortest_digits h).1

theorem toList_toText (d : Double) : d.toText.toList = d.spelling.text := by
  have sign (body : List Char) :
      (if d.negative then '-' :: body else body) = (if d.negative then ['-'] else []) ++ body := by
    cases d.negative <;> rfl
  unfold toText spelling
  dsimp only
  rw [String.toList_ofList, sign]
  by_cases h : isPositional d.shortest.2 = true
  · rw [if_pos h, if_pos h, text_positionalSpelling]
  · rw [if_neg h, if_neg h, text_exponentialSpelling d.shortest.2 d.shortest_isDigits.1]

theorem isProper_positionalSpelling {negative : Bool} {digits : List Char} {k : Int}
    (all : IsDigits digits) (leading : digits.head? ≠ some '0' ∨ digits = ['0'] ∧ k = 0) :
    (positionalSpelling negative digits k).IsProper := by
  obtain ⟨nonempty, isDigit⟩ := all
  have zeros (n : Nat) : ∀ c ∈ List.replicate n '0', c.isDigit = true := by
    intro c hc
    rw [(List.mem_replicate.mp hc).2]
    decide
  unfold positionalSpelling
  split
  · refine ⟨isDigits_zero, .inl rfl, fun ds hds => ?_, by simp⟩
    obtain rfl := Option.some.inj hds
    refine ⟨by simp [nonempty], fun c hc => ?_⟩
    rcases List.mem_append.mp hc with hc | hc
    · exact zeros _ c hc
    · exact isDigit c hc
  · split
    · refine ⟨⟨by simp [nonempty], fun c hc => ?_⟩, ?_, fun ds hds => ?_, by simp⟩
      · rcases List.mem_append.mp hc with hc | hc
        · exact isDigit c hc
        · exact zeros _ c hc
      · rcases leading with leading | ⟨rfl, rfl⟩
        · right
          obtain ⟨c, cs, rfl⟩ := List.exists_cons_of_ne_nil nonempty
          exact leading
        · exact .inl rfl
      · obtain rfl := Option.some.inj hds
        exact isDigits_zero
    · next long =>
      refine ⟨⟨by simp [nonempty], fun c hc => isDigit c (List.mem_of_mem_take hc)⟩, ?_,
        fun ds hds => ?_, by simp⟩
      · rcases leading with leading | ⟨rfl, rfl⟩
        · right
          obtain ⟨c, cs, rfl⟩ := List.exists_cons_of_ne_nil nonempty
          exact leading
        · exact absurd (by decide) long
      · obtain rfl := Option.some.inj hds
        refine ⟨?_, fun c hc => isDigit c (List.mem_of_mem_drop hc)⟩
        rw [ne_eq, List.drop_eq_nil_iff]
        exact long

theorem isProper_exponentialSpelling {negative : Bool} {digits : List Char} {k : Int}
    (all : IsDigits digits) (leading : digits.head? ≠ some '0') :
    (exponentialSpelling negative digits k).IsProper := by
  obtain ⟨nonempty, isDigit⟩ := all
  obtain ⟨c, cs, rfl⟩ := List.exists_cons_of_ne_nil nonempty
  unfold exponentialSpelling
  refine ⟨⟨by simp, ?_⟩, .inr leading, fun ds hds => ?_, fun e he => ?_⟩
  · intro x hx
    obtain rfl : x = c := by simpa using hx
    exact isDigit x (by simp)
  · cases cs with
    | nil => cases hds
    | cons e es =>
      obtain rfl := Option.some.inj hds
      exact ⟨by simp, fun x hx => isDigit x (List.mem_cons_of_mem c hx)⟩
  · obtain rfl := Option.some.inj he
    have magnitude := isDigits_toDigits k.natAbs
    dsimp only
    split
    · refine ⟨by simp, fun x hx => ?_⟩
      rcases List.mem_cons.mp hx with rfl | hx
      · decide
      · exact magnitude.2 x hx
    · exact magnitude

theorem isProper_spelling (d : Double) : d.spelling.IsProper := by
  unfold spelling
  cases h : d.isZero with
  | true =>
    have : d.shortest = (['0'], 0) := by simp [shortest, h]
    rw [this, if_pos (by decide)]
    exact isProper_positionalSpelling isDigits_zero (.inr ⟨rfl, rfl⟩)
  | false =>
    obtain ⟨all, leading⟩ := shortest_digits h
    split
    · exact isProper_positionalSpelling all (.inl leading)
    · exact isProper_exponentialSpelling all leading

end Double

def integerSpelling (v : Int) : Spelling := ⟨decide (v < 0), Nat.toDigits 10 v.natAbs, none, none⟩

theorem toList_toString_int (v : Int) : (toString v).toList = (integerSpelling v).text := by
  unfold integerSpelling
  rw [Int.toString_eq_repr, Int.repr_eq_if]
  by_cases h : v < 0
  · have : (-v).toNat = v.natAbs := by omega
    rw [if_neg (Int.not_le.mpr h), this]
    simp [h, Spelling.text, Spelling.fractionText, Spelling.exponentText]
  · have : v.toNat = v.natAbs := by omega
    rw [if_pos (Int.not_lt.mp h), this]
    simp [h, Spelling.text, Spelling.fractionText, Spelling.exponentText]

theorem isProper_integerSpelling (v : Int) : (integerSpelling v).IsProper := by
  refine ⟨isDigits_toDigits v.natAbs, ?_, by simp [integerSpelling], by simp [integerSpelling]⟩
  rcases Nat.eq_zero_or_pos v.natAbs with zero | pos
  · left
    change Nat.toDigits 10 v.natAbs = ['0']
    rw [zero]
    rfl
  · exact .inr (head?_toDigits_ne pos)

namespace Number

def spelling : Number → Spelling
  | int v => integerSpelling v
  | double d => d.spelling

theorem toList_toText (n : Number) : n.toText.toList = n.spelling.text := by
  cases n with
  | int v => exact toList_toString_int v
  | double d => exact d.toList_toText

theorem isProper_spelling (n : Number) : n.spelling.IsProper := by
  cases n with
  | int v => exact isProper_integerSpelling v
  | double d => exact d.isProper_spelling

/-- The number that the text of a number is read as. -/
def reread? (n : Number) : Option Number := do
  let (numeral, _) ← scanNumeral n.toText.toList
  numeral.value?

theorem reread?_eq (n : Number) : n.reread? = n.spelling.numeral.value? := by
  have scanned := Spelling.scanNumeral_text n.isProper_spelling ends_nil
  rw [List.append_nil, ← toList_toText] at scanned
  unfold reread?
  rw [scanned]
  rfl

/-- A number is read as one numeral, wherever its text stands. -/
theorem scanNumeral_toText (n : Number) {rest : List Char} (ends : Ends rest) :
    ∃ numeral, scanNumeral (n.toText.toList ++ rest) = some (numeral, rest) ∧
      numeral.value? = n.reread? := by
  refine ⟨n.spelling.numeral, ?_, n.reread?_eq.symm⟩
  rw [toList_toText]
  exact Spelling.scanNumeral_text n.isProper_spelling ends

/-- Digits of a number below `2 ^ 64` are all taken up. -/
theorem takeUp_digits {cs : List Char} {s : Nat} (h : Nat.ofDigitChars 10 cs s < 2 ^ 64) :
    JsonTree.takeUp s (cs.map digitValue) = (Nat.ofDigitChars 10 cs s, cs.length, []) := by
  induction cs generalizing s with
  | nil => rfl
  | cons c cs ih =>
    rw [Nat.ofDigitChars_cons] at h
    have grows := @Nat.ofDigitChars_eq_ofDigitChars_zero cs (10 * s + (c.toNat - '0'.toNat))
    have least : 10 * s + (c.toNat - '0'.toNat) ≤
        10 ^ cs.length * (10 * s + (c.toNat - '0'.toNat)) :=
      Nat.le_mul_of_pos_left _ (Nat.pow_pos (by decide))
    have fits : 10 * s + digitValue c < Nat.pow 2 64 := by
      change 10 * s + (c.toNat - '0'.toNat) < 2 ^ 64
      omega
    rw [List.map_cons, JsonTree.takeUp, if_pos fits, digitValue, ih h, Nat.ofDigitChars_cons]
    rfl

/-- An integer of 64 bits is read as itself. -/
theorem reread?_int {v : Int} (low : -2 ^ 63 ≤ v) (high : v < 2 ^ 64) :
    (int v).reread? = some (int v) := by
  have value : Nat.ofDigitChars 10 (Nat.toDigits 10 v.natAbs) 0 = v.natAbs :=
    Nat.ofDigitChars_ten_toDigits
  have taken : JsonTree.takeUp 0 ((Nat.toDigits 10 v.natAbs).map digitValue) =
      (v.natAbs, (Nat.toDigits 10 v.natAbs).length, []) := by
    rw [takeUp_digits (by omega), value]
  rw [reread?_eq]
  simp only [spelling, integerSpelling, Spelling.numeral, Numeral.value?, taken]
  by_cases h : v < 0
  · have nonzero : (v.natAbs == 0) = false := by
      rw [beq_eq_false_iff_ne]
      omega
    have fits : ¬ Nat.pow 2 63 < v.natAbs := by
      change ¬ 2 ^ 63 < v.natAbs
      omega
    have back : -(v.natAbs : Int) = v := by omega
    refine (if_pos rfl).trans ?_
    rw [if_neg (by simp [h]), if_neg (by simp [nonzero, fits]), back]
    rfl
  · have back : (v.natAbs : Int) = v := by omega
    simp [h, back]

theorem reread?_zero {d : Double} (h : d.isZero = true) :
    (double d).reread? = some (double ⟨d.negative, 0, -1074⟩) := by
  have shortest : d.shortest = (['0'], 0) := by simp [Double.shortest, h]
  have spelled : d.spelling = ⟨d.negative, ['0'], some ['0'], none⟩ := by
    unfold Double.spelling
    rw [shortest]
    rfl
  rw [reread?_eq]
  change d.spelling.numeral.value? = _
  rw [spelled]
  cases d.negative <;> decide

/-- Zeros stay zeros, so reading does not tell apart what agreed. -/
theorem map_unsignedZero_reread? (n : Number) :
    n.unsignedZero.reread?.map unsignedZero = n.reread?.map unsignedZero := by
  cases n with
  | int v => rfl
  | double d =>
    cases h : d.isZero with
    | true =>
      have zero : (double d).unsignedZero = double Double.zero := by
        simp [unsignedZero, Double.unsignedZero, h]
      rw [zero, reread?_zero h, reread?_zero (by rfl)]
      rfl
    | false =>
      have same : (double d).unsignedZero = double d := by
        simp [unsignedZero, Double.unsignedZero, h]
      rw [same]

end Number

end Tabular
