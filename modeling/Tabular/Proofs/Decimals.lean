import Tabular.Proofs.Magnitudes

/-!
The digits of a double. They stand for less than what no double is near, so that the text of a
double is read as some double again; what a numeral stands for is a number that a machine has.
-/
namespace Tabular

namespace Double

/-! ### Digits -/

/-- The digits of a double are those of a number no larger than what still reads back. -/
theorem shortestFrom_le {i : Interval} (top : i.value ≤ i.high) (fuel : Nat)
    (t : Int) :
    let r := shortestFrom i fuel t
    r.1 * 10 ^ r.2.toNat * i.den ≤ i.high * 10 ^ (-r.2).toNat := by
  have inside {s : Nat} {t : Int} (h : i.has s t = true) :
      s * 10 ^ t.toNat * i.den ≤ i.high * 10 ^ (-t).toNat := by
    unfold Interval.has Interval.place at h
    dsimp only at h
    split at h
    · rw [Bool.and_eq_true, decide_eq_true_eq, decide_eq_true_eq] at h
      exact h.2
    · rw [Bool.and_eq_true, decide_eq_true_eq, decide_eq_true_eq] at h
      exact h.2.le
  induction fuel generalizing t with
  | zero =>
    intro r
    have quotient := Nat.div_mul_le_self (i.value * Nat.pow 10 (-t).toNat)
      (i.den * Nat.pow 10 t.toNat)
    calc i.value * Nat.pow 10 (-t).toNat / (i.den * Nat.pow 10 t.toNat) * 10 ^ t.toNat * i.den
        = i.value * Nat.pow 10 (-t).toNat / (i.den * Nat.pow 10 t.toNat) *
            (i.den * Nat.pow 10 t.toNat) := by
          rw [Nat.mul_assoc, Nat.mul_comm i.den]
          rfl
      _ ≤ i.value * Nat.pow 10 (-t).toNat := quotient
      _ ≤ i.high * 10 ^ (-t).toNat := Nat.mul_le_mul_right _ top
  | succ fuel ih =>
    unfold shortestFrom
    split
    · next s found =>
      unfold Interval.pick? at found
      dsimp only at found
      split at found
      · cases found
      · next here _ => exact Option.some.inj found ▸ inside here
      · next here => exact Option.some.inj found ▸ inside here
      · next here there =>
        split at found
        · exact Option.some.inj found ▸ inside there
        · exact Option.some.inj found ▸ inside here
    · exact ih (t - 1)

theorem zpow_eq_div {b : ℚ} (hb : b ≠ 0) (t : Int) : b ^ t = b ^ t.toNat / b ^ (-t).toNat := by
  rw [← zpow_natCast, ← zpow_natCast, ← zpow_sub₀ hb, Int.toNat_sub_toNat_neg]

/-- The digits of a double stand for no more than what is half a unit above it. -/
theorem shortest_le (d : Double) :
    let r := shortestFrom d.interval 17 (decimalExponent d.interval.value d.interval.den)
    (r.1 * 10 ^ r.2 : ℚ) ≤ (4 * d.significand + 2) * 2 ^ (d.exponent - 2) := by
  intro r
  have top : d.interval.value ≤ d.interval.high := Nat.mul_le_mul_right _ (Nat.le_add_right _ 2)
  have bound : r.1 * 10 ^ r.2.toNat * 2 ^ (2 - d.exponent).toNat ≤
      (4 * d.significand + 2) * 2 ^ (d.exponent - 2).toNat * 10 ^ (-r.2).toNat :=
    shortestFrom_le top 17 (decimalExponent d.interval.value d.interval.den)
  have cast : (r.1 * 10 ^ r.2.toNat * 2 ^ (2 - d.exponent).toNat : ℚ) ≤
      (4 * d.significand + 2) * 2 ^ (d.exponent - 2).toNat * 10 ^ (-r.2).toNat := by
    exact_mod_cast bound
  rw [zpow_eq_div (by norm_num : (10 : ℚ) ≠ 0), zpow_eq_div two_ne_zero, neg_sub, ← mul_div_assoc,
    ← mul_div_assoc, div_le_div_iff₀ (by positivity) (by positivity)]
  exact cast

/-- The digits of a significand that stays below the largest one by some units. -/
theorem four_mul_add_two_le {m k : Nat} (h : m + k < 2 ^ 53) :
    (4 * m + 2 : ℚ) ≤ 2 ^ 55 - (4 * k + 2) := by
  have whole : 4 * m + 2 + (4 * k + 2) ≤ 2 ^ 55 := by omega
  have cast : (4 * m + 2 + (4 * k + 2) : ℚ) ≤ 2 ^ 55 := by exact_mod_cast whole
  linarith

/-- For all doubles but the two largest, digits stay clearly below the bound. -/
theorem shortest_lt_overflow {d : Double} (h : d.IsMachine)
    (rest : ¬ (2 ^ 53 - 2 ≤ d.significand ∧ d.exponent = 971)) :
    ((4 * d.significand + 2) * 2 ^ (d.exponent - 2) * (1 + ulp) ^ 2 : ℚ) < overflow := by
  have positive : (0 : ℚ) < 2 ^ 970 := by positivity
  have share : 0 < ulp := by
    unfold ulp
    positivity
  have half (k : Nat) : (2 : ℚ) ^ (970 - k : Int) = 2 ^ 970 / 2 ^ k := by
    rw [zpow_sub₀ two_ne_zero, zpow_natCast]
    rfl
  unfold overflow
  generalize (2 : ℚ) ^ 970 = unit at positive half ⊢
  rcases lt_or_eq_of_le h.high with less | last
  · have digits := four_mul_add_two_le (k := 0) h.significand
    have power : (2 : ℚ) ^ (d.exponent - 2) ≤ unit / 2 ^ 2 := by
      rw [← half]
      exact zpow_le_zpow_right₀ one_le_two (by omega)
    calc ((4 * d.significand + 2) * 2 ^ (d.exponent - 2) * (1 + ulp) ^ 2 : ℚ)
        ≤ (2 ^ 55 - (4 * (0 : Nat) + 2)) * (unit / 2 ^ 2) * (1 + ulp) ^ 2 := by gcongr
      _ = (2 ^ 55 - (4 * (0 : Nat) + 2)) / 2 ^ 2 * (1 + ulp) ^ 2 * unit := by ring
      _ < (2 ^ 54 - 1) * unit := by
        refine mul_lt_mul_of_pos_right ?_ positive
        norm_num [ulp]
  · have digits := four_mul_add_two_le (m := d.significand) (k := 2) (by omega)
    have power : (2 : ℚ) ^ (d.exponent - 2) = unit / 2 ^ 1 := by
      rw [← half, last]
      rfl
    rw [power]
    calc ((4 * d.significand + 2) * (unit / 2 ^ 1) * (1 + ulp) ^ 2 : ℚ)
        ≤ (2 ^ 55 - (4 * (2 : Nat) + 2)) * (unit / 2 ^ 1) * (1 + ulp) ^ 2 := by gcongr
      _ = (2 ^ 55 - (4 * (2 : Nat) + 2)) / 2 ^ 1 * (1 + ulp) ^ 2 * unit := by ring
      _ < (2 ^ 54 - 1) * unit := by
        refine mul_lt_mul_of_pos_right ?_ positive
        norm_num [ulp]

/-- The digits of a double other than zero are the first ones of a number, without zeros at the
end. -/
theorem shortest_spec {d : Double} (h : d.isZero = false) :
    ∃ (s : Nat) (t : Int) (zeros : List Char), 0 < s ∧ Nat.toDigits 10 s = d.shortest.1 ++ zeros ∧
      d.shortest.2 = (Nat.toDigits 10 s).length - 1 + t ∧
      (s * 10 ^ t : ℚ) ≤ (4 * d.significand + 2) * 2 ^ (d.exponent - 2) := by
  have bound := shortest_le d
  have digits := (shortest_digits h).1
  unfold shortest at digits ⊢
  rw [h] at digits ⊢
  simp only [Bool.false_eq_true, if_false] at digits ⊢
  generalize shortestFrom d.interval 17 (decimalExponent d.interval.value d.interval.den) = r
    at bound digits ⊢
  refine ⟨r.1, r.2, ((Nat.toDigits 10 r.1).reverse.takeWhile (· == '0')).reverse, ?_, ?_, rfl,
    bound⟩
  · rcases Nat.eq_zero_or_pos r.1 with none_ | pos
    · rw [none_] at digits
      exact absurd rfl digits.1
    · exact pos
  · rw [← List.reverse_append, List.takeWhile_append_dropWhile, List.reverse_reverse]

/-! ### Numerals -/

/-- The number of which some digits are the first ones. -/
def digitsFrom (n : Nat) (ds : List Nat) : Nat := ds.foldl (fun n d => 10 * n + d) n

theorem mul_pow_le_digitsFrom (n : Nat) (ds : List Nat) : n * 10 ^ ds.length ≤ digitsFrom n ds := by
  induction ds generalizing n with
  | nil => exact (Nat.mul_one n).le
  | cons d ds ih =>
    calc n * 10 ^ (ds.length + 1) = 10 * n * 10 ^ ds.length := by ring
      _ ≤ (10 * n + d) * 10 ^ ds.length := Nat.mul_le_mul_right _ (Nat.le_add_right _ _)
      _ ≤ digitsFrom (10 * n + d) ds := ih _

/-- The digits taken up are the first ones. -/
theorem takeUp_eq {n : Nat} (hn : n < 2 ^ 64) (ds : List Nat) :
    ∃ taken rest, ds = taken ++ rest ∧ digitsFrom n taken < 2 ^ 64 ∧
      JsonTree.takeUp n ds = (digitsFrom n taken, taken.length, rest) := by
  induction ds generalizing n with
  | nil => exact ⟨[], [], rfl, hn, rfl⟩
  | cons d ds ih =>
    unfold JsonTree.takeUp
    split
    · next fits =>
      obtain ⟨taken, rest, rfl, less, same⟩ := ih fits
      exact ⟨d :: taken, rest, rfl, less, by rw [same]; rfl⟩
    · exact ⟨[], d :: ds, rfl, hn, rfl⟩

theorem takeUp_lt {n : Nat} (hn : n < 2 ^ 64) (ds : List Nat) :
    (JsonTree.takeUp n ds).1 < 2 ^ 64 := by
  obtain ⟨taken, rest, -, less, same⟩ := takeUp_eq hn ds
  rw [same]
  exact less

end Double

namespace Number

open JsonTree (Numeral takeUp digitsToNat digitValue)

def IsMachine : Number → Prop
  | int v => -2 ^ 63 ≤ v ∧ v < 2 ^ 64
  | double d => d.IsMachine

theorem isMachine_signed (negative : Bool) {d : Double} (h : d.IsMachine) :
    (double (if negative then d.neg else d)).IsMachine := by
  cases negative with
  | true => exact h.neg
  | false => exact h

/-- What a numeral stands for is a number that a machine has. -/
theorem isMachine_of_value? {numeral : Numeral} {n : Number} (h : numeral.value? = some n) :
    n.IsMachine := by
  have signed {r : Option Double} (each : ∀ d, r = some d → d.IsMachine)
      (h : r.bind (fun d => some (double (if numeral.negative then d.neg else d))) = some n) :
      n.IsMachine := by
    obtain ⟨d, hd, h⟩ := Option.bind_eq_some_iff.mp h
    exact Option.some.inj h ▸ isMachine_signed _ (each d hd)
  have whole := Double.takeUp_lt (n := 0) (by decide) numeral.whole
  unfold Numeral.value? at h
  dsimp only at h
  split at h
  · split at h
    · obtain rfl := Option.some.inj h
      exact ⟨by omega, by omega⟩
    · next negative =>
      split at h
      · exact signed (fun d hd => Double.isMachine_ofNat hd) h
      · next small =>
        obtain rfl := Option.some.inj h
        rw [Bool.or_eq_true, beq_iff_eq, decide_eq_true_eq, not_or] at small
        have : ¬ 2 ^ 63 < (takeUp 0 numeral.whole).1 := small.2
        exact ⟨by omega, by omega⟩
  · split at h
    · exact signed (fun d hd => Double.isMachine_ofDecimal hd) h
    · split at h
      · exact signed (fun d hd => Double.isMachine_ofDecimal hd) h
      · split at h
        · exact Option.some.inj h ▸ isMachine_signed _ Double.isMachine_zero
        · cases h

def power (p : Numeral) : Int :=
  match p.exponent with
  | none => 0
  | some (negative, ds) => if negative then -digitsToNat ds else digitsToNat ds

/-- The digits of a numeral that are taken up, and the power of ten that is left for them. -/
def scaled (p : Numeral) : Nat × Int :=
  let w := takeUp 0 p.whole
  let f := takeUp w.1 (p.fraction.getD [])
  (f.1, (w.2.2.length : Int) - f.2.1 + power p)

/-- A numeral has a value if its digits, scaled, do. -/
theorem exists_value? {p : Numeral} (point : p.fraction.isSome = true ∨ p.exponent.isSome = true)
    (bounded : power p < 2 ^ 31)
    (fits : 0 ≤ (scaled p).2 →
      ((scaled p).1 * 10 ^ (scaled p).2.toNat * (1 + Double.ulp) ^ 2 : ℚ) < Double.overflow) :
    ∃ n, p.value? = some n := by
  have decimal := Double.exists_ofDecimal
    (Double.takeUp_lt (Double.takeUp_lt (by decide) p.whole) (p.fraction.getD [])) fits
  have notInteger : ((takeUp 0 p.whole).2.2.isEmpty && p.fraction.isNone && p.exponent.isNone) =
      false := by
    rw [Bool.and_assoc, ← Option.not_isSome, ← Option.not_isSome, ← Bool.not_or]
    rcases point with fraction | exponent
    · rw [fraction, Bool.true_or, Bool.not_true, Bool.and_false]
    · rw [exponent, Bool.or_true, Bool.not_true, Bool.and_false]
  obtain ⟨d, hd⟩ := decimal
  unfold Numeral.value?
  dsimp only
  rw [notInteger, if_neg Bool.false_ne_true]
  unfold scaled power at hd
  unfold power at bounded
  cases exponent : p.exponent with
  | none =>
    rw [exponent] at hd
    dsimp only at hd ⊢
    rw [add_zero] at hd
    exact ⟨_, by rw [hd]; rfl⟩
  | some e =>
    obtain ⟨negative, ds⟩ := e
    rw [exponent] at hd bounded
    dsimp only at hd bounded ⊢
    split
    · cases negative with
      | true =>
        rw [if_pos rfl] at hd
        exact ⟨_, by rw [if_pos rfl, sub_eq_add_neg, hd]; rfl⟩
      | false =>
        rw [if_neg Bool.false_ne_true] at hd
        exact ⟨_, by rw [if_neg Bool.false_ne_true, hd]; rfl⟩
    · next large =>
      have below : negative = true := by
        cases below : negative with
        | true => rfl
        | false =>
          change ¬ digitsToNat ds < 2 ^ 31 at large
          rw [below, if_neg Bool.false_ne_true] at bounded
          omega
      exact ⟨_, by rw [below, Bool.or_true, if_pos rfl]; rfl⟩

/-- A numeral with a point, few digits before it and no exponent has a value. -/
theorem exists_value?_of_short {p : Numeral} (point : p.fraction.isSome = true)
    (plain : p.exponent = none) (short : p.whole.length ≤ 16) : ∃ n, p.value? = some n := by
  have none_ : power p = 0 := by rw [power, plain]
  refine exists_value? (.inl point) (by omega) ?_
  let w := takeUp 0 p.whole
  let f := takeUp w.1 (p.fraction.getD [])
  let e : Int := (w.2.2.length : Int) - f.2.1 + power p
  intro nonneg
  change 0 ≤ e at nonneg
  change (f.1 * 10 ^ e.toNat * (1 + Double.ulp) ^ 2 : ℚ) < Double.overflow
  obtain ⟨taken, rest, whole, -, same⟩ := Double.takeUp_eq (n := 0) (by decide) p.whole
  have dropped : w.2.2.length ≤ 16 := by
    have parts := congrArg List.length whole
    rw [List.length_append] at parts
    simp only [w, same]
    omega
  have limit : f.1 < 2 ^ 64 :=
    Double.takeUp_lt (Double.takeUp_lt (by decide) p.whole) (p.fraction.getD [])
  have places : e.toNat ≤ 16 := by omega
  have scaled : f.1 * 10 ^ e.toNat * 2 ≤ 2 ^ 64 * 10 ^ 16 * 2 :=
    Nat.mul_le_mul_right 2
      (Nat.mul_le_mul limit.le (Nat.pow_le_pow_right (n := 10) (by decide) places))
  have power : 2 ^ 64 * 10 ^ 16 * 2 ≤ 10 ^ 40 := by norm_num
  have grow : (1 + Double.ulp) ^ 2 ≤ 2 := by
    rw [Double.ulp]
    norm_num
  calc (f.1 * 10 ^ e.toNat * (1 + Double.ulp) ^ 2 : ℚ) ≤ f.1 * 10 ^ e.toNat * 2 := by gcongr
    _ = ((f.1 * 10 ^ e.toNat * 2 : Nat) : ℚ) := by push_cast; rfl
    _ < Double.overflow := Double.natCast_lt_overflow (scaled.trans power) (by decide)

/-- Digits with a point among them have a value. -/
theorem exists_value?_positional (negative : Bool) (digits : List Char) {k : Int}
    (h : Double.isPositional k = true) :
    ∃ n, (Double.positionalSpelling negative digits k).numeral.value? = some n := by
  rw [Double.isPositional, Bool.and_eq_true, decide_eq_true_eq, decide_eq_true_eq] at h
  unfold Double.positionalSpelling Spelling.numeral
  split
  · exact exists_value?_of_short rfl rfl (by simp)
  · split
    · next short =>
      refine exists_value?_of_short rfl rfl ?_
      simp only [List.length_map, List.length_append, List.length_replicate]
      omega
    · refine exists_value?_of_short rfl rfl ?_
      simp only [List.length_map, List.length_take]
      omega

theorem digitValue_lt {c : Char} (h : c.isDigit = true) : digitValue c < 10 := by
  unfold Char.isDigit at h
  rw [Bool.and_eq_true, decide_eq_true_eq, decide_eq_true_eq] at h
  have high := UInt32.le_iff_toNat_le.mp h.2
  change c.toNat ≤ 57 at high
  unfold digitValue
  change c.toNat - 48 < 10
  omega

/-- The digits of a natural number stand for it. -/
theorem digitsToNat_toDigits (n : Nat) :
    digitsToNat ((Nat.toDigits 10 n).map digitValue) = n := by
  rw [digitsToNat, List.foldl_map]
  exact Nat.ofDigitChars_eq_foldl.symm.trans Nat.ofDigitChars_ten_toDigits

theorem power_exponentialSpelling (negative : Bool) (digits : List Char) (k : Int) :
    power (Double.exponentialSpelling negative digits k).numeral = k := by
  have magnitude (padded : List Char)
      (h : padded = if (Nat.toDigits 10 k.natAbs).length < 2 then '0' :: Nat.toDigits 10 k.natAbs
        else Nat.toDigits 10 k.natAbs) : digitsToNat (padded.map digitValue) = k.natAbs := by
    split at h
    · rw [h]
      exact digitsToNat_toDigits k.natAbs
    · rw [h]
      exact digitsToNat_toDigits k.natAbs
  unfold Double.exponentialSpelling Spelling.numeral power
  simp only [Option.map_some, magnitude _ rfl, decide_eq_true_eq]
  split <;> omega

/-- The first digits of a number, with zeros for the others, stand for no more than it. -/
theorem digitsFrom_mul_le {s : Nat} {front rest : List Nat}
    (h : (Nat.toDigits 10 s).map digitValue = front ++ rest) :
    Double.digitsFrom 0 front * 10 ^ rest.length ≤ s := by
  have whole : Double.digitsFrom (Double.digitsFrom 0 front) rest = s := by
    rw [← digitsToNat_toDigits s, h, digitsToNat, List.foldl_append]
    rfl
  have least := Double.mul_pow_le_digitsFrom (Double.digitsFrom 0 front) rest
  rwa [whole] at least

/-- With an exponent, the first digit is the only one before the point. -/
theorem scaled_exponentialSpelling (negative : Bool) {c : Char} (hc : c.isDigit = true)
    (cs : List Char) (k : Int) :
    ∃ taken rest, cs.map digitValue = taken ++ rest ∧
      scaled (Double.exponentialSpelling negative (c :: cs) k).numeral =
        (Double.digitsFrom 0 (digitValue c :: taken), k - taken.length) := by
  have digit := digitValue_lt hc
  obtain ⟨taken, rest, parts, -, same⟩ :=
    Double.takeUp_eq (n := digitValue c) (by omega) (cs.map digitValue)
  refine ⟨taken, rest, parts, ?_⟩
  have whole : takeUp 0 [digitValue c] = (digitValue c, 1, []) := by
    have fits : 10 * 0 + digitValue c < Nat.pow 2 64 := by
      change 10 * 0 + digitValue c < 2 ^ 64
      omega
    simp only [takeUp, if_pos fits]
    rw [Nat.mul_zero, Nat.zero_add]
  have fraction : (Double.exponentialSpelling negative (c :: cs) k).numeral.fraction.getD [] =
      cs.map digitValue := by
    simp only [Double.exponentialSpelling, Spelling.numeral, List.tail_cons]
    cases cs <;> rfl
  have first : (Double.exponentialSpelling negative (c :: cs) k).numeral.whole = [digitValue c] :=
    rfl
  have start : Double.digitsFrom 0 (digitValue c :: taken) =
      Double.digitsFrom (digitValue c) taken := by
    simp only [Double.digitsFrom, List.foldl_cons, Nat.mul_zero, Nat.zero_add]
  rw [scaled, first, whole, fraction, same, power_exponentialSpelling, start]
  exact Prod.ext rfl (by simp only [List.length_nil]; omega)

/-- An exponent is small if the number whose first digit it is for is below the bound. -/
theorem exponent_lt {s : Nat} {k t : Int} (pos : 0 < s)
    (first : k = (Nat.toDigits 10 s).length - 1 + t) (h : (s * 10 ^ t : ℚ) < Double.overflow) :
    k < 2 ^ 31 := by
  by_contra beyond
  have least : (10 : ℚ) ^ ((Nat.toDigits 10 s).length - 1) ≤ s := by
    exact_mod_cast Double.pow_digitCount_le pos
  have power : (10 : ℚ) ^ k.toNat = 10 ^ ((Nat.toDigits 10 s).length - 1) * 10 ^ t := by
    have length : 0 < (Nat.toDigits 10 s).length := Nat.length_toDigits_pos
    rw [← zpow_natCast, ← zpow_natCast, ← zpow_add₀ (by norm_num)]
    congr 1
    omega
  have below : (10 : ℚ) ^ k.toNat ≤ s * 10 ^ t := by
    rw [power]
    exact mul_le_mul_of_nonneg_right least (by positivity)
  have above := Double.overflow_le (n := 1) (e := k.toNat) (by decide) (by omega)
  rw [Nat.cast_one, one_mul] at above
  linarith

/-- Digits with an exponent have a value if the number they are the first ones of is scaled to less
than the bound. -/
theorem exists_value?_exponential {d : Double} (negative : Bool) (h : d.isZero = false)
    (fits : ((4 * d.significand + 2) * 2 ^ (d.exponent - 2) * (1 + Double.ulp) ^ 2 : ℚ) <
      Double.overflow) :
    ∃ n, (Double.exponentialSpelling negative d.shortest.1 d.shortest.2).numeral.value? =
      some n := by
  obtain ⟨s, t, zeros, pos, digits, first, value⟩ := Double.shortest_spec h
  obtain ⟨⟨nonempty, isDigit⟩, -⟩ := Double.shortest_digits h
  have grow : 1 ≤ (1 + Double.ulp) ^ 2 := one_le_pow₀ (by rw [Double.ulp]; norm_num)
  have reach : (s * 10 ^ t * (1 + Double.ulp) ^ 2 : ℚ) < Double.overflow :=
    lt_of_le_of_lt (mul_le_mul_of_nonneg_right value (by linarith)) fits
  have bounded : d.shortest.2 < 2 ^ 31 :=
    exponent_lt pos first (lt_of_le_of_lt (le_mul_of_one_le_right (by positivity) grow) reach)
  refine exists_value? (.inr rfl) (by rwa [power_exponentialSpelling]) fun nonneg => ?_
  obtain ⟨c, cs, leading⟩ := List.exists_cons_of_ne_nil nonempty
  rw [leading] at digits isDigit
  obtain ⟨taken, rest, parts, same⟩ := scaled_exponentialSpelling negative
    (isDigit c List.mem_cons_self) cs d.shortest.2
  rw [leading, same] at nonneg ⊢
  have all : (Nat.toDigits 10 s).map digitValue =
      (digitValue c :: taken) ++ (rest ++ zeros.map digitValue) := by
    rw [digits, List.cons_append, List.map_cons, List.map_append, parts, List.append_assoc]
    rfl
  -- The digits that are not taken up make good for the power of ten that is.
  have scale : d.shortest.2 - taken.length = (rest ++ zeros.map digitValue).length + t := by
    have length := congrArg List.length all
    rw [List.length_map, List.length_append, List.length_cons] at length
    rw [first, length]
    push_cast
    ring
  have power : (10 : ℚ) ^ (d.shortest.2 - taken.length).toNat =
      10 ^ (rest ++ zeros.map digitValue).length * 10 ^ t := by
    rw [← zpow_natCast, Int.toNat_of_nonneg nonneg, scale, zpow_add₀ (by norm_num), zpow_natCast]
  have front : (Double.digitsFrom 0 (digitValue c :: taken) *
      10 ^ (rest ++ zeros.map digitValue).length : ℚ) ≤ s := by
    exact_mod_cast digitsFrom_mul_le all
  refine lt_of_le_of_lt (mul_le_mul_of_nonneg_right ?_ (by linarith)) reach
  dsimp only
  rw [power, ← mul_assoc]
  exact mul_le_mul_of_nonneg_right front (by positivity)

/-- The two largest doubles are within rounding of the bound, but are read. -/
theorem isSome_reread?_largest : ∀ negative : Bool,
    (double ⟨negative, 2 ^ 53 - 2, 971⟩).reread?.isSome = true ∧
      (double ⟨negative, 2 ^ 53 - 1, 971⟩).reread?.isSome = true := by
  decide +kernel

/-- A double that a machine has is read from its text, as some double. -/
theorem exists_reread? {n : Number} (h : n.IsMachine) : ∃ m, n.reread? = some m := by
  cases n with
  | int v => exact ⟨_, reread?_int h.1 h.2⟩
  | double d =>
    cases zero : d.isZero with
    | true => exact ⟨_, reread?_zero zero⟩
    | false =>
      by_cases top : 2 ^ 53 - 2 ≤ d.significand ∧ d.exponent = 971
      · obtain ⟨negative, m, e⟩ := d
        obtain ⟨low, rfl⟩ : 2 ^ 53 - 2 ≤ m ∧ e = 971 := top
        have high : m < 2 ^ 53 := h.significand
        obtain ⟨last, largest⟩ := isSome_reread?_largest negative
        obtain rfl | rfl : m = 2 ^ 53 - 2 ∨ m = 2 ^ 53 - 1 := by omega
        · exact Option.isSome_iff_exists.mp last
        · exact Option.isSome_iff_exists.mp largest
      · rw [reread?_eq]
        change ∃ m, d.spelling.numeral.value? = some m
        unfold Double.spelling
        split
        · next positional => exact exists_value?_positional _ _ positional
        · exact exists_value?_exponential _ zero (Double.shortest_lt_overflow h top)

end Number

end Tabular
