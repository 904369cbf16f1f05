import Tabular.Proofs.Numerals

/-!
Doubles by their values. A quotient is rounded by half a unit in the last place at most, so that one
below the largest double has a double, and so has a decimal that is small enough to be rounded three
times.
-/
namespace Tabular

namespace Double

def value (d : Double) : ℚ := d.significand * 2 ^ d.exponent

/-- A double as a machine has it, its significand perhaps not in lowest terms. -/
structure IsMachine (d : Double) : Prop where
  significand : d.significand < 2 ^ 53
  low : -1074 ≤ d.exponent
  high : d.exponent ≤ 971

/-- From here on there is no double: half a unit beyond the largest one. -/
def overflow : ℚ := (2 ^ 54 - 1) * 2 ^ 970

theorem natCast_lt_overflow_iff {n : Nat} : (n : ℚ) < overflow ↔ n < (2 ^ 54 - 1) * 2 ^ 970 := by
  have cast : overflow = (((2 ^ 54 - 1) * 2 ^ 970 : Nat) : ℚ) := by
    rw [overflow, Nat.cast_mul, Nat.cast_pow]
    congr 1
    norm_num
  rw [cast]
  exact Nat.cast_lt

theorem natCast_lt_overflow {n e : Nat} (h : n ≤ 10 ^ e) (he : e ≤ 308) : (n : ℚ) < overflow := by
  refine natCast_lt_overflow_iff.mpr
    (lt_of_le_of_lt (h.trans (Nat.pow_le_pow_right (by decide) he)) ?_)
  decide +kernel

theorem value_nonneg (d : Double) : 0 ≤ d.value := by
  unfold value
  positivity

/-! ### Quotients -/

theorem two_zpow_toNat {e : Int} (h : 0 ≤ e) : (2 : ℚ) ^ e = ((Nat.pow 2 e.toNat : Nat) : ℚ) := by
  change _ = ((2 ^ e.toNat : Nat) : ℚ)
  rw [Nat.cast_pow, ← zpow_natCast, Int.toNat_of_nonneg h]
  rfl

theorem two_zpow_neg_toNat {e : Int} (h : ¬ 0 ≤ e) :
    (2 : ℚ) ^ e = ((Nat.pow 2 (-e).toNat : Nat) : ℚ)⁻¹ := by
  rw [← two_zpow_toNat (by omega), zpow_neg, inv_inv]

theorem ratio_pos (d : Double) : 0 < d.ratio.2 := by
  unfold ratio
  split
  · exact Nat.one_pos
  · exact Nat.pow_pos (by decide)

theorem ratio_eq_value (d : Double) : (d.ratio.1 : ℚ) / d.ratio.2 = d.value := by
  unfold ratio value
  split
  · next h => rw [two_zpow_toNat h, Nat.cast_mul, Nat.cast_one, div_one]
  · next h => rw [two_zpow_neg_toNat h, div_eq_mul_inv]

theorem ratio_pos_of_value {d : Double} (h : 0 < d.value) : 0 < d.ratio.1 := by
  rcases Nat.eq_zero_or_pos d.ratio.1 with none_ | pos
  · rw [← ratio_eq_value, none_, Nat.cast_zero, zero_div] at h
    exact absurd h (lt_irrefl 0)
  · exact pos

theorem scaled_pos {num den : Nat} (e : Int) (h : 0 < den) : 0 < (scaled num den e).2 := by
  unfold scaled
  split
  · exact Nat.mul_pos h (Nat.pow_pos (by decide))
  · exact h

theorem scaled_eq (num den : Nat) (e : Int) :
    ((scaled num den e).1 : ℚ) / (scaled num den e).2 = num / den / 2 ^ e := by
  unfold scaled
  split
  · next h => rw [two_zpow_toNat h, div_div, Nat.cast_mul]
  · next h => rw [two_zpow_neg_toNat h, div_inv_eq_mul, Nat.cast_mul, mul_div_right_comm]

/-- Rounding moves a quotient by half a unit at most. -/
theorem divideToEven_bounds (num : Nat) {den : Nat} (h : 0 < den) :
    (num / den - 1 / 2 : ℚ) ≤ divideToEven num den ∧
      (divideToEven num den : ℚ) ≤ num / den + 1 / 2 := by
  have whole := Nat.div_add_mod num den
  have left : num % den < den := Nat.mod_lt num h
  have parity : num / den % 2 = 0 ∨ num / den % 2 = 1 := Nat.mod_two_eq_zero_or_one _
  have twice : 2 * num ≤ 2 * (den * divideToEven num den) + den ∧
      2 * (den * divideToEven num den) ≤ 2 * num + den := by
    unfold divideToEven
    dsimp only
    split
    · omega
    · split
      · rw [Nat.mul_add]
        omega
      · rcases parity with even | odd
        · rw [even, Nat.add_zero]
          omega
        · rw [odd, Nat.mul_add]
          omega
  have positive : (0 : ℚ) < den := by exact_mod_cast h
  have above : (2 * num : ℚ) ≤ 2 * (den * divideToEven num den) + den := by exact_mod_cast twice.1
  have below : (2 * (den * divideToEven num den) : ℚ) ≤ 2 * num + den := by exact_mod_cast twice.2
  have cancel : (num / den : ℚ) * den = num := div_mul_cancel₀ _ positive.ne'
  constructor
  · refine le_of_mul_le_mul_right ?_ positive
    rw [sub_mul, cancel]
    linarith
  · refine le_of_mul_le_mul_right ?_ positive
    rw [add_mul, cancel]
    linarith

/-! ### Exponents -/

theorem log2_bounds {n : Nat} (h : 0 < n) :
    (2 : ℚ) ^ (n.log2 : Int) ≤ n ∧ (n : ℚ) < 2 ^ ((n.log2 : Int) + 1) := by
  have low : 2 ^ n.log2 ≤ n := Nat.log2_self_le h.ne'
  have high : n < 2 ^ (n.log2 + 1) := Nat.lt_log2_self
  constructor
  · rw [zpow_natCast]
    exact_mod_cast low
  · have next : (n.log2 : Int) + 1 = ((n.log2 + 1 : Nat) : Int) := rfl
    rw [next, zpow_natCast]
    exact_mod_cast high

/-- A quotient scaled by the exponent of the first guess. -/
theorem guess_bounds {num den : Nat} (hnum : 0 < num) (hden : 0 < den) :
    let guess : Int := (num.log2 : Int) - den.log2 - 52
    (2 : ℚ) ^ 51 < num / den / 2 ^ guess ∧ (num / den / 2 ^ guess : ℚ) < 2 ^ 53 := by
  intro guess
  obtain ⟨numLow, numHigh⟩ := log2_bounds hnum
  obtain ⟨denLow, denHigh⟩ := log2_bounds hden
  have positive : (0 : ℚ) < den := by exact_mod_cast hden
  have unit : (0 : ℚ) < 2 ^ guess := by positivity
  rw [div_div]
  constructor
  · rw [lt_div_iff₀ (by positivity)]
    calc (2 : ℚ) ^ 51 * (den * 2 ^ guess)
        < 2 ^ 51 * (2 ^ ((den.log2 : Int) + 1) * 2 ^ guess) := by gcongr
      _ = 2 ^ (num.log2 : Int) := by
        rw [← zpow_natCast, ← zpow_add₀ two_ne_zero, ← zpow_add₀ two_ne_zero]
        congr 1
        simp only [guess]
        push_cast
        ring
      _ ≤ num := numLow
  · rw [div_lt_iff₀ (by positivity)]
    calc (num : ℚ) < 2 ^ ((num.log2 : Int) + 1) := numHigh
      _ = 2 ^ 53 * (2 ^ (den.log2 : Int) * 2 ^ guess) := by
        rw [← zpow_natCast 2 53, ← zpow_add₀ two_ne_zero, ← zpow_add₀ two_ne_zero]
        congr 1
        simp only [guess]
        push_cast
        ring
      _ ≤ 2 ^ 53 * (den * 2 ^ guess) := by gcongr

/-- The guess is one too large if it leaves 52 binary digits only. -/
theorem chosen_bounds {num den : Nat} (hnum : 0 < num) (hden : 0 < den) :
    let guess : Int := (num.log2 : Int) - den.log2 - 52
    let few := (scaled num den guess).1 / (scaled num den guess).2 < Nat.pow 2 52
    let e := if few then guess - 1 else guess
    (2 : ℚ) ^ 52 ≤ num / den / 2 ^ e ∧ (num / den / 2 ^ e : ℚ) < 2 ^ 53 := by
  intro guess few e
  obtain ⟨low, high⟩ := guess_bounds hnum hden
  change (2 : ℚ) ^ 51 < num / den / 2 ^ guess at low
  change (num / den / 2 ^ guess : ℚ) < 2 ^ 53 at high
  have whole : few ↔ (num / den / 2 ^ guess : ℚ) < 2 ^ 52 := by
    have positive : (0 : ℚ) < (scaled num den guess).2 := by
      exact_mod_cast scaled_pos guess hden
    rw [← scaled_eq, div_lt_iff₀ positive]
    refine (Nat.div_lt_iff_lt_mul (scaled_pos guess hden)).trans ?_
    rw [← @Nat.cast_lt ℚ, Nat.cast_mul]
    change _ < ((2 ^ 52 : Nat) : ℚ) * _ ↔ _
    rw [Nat.cast_pow]
    rfl
  by_cases h : few
  · have half : e = guess - 1 := if_pos h
    have double : (num / den / 2 ^ e : ℚ) = 2 * (num / den / 2 ^ guess) := by
      rw [half, zpow_sub_one₀ two_ne_zero, div_mul_eq_div_div, div_inv_eq_mul, mul_comm]
    rw [whole] at h
    rw [double]
    constructor <;> linarith
  · have same : e = guess := if_neg h
    rw [whole, not_lt] at h
    rw [same]
    exact ⟨h, high⟩

/-- The exponent that is used leaves 53 binary digits, or fewer where it is the smallest one. -/
theorem exponentOf_bounds {num den : Nat} (hnum : 0 < num) (hden : 0 < den) :
    -1074 ≤ exponentOf num den ∧ (num / den / 2 ^ exponentOf num den : ℚ) < 2 ^ 53 ∧
      (exponentOf num den = -1074 ∨ (2 : ℚ) ^ 52 ≤ num / den / 2 ^ exponentOf num den) := by
  obtain ⟨low, high⟩ := chosen_bounds hnum hden
  unfold exponentOf
  dsimp only at low high ⊢
  generalize (if (scaled num den _).1 / (scaled num den _).2 < Nat.pow 2 52 then _ else _ : Int) = e
    at low high ⊢
  split
  · next small =>
    refine ⟨le_refl _, lt_of_le_of_lt ?_ high, .inl rfl⟩
    gcongr
    exact one_le_two
  · next large => exact ⟨not_lt.mp large, high, .inr low⟩

/-! ### Rounding -/

/-- What a quotient is rounded to, up to the largest double and beyond. -/
def rounded (num den : Nat) : Double :=
  let e := exponentOf num den
  let m := divideToEven (scaled num den e).1 (scaled num den e).2
  if m == Nat.pow 2 53 then ⟨false, Nat.pow 2 52, e + 1⟩ else ⟨false, m, e⟩

theorem ofRatio_eq {num : Nat} (h : 0 < num) (den : Nat) :
    ofRatio num den =
      if 971 < (rounded num den).exponent then none else some (rounded num den) := by
  have nonzero : (num == 0) = false := by
    rw [beq_eq_false_iff_ne]
    omega
  unfold ofRatio rounded
  rw [nonzero, if_neg Bool.false_ne_true]
  dsimp only
  split <;> rfl

/-- A quotient is rounded by half a unit at most, where it does not have fewer digits. -/
theorem rounded_bounds (num : Nat) {den : Nat} (hden : 0 < den) :
    (rounded num den).value ≤ num / den + 2 ^ exponentOf num den / 2 ∧
      (num / den : ℚ) ≤ (rounded num den).value + 2 ^ exponentOf num den / 2 := by
  obtain ⟨below, above⟩ := divideToEven_bounds (scaled num den (exponentOf num den)).1
    (scaled_pos (exponentOf num den) hden)
  have same : (rounded num den).value =
      divideToEven (scaled num den (exponentOf num den)).1 (scaled num den (exponentOf num den)).2 *
        2 ^ exponentOf num den := by
    unfold rounded value
    dsimp only
    split
    · next carried =>
      rw [beq_iff_eq] at carried
      rw [carried, zpow_add_one₀ two_ne_zero]
      change ((2 ^ 52 : Nat) : ℚ) * _ = ((2 ^ 53 : Nat) : ℚ) * _
      push_cast
      ring
    · rfl
  have unit : (0 : ℚ) < 2 ^ exponentOf num den := by positivity
  rw [scaled_eq] at below above
  have cancel : (num / den / 2 ^ exponentOf num den : ℚ) * 2 ^ exponentOf num den = num / den :=
    div_mul_cancel₀ _ unit.ne'
  rw [same]
  constructor
  · have := mul_le_mul_of_nonneg_right above unit.le
    rw [add_mul, cancel] at this
    linarith
  · have := mul_le_mul_of_nonneg_right below unit.le
    rw [sub_mul, cancel] at this
    linarith

theorem unit_le {num den : Nat} (hnum : 0 < num) (hden : 0 < den) :
    exponentOf num den = -1074 ∨ (2 : ℚ) ^ exponentOf num den ≤ num / den / 2 ^ 52 := by
  obtain ⟨-, -, least | normal⟩ := exponentOf_bounds hnum hden
  · exact .inl least
  · refine .inr ?_
    rw [le_div_iff₀ (by positivity)] at normal
    rw [le_div_iff₀ (by positivity), mul_comm]
    exact normal

theorem rounded_le_twice {num den : Nat} (hnum : 0 < num) (hden : 0 < den) :
    (rounded num den).value ≤ 2 * (num / den) + 1 := by
  obtain ⟨above, -⟩ := rounded_bounds num hden
  have quotient : (0 : ℚ) ≤ num / den := by positivity
  rcases unit_le hnum hden with least | unit
  · have tiny : (2 : ℚ) ^ (-1074 : Int) ≤ 1 := zpow_le_one_of_nonpos₀ one_le_two (by decide)
    rw [least] at above
    linarith
  · have small : (num / den / 2 ^ 52 : ℚ) ≤ num / den := div_le_self quotient (by norm_num)
    linarith

/-- From 1 on a quotient has 53 binary digits. -/
theorem unit_le_of_one_le {num den : Nat} (hden : 0 < den) (h : (1 : ℚ) ≤ num / den) :
    (2 : ℚ) ^ exponentOf num den ≤ num / den / 2 ^ 52 := by
  have hnum : 0 < num := by
    rcases Nat.eq_zero_or_pos num with rfl | pos
    · norm_num at h
    · exact pos
  rcases unit_le hnum hden with least | unit
  · obtain ⟨-, high, -⟩ := exponentOf_bounds hnum hden
    rw [least, div_lt_iff₀ (by positivity)] at high
    have tiny : (2 : ℚ) ^ 53 * 2 ^ (-1074 : Int) < 1 := by
      rw [← zpow_natCast, ← zpow_add₀ two_ne_zero]
      exact zpow_lt_one_of_neg₀ one_lt_two (by decide)
    linarith
  · exact unit

theorem rounded_le {num den : Nat} (hden : 0 < den) (h : (1 : ℚ) ≤ num / den) :
    (rounded num den).value ≤ num / den * (1 + 1 / 2 ^ 53) := by
  obtain ⟨above, -⟩ := rounded_bounds num hden
  have unit := unit_le_of_one_le hden h
  calc (rounded num den).value ≤ num / den + 2 ^ exponentOf num den / 2 := above
    _ ≤ num / den + num / den / 2 ^ 52 / 2 := by gcongr
    _ = num / den * (1 + 1 / 2 ^ 53) := by ring

theorem half_le_rounded {num den : Nat} (hden : 0 < den) (h : (1 : ℚ) ≤ num / den) :
    1 / 2 ≤ (rounded num den).value := by
  obtain ⟨-, below⟩ := rounded_bounds num hden
  have unit := unit_le_of_one_le hden h
  have small : (num / den / 2 ^ 52 : ℚ) ≤ num / den := div_le_self (by linarith) (by norm_num)
  linarith

theorem isMachine_rounded {num den : Nat} (hnum : 0 < num) (hden : 0 < den)
    (h : (rounded num den).exponent ≤ 971) : (rounded num den).IsMachine := by
  obtain ⟨low, high, -⟩ := exponentOf_bounds hnum hden
  obtain ⟨-, above⟩ := divideToEven_bounds (scaled num den (exponentOf num den)).1
    (scaled_pos (exponentOf num den) hden)
  rw [scaled_eq] at above
  have digits : divideToEven (scaled num den (exponentOf num den)).1
      (scaled num den (exponentOf num den)).2 ≤ 2 ^ 53 := by
    refine Nat.le_of_lt_succ ?_
    rw [← @Nat.cast_lt ℚ]
    push_cast
    linarith
  unfold rounded at h ⊢
  dsimp only at h ⊢
  split at h
  · next carried =>
    rw [if_pos carried]
    exact ⟨show 2 ^ 52 < 2 ^ 53 by decide, by dsimp only; omega, h⟩
  · next fits =>
    rw [if_neg fits]
    rw [beq_iff_eq] at fits
    exact ⟨lt_of_le_of_ne digits fits, low, h⟩

theorem isMachine_ofRatio {num den : Nat} {d : Double} (hden : 0 < den)
    (h : ofRatio num den = some d) : d.IsMachine := by
  rcases Nat.eq_zero_or_pos num with rfl | hnum
  · obtain rfl : zero = d := Option.some.inj h
    exact ⟨by decide, le_refl _, by decide⟩
  · rw [ofRatio_eq hnum] at h
    split at h
    · cases h
    · next fits =>
      obtain rfl := Option.some.inj h
      exact isMachine_rounded hnum hden (not_lt.mp fits)

/-- The bound in units of the largest exponent. -/
theorem overflow_eq : overflow = (2 ^ 53 - 1 / 2) * 2 ^ (971 : Int) := by
  have apart : (2 : ℚ) ^ (971 : Int) = 2 ^ 1 * 2 ^ 970 := by
    rw [← zpow_natCast, ← zpow_natCast, ← zpow_add₀ two_ne_zero]
    rfl
  rw [overflow, apart, ← mul_assoc]
  norm_num

/-- A quotient below the bound is not scaled by more than the largest exponent. -/
theorem exponentOf_le {num den : Nat} (hnum : 0 < num) (hden : 0 < den)
    (h : (num / den : ℚ) < overflow) : exponentOf num den ≤ 971 := by
  obtain ⟨-, -, least | normal⟩ := exponentOf_bounds hnum hden
  · omega
  · rw [le_div_iff₀ (by positivity)] at normal
    by_contra large
    refine absurd h (not_lt.mpr ?_)
    calc overflow ≤ 2 ^ 53 * 2 ^ (971 : Int) := by
          rw [overflow_eq]
          gcongr
          norm_num
      _ = 2 ^ 52 * 2 ^ (972 : Int) := by
          rw [show (972 : Int) = 971 + 1 from rfl, zpow_add_one₀ two_ne_zero]
          ring
      _ ≤ 2 ^ 52 * 2 ^ exponentOf num den := by
          gcongr
          · exact one_le_two
          · omega
      _ ≤ num / den := normal

/-- Nor is it rounded up to one digit more at the largest exponent. -/
theorem exponentOf_lt_of_carried {num den : Nat} (hnum : 0 < num) (hden : 0 < den)
    (h : (num / den : ℚ) < overflow)
    (carried : divideToEven (scaled num den (exponentOf num den)).1
      (scaled num den (exponentOf num den)).2 = Nat.pow 2 53) : exponentOf num den < 971 := by
  obtain ⟨-, above⟩ := divideToEven_bounds (scaled num den (exponentOf num den)).1
    (scaled_pos (exponentOf num den) hden)
  have digits : ((Nat.pow 2 53 : Nat) : ℚ) = 2 ^ 53 := Nat.cast_pow 2 53
  refine lt_of_le_of_ne (exponentOf_le hnum hden h) fun last => ?_
  rw [scaled_eq, carried, digits, last, ← sub_le_iff_le_add, le_div_iff₀ (by positivity),
    ← overflow_eq] at above
  exact absurd h (not_lt.mpr above)

/-- A quotient below the bound has a double. -/
theorem exists_ofRatio {num den : Nat} (hnum : 0 < num) (hden : 0 < den)
    (h : (num / den : ℚ) < overflow) : ofRatio num den = some (rounded num den) := by
  rw [ofRatio_eq hnum, if_neg]
  rw [not_lt]
  unfold rounded
  dsimp only
  split
  · next carried =>
    exact exponentOf_lt_of_carried hnum hden h (beq_iff_eq.mp carried)
  · exact exponentOf_le hnum hden h

/-! ### Powers of ten -/

/-- The share of a number that rounding can add to it. -/
def ulp : ℚ := 1 / 2 ^ 53

theorem powerOfTen_bounds {n : Nat} (h : n ≤ 308) :
    ∃ p, powerOfTen n = some p ∧ 1 / 2 ≤ p.value ∧ p.value ≤ 10 ^ n * (1 + ulp) := by
  have cast : ((Nat.pow 10 n : Nat) : ℚ) / (1 : Nat) = 10 ^ n := by
    change ((10 ^ n : Nat) : ℚ) / (1 : Nat) = _
    push_cast
    exact div_one _
  have one : (1 : ℚ) ≤ (Nat.pow 10 n : Nat) / (1 : Nat) := by
    rw [cast]
    exact one_le_pow₀ (by norm_num)
  have fits : ((Nat.pow 10 n : Nat) / (1 : Nat) : ℚ) < overflow := by
    rw [Nat.cast_one, div_one]
    exact natCast_lt_overflow (le_refl _) h
  refine ⟨_, exists_ofRatio (Nat.pow_pos (by decide)) Nat.one_pos fits,
    half_le_rounded Nat.one_pos one, ?_⟩
  rw [← cast]
  exact rounded_le Nat.one_pos one

/-- A quotient of doubles has a double if the divisor is not small and the dividend not large. -/
theorem exists_div {a b : Double} (small : 1 / 2 ≤ b.value) (large : 2 * a.value < overflow) :
    ∃ d, a.div b = some d ∧ d.value ≤ 4 * a.value + 1 := by
  have quotient : ((a.ratio.1 * b.ratio.2 : Nat) : ℚ) / (a.ratio.2 * b.ratio.1 : Nat) =
      a.value / b.value := by
    rw [← ratio_eq_value, ← ratio_eq_value, div_div_div_eq]
    push_cast
    rfl
  have positive : 0 < b.value := by linarith
  have hden : 0 < a.ratio.2 * b.ratio.1 := Nat.mul_pos a.ratio_pos (ratio_pos_of_value positive)
  have bound : a.value / b.value ≤ 2 * a.value := by
    rw [div_le_iff₀ positive]
    nlinarith [a.value_nonneg]
  unfold Double.div
  rcases Nat.eq_zero_or_pos (a.ratio.1 * b.ratio.2) with none_ | hnum
  · rw [none_]
    refine ⟨zero, rfl, ?_⟩
    have : zero.value = 0 := by simp [zero, value]
    rw [this]
    linarith [a.value_nonneg]
  · refine ⟨_, exists_ofRatio hnum hden (by rw [quotient]; linarith), ?_⟩
    have above := rounded_le_twice hnum hden
    rw [quotient] at above
    linarith

/-- A product of doubles below the bound has a double. -/
theorem exists_mul {a b : Double} (h : a.value * b.value < overflow) : ∃ d, a.mul b = some d := by
  have product : ((a.ratio.1 * b.ratio.1 : Nat) : ℚ) / (a.ratio.2 * b.ratio.2 : Nat) =
      a.value * b.value := by
    rw [← ratio_eq_value, ← ratio_eq_value, div_mul_div_comm]
    push_cast
    rfl
  unfold Double.mul
  rcases Nat.eq_zero_or_pos (a.ratio.1 * b.ratio.1) with none_ | hnum
  · rw [none_]
    exact ⟨zero, rfl⟩
  · exact ⟨_, exists_ofRatio hnum (Nat.mul_pos a.ratio_pos b.ratio_pos) (by rwa [product])⟩

/-- A double is scaled down in steps, none of which makes it large. -/
theorem exists_scaleDown {d : Double} {fuel : Nat} (n : Nat)
    (h : (d.value + 1) * 4 ^ fuel ≤ 2 ^ 200) : ∃ r, scaleDown d fuel n = some r := by
  induction fuel generalizing d n with
  | zero => exact ⟨zero, rfl⟩
  | succ fuel ih =>
    have nonneg := d.value_nonneg
    have small : 2 * d.value < overflow := by
      have grows : (1 : ℚ) ≤ 4 ^ fuel := one_le_pow₀ (by norm_num)
      have bound : 2 * d.value ≤ ((2 ^ 200 : Nat) : ℚ) := by
        rw [Nat.cast_pow]
        rw [pow_succ] at h
        push_cast
        nlinarith
      have power : 2 ^ 200 ≤ 10 ^ 200 := Nat.pow_le_pow_left (by decide) 200
      exact lt_of_le_of_lt bound (natCast_lt_overflow power (by decide))
    have step (m : Nat) (hm : m ≤ 308) :
        ∃ p q, powerOfTen m = some p ∧ d.div p = some q ∧ q.value ≤ 4 * d.value + 1 := by
      obtain ⟨p, hp, half, -⟩ := powerOfTen_bounds hm
      obtain ⟨q, hq, bound⟩ := exists_div half small
      exact ⟨p, q, hp, hq, bound⟩
    unfold scaleDown
    split
    · next last =>
      obtain ⟨p, q, hp, hq, -⟩ := step n last
      exact ⟨q, by rw [hp]; exact hq⟩
    · split
      · exact ⟨d, rfl⟩
      · obtain ⟨p, q, hp, hq, bound⟩ := step 308 (le_refl _)
        rw [hp]
        simp only [Option.bind_eq_bind, Option.bind_some, hq]
        refine ih (n - 308) ?_
        calc (q.value + 1) * 4 ^ fuel ≤ (4 * d.value + 1 + 1) * 4 ^ fuel := by gcongr
          _ ≤ (d.value + 1) * 4 ^ (fuel + 1) := by
            rw [pow_succ, mul_comm (4 ^ fuel) 4, ← mul_assoc]
            gcongr
            linarith
          _ ≤ 2 ^ 200 := h

/-! ### Decimals -/

theorem exists_ofNat {n : Nat} (h : n < 2 ^ 64) :
    ∃ d, ofNat n = some d ∧ d.value ≤ n * (1 + ulp) := by
  rcases Nat.eq_zero_or_pos n with rfl | pos
  · refine ⟨zero, rfl, ?_⟩
    simp [zero, value]
  · have cast : (n : ℚ) / (1 : Nat) = n := by rw [Nat.cast_one, div_one]
    have one : (1 : ℚ) ≤ n / (1 : Nat) := by
      rw [cast]
      exact_mod_cast pos
    have fits : (n / (1 : Nat) : ℚ) < overflow := by
      rw [cast]
      have power : 2 ^ 64 ≤ 10 ^ 64 := Nat.pow_le_pow_left (by decide) 64
      exact natCast_lt_overflow (h.le.trans power) (by decide)
    refine ⟨_, exists_ofRatio pos Nat.one_pos fits, ?_⟩
    have bound := rounded_le Nat.one_pos one
    rwa [cast] at bound

theorem overflow_le {n e : Nat} (hn : 0 < n) (he : 309 ≤ e) : overflow ≤ n * 10 ^ e := by
  have cast : (n * 10 ^ e : ℚ) = ((n * 10 ^ e : Nat) : ℚ) := by
    rw [Nat.cast_mul, Nat.cast_pow, Nat.cast_ofNat]
  rw [cast, ← not_lt, natCast_lt_overflow_iff, not_lt]
  refine le_trans ?_ (Nat.le_mul_of_pos_left _ hn)
  exact le_trans (by decide +kernel) (Nat.pow_le_pow_right (n := 10) (by decide) he)

/-- A decimal has a double if it is small enough to be rounded three times. -/
theorem exists_ofDecimal {n : Nat} {e : Int} (hn : n < 2 ^ 64)
    (h : 0 ≤ e → (n * 10 ^ e.toNat * (1 + ulp) ^ 2 : ℚ) < overflow) :
    ∃ d, ofDecimal n e = some d := by
  obtain ⟨d, hd, bound⟩ := exists_ofNat hn
  have grows : (1 : ℚ) ≤ 1 + ulp := by
    rw [ulp]
    norm_num
  unfold ofDecimal
  simp only [hd, Option.bind_eq_bind, Option.bind_some]
  split
  · next nonneg =>
    have small := h nonneg
    split
    · next below =>
      obtain ⟨p, hp, -, power⟩ := powerOfTen_bounds (n := e.toNat) (by omega)
      rw [hp, Option.bind_some]
      refine exists_mul (lt_of_le_of_lt ?_ small)
      calc d.value * p.value
          ≤ n * (1 + ulp) * (10 ^ e.toNat * (1 + ulp)) :=
            mul_le_mul bound power p.value_nonneg (by positivity)
        _ = n * 10 ^ e.toNat * (1 + ulp) ^ 2 := by ring
    · next above =>
      have none_ : n = 0 := by
        rcases Nat.eq_zero_or_pos n with none_ | pos
        · exact none_
        · have large := overflow_le pos (show 309 ≤ e.toNat by omega)
          have : (n * 10 ^ e.toNat : ℚ) ≤ n * 10 ^ e.toNat * (1 + ulp) ^ 2 :=
            le_mul_of_one_le_right (by positivity) (one_le_pow₀ grows)
          exact absurd small (not_lt.mpr (large.trans this))
      subst none_
      obtain rfl : zero = d := Option.some.inj hd
      exact ⟨zero, rfl⟩
  · refine exists_scaleDown _ ?_
    have cast : (n : ℚ) ≤ 2 ^ 64 := by exact_mod_cast hn.le
    have twice : (1 + ulp : ℚ) ≤ 2 := by
      rw [ulp]
      norm_num
    have : d.value ≤ 2 ^ 64 * 2 := bound.trans (mul_le_mul cast twice (by linarith) (by positivity))
    calc (d.value + 1) * 4 ^ 4 ≤ (2 ^ 64 * 2 + 1) * 4 ^ 4 := by gcongr
      _ ≤ 2 ^ 200 := by norm_num

theorem isMachine_zero : zero.IsMachine := ⟨by decide, le_refl _, by decide⟩

theorem IsMachine.neg {d : Double} (h : d.IsMachine) : d.neg.IsMachine := ⟨h.1, h.2, h.3⟩

theorem isMachine_ofNat {n : Nat} {d : Double} (h : ofNat n = some d) : d.IsMachine :=
  isMachine_ofRatio Nat.one_pos h

theorem isMachine_mul {a b d : Double} (h : a.mul b = some d) : d.IsMachine :=
  isMachine_ofRatio (Nat.mul_pos a.ratio_pos b.ratio_pos) h

theorem isMachine_scaleDown {d r : Double} {fuel n : Nat} (hd : d.IsMachine)
    (h : scaleDown d fuel n = some r) : r.IsMachine := by
  have step {m : Nat} (hm : m ≤ 308) {d q : Double}
      (h : (powerOfTen m).bind (fun p => d.div p) = some q) : q.IsMachine := by
    obtain ⟨p, hp, h⟩ := Option.bind_eq_some_iff.mp h
    obtain ⟨p', hp', half, -⟩ := powerOfTen_bounds hm
    obtain rfl := Option.some.inj (hp.symm.trans hp')
    exact isMachine_ofRatio (Nat.mul_pos d.ratio_pos (ratio_pos_of_value (by linarith))) h
  induction fuel generalizing d n with
  | zero => exact Option.some.inj h ▸ isMachine_zero
  | succ fuel ih =>
    unfold scaleDown at h
    split at h
    · next last => exact step last h
    · split at h
      · exact Option.some.inj h ▸ hd
      · obtain ⟨p, hp, h⟩ := Option.bind_eq_some_iff.mp h
        obtain ⟨q, hq, h⟩ := Option.bind_eq_some_iff.mp h
        exact ih (step (le_refl 308) (Option.bind_eq_some_iff.mpr ⟨p, hp, hq⟩)) h

theorem isMachine_ofDecimal {n : Nat} {e : Int} {r : Double} (h : ofDecimal n e = some r) :
    r.IsMachine := by
  obtain ⟨d, hd, h⟩ := Option.bind_eq_some_iff.mp h
  have machine := isMachine_ofNat hd
  split at h
  · split at h
    · obtain ⟨p, -, h⟩ := Option.bind_eq_some_iff.mp h
      exact isMachine_mul h
    · split at h
      · exact Option.some.inj h ▸ machine
      · cases h
  · exact isMachine_scaleDown machine h

end Double

end Tabular
