import Resumable.Number.Shortest
import Mathlib.Algebra.Order.Field.Power
import Mathlib.Tactic.FieldSimp
import Mathlib.Tactic.Linarith
import Mathlib.Tactic.Positivity
import Mathlib.Tactic.Ring

/-! Rounding a quotient to the nearest number. A number is named by its significand and exponent,
`Nearest` says which rationals round to it, and whatever satisfies it is read as that number. -/
namespace Resumable.Number

variable {significand a b : Nat} {exponent : Int}

def magnitude (x : Number) : Nat := x.bits.toNat % 2 ^ 63

lemma bits_eq (x : Number) : x.bits.toNat = (if x.isNegative then Nat.pow 2 63 else 0) + x.magnitude := by
  have bound := x.bits.toNat_lt
  cases sign : x.isNegative
  all_goals
    simp only [isNegative,magnitude,Nat.pow_eq,beq_iff_eq,beq_eq_false_iff_ne] at sign ⊢
    simp only [if_true,Bool.false_eq_true,if_false]
    omega

lemma ofParts_magnitude (x : Number) : ofParts x.isNegative x.magnitude = x := by
  simp only [ofParts,← bits_eq,UInt64.ofNat_toNat]

lemma biased_eq (x : Number) : x.biased = x.magnitude / 2 ^ 52 := by simp only [biased,magnitude,Nat.pow_eq]; omega

lemma fraction_eq (x : Number) : x.fraction = x.magnitude % 2 ^ 52 := by
  simp only [fraction,magnitude,Nat.pow_eq]; omega

variable {size denominator : Nat}

lemma magnitude_ofParts (negative : Bool) (small : size < 2 ^ 63) : (ofParts negative size).magnitude = size := by
  cases negative <;> simp [ofParts,magnitude,UInt64.toNat_ofNat'] <;> omega

lemma isNegative_ofParts (negative : Bool) (small : size < 2 ^ 63) : (ofParts negative size).isNegative = negative := by
  cases negative <;> simp [ofParts,isNegative,UInt64.toNat_ofNat'] <;> omega

structure IsParts (significand : Nat) (exponent : Int) : Prop where
  short : significand < 2 ^ 53
  least : -1074 ≤ exponent
  full : 2 ^ 52 ≤ significand ∨ exponent = -1074

lemma isParts (x : Number) : IsParts x.significand x.exponent := by
  have fraction : x.fraction < 2 ^ 52 := Nat.mod_lt _ (by decide)
  constructor
  all_goals simp only [significand,exponent,Nat.pow_eq]; split <;> omega

lemma magnitude_eq (x : Number) : x.magnitude = (x.exponent + 1074).toNat * 2 ^ 52 + x.significand := by
  have whole := Nat.div_add_mod x.magnitude (2 ^ 52)
  rw [← biased_eq,← fraction_eq] at whole
  simp only [significand,exponent,Nat.pow_eq]
  split <;> omega

lemma magnitude_lt (x : Number) (finite : x.isFinite) : x.magnitude < 2047 * 2 ^ 52 := by
  have small : x.magnitude < 2 ^ 63 := Nat.mod_lt _ (by decide)
  simp only [isFinite,bne_iff_ne,biased_eq] at finite
  omega

lemma parts_ofParts (parts : IsParts significand exponent) (negative : Bool)
    (fits : (exponent + 1074).toNat * 2 ^ 52 + significand < 2 ^ 63) :
    let x := ofParts negative ((exponent + 1074).toNat * 2 ^ 52 + significand)
    x.significand = significand ∧ x.exponent = exponent := by
  obtain ⟨short,least,full⟩ := parts
  simp only [Number.significand,Number.exponent,biased_eq,fraction_eq,magnitude_ofParts negative fits, Nat.pow_eq]
  constructor <;> split <;> omega

/-! Quotients in units of a power of two. -/

lemma scaled_pos (exponent : Int) (above : 0 < numerator) (below : 0 < denominator) :
    0 < (scaled numerator denominator exponent).1 ∧ 0 < (scaled numerator denominator exponent).2 := by
  simp only [scaled,Nat.pow_eq]
  split <;> exact ⟨by positivity,by positivity⟩

lemma scaled_eq (numerator : Nat) (exponent : Int) (below : 0 < denominator) :
    ((scaled numerator denominator exponent).1 : ℚ) / (scaled numerator denominator exponent).2 =
      numerator / denominator / 2 ^ exponent := by
  have nonzero : (denominator : ℚ) ≠ 0 := by positivity
  simp only [scaled,Nat.pow_eq]
  split
  · next whole =>
    obtain ⟨n,rfl⟩ := Int.eq_ofNat_of_zero_le whole
    simp [div_div]
  · next whole =>
    obtain ⟨n,rfl⟩ : ∃ n : Nat, exponent = -(n : Int) := ⟨exponent.natAbs,by omega⟩
    simp [zpow_neg]
    ring

lemma roundQuotient_eq (below : 2 * m * d ≤ 2 * n + d) (above : 2 * n ≤ 2 * m * d + d)
    (tie : m % 2 = 0 ∨ (2 * m * d < 2 * n + d ∧ 2 * n < 2 * m * d + d)) (positive : 0 < d) :
    roundQuotient n d = m := by
  have whole : n = d * (n / d) + n % d := (Nat.div_add_mod n d).symm
  have small : n % d < d := Nat.mod_lt _ positive
  -- The quotient rounded down is the nearest natural or the one before it.
  have least : n / d ≤ m := by
    by_contra further
    have : d * (m + 1) ≤ d * (n / d) := Nat.mul_le_mul_left d (by omega)
    have : d * (m + 1) = m * d + d := by ring
    have : 2 * m * d = 2 * (m * d) := by ring
    omega
  have most : m ≤ n / d + 1 := by
    by_contra further
    have : d * (n / d + 2) ≤ d * m := Nat.mul_le_mul_left d (by omega)
    have : d * (n / d + 2) = d * (n / d) + 2 * d := by ring
    have : 2 * m * d = 2 * (d * m) := by ring
    omega
  simp only [roundQuotient]
  rcases Nat.lt_or_ge (n / d) m with before | same
  · obtain rfl : m = n / d + 1 := by omega
    have : 2 * (n / d + 1) * d = 2 * (d * (n / d)) + 2 * d := by ring
    rw [if_pos]
    simp only [Bool.or_eq_true,decide_eq_true_eq,Bool.and_eq_true,beq_iff_eq]
    omega
  · obtain rfl : m = n / d := by omega
    have : 2 * (n / d) * d = 2 * (d * (n / d)) := by ring
    rw [if_neg]
    simp only [Bool.or_eq_true,decide_eq_true_eq,Bool.and_eq_true,beq_iff_eq]
    omega

section
variable (above : 0 < a) (below : 0 < b)
include above below

lemma quotient_bounds : (2 : ℚ) ^ ((a.log2 : Int) - b.log2 - 1) ≤ a / b ∧
    (a : ℚ) / b < 2 ^ ((a.log2 : Int) - b.log2 + 1) := by
  have aLow : (2 : ℚ) ^ a.log2 ≤ a := by exact_mod_cast Nat.log2_self_le above.ne'
  have aHigh : (a : ℚ) < 2 ^ (a.log2 + 1) := by exact_mod_cast Nat.lt_log2_self
  have bLow : (2 : ℚ) ^ b.log2 ≤ b := by exact_mod_cast Nat.log2_self_le below.ne'
  have bHigh : (b : ℚ) < 2 ^ (b.log2 + 1) := by exact_mod_cast Nat.lt_log2_self
  have positive : (0 : ℚ) < b := by exact_mod_cast below
  constructor
  · rw [sub_sub,← Nat.cast_succ,zpow_sub₀ two_ne_zero,zpow_natCast,zpow_natCast]
    exact div_le_div₀ (by positivity) aLow positive bHigh.le
  · rw [sub_add_eq_add_sub,← Nat.cast_succ,zpow_sub₀ two_ne_zero,zpow_natCast,zpow_natCast]
    exact div_lt_div₀ aHigh bLow (by positivity) (by positivity)

lemma scaled_div_lt_iff (exponent : Int) :
    (scaled a b exponent).1 / (scaled a b exponent).2 < 2 ^ 53 ↔ (a : ℚ) / b < 2 ^ (exponent + 53) := by
  have positive : (0 : ℚ) < (scaled a b exponent).2 := by exact_mod_cast (scaled_pos exponent above below).2
  rw [Nat.div_lt_iff_lt_mul (scaled_pos exponent above below).2,zpow_add₀ two_ne_zero,
    mul_comm ((2 : ℚ) ^ exponent),← div_lt_iff₀ (by positivity),← scaled_eq a exponent below,div_lt_iff₀ positive]
  exact_mod_cast Iff.rfl

lemma unitExponent_spec : -1074 ≤ unitExponent a b ∧ (a : ℚ) / b < 2 ^ (unitExponent a b + 53) ∧
    (unitExponent a b = -1074 ∨ 2 ^ (unitExponent a b + 52) ≤ (a : ℚ) / b) := by
  obtain ⟨low,high⟩ := quotient_bounds above below
  have grows {i j : Int} (le : i ≤ j) : (2 : ℚ) ^ i ≤ 2 ^ j := zpow_le_zpow_right₀ one_le_two le
  simp only [unitExponent,Nat.pow_eq,scaled_div_lt_iff above below]
  split
  · next short =>
    refine ⟨by omega,short,?_⟩
    by_cases least : (a.log2 : Int) - b.log2 - 53 ≤ -1074
    · exact .inl (by omega)
    · exact .inr ((grows (by omega)).trans low)
  · next short =>
    rw [not_lt] at short
    have least : -1074 ≤ (a.log2 : Int) - b.log2 - 53 := by
      by_contra less
      exact absurd (high.trans_le ((grows (by omega)).trans short)) (lt_irrefl _)
    refine ⟨by omega,high.trans_le (grows (by omega)),.inr ?_⟩
    exact (grows (by omega)).trans short

lemma unitExponent_eq (least : -1074 ≤ exponent) (short : (a : ℚ) / b < 2 ^ (exponent + 53))
    (full : exponent = -1074 ∨ 2 ^ (exponent + 52) ≤ (a : ℚ) / b) : unitExponent a b = exponent := by
  obtain ⟨least',short',full'⟩ := unitExponent_spec above below
  have grows {i j : Int} (le : i ≤ j) : (2 : ℚ) ^ i ≤ 2 ^ j := zpow_le_zpow_right₀ one_le_two le
  rcases lt_trichotomy (unitExponent a b) exponent with before | same | after
  · have bits := full.resolve_left (by omega)
    exact absurd (short'.trans_le ((grows (by omega)).trans bits)) (lt_irrefl _)
  · exact same
  · have bits := full'.resolve_left (by omega)
    exact absurd (short.trans_le ((grows (by omega)).trans bits)) (lt_irrefl _)

lemma roundQuotient_scaled (low : (2 * significand - 1 : ℚ) * 2 ^ exponent ≤ 2 * (a / b))
    (high : 2 * (a / b : ℚ) ≤ (2 * significand + 1) * 2 ^ exponent) (tie : significand % 2 = 0 ∨
    ((2 * significand - 1 : ℚ) * 2 ^ exponent < 2 * (a / b) ∧
    2 * (a / b : ℚ) < (2 * significand + 1) * 2 ^ exponent)) :
    roundQuotient (scaled a b exponent).1 (scaled a b exponent).2 = significand := by
  have value := scaled_eq a exponent below
  have positive := (scaled_pos exponent above below).2
  generalize scaled a b exponent = parts at value positive
  obtain ⟨n,d⟩ := parts
  have power : (0 : ℚ) < 2 ^ exponent := by positivity
  have denominator : (0 : ℚ) < d := by exact_mod_cast positive
  obtain equal : (a : ℚ) / b = n / d * 2 ^ exponent := by rw [value]; field_simp
  rw [equal] at low high tie
  -- Each bound is one on `n`, with the unit cancelled and the denominator multiplied out.
  have lower {x : ℚ} : x * 2 ^ exponent ≤ 2 * (n / d * 2 ^ exponent) ↔ x * d ≤ 2 * n := by
    rw [← mul_assoc,mul_le_mul_iff_left₀ power,mul_div_assoc',le_div_iff₀ denominator]
  have upper {x : ℚ} : 2 * (n / d * 2 ^ exponent) ≤ x * 2 ^ exponent ↔ 2 * n ≤ x * d := by
    rw [← mul_assoc,mul_le_mul_iff_left₀ power,mul_div_assoc',div_le_iff₀ denominator]
  rw [lower] at low
  rw [upper] at high
  rw [← not_le,← not_le,upper,lower,not_le,not_le] at tie
  refine roundQuotient_eq ?_ ?_ (tie.imp_right fun strict => ⟨?_,?_⟩) positive
  · have : (2 * significand * d : ℚ) ≤ 2 * n + d := by linarith
    exact_mod_cast this
  · have : (2 * n : ℚ) ≤ 2 * significand * d + d := by linarith
    exact_mod_cast this
  · have : (2 * significand * d : ℚ) < 2 * n + d := by linarith [strict.1]
    exact_mod_cast this
  · have : (2 * n : ℚ) < 2 * significand * d + d := by linarith [strict.2]
    exact_mod_cast this

end

/-- The distance to the next number below, in quarters of the unit times two. -/
def gapBelow (significand : Nat) (exponent : Int) : Nat :=
  if significand = Nat.pow 2 52 && -1074 < exponent then 1 else 2

/-- The rationals that round to a number. -/
structure Nearest (significand : Nat) (exponent : Int) (value : ℚ) : Prop where
  low : (4 * significand - gapBelow significand exponent : ℚ) * 2 ^ (exponent - 2) ≤ value
  high : value ≤ (4 * significand + 2) * 2 ^ (exponent - 2)
  tie : significand % 2 = 0 ∨ ((4 * significand - gapBelow significand exponent : ℚ) * 2 ^ (exponent - 2) < value ∧
      value < (4 * significand + 2) * 2 ^ (exponent - 2))

lemma two_zpow_sub_two (exponent : Int) : (2 : ℚ) ^ (exponent - 2) = 2 ^ exponent / 4 := by
  rw [zpow_sub₀ two_ne_zero]; norm_num

lemma ofQuotient_eq (negative : Bool) (above : 0 < a) (below : 0 < b) (unit : unitExponent a b = exponent)
    (rounded : roundQuotient (scaled a b exponent).1 (scaled a b exponent).2 = significand)
    (full : 2 ^ 52 ≤ significand ∨ exponent = -1074)
    (fits : (exponent + 1074).toNat * 2 ^ 52 + significand < 2047 * 2 ^ 52) :
    ofQuotient negative a b = ofParts negative ((exponent + 1074).toNat * 2 ^ 52 + significand) := by
  have nonzero : ¬(a = 0 || b = 0) = true := by simp; omega
  simp only [ofQuotient,if_neg nonzero,unit,rounded,Nat.pow_eq]
  split
  · obtain rfl : exponent = -1074 := full.resolve_left (by omega)
    simp
  · rfl

lemma ofQuotient_of_nearest (negative : Bool) (above : 0 < a) (below : 0 < b) (parts : IsParts significand exponent)
    (fits : (exponent + 1074).toNat * 2 ^ 52 + significand < 2047 * 2 ^ 52)
    (near : Nearest significand exponent (a / b)) :
    ofQuotient negative a b = ofParts negative ((exponent + 1074).toNat * 2 ^ 52 + significand) := by
  obtain ⟨short,least,full⟩ := parts
  obtain ⟨low,high,tie⟩ := near
  have power : (0 : ℚ) < 2 ^ exponent := by positivity
  have bits : (significand : ℚ) + 1 ≤ 2 ^ 53 := by exact_mod_cast short
  have gap : (gapBelow significand exponent : ℚ) ≤ 2 := by simp only [gapBelow]; split <;> norm_num
  rw [two_zpow_sub_two] at low high tie
  by_cases same : exponent = -1074 ∨ (2 : ℚ) ^ (exponent + 52) ≤ a / b
  · refine ofQuotient_eq negative above below (unitExponent_eq above below least ?_ same)
      (roundQuotient_scaled above below ?_ ?_ (tie.imp_right fun strict => ⟨?_,?_⟩)) full fits
    · rw [zpow_add₀ two_ne_zero]
      nlinarith
    all_goals nlinarith
  · -- Only just below a power of two is the unit smaller than that of the number.
    rw [not_or,not_le,zpow_add₀ two_ne_zero] at same
    have enough : 2 ^ 52 ≤ significand := full.resolve_right same.1
    obtain rfl : significand = 2 ^ 52 := by
      have : (significand : ℚ) < 2 ^ 52 + 1 := by nlinarith [same.2]
      have : significand < 2 ^ 52 + 1 := by exact_mod_cast this
      omega
    have narrow : gapBelow (2 ^ 52) exponent = 1 := by simp [gapBelow]; omega
    have halved : (2 : ℚ) ^ (exponent - 1) = 2 ^ exponent / 2 := by rw [zpow_sub₀ two_ne_zero]; norm_num
    rw [narrow] at low
    have unit : unitExponent a b = exponent - 1 := by
      refine unitExponent_eq above below (by omega) ?_ (.inr ?_)
      · rw [zpow_add₀ two_ne_zero,halved]; norm_num at same ⊢; linarith [same.2]
      · rw [zpow_add₀ two_ne_zero,halved]; norm_num at low ⊢; linarith
    have rounded : roundQuotient (scaled a b (exponent - 1)).1 (scaled a b (exponent - 1)).2 = 2 ^ 53 := by
      refine roundQuotient_scaled above below ?_ ?_ (.inl (by norm_num))
      · rw [halved]; norm_num at low ⊢; linarith
      · rw [halved]; norm_num at same ⊢; linarith [same.2]
    have counted : (exponent - 1 + 1074).toNat * 2 ^ 52 + 2 ^ 53 = (exponent + 1074).toNat * 2 ^ 52 + 2 ^ 52 := by omega
    rw [← counted] at fits ⊢
    exact ofQuotient_eq negative above below unit rounded (.inl (by norm_num)) fits

end Resumable.Number
