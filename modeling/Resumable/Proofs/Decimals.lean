import Resumable.Proofs.Rounding
import Mathlib.Data.Nat.Digits.Lemmas

/-! The shortest decimal of a number reads back as the number. The search ends at seventeen digits because there the
nearest decimal is closer than any other number, and reading depends on the value of a decimal alone. -/
namespace Resumable.Number

variable {power exponent : Int} {significand : Nat}

def Decimal.value (decimal : Decimal) : ℚ := decimal.digits * 10 ^ decimal.power

lemma cast_pow_ten (n : Nat) : ((Nat.pow 10 n : Nat) : ℚ) = 10 ^ (n : Int) := by
  rw [Nat.pow_eq,Nat.cast_pow,zpow_natCast]; norm_num

lemma pow_length_toDigits_le (positive : 0 < n) : 10 ^ ((Nat.toDigits 10 n).length - 1) ≤ n := by
  by_cases one : (Nat.toDigits 10 n).length - 1 = 0
  · rw [one]; exact positive
  · by_contra less
    have := (Nat.length_toDigits_le_iff (by decide) (by omega)).2 (Nat.not_le.1 less)
    omega

lemma lt_pow_length_toDigits (n : Nat) : n < 10 ^ (Nat.toDigits 10 n).length :=
  (Nat.length_toDigits_le_iff (by decide) Nat.length_toDigits_pos).1 le_rfl

/-! What the interval around a number holds. -/

lemma balanced_eq (a : Nat) (power : Int) (unit b : Nat) :
    ∃ factor : ℚ, 0 < factor ∧ (balanced a power unit b).1 = a * 10 ^ power * unit * factor ∧
      (balanced a power unit b).2 = b * factor := by
  simp only [balanced,Nat.pow_eq]
  split
  · next whole =>
    obtain ⟨n,rfl⟩ := Int.eq_ofNat_of_zero_le whole
    exact ⟨1,one_pos,by simp,by simp⟩
  · next whole =>
    obtain ⟨n,rfl⟩ : ∃ n : Nat, power = -(n : Int) := ⟨power.natAbs,by omega⟩
    refine ⟨10 ^ n,by positivity,?_,by simp⟩
    rw [zpow_neg,zpow_natCast]
    field_simp
    push_cast
    ring

variable {a unit b : Nat}

lemma balanced_le (positive : 0 < unit) : (balanced a power unit b).2 ≤ (balanced a power unit b).1 ↔
      (b / unit : ℚ) ≤ a * 10 ^ power := by
  obtain ⟨factor,above,left,right⟩ := balanced_eq a power unit b
  have unit' : (0 : ℚ) < unit := by exact_mod_cast positive
  rw [← Nat.cast_le (α := ℚ),left,right,mul_le_mul_iff_left₀ above,div_le_iff₀ unit']

lemma le_balanced (positive : 0 < unit) : (balanced a power unit b).1 ≤ (balanced a power unit b).2 ↔
      a * 10 ^ power ≤ (b / unit : ℚ) := by
  obtain ⟨factor,above,left,right⟩ := balanced_eq a power unit b
  have unit' : (0 : ℚ) < unit := by exact_mod_cast positive
  rw [← Nat.cast_le (α := ℚ),left,right,mul_le_mul_iff_left₀ above,le_div_iff₀ unit']

namespace Interval

lemma around_unit_pos (significand : Nat) (exponent : Int) : 0 < (around significand exponent).unit := by
  simp only [around,Nat.pow_eq]; split <;> positivity

lemma scale_eq (exponent : Int) (n : Nat) :
    ((if 2 ≤ exponent then n * Nat.pow 2 (exponent - 2).toNat else n : Nat) : ℚ) /
      (if 2 ≤ exponent then 1 else Nat.pow 2 (2 - exponent).toNat : Nat) = n * 2 ^ (exponent - 2) := by
  split
  · next large =>
    obtain ⟨k,rfl⟩ : ∃ k : Nat, exponent = k + 2 := ⟨(exponent - 2).toNat,by omega⟩
    simp
  · next small =>
    obtain ⟨k,rfl⟩ : ∃ k : Nat, exponent = 2 - k := ⟨(2 - exponent).toNat,by omega⟩
    simp [div_eq_mul_inv]

lemma around_low (exponent : Int) (positive : 0 < significand) :
    ((around significand exponent).low : ℚ) / (around significand exponent).unit =
      (4 * significand - gapBelow significand exponent) * 2 ^ (exponent - 2) := by
  have gap : gapBelow significand exponent ≤ 4 * significand := by simp only [gapBelow]; split <;> omega
  have cast : ((4 * significand - gapBelow significand exponent : Nat) : ℚ) =
      4 * significand - gapBelow significand exponent := by
    rw [Nat.cast_sub gap]; simp
  rw [← cast,← scale_eq]
  rfl

lemma around_middle (significand : Nat) (exponent : Int) :
    ((around significand exponent).middle : ℚ) / (around significand exponent).unit =
      4 * significand * 2 ^ (exponent - 2) := by
  have cast : ((4 * significand : Nat) : ℚ) = 4 * significand := by simp
  rw [← cast,← scale_eq]
  rfl

lemma around_high (significand : Nat) (exponent : Int) :
    ((around significand exponent).high : ℚ) / (around significand exponent).unit =
      (4 * significand + 2) * 2 ^ (exponent - 2) := by
  have cast : ((4 * significand + 2 : Nat) : ℚ) = 4 * significand + 2 := by simp
  rw [← cast,← scale_eq]
  rfl

lemma contains_around (positive : 0 < significand) (held : (around significand exponent).contains decimal) :
    Nearest significand exponent decimal.value := by
  have unit := around_unit_pos significand exponent
  have closed : (around significand exponent).closed = (significand % 2 == 0) := rfl
  simp only [contains,closed] at held
  split at held
  · next even =>
    simp only [Bool.and_eq_true,decide_eq_true_eq,balanced_le unit,le_balanced unit,
      around_low exponent positive,around_high] at held
    exact ⟨held.1,held.2,.inl (by simpa using even)⟩
  · simp only [Bool.and_eq_true,decide_eq_true_eq,← Nat.not_le,balanced_le unit,
      le_balanced unit,around_low exponent positive,around_high,not_le] at held
    exact ⟨held.1.le,held.2.le,.inr held⟩

variable {interval : Interval}

lemma neighbours_near (positive : 0 < interval.unit) (power : Int) :
    let near := (interval.neighbours power).1.value
    2 * near ≤ 2 * (interval.middle / interval.unit) + 10 ^ power ∧
      2 * (interval.middle / interval.unit) ≤ 2 * near + (10 ^ power : ℚ) := by
  obtain ⟨factor,above,left,right⟩ := balanced_eq 1 power interval.unit interval.middle
  have unit' : (0 : ℚ) < interval.unit := by exact_mod_cast positive
  have ten : (0 : ℚ) < 10 ^ power := by positivity
  simp only [neighbours]
  generalize balanced 1 power interval.unit interval.middle = parts at left right
  obtain ⟨u,m⟩ := parts
  simp only [Nat.cast_one,one_mul] at left right
  have unit : (0 : ℚ) < u := left ▸ by positivity
  -- The middle, with the last place as its unit.
  have middle : (interval.middle / interval.unit : ℚ) = m / u * 10 ^ power := by rw [left,right]; field_simp
  have whole : (m : ℚ) = u * (m / u : Nat) + (m % u : Nat) := by exact_mod_cast (Nat.div_add_mod m u).symm
  have rest : (m / u : ℚ) * u = m := div_mul_cancel₀ _ unit.ne'
  have close {digits : Nat} (low : 2 * (digits : ℚ) * u ≤ 2 * m + u) (high : 2 * (m : ℚ) ≤ 2 * digits * u + u) :
      2 * (digits * 10 ^ power) ≤ 2 * (m / u * 10 ^ power) + (10 ^ power : ℚ) ∧
        2 * (m / u * 10 ^ power) ≤ 2 * (digits * 10 ^ power) + (10 ^ power : ℚ) := by
    have low' : 2 * (digits : ℚ) ≤ 2 * (m / u) + 1 := by rw [← mul_le_mul_iff_left₀ unit]; linarith
    have high' : 2 * (m / u : ℚ) ≤ 2 * digits + 1 := by rw [← mul_le_mul_iff_left₀ unit]; linarith
    constructor <;> nlinarith
  rw [middle]
  split
  · next less =>
    have less' : 2 * ((m % u : Nat) : ℚ) < u := by exact_mod_cast less
    have under : (0 : ℚ) ≤ (m % u : Nat) := Nat.cast_nonneg _
    apply close <;> linarith
  · next more =>
    have more' : (u : ℚ) ≤ 2 * (m % u : Nat) := by exact_mod_cast Nat.not_lt.1 more
    have atMost : ((m % u : Nat) : ℚ) ≤ u := by exact_mod_cast (Nat.mod_lt m (by exact_mod_cast unit)).le
    apply close <;> push_cast <;> linarith

lemma magnitude_le (positive : 0 < interval.unit) (large : interval.unit ≤ interval.middle * Nat.pow 10 350) :
    (10 : ℚ) ^ interval.magnitude ≤ interval.middle / interval.unit := by
  have unit' : (0 : ℚ) < interval.unit := by exact_mod_cast positive
  have ten := cast_pow_ten 350
  simp only [Interval.magnitude]
  generalize Nat.pow 10 350 = factor at large ten
  have below := Nat.div_mul_le_self (interval.middle * factor) interval.unit
  have above := Nat.div_pos large positive
  generalize interval.middle * factor / interval.unit = scaled at below above
  have below' : (scaled : ℚ) * interval.unit ≤ interval.middle * 10 ^ ((350 : Nat) : Int) := by
    rw [← ten]; exact_mod_cast below
  have least := pow_length_toDigits_le above
  obtain ⟨n,size⟩ : ∃ n, (Nat.toDigits 10 scaled).length = n + 1 := Nat.exists_eq_add_one.2 Nat.length_toDigits_pos
  have least' : (10 : ℚ) ^ n ≤ scaled := by rw [size] at least; exact_mod_cast least
  rw [size,show ((n + 1 : Nat) : Int) - 351 = n - (350 : Nat) by push_cast; ring,
    zpow_sub₀ (by norm_num),zpow_natCast,div_le_div_iff₀ (by positivity) unit']
  exact (mul_le_mul_of_nonneg_right least' unit'.le).trans below'

section
variable (positive : 0 < significand)
include positive

lemma unit_le_middle {bound factor : Nat} (least : -(bound : Int) ≤ exponent) (large : 2 ^ bound ≤ factor) :
    (around significand exponent).unit ≤ (around significand exponent).middle * factor := by
  have factor_pos : 0 < factor := lt_of_lt_of_le (by positivity) large
  simp only [around,Nat.pow_eq]
  split
  · have : 0 < 4 * significand * 2 ^ (exponent - 2).toNat * factor := by positivity
    omega
  · calc 2 ^ (2 - exponent).toNat ≤ 2 ^ (2 + bound) := Nat.pow_le_pow_right (by decide) (by omega)
      _ = 4 * 1 * 2 ^ bound := by rw [Nat.pow_add]
      _ ≤ 4 * significand * factor := Nat.mul_le_mul (Nat.mul_le_mul_left 4 positive) large

/-- At seventeen places below its magnitude a number has a decimal that is nearest to it. -/
lemma nearest_neighbour (parts : IsParts significand exponent) : let interval := around significand exponent
    Nearest significand exponent (interval.neighbours (interval.magnitude - 17)).1.value := by
  intro interval
  have unit : 0 < interval.unit := around_unit_pos significand exponent
  have large : interval.unit ≤ interval.middle * Nat.pow 10 350 :=
    unit_le_middle positive parts.least (by decide +kernel)
  have close := neighbours_near unit (interval.magnitude - 17)
  have size := magnitude_le unit large
  have middle : (interval.middle / interval.unit : ℚ) = _ := around_middle significand exponent
  have ten : (10 : ℚ) ≠ 0 := by norm_num
  have power : (0 : ℚ) < 2 ^ (exponent - 2) := by positivity
  rw [middle,zpow_sub₀ ten] at close
  rw [middle] at size
  have gap : 1 ≤ (gapBelow significand exponent : ℚ) := by simp only [gapBelow]; split <;> norm_num
  have bits : (significand : ℚ) * 2 ^ (exponent - 2) ≤ 2 ^ 53 * 2 ^ (exponent - 2) := by
    apply mul_le_mul_of_nonneg_right _ power.le
    exact_mod_cast parts.short.le
  generalize (interval.neighbours (interval.magnitude - 17)).1.value = near at close
  generalize (10 : ℚ) ^ interval.magnitude = ten at close size
  have low : (4 * significand - gapBelow significand exponent : ℚ) * 2 ^ (exponent - 2) < near := by
    generalize (2 : ℚ) ^ (exponent - 2) = unit at close size bits power
    norm_num at close bits
    nlinarith [close.2]
  have high : near < (4 * significand + 2) * 2 ^ (exponent - 2) := by
    generalize (2 : ℚ) ^ (exponent - 2) = unit at close size bits power
    norm_num at close bits
    nlinarith [close.1]
  exact ⟨low.le,high.le,.inr ⟨low,high⟩⟩

lemma search_nearest (tries : Nat) (power : Int) (last : Nearest significand exponent
    ((around significand exponent).neighbours (power - tries)).1.value) :
    Nearest significand exponent ((around significand exponent).search power tries).value := by
  induction tries generalizing power with
  | zero => simpa [search] using last
  | succ tries ih =>
    simp only [search]
    split
    · next held => exact contains_around positive held
    · split
      · next held => exact contains_around positive held
      · apply ih
        rwa [show power - 1 - tries = power - (tries + 1 : Nat) by push_cast; ring]

end

end Interval

lemma Decimal.value_strip (digits : Nat) (power : Int) (tries : Nat) :
    (Decimal.strip digits power tries).value = digits * 10 ^ power := by
  induction tries generalizing digits power with
  | zero => rfl
  | succ tries ih =>
    simp only [strip]
    split
    · next zero =>
      simp only [Bool.and_eq_true,beq_iff_eq] at zero
      have whole : (digits : ℚ) = (digits / 10 : Nat) * 10 := by
        exact_mod_cast (Nat.div_mul_cancel (Nat.dvd_of_mod_eq_zero zero.2)).symm
      rw [ih,whole,zpow_add_one₀ (by norm_num)]
      ring
    · rfl

lemma shortest_nearest (x : Number) (nonzero : x.significand ≠ 0) :
    Nearest x.significand x.exponent x.shortest.value := by
  have positive : 0 < x.significand := Nat.pos_of_ne_zero nonzero
  simp only [shortest,if_neg nonzero,Decimal.value_strip]
  exact Interval.search_nearest positive 17 _ (Interval.nearest_neighbour positive x.isParts)

/-! Reading. -/

lemma two_pow_le_ten_pow (n : Nat) : (2 : ℚ) ^ (3 * n) ≤ 10 ^ n := by
  rw [pow_mul]
  exact pow_le_pow_left₀ (by norm_num) (by norm_num) n

variable {digits : Nat}

lemma decimal_size (positive : 0 < significand) (least : -1074 ≤ exponent) (large : exponent ≤ 971)
    (short : significand < 2 ^ 53) (near : Nearest significand exponent (digits * 10 ^ power)) :
    0 < digits ∧ -400 ≤ (Nat.toDigits 10 digits).length + power ∧ (Nat.toDigits 10 digits).length + power ≤ 400 := by
  have unit : (0 : ℚ) < 2 ^ (exponent - 2) := by positivity
  have ten : (0 : ℚ) < 10 ^ power := by positivity
  have one : (1 : ℚ) ≤ significand := by exact_mod_cast positive
  have bits : (significand : ℚ) + 1 ≤ 2 ^ 53 := by exact_mod_cast short
  have gap : (gapBelow significand exponent : ℚ) ≤ 2 := by simp only [gapBelow]; split <;> norm_num
  have low : (2 : ℚ) ^ (exponent - 2) ≤ digits * 10 ^ power := by
    refine le_trans ?_ near.low
    nlinarith
  have high : (digits * 10 ^ power : ℚ) ≤ 2 ^ 55 * 2 ^ (exponent - 2) := by
    refine near.high.trans ?_
    nlinarith
  have some : 0 < digits := by
    by_contra none
    obtain rfl : digits = 0 := by omega
    simp at low
    linarith
  have grows {i j : Int} (le : i ≤ j) : (2 : ℚ) ^ i ≤ 2 ^ j := zpow_le_zpow_right₀ one_le_two le
  have tens {i j : Int} (le : i ≤ j) : (10 : ℚ) ^ i ≤ 10 ^ j := zpow_le_zpow_right₀ (by norm_num) le
  refine ⟨some,?_,?_⟩
  · by_contra less
    have above : (digits : ℚ) < 10 ^ (Nat.toDigits 10 digits).length := by exact_mod_cast lt_pow_length_toDigits digits
    have : (digits * 10 ^ power : ℚ) < 2 ^ (exponent - 2) :=
      calc (digits * 10 ^ power : ℚ) < 10 ^ (Nat.toDigits 10 digits).length * 10 ^ power :=
            mul_lt_mul_of_pos_right above ten
        _ = 10 ^ ((Nat.toDigits 10 digits).length + power) := by rw [zpow_add₀ (by norm_num),zpow_natCast]
        _ ≤ 10 ^ (-(401 : Nat) : Int) := tens (by omega)
        _ ≤ 2 ^ (-((3 * 401 : Nat) : Int)) := by
            rw [zpow_neg,zpow_neg,zpow_natCast,zpow_natCast]
            exact inv_anti₀ (by positivity) (two_pow_le_ten_pow 401)
        _ ≤ 2 ^ (exponent - 2) := grows (by omega)
    exact absurd low (not_le.2 this)
  · by_contra more
    obtain ⟨n,size⟩ : ∃ n, (Nat.toDigits 10 digits).length = n + 1 := Nat.exists_eq_add_one.2 Nat.length_toDigits_pos
    have below : (10 : ℚ) ^ n ≤ digits := by
      have := pow_length_toDigits_le some
      rw [size] at this
      exact_mod_cast this
    have : (2 : ℚ) ^ 55 * 2 ^ (exponent - 2) < digits * 10 ^ power :=
      calc (2 : ℚ) ^ 55 * 2 ^ (exponent - 2) = 2 ^ (55 + (exponent - 2)) := by rw [zpow_add₀ two_ne_zero]; rfl
        _ < 2 ^ ((3 * 400 : Nat) : Int) := zpow_lt_zpow_right₀ one_lt_two (by omega)
        _ ≤ 10 ^ ((400 : Nat) : Int) := by rw [zpow_natCast,zpow_natCast]; exact two_pow_le_ten_pow 400
        _ ≤ 10 ^ (n + power) := tens (by omega)
        _ = 10 ^ n * 10 ^ power := by rw [zpow_add₀ (by norm_num),zpow_natCast]
        _ ≤ digits * 10 ^ power := mul_le_mul_of_nonneg_right below ten.le
    exact absurd high (not_le.2 this)

lemma ofDecimal_of_nearest (x : Number) (negative : Bool) (finite : x.isFinite)
    (nonzero : x.significand ≠ 0) (near : Nearest x.significand x.exponent (digits * 10 ^ power)) :
    ofDecimal negative digits power = ofParts negative x.magnitude := by
  have parts := x.isParts
  have fits := magnitude_lt x finite
  have positive : 0 < x.significand := Nat.pos_of_ne_zero nonzero
  rw [magnitude_eq] at fits ⊢
  have large : x.exponent ≤ 971 := by
    have := parts.full; have := parts.least; omega
  obtain ⟨some,low,high⟩ := decimal_size positive parts.least large parts.short near
  simp only [ofDecimal,Nat.pow_eq]
  rw [if_neg (by simp; omega),if_neg (by omega)]
  split
  · next whole =>
    obtain ⟨n,rfl⟩ := Int.eq_ofNat_of_zero_le whole
    apply ofQuotient_of_nearest negative (by positivity) one_pos parts fits
    simpa using near
  · next whole =>
    obtain ⟨n,rfl⟩ : ∃ n : Nat, power = -(n : Int) := ⟨power.natAbs,by omega⟩
    apply ofQuotient_of_nearest negative some (by positivity) parts fits
    simpa [zpow_neg,div_eq_mul_inv] using near

end Resumable.Number
