import Mathlib.Data.Int.Log
import Mathlib.Data.Rat.Floor
import Mathlib.Tactic.FieldSimp
import Mathlib.Tactic.Positivity
import TagText.Number.Rounding

/-!
What number a decimal is rounded to depends on its value and not on how it is written. The reference
is a rounding of rational numbers.
-/

namespace TagText.Binary64

/-- The natural number nearest to a rational one, the even one when two are equally near. -/
def roundHalfEven (x : ℚ) : Nat :=
  let below := ⌊x⌋₊
  if 2 * (x - below) < 1 then below
  else if 1 < 2 * (x - below) then below + 1
  else below + below % 2

/-- The exponent of the significand of a positive rational number. -/
def scaleNear (x : ℚ) : Int := max (-1074) (Int.log 2 x - 52)

/-- The rank of the magnitude nearest to a positive rational number. -/
def rankNear (x : ℚ) : Nat :=
  (scaleNear x + 1074).toNat * binade + roundHalfEven (x / 2 ^ scaleNear x)

theorem roundEven_eq (num : Nat) {den : Nat} (hden : 0 < den) :
    roundEven num den = roundHalfEven ((num : ℚ) / den) := by
  have hden' : (0 : ℚ) < den := by exact_mod_cast hden
  have hfloor : ⌊(num : ℚ) / den⌋₊ = num / den := Rat.natFloor_natCast_div_natCast num den
  have hrest : (num : ℚ) / den - (num / den : Nat) = (num % den : Nat) / den := by
    have hsplit : (den : ℚ) * (num / den : Nat) + (num % den : Nat) = num := by
      exact_mod_cast Nat.div_add_mod num den
    field_simp
    linarith
  have hbelow : 2 * (num % den) < den ↔ 2 * (((num % den : Nat) : ℚ) / den) < 1 := by
    rw [← mul_div_assoc, div_lt_one hden']
    exact_mod_cast Iff.rfl
  have habove : den < 2 * (num % den) ↔ 1 < 2 * (((num % den : Nat) : ℚ) / den) := by
    rw [← mul_div_assoc, one_lt_div hden']
    exact_mod_cast Iff.rfl
  simp only [roundEven, roundHalfEven, hfloor, hrest, hbelow, habove]

/-- Comparing a power with a quotient takes whole numbers only. -/
theorem pow_le_div_iff {base den : Nat} (hbase : 0 < base) (num : Nat) (hden : 0 < den) (e : Int) :
    (if 0 ≤ e then den * Nat.pow base e.toNat ≤ num else den ≤ num * Nat.pow base (-e).toNat) ↔
      (base : ℚ) ^ e ≤ (num : ℚ) / den := by
  have hbase' : (0 : ℚ) < base := by exact_mod_cast hbase
  have hden' : (0 : ℚ) < den := by exact_mod_cast hden
  rw [le_div_iff₀ hden']
  cases e with
  | ofNat n =>
    rw [Int.ofNat_eq_natCast, if_pos (Int.natCast_nonneg n), zpow_natCast, mul_comm den]
    exact_mod_cast Iff.rfl
  | negSucc n =>
    rw [if_neg (by omega), Int.neg_negSucc, zpow_negSucc, inv_mul_le_iff₀ (by positivity),
      mul_comm num]
    exact_mod_cast Iff.rfl

theorem log2_bounds {num den : Nat} (hnum : 0 < num) (hden : 0 < den) :
    (2 : ℚ) ^ ((num.log2 : Int) - (den.log2 + 1)) ≤ num / den ∧
      (num : ℚ) / den < 2 ^ ((num.log2 : Int) + 1 - den.log2) := by
  have hnum' : (0 : ℚ) < num := by exact_mod_cast hnum
  have hden' : (0 : ℚ) < den := by exact_mod_cast hden
  have htwo : (2 : ℚ) ≠ 0 := by decide
  have hnumLow : (2 : ℚ) ^ (num.log2 : Int) ≤ num := by exact_mod_cast Nat.log2_self_le hnum.ne'
  have hnumHigh : (num : ℚ) < 2 ^ ((num.log2 : Int) + 1) := by
    exact_mod_cast Nat.lt_log2_self (n := num)
  have hdenLow : (2 : ℚ) ^ (den.log2 : Int) ≤ den := by exact_mod_cast Nat.log2_self_le hden.ne'
  have hdenHigh : (den : ℚ) < 2 ^ ((den.log2 : Int) + 1) := by
    exact_mod_cast Nat.lt_log2_self (n := den)
  rw [zpow_sub₀ htwo, zpow_sub₀ htwo]
  constructor
  · exact div_le_div₀ hnum'.le hnumLow hden' hdenHigh.le
  · exact div_lt_div₀ hnumHigh hdenLow (hnum'.trans hnumHigh).le (zpow_pos (by decide) _)

theorem scaleOf_eq {num den : Nat} (hnum : 0 < num) (hden : 0 < den) :
    scaleOf num den = scaleNear ((num : ℚ) / den) := by
  have hratio : (0 : ℚ) < num / den := by positivity
  obtain ⟨hlow, hhigh⟩ := log2_bounds hnum hden
  have hlogLow := (Int.zpow_le_iff_le_log (b := 2) (by decide) hratio).mp hlow
  have hlogHigh := (Int.lt_zpow_iff_log_lt (b := 2) (by decide) hratio).mp hhigh
  have hreaches := pow_le_div_iff Nat.two_pos num hden
    ((num.log2 : Int) - den.log2)
  rw [Int.zpow_le_iff_le_log (by decide) hratio] at hreaches
  rw [scaleOf, scaleNear]
  simp only [hreaches]
  congr 1
  split <;> omega

/-- The rank nearest to a quotient goes by its value. -/
theorem nearestRank_eq {num den : Nat} (hnum : 0 < num) (hden : 0 < den) :
    nearestRank num den = rankNear ((num : ℚ) / den) := by
  have hden' : (den : ℚ) ≠ 0 := by exact_mod_cast hden.ne'
  rw [nearestRank, rankNear, scaleOf_eq hnum hden]
  congr 1
  generalize scaleNear ((num : ℚ) / den) = q
  cases q with
  | ofNat n =>
    have hpower : 0 < den * Nat.pow 2 n := Nat.mul_pos hden (Nat.two_pow_pos n)
    have hcast : ((den * Nat.pow 2 n : Nat) : ℚ) = den * 2 ^ n := by exact_mod_cast rfl
    rw [Int.ofNat_eq_natCast, if_pos (Int.natCast_nonneg n), Int.toNat_natCast, zpow_natCast,
      roundEven_eq num hpower, hcast, div_mul_eq_div_div]
  | negSucc n =>
    have hcast : ((num * Nat.pow 2 (n + 1) : Nat) : ℚ) = num * 2 ^ (n + 1) := by exact_mod_cast rfl
    have hneg : (-Int.negSucc n).toNat = n + 1 := rfl
    rw [if_neg (by omega), hneg, roundEven_eq _ hden, hcast, zpow_negSucc, div_inv_eq_mul,
      mul_div_right_comm]

theorem ofRank_of_le {negative : Bool} {rank : Nat} (hrank : 2047 * binade ≤ rank) :
    ofRank negative rank = infinite negative :=
  dif_neg (Nat.not_lt.mpr hrank)

/-- A value beyond all magnitudes has a rank beyond all ranks. -/
theorem le_rankNear {x : ℚ} (hx : (2 : ℚ) ^ (1025 : Int) ≤ x) : 2047 * binade ≤ rankNear x := by
  have hpos : 0 < x := lt_of_lt_of_le (zpow_pos (by decide) _) hx
  have hlog := (Int.zpow_le_iff_le_log (b := 2) (by decide) hpos).mp hx
  have hscale : 2047 ≤ (scaleNear x + 1074).toNat := by
    rw [scaleNear]
    omega
  exact (Nat.mul_le_mul_right binade hscale).trans (Nat.le_add_right _ _)

/-- A value below half of the smallest magnitude has the rank of zero. -/
theorem rankNear_eq_zero {x : ℚ} (hpos : 0 < x) (hx : x < (2 : ℚ) ^ (-1075 : Int)) :
    rankNear x = 0 := by
  have hlog := (Int.lt_zpow_iff_log_lt (b := 2) (by decide) hpos).mp hx
  have hscale : scaleNear x = -1074 := by
    rw [scaleNear]
    omega
  have hhalf : 2 * (x / 2 ^ (-1074 : Int)) < 1 := by
    rw [← mul_div_assoc, div_lt_one (zpow_pos (by decide) _)]
    calc 2 * x < 2 * 2 ^ (-1075 : Int) := by linarith
      _ = 2 ^ (-1074 : Int) := by rw [← zpow_one_add₀ (by decide)]; rfl
  have hfloor : ⌊x / 2 ^ (-1074 : Int)⌋₊ = 0 := Nat.floor_eq_zero.mpr (by linarith)
  have hround : roundHalfEven (x / 2 ^ (-1074 : Int)) = 0 := by
    rw [roundHalfEven, hfloor, Nat.cast_zero, sub_zero, if_pos hhalf]
  rw [rankNear, hscale, hround]
  rfl

/-- A decimal with a large scale lies beyond all magnitudes. -/
theorem le_decimal {digits : Nat} (hdigits : digits ≠ 0) {scale : Int} (hscale : 310 < scale) :
    (2 : ℚ) ^ (1025 : Int) ≤ digits * 10 ^ scale := by
  have hone : (1 : ℚ) ≤ digits := by exact_mod_cast Nat.pos_of_ne_zero hdigits
  have hten : (0 : ℚ) < (10 : ℚ) ^ scale := zpow_pos (by decide) _
  calc (2 : ℚ) ^ (1025 : Int) ≤ 10 ^ (311 : Int) := by
        have hnat : 2 ^ 1025 ≤ 10 ^ 311 := by decide +kernel
        exact_mod_cast hnat
    _ ≤ 10 ^ scale := zpow_le_zpow_right₀ (by decide) (by omega)
    _ ≤ digits * 10 ^ scale := le_mul_of_one_le_left hten.le hone

/-- A decimal with a small scale lies below half of the smallest magnitude. -/
theorem decimal_lt {digits : Nat} {scale : Int} (hscale : scale + digits.log2 < -330) :
    (digits : ℚ) * 10 ^ scale < 2 ^ (-1075 : Int) := by
  have hten : (0 : ℚ) < (10 : ℚ) ^ scale := zpow_pos (by decide) _
  have hbits : (digits : ℚ) < 2 * 10 ^ (digits.log2 : Int) := by
    have hnat : digits < 2 * 10 ^ digits.log2 :=
      calc digits < 2 ^ (digits.log2 + 1) := Nat.lt_log2_self
        _ = 2 * 2 ^ digits.log2 := Nat.pow_succ'
        _ ≤ 2 * 10 ^ digits.log2 := Nat.mul_le_mul_left 2 (Nat.pow_le_pow_left (by decide) _)
    exact_mod_cast hnat
  have hpowers : (2 : ℚ) * 10 ^ (-331 : Int) ≤ 2 ^ (-1075 : Int) := by
    have hnat : 2 * 2 ^ 1075 ≤ 10 ^ 331 := by decide +kernel
    have hdecimal : (0 : ℚ) < 10 ^ (331 : Int) := zpow_pos (by decide) _
    have hbinary : (0 : ℚ) < 2 ^ (1075 : Int) := zpow_pos (by decide) _
    rw [zpow_neg, zpow_neg, ← div_eq_mul_inv, div_le_iff₀ hdecimal, inv_mul_eq_div,
      le_div_iff₀ hbinary]
    exact_mod_cast hnat
  calc (digits : ℚ) * 10 ^ scale < 2 * 10 ^ (digits.log2 : Int) * 10 ^ scale :=
        mul_lt_mul_of_pos_right hbits hten
    _ = 2 * 10 ^ (digits.log2 + scale) := by rw [mul_assoc, zpow_add₀ (by decide)]
    _ ≤ 2 * 10 ^ (-331 : Int) :=
      mul_le_mul_of_nonneg_left (zpow_le_zpow_right₀ (by decide) (by omega)) (by decide)
    _ ≤ 2 ^ (-1075 : Int) := hpowers

/-- A decimal is read as the number nearest to its value, also where the power is not computed. -/
theorem ofDecimal_eq (negative : Bool) {digits : Nat} (hdigits : digits ≠ 0) (scale : Int) :
    ofDecimal negative digits scale = ofRank negative (rankNear (digits * 10 ^ scale)) := by
  have hpos : (0 : ℚ) < digits := by exact_mod_cast Nat.pos_of_ne_zero hdigits
  have hten : (0 : ℚ) < (10 : ℚ) ^ scale := zpow_pos (by decide) _
  rw [ofDecimal, if_neg hdigits]
  split
  · rename_i hscale
    rw [ofRank_of_le (le_rankNear (le_decimal hdigits hscale))]
  split
  · rename_i hscale
    rw [rankNear_eq_zero (mul_pos hpos hten) (decimal_lt hscale)]
  split
  · rename_i hscale
    obtain ⟨n, rfl⟩ := Int.eq_ofNat_of_zero_le hscale
    have hpower : 0 < digits * Nat.pow 10 n :=
      Nat.mul_pos (Nat.pos_of_ne_zero hdigits) (Nat.pow_pos (by decide))
    rw [Int.toNat_natCast, nearestRank_eq hpower (by decide), Nat.cast_one, div_one, zpow_natCast]
    congr 2
    exact_mod_cast rfl
  · rename_i hscale
    obtain ⟨n, hn⟩ := Int.eq_ofNat_of_zero_le (show 0 ≤ -scale by omega)
    obtain rfl : scale = -n := by omega
    have hpower : 0 < Nat.pow 10 n := Nat.pow_pos (by decide)
    rw [neg_neg, Int.toNat_natCast, nearestRank_eq (Nat.pos_of_ne_zero hdigits) hpower, zpow_neg,
      zpow_natCast, div_eq_mul_inv]
    congr 3
    exact_mod_cast rfl

end TagText.Binary64
