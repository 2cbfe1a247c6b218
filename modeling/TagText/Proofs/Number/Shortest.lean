import TagText.Number.Shortest
import TagText.Proofs.Number.Rounding

/-!
The shortest decimal of a magnitude is read back as it. Every grid checks its own hits, and behind
the last grid stands the magnitude itself.
-/

namespace TagText.Binary64

/-- The magnitude of a rank. -/
def magnitude (rank : Nat) : ℚ := significand rank * 2 ^ exponent rank

theorem significand_pos {rank : Nat} (hrank : rank ≠ 0) : 0 < significand rank := by
  have hbinade : 0 < binade := by decide
  rw [significand]
  split <;> omega

theorem magnitude_pos {rank : Nat} (hrank : rank ≠ 0) : 0 < magnitude rank := by
  have hpos : (0 : ℚ) < significand rank := by exact_mod_cast significand_pos hrank
  exact mul_pos hpos (zpow_pos (by decide) _)

theorem scaleNear_magnitude {rank : Nat} (hrank : rank ≠ 0) :
    scaleNear (magnitude rank) = exponent rank := by
  have hpos := magnitude_pos hrank
  have htwo : (2 : ℚ) ≠ 0 := by decide
  rw [scaleNear]
  by_cases hlow : rank < binade
  · have hexponent : exponent rank = -1074 := if_pos hlow
    have hsignificand : significand rank = rank := if_pos hlow
    have hbound : magnitude rank < 2 ^ (-1022 : Int) := by
      have hsmall : (significand rank : ℚ) < 2 ^ (52 : Int) := by
        rw [hsignificand]
        exact_mod_cast hlow
      calc magnitude rank < 2 ^ (52 : Int) * 2 ^ exponent rank :=
            mul_lt_mul_of_pos_right hsmall (zpow_pos (by decide) _)
        _ = 2 ^ (-1022 : Int) := by rw [hexponent, ← zpow_add₀ htwo]; rfl
    have hlog := (Int.lt_zpow_iff_log_lt (b := 2) (by decide) hpos).mp hbound
    omega
  · have hexponent : exponent rank = (rank / binade : Nat) - 1075 := if_neg hlow
    have hsignificand : significand rank = rank % binade + binade := if_neg hlow
    have hlowBound : (2 : ℚ) ^ (52 + exponent rank) ≤ magnitude rank := by
      have hlarge : (2 : ℚ) ^ (52 : Int) ≤ significand rank := by
        rw [hsignificand]
        exact_mod_cast Nat.le_add_left _ _
      rw [zpow_add₀ htwo]
      exact mul_le_mul_of_nonneg_right hlarge (zpow_pos (by decide) _).le
    have hhighBound : magnitude rank < (2 : ℚ) ^ (53 + exponent rank) := by
      have hsmall : (significand rank : ℚ) < 2 ^ (53 : Int) := by
        have hmod : rank % binade < binade := Nat.mod_lt _ (by decide)
        have hbinade : 2 * binade = 2 ^ 53 := by decide
        have hnat : significand rank < 2 ^ 53 := by omega
        exact_mod_cast hnat
      rw [zpow_add₀ htwo]
      exact mul_lt_mul_of_pos_right hsmall (zpow_pos (by decide) _)
    have hlogLow := (Int.zpow_le_iff_le_log (b := 2) (by decide) hpos).mp hlowBound
    have hlogHigh := (Int.lt_zpow_iff_log_lt (b := 2) (by decide) hpos).mp hhighBound
    have hdiv : 1 ≤ rank / binade := (Nat.one_le_div_iff (by decide)).mpr (Nat.not_lt.mp hlow)
    omega

theorem roundHalfEven_natCast (n : Nat) : roundHalfEven (n : ℚ) = n := by
  rw [roundHalfEven, Nat.floor_natCast]
  simp

/-- Every magnitude has the rank that it was numbered with. -/
theorem rankNear_magnitude {rank : Nat} (hrank : rank ≠ 0) : rankNear (magnitude rank) = rank := by
  have hquotient : magnitude rank / 2 ^ exponent rank = significand rank :=
    mul_div_cancel_right₀ _ (zpow_ne_zero _ (by decide))
  rw [rankNear, scaleNear_magnitude hrank, hquotient, roundHalfEven_natCast, exponent, significand]
  split
  · simp
  · rename_i hlow
    have hdiv : 1 ≤ rank / binade := (Nat.one_le_div_iff (by decide)).mpr (Nat.not_lt.mp hlow)
    have hscale : ((rank / binade : Nat) - 1075 + 1074 : Int).toNat = rank / binade - 1 := by omega
    have hsplit := Nat.div_add_mod rank binade
    rw [hscale, Nat.sub_mul, Nat.one_mul]
    have hle : binade ≤ rank / binade * binade := Nat.le_mul_of_pos_left _ hdiv
    rw [Nat.mul_comm] at hsplit
    omega

/-- A decimal that is read as the magnitude of a rank. -/
def ReadsAs (rank : Nat) (digits : Nat) (scale : Int) : Prop :=
  digits ≠ 0 ∧ rankNear (digits * 10 ^ scale) = rank

theorem readsAs_of_ofDecimal {rank digits : Nat} {scale : Int} (hrank : rank ≠ 0)
    (hreads : (match ofDecimal false digits scale with
      | finite _ r => r.val == rank
      | _ => false) = true) : ReadsAs rank digits scale := by
  have hdigits : digits ≠ 0 := by
    rintro rfl
    have hzero : 0 = rank := by simpa [ofDecimal, ofRank] using hreads
    exact hrank hzero.symm
  refine ⟨hdigits, ?_⟩
  rw [ofDecimal_eq false hdigits, ofRank] at hreads
  split at hreads
  · rename_i heq
    split at heq
    · cases heq
      simpa using hreads
    · cases heq
  · cases hreads

theorem readsAs_of_eq_magnitude {rank digits : Nat} {scale : Int} (hrank : rank ≠ 0)
    (hvalue : (digits : ℚ) * 10 ^ scale = magnitude rank) : ReadsAs rank digits scale := by
  refine ⟨?_, by rw [hvalue, rankNear_magnitude hrank]⟩
  rintro rfl
  have hpos := magnitude_pos hrank
  rw [← hvalue, Nat.cast_zero, zero_mul] at hpos
  exact absurd hpos (lt_irrefl 0)

theorem readsAs_of_onGrid? {rank digits : Nat} {unit : Int} (hrank : rank ≠ 0)
    (hgrid : onGrid? rank unit = some digits) : ReadsAs rank digits unit := by
  have hround : ∀ num den, roundEven num den = num / den ∨ roundEven num den = num / den + 1 := by
    intro num den
    have hparity := Nat.mod_two_eq_zero_or_one (num / den)
    simp only [roundEven]
    split_ifs <;> omega
  simp only [onGrid?] at hgrid
  generalize inUnits (ratio rank).1 (ratio rank).2 unit = quotient at hgrid
  split at hgrid
  · rename_i hbelow habove
    obtain rfl := Option.some.inj hgrid
    rcases hround quotient.1 quotient.2 with heven | heven
    · rw [heven]
      exact readsAs_of_ofDecimal hrank hbelow
    · rw [heven]
      exact readsAs_of_ofDecimal hrank habove
  · rename_i hbelow _
    obtain rfl := Option.some.inj hgrid
    exact readsAs_of_ofDecimal hrank hbelow
  · rename_i _ habove
    obtain rfl := Option.some.inj hgrid
    exact readsAs_of_ofDecimal hrank habove
  · cases hgrid

theorem readsAs_onGrids {rank : Nat} (hrank : rank ≠ 0) (leading : Int) (grids count : Nat) :
    ReadsAs rank (onGrids rank leading grids count).1 (onGrids rank leading grids count).2 := by
  induction grids generalizing count with
  | zero =>
    rw [onGrids]
    apply readsAs_of_eq_magnitude hrank
    rw [magnitude]
    generalize exponent rank = q
    cases q with
    | ofNat n =>
      rw [Int.ofNat_eq_natCast, if_pos (Int.natCast_nonneg n), zpow_zero, mul_one, zpow_natCast]
      exact_mod_cast rfl
    | negSucc n =>
      have hfive : (5 : ℚ) ^ (n + 1) * (10 ^ (n + 1))⁻¹ = (2 ^ (n + 1))⁻¹ := by
        rw [← div_eq_mul_inv, ← div_pow, ← inv_pow]
        norm_num
      rw [if_neg (by omega), zpow_negSucc, zpow_negSucc, ← hfive, ← mul_assoc]
      exact_mod_cast rfl
  | succ grids ih =>
    rw [onGrids]
    split
    · exact readsAs_of_onGrid? hrank ‹_›
    · exact ih (count + 1)

/-- The shortest decimal of a magnitude is read as it. -/
theorem readsAs_shortest {rank : Nat} (hrank : rank ≠ 0) :
    ReadsAs rank (shortest rank).1 (shortest rank).2 := by
  rw [shortest, if_neg hrank]
  exact readsAs_onGrids hrank _ 17 1

end TagText.Binary64
