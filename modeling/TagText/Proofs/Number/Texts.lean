import TagText.Proofs.Number.Layout

/-!
The texts of numbers are read back as the numbers.
-/

namespace TagText

theorem isNumeric_of_mem_decimalInt (n : Int) : ∀ c ∈ decimalInt n, isNumeric c = true := by
  have hdigits := isNumeric_of_mem_digitText (areDigits_digitsOf n.natAbs)
  rw [decimalInt, decimal_eq]
  split
  · exact List.forall_mem_cons.mpr ⟨by decide, hdigits⟩
  · exact hdigits

theorem isNumeric_of_mem_text {x : Binary64} (hx : x.isFinite = true) :
    ∀ c ∈ x.text, isNumeric c = true := by
  cases x with
  | finite negative rank =>
    have hmagnitude := (Binary64.laysOut_magnitudeText rank.val).numeric
    rw [Binary64.text, List.forall_mem_append]
    refine ⟨?_, hmagnitude⟩
    cases negative <;> exact List.all_eq_true.mp (by decide)
  | infinite | nan => cases hx

namespace Numeral

theorem ofText?_decimalInt (n : Int) :
    ofText? (decimalInt n) = some (.integer (decide (n < 0)) (digitsOf n.natAbs)) := by
  have hdigits := areDigits_digitsOf n.natAbs
  have hne := digitsOf_ne_nil n.natAbs
  rw [ofText?_eq, decimalInt, decimal_eq]
  split
  · rename_i hn
    simpa [sign, hn] using unsigned?_digitText true hdigits hne
  · rename_i hn
    have hsign := sign_digitText hdigits hne []
    rw [List.append_nil] at hsign
    simpa [hsign, hn] using unsigned?_digitText false hdigits hne

theorem toInt_digitsOf (n : Int) : toInt (decide (n < 0)) (digitsOf n.natAbs) = n := by
  rw [toInt, ofDigits_digitsOf]
  simp only [decide_eq_true_eq]
  split <;> omega

/-- The text of a finite number is read back as it. -/
theorem exists_ofText?_text (negative : Bool) (rank : Fin (2047 * binade)) :
    ∃ digits scale, ofText? (Binary64.finite negative rank).text =
        some (.decimal negative digits scale) ∧
      Binary64.ofDecimal negative (ofDigits digits) scale = .finite negative rank := by
  obtain ⟨-, ⟨first, rest, hfirst, hne, hstart⟩, digits, place, hvalue, hread⟩ :=
    Binary64.laysOut_magnitudeText rank.val
  refine ⟨digits, place, ?_, ?_⟩
  · rw [ofText?_eq, Binary64.text]
    cases negative with
    | true => exact hread true
    | false =>
      have hsign := sign_digitText hfirst hne rest
      rw [← hstart] at hsign
      simp only [Bool.false_eq_true, if_false, List.nil_append, hsign]
      exact hread false
  · by_cases hrank : rank.val = 0
    · have hzero : ofDigits digits = 0 := by
        rw [hrank, Binary64.shortest, if_pos rfl, Nat.cast_zero, zero_mul] at hvalue
        have hpower : (10 : ℚ) ^ place ≠ 0 := zpow_ne_zero _ (by decide)
        exact_mod_cast (mul_eq_zero.mp hvalue).resolve_right hpower
      rw [Binary64.ofDecimal, if_pos hzero, Binary64.ofRank, dif_pos (by decide)]
      congr 1
      exact Fin.ext hrank.symm
    · obtain ⟨hshortest, hnear⟩ := Binary64.readsAs_shortest hrank
      have hdigits : ofDigits digits ≠ 0 := by
        intro hzero
        rw [hzero, Nat.cast_zero, zero_mul] at hvalue
        have hpos : (0 : ℚ) < (Binary64.shortest rank.val).1 := by
          exact_mod_cast Nat.pos_of_ne_zero hshortest
        exact (mul_pos hpos (zpow_pos (by decide) _)).ne hvalue
      rw [Binary64.ofDecimal_eq _ hdigits, hvalue, hnear, Binary64.ofRank, dif_pos rank.isLt]

end Numeral

end TagText
