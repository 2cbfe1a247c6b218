import TagText.Proofs.Number.Numerals
import TagText.Proofs.Number.Shortest

/-!
The ways to lay out a decimal. They differ in their digits and their scale and agree in their value.
-/

namespace TagText

namespace Binary64

open Numeral

/-- A text that starts with a digit, goes on with the characters of numbers, and is read as a
    decimal of a value. -/
structure LaysOut (s : Text) (value : ℚ) : Prop where
  numeric : ∀ c ∈ s, isNumeric c = true
  start : ∃ first rest, AreDigits first ∧ first ≠ [] ∧ s = digitText first ++ rest
  read : ∃ digits place, (ofDigits digits : ℚ) * 10 ^ place = value ∧
    ∀ negative, unsigned? negative s = some (.decimal negative digits place)

theorem laysOut_point {whole fraction : List Nat} (hwhole : AreDigits whole) (hne : whole ≠ [])
    (hfraction : AreDigits fraction) :
    LaysOut (digitText whole ++ '.' :: digitText fraction)
      (ofDigits (whole ++ fraction) * 10 ^ (-fraction.length : Int)) := by
  refine ⟨?_, ⟨whole, _, hwhole, hne, rfl⟩, whole ++ fraction, -fraction.length, rfl, ?_⟩
  · rw [List.forall_mem_append, List.forall_mem_cons]
    exact ⟨isNumeric_of_mem_digitText hwhole, by decide, isNumeric_of_mem_digitText hfraction⟩
  · intro negative
    have hread := unsigned?_point negative hwhole hne hfraction not_digit_of_nil (e := 0) rfl
    rwa [List.append_nil, zero_sub] at hread

theorem laysOut_exponent {digits : List Nat} (hdigits : AreDigits digits) (hne : digits ≠ [])
    (e : Int) :
    LaysOut ((digitText digits).take 1 ++ (if ((digitText digits).drop 1).isEmpty then [] else
        '.' :: (digitText digits).drop 1) ++ 'e' :: exponentText e)
      (ofDigits digits * 10 ^ (e - (digits.drop 1).length)) := by
  obtain ⟨d, fraction, rfl⟩ := List.exists_cons_of_ne_nil hne
  obtain ⟨hd, hfraction⟩ := List.forall_mem_cons.mp hdigits
  have hfirst : AreDigits [d] := List.forall_mem_singleton.mpr hd
  have hexponent := exponent?_exponentText e
  simp only [digitText, List.map_cons, List.take_succ_cons, List.take_zero, List.drop_succ_cons,
    List.drop_zero]
  refine ⟨?_, ⟨[d], _, hfirst, by simp, by simp [digitText]; rfl⟩, d :: fraction, _, rfl, ?_⟩
  · rw [List.forall_mem_append, List.forall_mem_append]
    refine ⟨⟨isNumeric_of_mem_digitText hfirst, ?_⟩,
      List.forall_mem_cons.mpr ⟨by decide, isNumeric_of_mem_exponentText e⟩⟩
    split
    · simp
    · exact List.forall_mem_cons.mpr ⟨by decide, isNumeric_of_mem_digitText hfraction⟩
  · intro negative
    cases fraction with
    | nil => simpa [digitText] using unsigned?_exponent negative hfirst (by simp) hexponent
    | cons f fraction =>
      have htail : ∀ c ∈ ('e' :: exponentText e).head?, digitValue? c = none := by
        simp only [List.head?_cons, Option.mem_def, Option.some.injEq]
        rintro c rfl
        decide
      simpa [digitText] using unsigned?_point negative hfirst (by simp) hfraction htail hexponent

/-- Digits behind a point and some zeros. -/
theorem laysOut_zeros {digits : List Nat} (hdigits : AreDigits digits) (count : Nat) :
    LaysOut ('0' :: '.' :: zeros count ++ digitText digits)
      (ofDigits digits * 10 ^ (-((count + digits.length : Nat) : Int))) := by
  have hfraction := (areDigits_replicate (Nat.succ_pos 9) count).append hdigits
  have hlaid := laysOut_point areDigits_zero (by simp) hfraction
  have hzero : Nat.digitChar 0 = '0' := rfl
  rw [digitText_append, digitText_replicate_zero, ofDigits_append, ofDigits_append,
    ofDigits_replicate_zero, List.length_append, List.length_replicate] at hlaid
  simpa [ofDigits, zeros, digitText, hzero] using hlaid

/-- Digits with a point between them. -/
theorem laysOut_inside {digits : List Nat} (hdigits : AreDigits digits) {point : Nat}
    (hpoint : 0 < point) (hlength : point < digits.length) :
    LaysOut ((digitText digits).take point ++ '.' :: (digitText digits).drop point)
      (ofDigits digits * 10 ^ (-((digits.length - point : Nat) : Int))) := by
  have hwhole : AreDigits (digits.take point) := fun d hd => hdigits d (List.mem_of_mem_take hd)
  have hfraction : AreDigits (digits.drop point) :=
    fun d hd => hdigits d (List.mem_of_mem_drop hd)
  have hne : digits.take point ≠ [] := by
    apply List.ne_nil_of_length_pos
    rw [List.length_take]
    omega
  have hlaid := laysOut_point hwhole hne hfraction
  rw [List.take_append_drop, List.length_drop] at hlaid
  simpa [digitText, List.map_take, List.map_drop] using hlaid

/-- Digits and some zeros in front of a point, with a zero behind it. -/
theorem laysOut_whole {digits : List Nat} (hdigits : AreDigits digits) (hne : digits ≠ [])
    (count : Nat) :
    LaysOut (digitText digits ++ zeros count ++ ['.', '0'])
      (ofDigits digits * 10 ^ (count : Int)) := by
  have hwhole := hdigits.append (areDigits_replicate (Nat.succ_pos 9) count)
  have hlaid := laysOut_point hwhole (by simp [hne]) areDigits_zero
  have hzero : Nat.digitChar 0 = '0' := rfl
  have hvalue : (ofDigits (digits ++ List.replicate count 0 ++ [0]) : ℚ) * 10 ^ (-1 : Int) =
      ofDigits digits * 10 ^ (count : Int) := by
    rw [ofDigits_append, ofDigits_append, ofDigits_replicate_zero, List.length_replicate]
    simp [ofDigits, mul_assoc]
  rw [List.length_singleton, Nat.cast_one, hvalue] at hlaid
  simpa [zeros, digitText, hzero] using hlaid

/-- How a decimal is laid out does not change its value. -/
theorem laysOut_layout {digits : List Nat} (hdigits : AreDigits digits) (hne : digits ≠ [])
    (scale : Int) : LaysOut (layout (digitText digits) scale) (ofDigits digits * 10 ^ scale) := by
  have hlength := List.length_pos_of_ne_nil hne
  rw [layout, length_digitText]
  split
  · split
    · rename_i hpoint
      obtain ⟨count, hcount⟩ := Int.eq_ofNat_of_zero_le (Int.neg_nonneg_of_nonpos hpoint)
      have hscale : scale = -((count + digits.length : Nat) : Int) := by omega
      rw [hcount, hscale]
      exact laysOut_zeros hdigits count
    split
    · rename_i hpoint hscale
      obtain ⟨point, hplace⟩ := Int.eq_ofNat_of_zero_le (Int.not_le.mp hpoint).le
      have hvalue : scale = -((digits.length - point : Nat) : Int) := by omega
      have hpositive : 0 < point := by omega
      have hlaid := laysOut_inside hdigits hpositive (by omega)
      rwa [hplace, Int.toNat_natCast, hvalue]
    · rename_i hpoint hscale
      obtain ⟨count, rfl⟩ := Int.eq_ofNat_of_zero_le (Int.not_lt.mp hscale)
      exact laysOut_whole hdigits hne count
  · have hlaid := laysOut_exponent hdigits hne ((digits.length : Int) + scale - 1)
    have hscale : (digits.length : Int) + scale - 1 - (digits.drop 1).length = scale := by
      rw [List.length_drop]
      omega
    rw [hscale] at hlaid
    simpa [digitText] using hlaid

theorem digitChar_eq_zero_iff {d : Nat} (hd : d < 10) :
    (Nat.digitChar d == '0') = true ↔ d = 0 := by
  interval_cases d <;> decide

/-- Digits without the zeros at their end. -/
theorem exists_trimRight_digitText {digits : List Nat} (hdigits : AreDigits digits) :
    ∃ kept count, digits = kept ++ List.replicate count 0 ∧
      Text.trimRight (· == '0') (digitText digits) = digitText kept := by
  have hsplit :=
    List.takeWhile_append_dropWhile (p := (· == '0') ∘ Nat.digitChar) (l := digits.reverse)
  have hzeros : ∀ d ∈ (digits.reverse.takeWhile ((· == '0') ∘ Nat.digitChar)).reverse, d = 0 := by
    intro d hd
    have hmem := List.mem_reverse.mp hd
    have hdigit := hdigits d (List.mem_reverse.mp ((List.takeWhile_sublist _).subset hmem))
    exact (digitChar_eq_zero_iff hdigit).mp (List.all_eq_true.mp List.all_takeWhile d hmem)
  refine ⟨(digits.reverse.dropWhile ((· == '0') ∘ Nat.digitChar)).reverse,
    (digits.reverse.takeWhile ((· == '0') ∘ Nat.digitChar)).reverse.length, ?_, ?_⟩
  · rw [← List.eq_replicate_of_mem hzeros, ← List.reverse_append, hsplit, List.reverse_reverse]
  · rw [Text.trimRight, digitText, digitText, ← List.map_reverse, List.dropWhile_map,
      List.map_reverse]

theorem laysOut_magnitudeText (rank : Nat) :
    LaysOut (magnitudeText rank) ((shortest rank).1 * 10 ^ (shortest rank).2) := by
  cases hshortest : shortest rank with
  | mk n scale =>
    simp only [magnitudeText, hshortest]
    by_cases hzero : n = 0
    · have hlaid := laysOut_point areDigits_zero (by simp) areDigits_zero
      have hnone : (ofDigits ([0] ++ [0]) : ℚ) * 10 ^ (-(List.length [0] : Int)) = 0 := by
        simp [ofDigits]
      rw [hnone] at hlaid
      rw [if_pos hzero, hzero, Nat.cast_zero, zero_mul]
      exact hlaid
    · have hdigits := areDigits_digitsOf n
      have hvalue := ofDigits_digitsOf n
      obtain ⟨kept, count, hkept, htrim⟩ := exists_trimRight_digitText hdigits
      rw [hkept, ofDigits_append, ofDigits_replicate_zero, List.length_replicate, Nat.add_zero]
        at hvalue
      have hne : kept ≠ [] := by
        rintro rfl
        exact hzero (by rw [← hvalue, ofDigits, List.foldl_nil, Nat.zero_mul])
      have hplace : scale + (digitText (digitsOf n)).length - (digitText kept).length =
          scale + count := by
        rw [length_digitText, length_digitText, hkept, List.length_append, List.length_replicate]
        omega
      have hlaid := laysOut_layout (fun d hd => hdigits d (by simp [hkept, hd])) hne (scale + count)
      rw [if_neg hzero, decimal_eq, htrim, hplace]
      convert hlaid using 1
      rw [zpow_add₀ (by decide), zpow_natCast, ← hvalue]
      push_cast
      ring

end Binary64

end TagText
