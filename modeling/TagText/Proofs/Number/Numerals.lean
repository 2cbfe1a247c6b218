import TagText.Number.Shortest
import TagText.Proofs.Number.Digits

/-!
Reading numerals that are made of digits, with a point and an exponent or without.
-/

namespace TagText

namespace Numeral

/-- Reads a whole text without a sign as a number of a sign. -/
def unsigned? (negative : Bool) (s : Text) : Option Numeral :=
  let (whole, rest) := leadingDigits s
  match rest with
  | [] => if whole.isEmpty then none else some (.integer negative whole)
  | '.' :: rest =>
    let (fraction, rest) := leadingDigits rest
    if whole.isEmpty && fraction.isEmpty then none
    else (exponent? rest).map fun e => .decimal negative (whole ++ fraction) (e - fraction.length)
  | rest =>
    if whole.isEmpty then none
    else (exponent? rest).map fun e => .decimal negative whole e

theorem ofText?_eq (s : Text) : ofText? s = unsigned? (sign s).1 (sign s).2 := rfl

theorem digitText_ne_sign {digits : List Nat} (hdigits : AreDigits digits) :
    ∀ c ∈ digitText digits, c ≠ '-' ∧ c ≠ '+' := by
  intro c hc
  obtain ⟨d, hd, rfl⟩ := List.mem_map.mp hc
  have hlt := hdigits d hd
  interval_cases d <;> decide

/-- A text that starts with a digit has no sign. -/
theorem sign_digitText {digits : List Nat} (hdigits : AreDigits digits) (hne : digits ≠ [])
    (tail : Text) : sign (digitText digits ++ tail) = (false, digitText digits ++ tail) := by
  obtain ⟨d, digits, rfl⟩ := List.exists_cons_of_ne_nil hne
  obtain ⟨hminus, hplus⟩ := digitText_ne_sign hdigits (Nat.digitChar d) (by simp [digitText])
  simp only [digitText, List.map_cons, List.cons_append]
  unfold sign
  split
  · simp_all
  · simp_all
  · rfl

theorem unsigned?_digitText (negative : Bool) {digits : List Nat} (hdigits : AreDigits digits)
    (hne : digits ≠ []) :
    unsigned? negative (digitText digits) = some (.integer negative digits) := by
  have hread := leadingDigits_digitText hdigits not_digit_of_nil
  rw [List.append_nil] at hread
  simp [unsigned?, hread, hne]

theorem unsigned?_point (negative : Bool) {whole fraction : List Nat} (hwhole : AreDigits whole)
    (hne : whole ≠ []) (hfraction : AreDigits fraction) {tail : Text}
    (htail : ∀ c ∈ tail.head?, digitValue? c = none) {e : Int} (he : exponent? tail = some e) :
    unsigned? negative (digitText whole ++ '.' :: (digitText fraction ++ tail)) =
      some (.decimal negative (whole ++ fraction) (e - fraction.length)) := by
  have hpoint : ∀ c ∈ ('.' :: (digitText fraction ++ tail)).head?, digitValue? c = none := by
    simp only [List.head?_cons, Option.mem_def, Option.some.injEq]
    rintro c rfl
    decide
  rw [unsigned?, leadingDigits_digitText hwhole hpoint]
  simp [leadingDigits_digitText hfraction htail, he, hne]

theorem unsigned?_exponent (negative : Bool) {whole : List Nat} (hwhole : AreDigits whole)
    (hne : whole ≠ []) {tail : Text} {e : Int} (he : exponent? ('e' :: tail) = some e) :
    unsigned? negative (digitText whole ++ 'e' :: tail) = some (.decimal negative whole e) := by
  have hletter : ∀ c ∈ ('e' :: tail).head?, digitValue? c = none := by
    simp only [List.head?_cons, Option.mem_def, Option.some.injEq]
    rintro c rfl
    decide
  rw [unsigned?, leadingDigits_digitText hwhole hletter]
  simp [he, hne]

/-- The digits of a written exponent. -/
def exponentDigits (e : Int) : List Nat :=
  List.replicate (2 - (digitsOf e.natAbs).length) 0 ++ digitsOf e.natAbs

theorem areDigits_exponentDigits (e : Int) : AreDigits (exponentDigits e) :=
  (areDigits_replicate (Nat.succ_pos 9) _).append (areDigits_digitsOf _)

theorem exponentText_eq (e : Int) :
    Binary64.exponentText e = (if e < 0 then '-' else '+') :: digitText (exponentDigits e) := by
  rw [Binary64.exponentText, decimal_eq, exponentDigits, digitText_append, digitText_replicate_zero,
    length_digitText]

theorem isNumeric_of_mem_exponentText (e : Int) :
    ∀ c ∈ Binary64.exponentText e, isNumeric c = true := by
  rw [exponentText_eq]
  refine List.forall_mem_cons.mpr ⟨?_, isNumeric_of_mem_digitText (areDigits_exponentDigits e)⟩
  split <;> decide

theorem exponent?_exponentText (e : Int) :
    exponent? ('e' :: Binary64.exponentText e) = some e := by
  have hsign : sign (Binary64.exponentText e) = (decide (e < 0), digitText (exponentDigits e)) := by
    rw [exponentText_eq]
    split <;> simp_all [sign]
  have hread := leadingDigits_digitText (areDigits_exponentDigits e) not_digit_of_nil
  have hvalue : ofDigits (exponentDigits e) = e.natAbs := by
    rw [exponentDigits, ofDigits_append, ofDigits_replicate_zero, ofDigits_digitsOf, Nat.zero_mul,
      Nat.zero_add]
  have hne : exponentDigits e ≠ [] := by simp [exponentDigits, digitsOf_ne_nil]
  obtain ⟨d, digits, hdigits⟩ := List.exists_cons_of_ne_nil hne
  rw [List.append_nil] at hread
  rw [hdigits] at hread hvalue hsign
  simp only [exponent?, hsign, hread, hvalue]
  by_cases he : e < 0
  · have habs : -(e.natAbs : Int) = e := by omega
    simp only [he, decide_true, if_true, habs]
    rfl
  · have habs : (e.natAbs : Int) = e := by omega
    simp only [he, decide_false, Bool.false_eq_true, if_false, habs]
    rfl

end Numeral


end TagText
