import TagText.Argument.Convert
import TagText.Argument.Written
import TagText.Proofs.Number.Texts

/-!
An argument is written as a text that is read back as the argument, under the type it was read
under. Infinite numbers are the exception: their text is no number.
-/

namespace TagText

theorem Text.trim_eq_self {p : Char → Bool} {s : Text} (hs : ∀ c ∈ s, p c = false) :
    s.trim p = s := by
  have hkeep : ∀ t : Text, (∀ c ∈ t, p c = false) → t.dropWhile p = t := by
    intro t ht
    cases t with
    | nil => rfl
    | cons c t => simp [ht c]
  rw [Text.trim, Text.trimLeft, hkeep s hs, Text.trimRight, hkeep s.reverse (by simpa using hs),
    List.reverse_reverse]

theorem isSpace_of_isNumeric {c : Char} (hc : isNumeric c = true) : isSpace c = false := by
  have hnot := of_isNumeric (p := fun c => !isSpace c) (by decide) hc
  simpa using hnot

theorem trim_numeric {s : Text} (hs : ∀ c ∈ s, isNumeric c = true) : s.trim isSpace = s :=
  Text.trim_eq_self fun c hc => isSpace_of_isNumeric (hs c hc)

theorem hasDecimal_iff {n : Int} : hasDecimal n = true ↔ n.natAbs < 10 ^ maxIntegerDigits := by
  rw [hasDecimal, decide_eq_true_iff, Nat.pow_eq]

/-- Whether an argument is something else than an infinite number or none. -/
def Arg.isFinite : Arg → Bool
  | float x => x.isFinite
  | _ => true

namespace Arg

/-- The text that an argument counts as when it is written. -/
def spelled : Arg → Text
  | text s => s
  | int n => decimalInt n
  | float x => x.text
  | bool b => if b then "true".toList else "false".toList
  | nothing => []

theorem ofNumberText_decimalInt {n : Int} (hn : n.natAbs < 10 ^ maxIntegerDigits) :
    ofNumberText (decimalInt n) = .ok (int n) := by
  have hlength : (digitsOf n.natAbs).length ≤ maxIntegerDigits :=
    length_digitsOf_le (by decide) hn
  simp only [ofNumberText, trim_numeric (isNumeric_of_mem_decimalInt n), Numeral.ofText?_decimalInt,
    if_pos hlength, Numeral.toInt_digitsOf]

theorem ofNumberText_text {x : Binary64} (hx : x.isFinite = true) :
    ofNumberText x.text = .ok (float x) := by
  cases x with
  | finite negative rank =>
    obtain ⟨digits, scale, htext, hvalue⟩ := Numeral.exists_ofText?_text negative rank
    simp only [ofNumberText, trim_numeric (isNumeric_of_mem_text hx), htext, hvalue]
  | infinite | nan => cases hx

theorem areDigits_ofText? {s : Text} {negative : Bool} {digits : List Nat}
    (hs : Numeral.ofText? s = some (.integer negative digits)) : AreDigits digits := by
  have hdigits := Numeral.areDigits_leadingDigits (Numeral.sign s).2
  rw [Numeral.ofText?_eq] at hs
  cases hlead : Numeral.leadingDigits (Numeral.sign s).2 with
  | mk whole rest =>
    rw [hlead] at hdigits
    simp only [Numeral.unsigned?, hlead] at hs
    split at hs
    · obtain ⟨-, -, rfl⟩ := by simpa using hs
      exact hdigits
    · simp at hs
    · simp at hs

/-- An integer that can be read is short enough to be read again. -/
theorem natAbs_lt_of_ofNumberText {raw : Text} {n : Int} (hread : ofNumberText raw = .ok (int n)) :
    n.natAbs < 10 ^ maxIntegerDigits := by
  rw [ofNumberText] at hread
  split at hread
  · rename_i negative digits hdigits
    split at hread
    · rename_i hlength
      obtain rfl : Numeral.toInt negative digits = n := by simpa using hread
      have hlt := Numeral.ofDigits_lt (areDigits_ofText? hdigits)
      have hvalue : (Numeral.toInt negative digits).natAbs = Numeral.ofDigits digits := by
        rw [Numeral.toInt]
        split <;> simp
      rw [hvalue]
      exact hlt.trans_le (Nat.pow_le_pow_right (by decide) hlength)
    · cases hread
  · cases hread
  · cases hread

/-- What is read as an argument of a type is read again from how it is written. -/
theorem ofText_spelled {type : ParamType} {raw : Text} {a : Arg} (hread : ofText type raw = .ok a)
    (ha : a.isFinite = true) : ofText type a.spelled = .ok a := by
  cases type with
  | text | choice => cases hread; rfl
  | boolean =>
    simp only [ofText] at hread
    cases htruth : truth? raw with
    | none =>
      rw [htruth] at hread
      cases hread
      simp [ofText, spelled, htruth]
    | some b =>
      rw [htruth] at hread
      cases hread
      cases b <;> rfl
  | number =>
    have hread : ofNumberText raw = .ok a := hread
    cases a with
    | int n => exact ofNumberText_decimalInt (natAbs_lt_of_ofNumberText hread)
    | float x => exact ofNumberText_text ha
    | text value =>
      obtain rfl : raw = value := by
        rw [ofNumberText] at hread
        split at hread
        · split at hread <;> cases hread
        · cases hread
        · simpa using hread
      exact hread
    | bool | nothing =>
      rw [ofNumberText] at hread
      split at hread
      · split at hread <;> cases hread
      · cases hread
      · cases hread

end Arg

end TagText
