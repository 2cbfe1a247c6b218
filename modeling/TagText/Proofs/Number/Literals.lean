import TagText.Proofs.Lexing.Openings
import TagText.Proofs.Number.Numerals

/-!
The literals of numbers, given by their grammar: an optional sign in front of digits, and for
decimals a point or an exponent as well. A text is read as a number exactly when it is one of them,
in digits of whatever scripts.
-/

namespace TagText

namespace Literal

/-- One or more digits. -/
def Digits (s : Text) : Prop := s ≠ [] ∧ ∀ c ∈ s, isDigit c = true

/-- A sign, or nothing. -/
def Sign (s : Text) : Prop := s = [] ∨ s = ['+'] ∨ s = ['-']

/-- Digits behind an optional sign. -/
inductive Integer : Text → Prop
  | mk {front digits : Text} : Sign front → Digits digits → Integer (front ++ digits)

/-- Digits, with or without a point at an end or between them. -/
inductive Mantissa : Text → Prop
  | whole {digits : Text} : Digits digits → Mantissa digits
  | point {digits fraction : Text} : Digits digits → (∀ c ∈ fraction, isDigit c = true) →
    Mantissa (digits ++ '.' :: fraction)
  | fraction {digits : Text} : Digits digits → Mantissa ('.' :: digits)

/-- An integer behind a letter, or nothing. -/
inductive Exponent : Text → Prop
  | nil : Exponent []
  | letter {c : Char} {s : Text} : c = 'e' ∨ c = 'E' → Integer s → Exponent (c :: s)

/-- A mantissa behind an optional sign, with an optional exponent. -/
inductive Decimal : Text → Prop
  | mk {front mantissa exponent : Text} : Sign front → Mantissa mantissa → Exponent exponent →
    Decimal (front ++ (mantissa ++ exponent))

/-- The literal of a number. -/
def Number (s : Text) : Prop := Integer s ∨ Decimal s

theorem Integer.decimal {s : Text} (hs : Integer s) : Decimal s := by
  cases hs with
  | @mk front digits hfront hdigits =>
    rw [← List.append_nil digits]
    exact .mk hfront (.whole hdigits) .nil

theorem Digits.head {s : Text} (hs : Digits s) : ∃ c ∈ s.head?, isDigit c = true := by
  obtain ⟨hne, hdigits⟩ := hs
  obtain ⟨c, rest, rfl⟩ := List.exists_cons_of_ne_nil hne
  exact ⟨c, rfl, hdigits c List.mem_cons_self⟩

/-- A digit is neither a sign nor a point nor the letter of an exponent. -/
theorem isDigit_mark {c : Char} (hc : c ∈ "+-.eE".toList) : isDigit c = false := by
  have hall : ("+-.eE".toList.all fun c => !isDigit c) = true := by decide
  simpa using List.all_eq_true.mp hall c hc

theorem Exponent.head {s : Text} (hs : Exponent s) : ∀ c ∈ s.head?, isDigit c = false := by
  cases hs with
  | nil => exact nofun
  | letter hletter _ =>
    intro c hc
    obtain rfl := Option.some.inj hc
    rcases hletter with rfl | rfl <;> exact isDigit_mark (by decide)

end Literal

namespace Numeral

open Literal

/-- The digits at the front of a text are cut off where another character stands. -/
theorem leadingDigits_eq (s : Text) :
    leadingDigits s = ((s.takeWhile isDigit).filterMap digitValue?, s.dropWhile isDigit) := by
  fun_induction leadingDigits s with
  | case1 => rfl
  | case2 c s hc => simp [isDigit, hc]
  | case3 c s d hd ds rest hrest ih =>
    obtain ⟨rfl, rfl⟩ := Prod.mk.inj (hrest.symm.trans ih)
    simp [isDigit, hd]

theorem filterMap_digitValue?_eq_nil_iff {run : Text} (hrun : ∀ c ∈ run, isDigit c = true) :
    run.filterMap digitValue? = [] ↔ run = [] := by
  cases run with
  | nil => simp
  | cons c run =>
    obtain ⟨d, hd⟩ := Option.isSome_iff_exists.mp (hrun c List.mem_cons_self)
    simp [hd]

/-- A run of digits in front of another character is read as one. -/
theorem leadingDigits_append {run tail : Text} (hrun : ∀ c ∈ run, isDigit c = true)
    (htail : ∀ c ∈ tail.head?, isDigit c = false) :
    ∃ digits, leadingDigits (run ++ tail) = (digits, tail) ∧ (digits = [] ↔ run = []) := by
  obtain ⟨htake, hdrop⟩ := Text.span_append hrun htail
  refine ⟨run.filterMap digitValue?, ?_, filterMap_digitValue?_eq_nil_iff hrun⟩
  rw [leadingDigits_eq, htake, hdrop]

/-- Every text is a run of digits and what follows it. -/
theorem exists_leadingDigits (s : Text) :
    ∃ run tail digits, s = run ++ tail ∧ (∀ c ∈ run, isDigit c = true) ∧
      leadingDigits s = (digits, tail) ∧ (digits = [] ↔ run = []) := by
  have hrun : ∀ c ∈ s.takeWhile isDigit, isDigit c = true := fun c hc =>
    List.mem_takeWhile_imp hc
  exact ⟨_, _, _, List.takeWhile_append_dropWhile.symm, hrun, leadingDigits_eq s,
    filterMap_digitValue?_eq_nil_iff hrun⟩

/-- Every text is a sign and what follows it. -/
theorem exists_sign (s : Text) : ∃ front, Sign front ∧ s = front ++ (sign s).2 := by
  unfold sign
  split
  · exact ⟨['-'], Or.inr (Or.inr rfl), rfl⟩
  · exact ⟨['+'], Or.inr (Or.inl rfl), rfl⟩
  · exact ⟨[], Or.inl rfl, rfl⟩

/-- A sign is cut off where no further one stands behind it. -/
theorem sign_append {front s : Text} (hfront : Sign front)
    (hs : ∀ c ∈ s.head?, c ≠ '+' ∧ c ≠ '-') : (sign (front ++ s)).2 = s := by
  rcases hfront with rfl | rfl | rfl
  · cases s with
    | nil => rfl
    | cons c s =>
      obtain ⟨hplus, hminus⟩ := hs c rfl
      unfold sign
      split <;> simp_all
  · rfl
  · rfl

theorem ne_sign_of_digit {c : Char} (hc : isDigit c = true) : c ≠ '+' ∧ c ≠ '-' := by
  constructor <;> rintro rfl <;> cases hc

theorem ne_sign_of_digits {s tail : Text} (hs : Digits s) :
    ∀ c ∈ (s ++ tail).head?, c ≠ '+' ∧ c ≠ '-' := by
  obtain ⟨d, hd, hdigit⟩ := hs.head
  intro c hc
  rw [List.head?_append, hd] at hc
  obtain rfl := Option.some.inj hc
  exact ne_sign_of_digit hdigit

theorem isSome_exponent?_iff {s : Text} : (exponent? s).isSome = true ↔ Exponent s := by
  constructor
  · intro hs
    unfold exponent? at hs
    split at hs
    · exact .nil
    · rename_i c s
      split at hs
      · rename_i hletter
        obtain ⟨front, hfront, heq⟩ := exists_sign s
        obtain ⟨run, tail, digits, hsplit, hrun, hread, hnil⟩ := exists_leadingDigits (sign s).2
        rw [hsplit] at heq
        cases hsign : sign s
        simp only [hsign] at hread
        simp only [hsign, hread] at hs
        split at hs
        · rename_i hdigits
          obtain ⟨rfl, rfl⟩ := Prod.mk.inj hdigits
          rw [List.append_nil] at heq
          have hne : run ≠ [] := fun hempty => by simpa using hnil.mpr hempty
          rw [heq]
          exact .letter (by simpa using hletter) (.mk hfront ⟨hne, hrun⟩)
        · cases hs
      · cases hs
  · intro hs
    cases hs with
    | nil => rfl
    | @letter c s hletter hs =>
      cases hs with
      | @mk front run hfront hrun =>
        have hsign := sign_append (s := run ++ []) hfront (ne_sign_of_digits hrun)
        have hend : ∀ c ∈ ([] : Text).head?, isDigit c = false := by simp
        obtain ⟨digits, hread, hnil⟩ := leadingDigits_append hrun.2 hend
        obtain ⟨d, digits, rfl⟩ :=
          List.exists_cons_of_ne_nil fun hempty => hrun.1 (hnil.mp hempty)
        rw [List.append_nil] at hsign hread
        cases hcut : sign (front ++ run)
        simp only [hcut] at hsign
        subst hsign
        have hletter : (decide (c = 'e') || decide (c = 'E')) = true := by simpa using hletter
        simp [exponent?, hletter, hcut, hread]

/-- Runs of digits on both sides of a point, not both empty, are a mantissa. -/
theorem mantissa_point {run fraction : Text} (hrun : ∀ c ∈ run, isDigit c = true)
    (hfraction : ∀ c ∈ fraction, isDigit c = true) (hne : run ≠ [] ∨ fraction ≠ []) :
    Mantissa (run ++ '.' :: fraction) := by
  by_cases hempty : run = []
  · subst hempty
    exact .fraction ⟨hne.resolve_left fun hnot => hnot rfl, hfraction⟩
  · exact .point ⟨hempty, hrun⟩ hfraction

theorem isSome_unsigned?_point {negative : Bool} {run fraction exponent : Text}
    (hrun : ∀ c ∈ run, isDigit c = true) (hfraction : ∀ c ∈ fraction, isDigit c = true)
    (hne : run ≠ [] ∨ fraction ≠ []) (hexponent : Exponent exponent) :
    (unsigned? negative (run ++ '.' :: (fraction ++ exponent))).isSome = true := by
  have hpoint : ∀ c ∈ ('.' :: (fraction ++ exponent)).head?, isDigit c = false := by
    intro c hc
    obtain rfl := Option.some.inj hc
    exact isDigit_mark (by decide)
  obtain ⟨whole, hwhole, hwholeNil⟩ := leadingDigits_append hrun hpoint
  obtain ⟨digits, hdigits, hdigitsNil⟩ := leadingDigits_append hfraction hexponent.head
  have hsome := isSome_exponent?_iff.mpr hexponent
  have hnone : ¬ (whole = [] ∧ digits = []) := by
    rw [hwholeNil, hdigitsNil]
    exact not_and_or.mpr hne
  simp [unsigned?, hwhole, hdigits, hnone, hsome]

/-- Without a sign, a text is read as a number exactly when it is a mantissa with an optional
    exponent. -/
theorem isSome_unsigned?_iff {negative : Bool} {s : Text} :
    (unsigned? negative s).isSome = true ↔
      ∃ mantissa exponent, Mantissa mantissa ∧ Exponent exponent ∧ s = mantissa ++ exponent := by
  constructor
  · intro hs
    obtain ⟨run, tail, digits, rfl, hrun, hread, hnil⟩ := exists_leadingDigits s
    rw [unsigned?, hread] at hs
    simp only at hs
    split at hs
    · have hne : run ≠ [] := fun hempty => by simp [hnil.mpr hempty] at hs
      exact ⟨run, [], .whole ⟨hne, hrun⟩, .nil, rfl⟩
    · rename_i rest
      obtain ⟨fraction, exponent, more, rfl, hfraction, hmore, hmoreNil⟩ :=
        exists_leadingDigits rest
      rw [hmore] at hs
      split at hs
      · cases hs
      · rename_i hnone
        rw [Option.isSome_map, isSome_exponent?_iff] at hs
        have hne : run ≠ [] ∨ fraction ≠ [] := by
          simpa [hnil, hmoreNil, imp_iff_not_or] using hnone
        exact ⟨_, exponent, mantissa_point hrun hfraction hne, hs, by simp⟩
    · split at hs
      · cases hs
      · rename_i hnone
        rw [Option.isSome_map, isSome_exponent?_iff] at hs
        have hne : run ≠ [] := fun hempty => by simp [hnil.mpr hempty] at hnone
        exact ⟨run, tail, .whole ⟨hne, hrun⟩, hs, rfl⟩
  · rintro ⟨mantissa, exponent, hmantissa, hexponent, rfl⟩
    cases hmantissa with
    | whole hdigits =>
      obtain ⟨digits, hread, hnil⟩ := leadingDigits_append hdigits.2 hexponent.head
      have hne : digits ≠ [] := fun hempty => hdigits.1 (hnil.mp hempty)
      have hsome := isSome_exponent?_iff.mpr hexponent
      cases hexponent with
      | nil =>
        rw [unsigned?, hread]
        simp [hne]
      | letter hletter _ =>
        rcases hletter with rfl | rfl <;> simpa [unsigned?, hread, hne] using hsome
    | @point run fraction hdigits hfraction =>
      rw [List.append_assoc, List.cons_append]
      exact isSome_unsigned?_point hdigits.2 hfraction (Or.inl hdigits.1) hexponent
    | @fraction digits hdigits =>
      have hrun : ∀ c ∈ ([] : Text), isDigit c = true := by simp
      exact isSome_unsigned?_point hrun hdigits.2 (Or.inr hdigits.1) hexponent

/-- No mantissa starts with a sign. -/
theorem ne_sign_of_mantissa {s tail : Text} (hs : Mantissa s) :
    ∀ c ∈ (s ++ tail).head?, c ≠ '+' ∧ c ≠ '-' := by
  cases hs with
  | whole hdigits => exact ne_sign_of_digits hdigits
  | point hdigits _ =>
    rw [List.append_assoc]
    exact ne_sign_of_digits hdigits
  | fraction hdigits =>
    intro c hc
    obtain rfl := Option.some.inj hc
    decide

/-- A text is read as a number exactly when it is the literal of one. -/
theorem isSome_ofText?_iff {s : Text} : (ofText? s).isSome = true ↔ Number s := by
  rw [Number, or_iff_right_of_imp Integer.decimal, ofText?_eq, isSome_unsigned?_iff]
  constructor
  · rintro ⟨mantissa, exponent, hmantissa, hexponent, heq⟩
    obtain ⟨front, hfront, hs⟩ := exists_sign s
    rw [hs, heq]
    exact .mk hfront hmantissa hexponent
  · rintro ⟨hfront, hmantissa, hexponent⟩
    exact ⟨_, _, hmantissa, hexponent, sign_append hfront (ne_sign_of_mantissa hmantissa)⟩

end Numeral

end TagText
