import TagText.Proofs.Number.Literals
import TagText.Proofs.Validation.WellTyped

/-!
Which texts fit a place for an argument. A text is read under the type of its place before its value
is checked, and what does not fit is kept as a text; the check finds the value unsuitable exactly
when the text was. Only an empty text is read as an argument that is left out.
-/

namespace TagText

/-- The texts of the type of a place: numbers and truth values with space around them, the choices
    as they are, and any text where texts are wanted. -/
inductive Param.FitsText (p : Param) (raw : Text) : Prop
  | text : p.type = .text → FitsText p raw
  | number : p.type = .number → Literal.Number (raw.trim isSpace) → FitsText p raw
  | boolean : p.type = .boolean →
    (raw.trim isSpace).lower ∈ ["true".toList, "1".toList, "false".toList, "0".toList] →
    FitsText p raw
  | choice : p.type = .choice → raw ∈ p.choices → FitsText p raw

namespace Arg

variable {type : ParamType} {raw : Text} {a : Arg}

/-- A text that is read as a number becomes one, and any other stays as it is. -/
theorem ofNumberText_cases (hread : ofNumberText raw = .ok a) :
    (Literal.Number (raw.trim isSpace) ∧ a.isNumber = true) ∨
      ¬ Literal.Number (raw.trim isSpace) ∧ a = text raw := by
  rw [← Numeral.isSome_ofText?_iff]
  rw [ofNumberText] at hread
  split at hread
  · rename_i hnumeral
    split at hread <;> cases hread
    exact Or.inl ⟨by rw [hnumeral]; rfl, rfl⟩
  · rename_i hnumeral
    cases hread
    exact Or.inl ⟨by rw [hnumeral]; rfl, rfl⟩
  · rename_i hnumeral
    cases hread
    exact Or.inr ⟨by simp [hnumeral], rfl⟩

theorem isSome_truth?_iff : (truth? raw).isSome = true ↔
    (raw.trim isSpace).lower ∈ ["true".toList, "1".toList, "false".toList, "0".toList] := by
  rw [truth?]
  generalize (raw.trim isSpace).lower = word
  simp only [Bool.or_eq_true, decide_eq_true_eq, List.mem_cons, List.not_mem_nil, or_false]
  rw [← or_assoc]
  split
  · rename_i hyes
    exact iff_of_true rfl (Or.inl hyes)
  · rename_i hnot
    rw [or_iff_right hnot]
    split
    · rename_i hno
      exact iff_of_true rfl hno
    · rename_i hneither
      exact iff_of_false Bool.false_ne_true hneither

/-- What is no text is read from a text that is not empty. -/
theorem ofText_cases (hread : ofText type raw = .ok a) :
    a = text raw ∨ raw ≠ [] ∧ a.isMissing = false := by
  cases type with
  | text | choice =>
    cases hread
    exact Or.inl rfl
  | number =>
    rcases ofNumberText_cases hread with ⟨hnumber, hvalue⟩ | ⟨-, hkept⟩
    · refine Or.inr ⟨?_, ?_⟩
      · rintro rfl
        exact absurd (Numeral.isSome_ofText?_iff.mpr hnumber) (by decide)
      · cases a <;> first | rfl | cases hvalue
    · exact Or.inl hkept
  | boolean =>
    rw [ofText] at hread
    split at hread
    · rename_i b htruth
      cases hread
      refine Or.inr ⟨?_, rfl⟩
      rintro rfl
      cases htruth
    · cases hread
      exact Or.inl rfl

/-- What a text is read as is left out exactly when the text is empty. -/
theorem isMissing_iff_of_ofText (hread : ofText type raw = .ok a) :
    a.isMissing = true ↔ raw = [] := by
  rcases ofText_cases hread with rfl | ⟨hne, hmissing⟩
  · simp [Arg.isMissing_iff]
  · simp [hne, hmissing]

end Arg

namespace Param

variable {p : Param} {raw : Text} {a : Arg}

/-- Whether a text fits a place. -/
def suitsText (p : Param) (raw : Text) : Bool :=
  match p.type with
  | .text => true
  | .number => (Numeral.ofText? (raw.trim isSpace)).isSome
  | .boolean => (Arg.truth? raw).isSome
  | .choice => p.choices.contains raw

theorem suitsText_iff : p.suitsText raw = true ↔ p.FitsText raw := by
  rw [suitsText]
  constructor
  · intro hsuits
    cases htype : p.type with
    | text => exact .text htype
    | number =>
      rw [htype] at hsuits
      exact .number htype (Numeral.isSome_ofText?_iff.mp hsuits)
    | boolean =>
      rw [htype] at hsuits
      exact .boolean htype (Arg.isSome_truth?_iff.mp hsuits)
    | choice =>
      rw [htype] at hsuits
      exact .choice htype (List.contains_iff_mem.mp hsuits)
  · rintro (htype | ⟨htype, hnumber⟩ | ⟨htype, hword⟩ | ⟨htype, hchoice⟩) <;> rw [htype]
    · exact Numeral.isSome_ofText?_iff.mpr hnumber
    · exact Arg.isSome_truth?_iff.mpr hword
    · exact List.contains_iff_mem.mpr hchoice

instance : Decidable (p.FitsText raw) := decidable_of_iff _ suitsText_iff

/-- What a text is read as suits a place if the text fits it, and is the text itself if not. -/
theorem fitsText_cases (hread : Arg.ofText p.type raw = .ok a) :
    (p.FitsText raw ∧ p.suits a = true) ∨
      (¬ p.FitsText raw ∧ p.suits a = false ∧ a = .text raw) := by
  rw [← suitsText_iff, suitsText, suits]
  cases htype : p.type with
  | text => exact Or.inl ⟨rfl, rfl⟩
  | choice =>
    rw [htype] at hread
    cases hread
    by_cases hchoice : raw ∈ p.choices <;> simp [Arg.plain, hchoice]
  | number =>
    rw [htype] at hread
    rcases Arg.ofNumberText_cases hread with ⟨hnumber, hvalue⟩ | ⟨hnone, rfl⟩
    · exact Or.inl ⟨Numeral.isSome_ofText?_iff.mpr hnumber, hvalue⟩
    · exact Or.inr ⟨mt Numeral.isSome_ofText?_iff.mp hnone, rfl, rfl⟩
  | boolean =>
    rw [htype, Arg.ofText] at hread
    cases htruth : Arg.truth? raw with
    | some b =>
      rw [htruth] at hread
      cases hread
      simp [Arg.isBool]
    | none =>
      rw [htruth] at hread
      cases hread
      simp [Arg.isBool]

end Param

end TagText
