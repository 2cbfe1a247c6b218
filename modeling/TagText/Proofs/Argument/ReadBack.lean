import TagText.Proofs.Grammar.Unambiguous
import TagText.Proofs.Reading.Arguments
import TagText.Proofs.Writing.Spelling

/-!
One argument, written and read again. The written form is one argument of the grammar and counts as
one text only. Under the type that it was read under, this text is read as the argument again, of
the same kind; a number that is too large for its digits is the exception, as the text of an
infinite number is no literal.
-/

namespace TagText

/-- A written argument counts as one text only. -/
theorem Grammar.Argument.unique {s value other : Text} (hvalue : Argument s value)
    (hother : Argument s other) : value = other := by
  have hleft := Arguments.some Blank.nil hvalue Blank.nil .close
  have hright := Arguments.some Blank.nil hother Blank.nil .close
  obtain ⟨-, -, hvalues⟩ := @Arguments.unique _ _ [] [] _ _ hleft hright rfl
  exact List.singleton_inj.mp hvalues

namespace Arg

variable {type : ParamType} {raw : Text} {a : Arg}

/-- What is read is finite or one of the two infinite numbers. -/
theorem exists_infinite_of_ofText (hread : ofText type raw = .ok a) (ha : a.isFinite = false) :
    ∃ negative, a = .float (.infinite negative) := by
  cases a with
  | float x =>
    cases x with
    | infinite negative => exact ⟨negative, rfl⟩
    | finite => cases ha
    | nan => exact absurd rfl (ne_nan_of_ofText hread)
  | _ => cases ha

/-- The text of an infinite number stays a text under every type. -/
theorem ofText_spelled_infinite (type : ParamType) (negative : Bool) :
    ofText type (spelled (.float (.infinite negative))) =
      .ok (.text (spelled (.float (.infinite negative)))) := by
  cases type <;> cases negative <;> rfl

/-- An argument that was read comes back from its written form exactly when it is no infinite
    number: the text that the form counts as is read as it again, under the same type. The text of
    an infinite number comes back as a text. -/
theorem ofText_of_written (hread : ofText type raw = .ok a) :
    ∃ value, (∀ other, Grammar.Argument a.written other ↔ other = value) ∧
      (ofText type value = .ok a ↔ a.isFinite = true) ∧
      (a.isFinite = false →
        (∃ negative, a = .float (.infinite negative)) ∧ ofText type value = .ok (.text value)) := by
  have hwritten := Grammar.Argument.written a
  have hkept : a.isFinite = false → ofText type a.spelled = .ok (.text a.spelled) := by
    intro ha
    obtain ⟨negative, rfl⟩ := exists_infinite_of_ofText hread ha
    exact ofText_spelled_infinite type negative
  refine ⟨a.spelled, fun other => ⟨fun hother => hother.unique hwritten, ?_⟩, ⟨?_, ?_⟩, ?_⟩
  · rintro rfl
    exact hwritten
  · intro hsame
    by_contra ha
    have hfalse : a.isFinite = false := Bool.eq_false_iff.mpr ha
    rw [hkept hfalse] at hsame
    rw [← Except.ok.inj hsame] at hfalse
    cases hfalse
  · exact ofText_spelled hread
  · exact fun ha => ⟨exists_infinite_of_ofText hread ha, hkept ha⟩

/-- A decimal with a large exponent is read as the infinite number, whose text is read as itself. -/
theorem ofText_of_written_overflow :
    let a : Arg := .float (.infinite false)
    ofText .number "1e400".toList = .ok a ∧ Grammar.Argument a.written "inf".toList ∧
      ofText .number "inf".toList = .ok (.text "inf".toList) ∧
      ofText .number "inf".toList ≠ .ok a := by
  intro a
  have hread : ofText .number "1e400".toList = .ok a := by decide +kernel
  obtain ⟨value, hvalue, hfinite, hinfinite⟩ := ofText_of_written hread
  have hwritten : Grammar.Argument a.written "inf".toList := Grammar.Argument.written a
  obtain rfl := (hvalue _).mp hwritten
  refine ⟨hread, hwritten, (hinfinite rfl).2, fun hsame => ?_⟩
  cases hfinite.mp hsame

end Arg

end TagText
