import TagText.Proofs.Reading.Expressions
import TagText.Proofs.Reading.Places
import TagText.Proofs.Writing.Spelling

/-!
Integers with too many digits. Where a number is declared, such an argument cannot be read, and
neither can a reference that holds it.
-/

namespace TagText

/-- Digits are read as the integer that they make up, unless they are too many. -/
theorem Arg.ofNumberText_overlong {digits : List Nat} (hdigits : AreDigits digits)
    (hlong : maxIntegerDigits < digits.length) :
    ofNumberText (digitText digits) = .error .overlongInteger := by
  have hne : digits ≠ [] := by
    rintro rfl
    cases hlong
  have hsign := Numeral.sign_digitText hdigits hne []
  rw [List.append_nil] at hsign
  have hnumeral : Numeral.ofText? (digitText digits) = some (.integer false digits) := by
    rw [Numeral.ofText?_eq, hsign, Numeral.unsigned?_digitText false hdigits hne]
  simp only [ofNumberText, trim_numeric (isNumeric_of_mem_digitText hdigits), hnumeral,
    if_neg (Nat.not_le.mpr hlong)]

/-- A reference cannot be read if one of its arguments cannot be read at its place. -/
theorem RawReference.resolve_of_place_error {c : Catalog} {raw : RawReference} {i j : Nat}
    {call : RawCall} {s : Text} {e : ConversionError} (hcall : raw.calls[i]? = some call)
    (hs : call.args[j]? = some s)
    (hplace : Arg.atPlace (c.place? raw.group raw.field i call.key j) s = .error e) :
    raw.resolve c = .error e := by
  cases hread : raw.resolve c with
  | error other =>
    cases e
    cases other
    rfl
  | ok r =>
    have hcalls := List.forall₂_iff_get.mp (carries_of_resolve hread).calls
    obtain ⟨hi, rfl⟩ := List.getElem?_eq_some_iff.mp hcall
    have hzip : i < raw.calls.zipIdx.length := by simpa using hi
    have hcarries := hcalls.2 i hzip (by simpa [← hcalls.1] using hi)
    have hargs := congrArg (fun args => args[j]?) hcarries.args
    simp [hs, hplace] at hargs

/-- What cannot be read in a reference keeps the expression that it makes up from being read. -/
theorem Reading.ofExpression_of_resolve_error {c : Catalog} {s : Text} {raw : RawReference}
    (hderived : Grammar.Reference 0 s raw) {e : ConversionError} (hraw : raw.resolve c = .error e) :
    ofExpression c s = .error e := by
  cases hread : ofExpression c s with
  | error other =>
    cases e
    cases other
    rfl
  | ok reading =>
    obtain ⟨nodes, hnodes, -⟩ := ofExpression_eq_ok_iff.mp hread
    rw [← List.append_nil s, partsRead_reference hderived rfl] at hnodes
    obtain ⟨r, more, hr, -⟩ := hnodes
    rw [hraw] at hr
    cases hr

namespace Grammar

/-- A reference with one call on one integer. -/
theorem Reference.of_digits {group field key : Text} (hgroup : Lexeme.isName group = true)
    (hfield : ∀ c ∈ field, Lexeme.isFieldChar c = true) (hkey : Lexeme.isName key = true)
    {digits : List Nat} (hdigits : AreDigits digits) (hne : digits ≠ []) :
    Reference 0 ('@' :: group ++ '(' :: (field ++ ')' :: ('.' :: key ++ '(' ::
        (digitText digits ++ [')']))))
      { group, field
        calls := [{ key, args := [digitText digits], position := group.length + field.length + 3 }]
        position := 0 } := by
  have hargument : Argument (digitText digits) (digitText digits) :=
    Argument.of_startsBare (by simpa [digitText] using hne) (List.all_eq_true.mpr fun c hc =>
      startsBare_of_isNumeric (isNumeric_of_mem_digitText hdigits c hc))
  have hlist := Arguments.some Blank.nil hargument Blank.nil .close
  have hchain := @Calls.call (0 + group.length + field.length + 3) _ _ _ _ _ hkey hlist .nil
  simpa using Reference.intro hgroup hfield hchain

end Grammar

/-- An overlong integer at the place for a number keeps a reference from being read. -/
theorem Reading.ofExpression_overlong {c : Catalog} {group field key : Text}
    (hgroup : Lexeme.isName group = true) (hfield : ∀ c ∈ field, Lexeme.isFieldChar c = true)
    (hkey : Lexeme.isName key = true)
    (hplace : (c.place? group field 0 key 0).map Param.type = some .number)
    {digits : List Nat} (hdigits : AreDigits digits) (hlong : maxIntegerDigits < digits.length) :
    ofExpression c ('@' :: group ++ '(' :: (field ++ ')' :: ('.' :: key ++ '(' ::
      (digitText digits ++ [')'])))) = .error .overlongInteger := by
  obtain ⟨p, hp, htype⟩ := Option.map_eq_some_iff.mp hplace
  have hne : digits ≠ [] := by
    rintro rfl
    cases hlong
  refine ofExpression_of_resolve_error (.of_digits hgroup hfield hkey hdigits hne) ?_
  refine RawReference.resolve_of_place_error (i := 0) (j := 0) rfl rfl ?_
  rw [hp, Arg.atPlace, htype]
  exact Arg.ofNumberText_overlong hdigits hlong

/-- Nines for the number of characters that a title is cut to, one digit too many. -/
theorem Reading.ofExpression_nines {c : Catalog}
    (hplace : (c.place? "post".toList "title".toList 0 "truncate".toList 0).map Param.type =
      some .number) :
    ofExpression c ('@' :: "post".toList ++ '(' :: ("title".toList ++ ')' ::
      ('.' :: "truncate".toList ++ '(' :: (digitText (List.replicate 4301 9) ++ [')'])))) =
        .error .overlongInteger := by
  have hlong : maxIntegerDigits < (List.replicate 4301 9).length := by
    rw [List.length_replicate]
    decide
  exact ofExpression_overlong (by decide +kernel) (List.all_eq_true.mp (by decide +kernel))
    (by decide +kernel) hplace (areDigits_replicate (by decide) _) hlong

end TagText
