import TagText.Catalog.DefaultModifiers
import TagText.Proofs.Editing.Refusals
import TagText.Proofs.Reading.Lengths

/-!
Which texts are accepted: all that are not longer than the most digits of an integer, whatever the
catalog declares, and of the longer ones all but those with an overlong integer.
-/

namespace TagText

variable {c : Catalog} {text : Text}

/-- A stored value is refused exactly when it is dynamic and its expression holds an overlong
    integer. -/
theorem Reading.ofValue_eq_error_iff {e : ConversionError} :
    ofValue c text = .error e ↔ isActive text = true ∧ HoldsOverlong c (unwrap text) := by
  cases hregion : Region.ofValue? text with
  | none =>
    rw [ofValue_literal hregion, not_isActive_iff.mpr hregion]
    simp
  | some region =>
    rw [ofValue_of_region hregion, isActive_iff.mpr ⟨region, hregion⟩, unwrap_of_region hregion,
      ← ofExpression_eq_error_iff (e := e)]
    cases ofExpression c region.expression <;> simp [Except.map]

namespace Session

variable {s : Session} {d : Draft}

/-- A session cannot be opened with a value whose expression holds an overlong integer. -/
theorem exists_start_error (hoverlong : HoldsOverlong s.catalog (unwrap text)) :
    ∃ error, (s.start text).1 = .error error := by
  rw [start]
  cases hvalue : Reading.ofValue s.catalog text with
  | error e => exact ⟨_, rfl⟩
  | ok reading =>
    have hexpression := (Reading.ofExpression_eq_error_iff (e := .overlongInteger)).mpr hoverlong
    simp only [retype_of_error hexpression]
    exact ⟨_, rfl⟩

/-- Every other value opens a session, with its expression as the text of the draft. -/
theorem exists_start_draft (hread : ¬ HoldsOverlong s.catalog (unwrap text)) :
    ∃ draft : Draft, draft.text = unwrap text ∧
      s.start text = (.ok .done, { s with phase := .editing draft }) := by
  rw [start]
  cases hvalue : Reading.ofValue s.catalog text with
  | error e => exact absurd (Reading.ofValue_eq_error_iff.mp hvalue).2 hread
  | ok reading =>
    cases hexpression : Reading.ofExpression s.catalog (unwrap text) with
    | error e => exact absurd (Reading.ofExpression_eq_error_iff.mp hexpression) hread
    | ok plain =>
      simp only [retype, Draft.setText, hexpression]
      exact ⟨_, rfl, rfl⟩

/-- A text without overlong integers is taken over as that of the draft. -/
theorem exists_setText_draft (hphase : s.phase = .editing d)
    (hread : ¬ HoldsOverlong s.catalog text) :
    ∃ draft : Draft, draft.text = text ∧
      s.perform (.setText text) = (.ok .done, { s with phase := .editing draft }) := by
  rw [perform_editing hphase, performOpen, retype, Draft.setText]
  cases hexpression : Reading.ofExpression s.catalog text with
  | error e => exact absurd (Reading.ofExpression_eq_error_iff.mp hexpression) hread
  | ok reading => exact ⟨_, rfl, rfl⟩

end Session

theorem not_holdsOverlong_of_length_le (hlength : text.length ≤ maxIntegerDigits) :
    ¬ HoldsOverlong c text :=
  fun hoverlong => Nat.not_lt.mpr hlength hoverlong.lt_length

/-- Reading fails on overlong integers and on nothing else. A text with no more characters than an
    integer may have digits is always read, as a stored value with its references and as an
    expression; a session that is closed can be opened with it, and one that is open takes it over
    as its new text. Of any text, a stored value is refused exactly when it is dynamic and an
    argument in its expression, at a place for a number, is an integer with too many digits; an
    expression is refused exactly when one of its own arguments is. -/
theorem Session.accepts_of_length_le (c : Catalog) (text : Text) :
    (text.length ≤ maxIntegerDigits →
      (∃ reading, Reading.ofValue c text = .ok reading) ∧
      (∃ reading, Reading.ofExpression c text = .ok reading) ∧
      ∀ s : Session, s.catalog = c →
        (s.phase = .closed → ∃ draft : Draft, draft.text = unwrap text ∧
          s.perform (.start text) = (.ok .done, { s with phase := .editing draft })) ∧
        ∀ d, s.phase = .editing d → ∃ draft : Draft, draft.text = text ∧
          s.perform (.setText text) = (.ok .done, { s with phase := .editing draft })) ∧
    ∀ e, (Reading.ofValue c text = .error e ↔
        isActive text = true ∧ HoldsOverlong c (unwrap text)) ∧
      (Reading.ofExpression c text = .error e ↔ HoldsOverlong c text) := by
  refine ⟨fun hlength => ?_, fun e =>
    ⟨Reading.ofValue_eq_error_iff, Reading.ofExpression_eq_error_iff⟩⟩
  have hread : ¬ HoldsOverlong c text := not_holdsOverlong_of_length_le hlength
  have hinner : ¬ HoldsOverlong c (unwrap text) :=
    not_holdsOverlong_of_length_le ((length_unwrap_le text).trans hlength)
  refine ⟨?_, ?_, ?_⟩
  · cases hvalue : Reading.ofValue c text with
    | error e => exact absurd (Reading.ofValue_eq_error_iff.mp hvalue).2 hinner
    | ok reading => exact ⟨reading, rfl⟩
  · cases hexpression : Reading.ofExpression c text with
    | error e => exact absurd (Reading.ofExpression_eq_error_iff.mp hexpression) hread
    | ok reading => exact ⟨reading, rfl⟩
  · rintro s rfl
    refine ⟨fun hclosed => ?_, fun d hopen => exists_setText_draft hopen hread⟩
    obtain ⟨draft, htext, hstart⟩ := exists_start_draft hinner
    exact ⟨draft, htext, (perform_closed hclosed text).trans hstart⟩

/-- The longest text that is always accepted, with all of its room taken up by one integer. -/
theorem Session.accepts_integer :
    let text := "@post(title).truncate(".toList ++ (List.replicate 4277 '9' ++ [')'])
    let s : Session := { catalog := Default.catalog, context := .named "post".toList }
    text.length = maxIntegerDigits ∧
      ∃ draft : Draft, draft.text = text ∧
        s.perform (.start text) = (.ok .done, { s with phase := .editing draft }) := by
  intro text s
  have hlength : text.length = maxIntegerDigits := by
    simp only [text, List.length_append, List.length_replicate]
    rfl
  obtain ⟨-, -, hsession⟩ := (Session.accepts_of_length_le Default.catalog text).1 hlength.le
  obtain ⟨draft, htext, hstart⟩ := (hsession s rfl).1 rfl
  have hliteral : Region.ofValue? text = none := rfl
  exact ⟨hlength, draft, htext.trans (unwrap_literal hliteral), hstart⟩

end TagText
