import TagText.Editing.Session
import TagText.Proofs.Reading.Arguments
import TagText.Proofs.Stored.Agreement
import TagText.Proofs.Stored.RoundTrip

/-!
Sessions that are committed as they were opened. A dynamic value comes back in its canonical form. A
literal value becomes the text of the draft, where it is taken for an expression, and comes back as
it was only if no reference is read in it.
-/

namespace TagText

/-- What is stored is dynamic because it has taken the markers, or because the expression has them
    itself. -/
theorem Document.isActive_stored_iff {d : Document} : isActive d.stored = true ↔
    (d.hasReferences = true ∨ d.trailing ≠ []) ∨ isActive d.expression = true := by
  rw [stored]
  split
  · rename_i hmarked
    have hactive : isActive (openMarker ++ d.expression ++ closeMarker ++ d.trailing) = true :=
      Region.isActive_value { expression := d.expression, trailing := d.trailing }
    exact iff_of_true hactive (Or.inl (by simpa using hmarked))
  · rename_i hplain
    exact (or_iff_right (by simpa using hplain)).symm

theorem Document.isActive_stored {d : Document} (hreferences : d.hasReferences = true) :
    isActive d.stored = true :=
  isActive_stored_iff.mpr (Or.inl (Or.inl hreferences))

namespace Reading

variable {c : Catalog}

/-- An expression without references is stored as it stands. -/
theorem stored_of_not_hasReferences {s : Text} {reading : Reading}
    (hread : ofExpression c s = .ok reading) (hnone : reading.document.hasReferences = false) :
    reading.document.stored = s := by
  obtain ⟨htrailing, hcut⟩ := ofExpression_eq_ok_iff_cut.mp hread
  have hdocument : reading.document =
      { nodes := if s.isEmpty then [] else [.text s (0 : Nat)] } := by
    obtain ⟨⟨nodes, trailing⟩, broken⟩ := reading
    obtain rfl : trailing = [] := htrailing
    exact congrArg (Document.mk · []) (hcut.nodes_of_not_hasReferences hnone)
  rw [hdocument, Document.stored_text]

/-- A literal value is stored as it stands. -/
theorem stored_of_literal {v : Text} (hnone : Region.ofValue? v = none) {reading : Reading}
    (hread : ofValue c v = .ok reading) :
    reading.document.stored = v ∧ reading.document.trailing = [] := by
  rw [ofValue_literal hnone] at hread
  cases hread
  exact ⟨Document.stored_text v 0, rfl⟩

/-- A dynamic value has the stored form of its expression with its trailing text. -/
theorem stored_of_region {v : Text} {region : Region} (hregion : Region.ofValue? v = some region)
    {reading : Reading} (hread : ofValue c v = .ok reading) :
    ∃ plain, ofExpression c region.expression = .ok plain ∧
      reading.document.stored =
        { plain.document with trailing := reading.document.trailing }.stored := by
  rw [ofValue_of_region hregion] at hread
  cases hplain : ofExpression c region.expression with
  | error e => rw [hplain] at hread; cases hread
  | ok plain =>
    rw [hplain] at hread
    cases hread
    exact ⟨plain, rfl, Document.stored_map_moved openMarker.length _ _⟩

end Reading

namespace Session

variable {s : Session} {v : Text} {reading : Reading}

/-- A session that is opened and committed gives what is read of the expression of the value, with
    the trailing text of the value. -/
theorem run_start_commit (hclosed : s.phase = .closed)
    (hread : Reading.ofValue s.catalog v = .ok reading) {plain : Reading}
    (hplain : Reading.ofExpression s.catalog (unwrap v) = .ok plain) :
    (s.run [.start v, .commit]).map Prod.fst =
      [.ok .done,
       .ok (.text { plain.document with trailing := reading.document.trailing }.stored)] := by
  have htext := Reading.hasText_of_ofExpression hplain reading.document.trailing
  simp [run, perform, hclosed, start, hread, retype, Draft.setText, hplain, performOpen, answerFrom,
    answer, Document.write_of_hasText htext]

/-- Where the expression cannot be read, there is nothing to commit. -/
theorem run_start_commit_of_error (hclosed : s.phase = .closed)
    (hread : Reading.ofValue s.catalog v = .ok reading) {error : ConversionError}
    (hplain : Reading.ofExpression s.catalog (unwrap v) = .error error) :
    (s.run [.start v, .commit]).map Prod.fst =
      [.error (.conversion error), .error (.edit .noDocument)] := by
  simp [run, perform, hclosed, start, hread, retype, Draft.setText, hplain, performOpen, answerFrom]

/-- Opening a session on a value and committing it gives the stored form of what is read of the
    value, unless the value is literal and is taken for an expression that holds references or that
    cannot be read. The stored form of a literal value is the value. -/
theorem run_start_commit_iff (hclosed : s.phase = .closed)
    (hread : Reading.ofValue s.catalog v = .ok reading) :
    ((s.run [.start v, .commit]).map Prod.fst =
        [.ok .done, .ok (.text reading.document.stored)] ↔
      (isActive v = false → ∃ plain, Reading.ofExpression s.catalog v = .ok plain ∧
        plain.document.hasReferences = false)) ∧
    (isActive v = false → reading.document.stored = v) := by
  cases hregion : Region.ofValue? v with
  | some region =>
    have hactive : isActive v = true := isActive_iff.mpr ⟨region, hregion⟩
    have hnever : ∀ {p : Prop}, isActive v = false → p := by simp [hactive]
    obtain ⟨plain, hplain, hstored⟩ := Reading.stored_of_region hregion hread
    rw [← unwrap_of_region hregion] at hplain
    rw [run_start_commit hclosed hread hplain, ← hstored]
    exact ⟨iff_of_true rfl hnever, hnever⟩
  | none =>
    have hliteral : isActive v = false := not_isActive_iff.mpr hregion
    obtain ⟨hstored, htrailing⟩ := Reading.stored_of_literal hregion hread
    refine ⟨?_, fun _ => hstored⟩
    cases hplain : Reading.ofExpression s.catalog v with
    | error e =>
      rw [← unwrap_literal hregion] at hplain
      rw [run_start_commit_of_error hclosed hread hplain]
      simp [hliteral]
    | ok plain =>
      have hrun := run_start_commit hclosed hread (by rwa [unwrap_literal hregion])
      have hempty := (Reading.ofExpression_eq_ok_iff_cut.mp hplain).1
      rw [htrailing, ← hempty] at hrun
      have hiff : plain.document.stored = v ↔ plain.document.hasReferences = false := by
        refine ⟨fun hsame => ?_, Reading.stored_of_not_hasReferences hplain⟩
        -- With a reference, what is committed is dynamic, which the value is not.
        by_contra hreferences
        have hactive := Document.isActive_stored (Bool.eq_true_of_not_eq_false hreferences)
        rw [hsame, hliteral] at hactive
        cases hactive
      rw [hrun, hstored]
      simp [hliteral, hiff]

/-- A literal value with a reference in it becomes dynamic. -/
theorem not_run_start_commit_of_reference :
    let s : Session := { catalog := {}, context := .named "post".toList }
    let v := "Hello @post(title)".toList
    let reading : Reading := { document := { nodes := [.text v 0] }, brokenCount := 0 }
    isActive v = false ∧ Reading.ofValue s.catalog v = .ok reading ∧
      reading.document.stored = v ∧
      (s.run [.start v, .commit]).map Prod.fst ≠ [.ok .done, .ok (.text v)] ∧
      (s.run [.start v, .commit]).map Prod.fst =
        [.ok .done, .ok (.text "@tags()Hello @post(title)@endtags()".toList)] := by
  intro s v reading
  let r : Reference := { group := "post".toList, field := "title".toList, position := 6 }
  let plain : Reading :=
    { document := { nodes := [.text "Hello ".toList 0, .reference r] }, brokenCount := 0 }
  have hread : Reading.ofValue s.catalog v = .ok reading := by decide +kernel
  have hplain : Reading.ofExpression s.catalog v = .ok plain := by decide +kernel
  have hliteral : isActive v = false := by decide +kernel
  have hwhole : Reading.ofExpression s.catalog (unwrap v) = .ok plain := by
    rwa [unwrap_literal (not_isActive_iff.mp hliteral)]
  obtain ⟨hiff, hstored⟩ := @run_start_commit_iff s v reading rfl hread
  refine ⟨hliteral, hread, hstored hliteral, ?_, run_start_commit rfl hread hwhole⟩
  rw [hstored hliteral] at hiff
  intro hsame
  obtain ⟨found, hfound, hnone⟩ := hiff.mp hsame hliteral
  obtain rfl := Except.ok.inj (hplain.symm.trans hfound)
  cases hnone

end Session

end TagText
