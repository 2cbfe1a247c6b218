import TagText.Proofs.Editing.Commits

/-!
Sessions on values that other sessions have committed. As long as the expression holds no close
marker and its numbers are finite, the value is opened as the draft that was committed, in canonical
text, and is committed as itself.
-/

namespace TagText

namespace Document

variable {d : Document}

/-- Without a close marker in its expression, a document is stored as a dynamic value of which the
    expression ends where it was put, or as a literal. -/
theorem ofValue?_stored (hfree : ¬ closeMarker <:+: d.expression) :
    Region.ofValue? d.stored = some { expression := d.expression, trailing := d.trailing } ∨
      Region.ofValue? d.stored = none ∧ d.stored = d.expression ∧ d.trailing = [] := by
  rw [stored]
  split
  · exact Or.inl (Region.ofValue?_eq_some_iff.mpr ⟨rfl, hfree⟩)
  · rename_i hshape
    exact Or.inr ⟨Region.ofValue?_eq_none hfree, rfl, by simp_all⟩

theorem unwrap_stored (hfree : ¬ closeMarker <:+: d.expression) :
    unwrap d.stored = d.expression := by
  rcases ofValue?_stored hfree with hregion | ⟨hnone, hstored, -⟩
  · exact unwrap_of_region hregion
  · rw [unwrap_literal hnone, hstored]

/-- What is stored can be read if the expression can, and has the trailing text of the document. -/
theorem exists_ofValue_stored {c : Catalog} (hfree : ¬ closeMarker <:+: d.expression)
    {plain : Reading} (hplain : Reading.ofExpression c d.expression = .ok plain) :
    ∃ reading, Reading.ofValue c d.stored = .ok reading ∧
      reading.document.trailing = d.trailing := by
  rcases ofValue?_stored hfree with hregion | ⟨hnone, -, hempty⟩
  · refine ⟨plain.enclosed d.trailing, ?_, rfl⟩
    rw [Reading.ofValue_of_region hregion, hplain]
    rfl
  · exact ⟨_, Reading.ofValue_literal hnone c, hempty.symm⟩

end Document

namespace Session

variable {s : Session} {v x : Text} {reading plain : Reading}

/-- What a session answers that is opened, looked at and committed. -/
theorem run_start_view_commit (hclosed : s.phase = .closed)
    (hread : Reading.ofValue s.catalog v = .ok reading)
    (hplain : Reading.ofExpression s.catalog (unwrap v) = .ok plain) :
    (s.run [.start v, .getText, .getTrailing, .getDocument, .commit]).map Prod.fst =
      [.ok .done, .ok (.text (unwrap v)), .ok (.text reading.document.trailing),
       .ok (.document { plain.document with trailing := reading.document.trailing }),
       .ok (.text { plain.document with trailing := reading.document.trailing }.stored)] := by
  have htext := Reading.hasText_of_ofExpression hplain reading.document.trailing
  simp [run, perform, hclosed, start, hread, retype, Draft.setText, hplain, performOpen, answer,
    answerFrom, Document.write_of_hasText htext]

/-- What a session answers that is opened, given another text, looked at and committed. -/
theorem run_start_setText_commit (hclosed : s.phase = .closed)
    (hread : Reading.ofValue s.catalog v = .ok reading)
    {first : Reading} (hfirst : Reading.ofExpression s.catalog (unwrap v) = .ok first)
    (hplain : Reading.ofExpression s.catalog x = .ok plain) :
    (s.run [.start v, .setText x, .getDocument, .getTrailing, .commit]).map Prod.fst =
      [.ok .done, .ok .done,
       .ok (.document { plain.document with trailing := reading.document.trailing }),
       .ok (.text reading.document.trailing),
       .ok (.text { plain.document with trailing := reading.document.trailing }.stored)] := by
  have htext := Reading.hasText_of_ofExpression hplain reading.document.trailing
  simp [run, perform, hclosed, start, hread, retype, Draft.setText, hfirst, performOpen, hplain,
    answer, answerFrom, Document.write_of_hasText htext]

/-- A session that was opened and given another text has read both. -/
theorem exists_readings_of_run (hclosed : s.phase = .closed)
    (hok : ∀ outcome ∈ s.run [.start v, .setText x], outcome.1.isOk = true) :
    ∃ reading first plain, Reading.ofValue s.catalog v = .ok reading ∧
      Reading.ofExpression s.catalog (unwrap v) = .ok first ∧
      Reading.ofExpression s.catalog x = .ok plain := by
  cases hread : Reading.ofValue s.catalog v with
  | error e => simp [run, perform, hclosed, start, hread, Except.isOk, Except.toBool] at hok
  | ok reading =>
    cases hfirst : Reading.ofExpression s.catalog (unwrap v) with
    | error e =>
      simp [run, perform, hclosed, start, hread, retype, Draft.setText, hfirst, Except.isOk,
        Except.toBool] at hok
    | ok first =>
      cases hplain : Reading.ofExpression s.catalog x with
      | error e =>
        simp [run, perform, hclosed, start, hread, retype, Draft.setText, hfirst, performOpen,
          hplain, Except.isOk, Except.toBool] at hok
      | ok plain => exact ⟨reading, first, plain, rfl, rfl, rfl⟩

/-- A draft that was typed, committed and opened again is the same draft in canonical text: its
    document is the same up to positions, and it is committed as the same value. -/
theorem run_reopen {s' : Session} (hclosed : s.phase = .closed) (hclosed' : s'.phase = .closed)
    (hcatalog : s'.catalog = s.catalog)
    (hok : ∀ outcome ∈ s.run [.start v, .setText x], outcome.1.isOk = true) :
    ∃ d : Document,
      (s.run [.start v, .setText x, .getDocument, .getTrailing, .commit]).map Prod.fst =
        [.ok .done, .ok .done, .ok (.document d), .ok (.text d.trailing), .ok (.text d.stored)] ∧
      ((∀ a ∈ d.args, a.isFinite = true) → ¬ closeMarker <:+: d.expression →
        ∃ again : Document, again.unplaced = d.unplaced ∧
          (s'.run [.start d.stored, .getText, .getTrailing, .getDocument, .commit]).map Prod.fst =
            [.ok .done, .ok (.text d.expression), .ok (.text d.trailing), .ok (.document again),
             .ok (.text d.stored)]) := by
  obtain ⟨reading, first, plain, hread, hfirst, hplain⟩ := exists_readings_of_run hclosed hok
  let d : Document := { plain.document with trailing := reading.document.trailing }
  refine ⟨d, run_start_setText_commit hclosed hread hfirst hplain, fun hfinite hfree => ?_⟩
  obtain ⟨again, hagain, hsame, -, -⟩ := Reading.ofExpression_expression hplain hfinite
  obtain ⟨value, hvalue, htrailing⟩ := Document.exists_ofValue_stored hfree hagain
  have hunplaced : { again.document with trailing := d.trailing }.unplaced = d.unplaced :=
    congrArg (fun document : Document => { document with trailing := d.trailing }) hsame
  have hexpression : unwrap d.stored = d.expression := Document.unwrap_stored hfree
  refine ⟨{ again.document with trailing := d.trailing }, hunplaced, ?_⟩
  rw [← hcatalog] at hvalue hagain
  rw [run_start_view_commit hclosed' hvalue (by rwa [hexpression]), htrailing, hexpression,
    ← Document.stored_unplaced, hunplaced, Document.stored_unplaced]

/-- A spaced reference and a broken one, with a trailing text: the spaces go, and the rest stays. -/
theorem run_reopen_of_broken :
    let s : Session := { catalog := {}, context := .named "post".toList }
    let v := "@tags()@endtags() tail".toList
    let x := "@a(b).c( 'x' ) @post(id".toList
    let e := "@a(b).c(\"x\") @post(id".toList
    let w := openMarker ++ e ++ closeMarker ++ " tail".toList
    ∃ d again : Document, again.unplaced = d.unplaced ∧
      (s.run [.start v, .setText x, .getDocument, .getTrailing, .commit]).map Prod.fst =
        [.ok .done, .ok .done, .ok (.document d), .ok (.text " tail".toList), .ok (.text w)] ∧
      (s.run [.start w, .getText, .getTrailing, .getDocument, .commit]).map Prod.fst =
        [.ok .done, .ok (.text e), .ok (.text " tail".toList), .ok (.document again),
         .ok (.text w)] := by
  intro s v x e w
  let call : Call := { key := "c".toList, args := [.text "x".toList], position := 5 }
  let r : Reference := { group := "a".toList, field := "b".toList, calls := [call] }
  let d : Document := { nodes := [.reference r, .text " @post(id".toList 14] }
  have hread : Reading.ofValue s.catalog v =
      .ok { document := { trailing := " tail".toList }, brokenCount := 0 } := by decide +kernel
  have hfirst : Reading.ofExpression s.catalog (unwrap v) =
      .ok { document := {}, brokenCount := 0 } := by decide +kernel
  have hplain : Reading.ofExpression s.catalog x = .ok { document := d, brokenCount := 1 } := by
    decide +kernel
  have hok : ∀ outcome ∈ s.run [.start v, .setText x], outcome.1.isOk = true := by decide +kernel
  have hview := @run_start_setText_commit s v x _ _ rfl hread _ hfirst hplain
  obtain ⟨found, hrun, hreopen⟩ := @run_reopen s v x s rfl rfl rfl hok
  rw [hview] at hrun
  simp only [List.cons.injEq, Except.ok.injEq, Answer.document.injEq] at hrun
  obtain rfl : { d with trailing := " tail".toList } = found := hrun.2.2.1
  obtain ⟨again, hsame, hagain⟩ := hreopen (by decide) (by decide +kernel)
  have hexpression : { d with trailing := " tail".toList }.expression = e := by decide +kernel
  have hstored : { d with trailing := " tail".toList }.stored = w := by decide +kernel
  rw [hexpression, hstored] at hagain
  exact ⟨_, again, hsame, hstored ▸ hview, hagain⟩

end Session

end TagText
