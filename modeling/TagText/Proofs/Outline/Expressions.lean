import TagText.Proofs.Outline.Embedding

/-!
The outline of an expression is made of those of its pieces: texts put one behind the other give the
parts of both, and a part is a reference exactly when the grammar derives its text.
-/

namespace TagText

open Lexeme Outline

theorem Outline.ofSymbols_ofExpression (s : Text) :
    ofSymbols s (Symbol.ofExpression s) = { parts := partsOf s, trailing := [] } := by
  have hwhole := embeds s [] [] {} [] rfl resumes_nil
  simp only [List.nil_append, List.append_nil, ofSymbols_end] at hwhole
  have htrailing := congrArg Outline.trailing hwhole
  rw [partsOf, Symbol.ofExpression_eq]
  cases houtline : ofSymbols s (Symbol.locate {} (Lexeme.ofExpression s)) with
  | mk parts trailing =>
    rw [houtline] at htrailing
    simpa [prepend] using htrailing

theorem partsOf_segment {pieces : List Lexeme} (hsegment : Segment pieces) {rest : Text}
    (hends : EndsBefore pieces rest) :
    partsOf (rawText pieces ++ rest) =
      Part.ofSegment 0 pieces :: (partsOf rest).map (Part.moved (rawText pieces).length) :=
  partsOf_segment_of_embeds hsegment hends (embeds rest)

theorem partsOf_of_segment {pieces : List Lexeme} (hsegment : Segment pieces) :
    partsOf (rawText pieces) = [Part.ofSegment 0 pieces] := by
  have hparts := partsOf_segment hsegment fun last _ => endsBefore_nil last
  rwa [List.append_nil, partsOf_nil] at hparts

theorem partsOf_append {s tail : Text} (hends : EndsBefore (ofExpression s) tail) :
    partsOf (s ++ tail) = partsOf s ++ (partsOf tail).map (Part.moved s.length) := by
  induction s using segment_induction with
  | nil =>
    simp [partsOf_nil, Part.moved_zero]
  | segment pieces rest hsegment hfront ih =>
    rw [hsegment.split hfront] at hends
    by_cases hrest : rest = []
    · subst hrest
      rw [ofExpression_nil, List.append_nil] at hends
      rw [List.append_nil, partsOf_segment hsegment hends, partsOf_of_segment hsegment]
      rfl
    · have hinner : EndsBefore (ofExpression rest) tail :=
        (endsBefore_append_iff (ofExpression_ne_nil hrest)).mp hends
      rw [List.append_assoc, partsOf_segment hsegment (EndsBefore.append hrest hinner hfront),
        partsOf_segment hsegment hfront, ih hinner, List.map_append, Part.map_moved_moved,
        List.length_append, List.cons_append]

theorem Lexeme.Segment.ofExpression_eq {pieces : List Lexeme} (hsegment : Segment pieces) :
    ofExpression (rawText pieces) = pieces := by
  have hsplit := hsegment.split fun last _ => endsBefore_nil last
  rwa [List.append_nil, ofExpression_nil, List.append_nil] at hsplit

/-- A segment is a reference exactly when the grammar derives its text. -/
theorem Part.ofSegment_eq_reference_iff {pieces : List Lexeme} (hsegment : Segment pieces)
    {offset : Nat} {r : RawReference} :
    ofSegment offset pieces = .reference r ↔ Grammar.Reference offset (rawText pieces) r := by
  constructor
  · intro hpart
    cases hsegment with
    | literal run hrun _ _ => cases hpart
    | reference word inner hname hwhole =>
      obtain ⟨tail, hshape, -⟩ := ofReference_shape word inner
      cases hfound : Outline.reference offset (Symbol.placed { offset := offset + 1 } tail) with
      | mk found rest =>
        rw [hshape, ofSegment, List.tail_cons, hfound] at hpart
        · cases rest with
          | none => cases hpart
          | some rest =>
            obtain rfl : found = r := by simpa [ofRead] using hpart
            exact (Grammar.reference_of_read hname rfl (by rw [hshape]; exact hfound)).2.2
        · simp
  · intro hderived
    obtain ⟨derived, hreads, hraw, -, hread⟩ := hderived.reads
    obtain rfl : derived = pieces := by
      rw [← hreads.ofExpression_eq, hraw, hsegment.ofExpression_eq]
    cases hreads with
    | literal run hrun _ _ => cases hread { offset := offset + 1 } rfl
    | reference word inner hname hwhole =>
      obtain ⟨tail, hshape, -⟩ := ofReference_shape word inner
      have hfound := hread { offset := offset + 1 } rfl
      rw [hshape] at hfound ⊢
      rw [ofSegment, hfound]
      · rfl
      · simp

/-- The pieces of a derivable reference end with a parenthesis. -/
theorem Grammar.Reference.closed {pieces : List Lexeme} (hsegment : Segment pieces) {offset : Nat}
    {r : RawReference} (hderived : Grammar.Reference offset (rawText pieces) r) :
    Closed pieces := by
  obtain ⟨derived, hreads, hraw, hclosed, -⟩ := hderived.reads
  rwa [← hreads.ofExpression_eq, hraw, hsegment.ofExpression_eq] at hclosed

end TagText
