import TagText.Proofs.Lexing.Segments

/-!
Texts put one behind the other. If the first is over in front of the second, both are split as they
are by themselves.
-/

namespace TagText.Lexeme

theorem ofExpression_nil : ofExpression [] = [] := by
  rw [ofExpression.eq_def]

/-- Nothing that starts in a text and is over in it becomes an opening by what follows. -/
theorem opening?_append_of_endsBefore {sign : Char} {s tail : Text} (hs : s ≠ [])
    (hends : EndsBefore (ofExpression s) tail) (hnone : opening? sign s = none) :
    opening? sign (s ++ tail) = none := by
  obtain ⟨pieces, rest, hsegment, hfront, rfl⟩ := Segment.exists_front hs
  rw [hsegment.split hfront] at hends
  cases hsegment with
  | literal run hrun _ _ =>
    have hwhole : opening? sign (run ++ rest) = none := by simpa [raw] using hnone
    have hinner := opening?_eq_none_of_append hwhole
    have hnext : ReferenceOrEnd (rest ++ tail) := by
      rcases hfront (text run) rfl with rfl | hstarts
      · exact hends (text run) (by simp [ofExpression_nil])
      · exact Or.inr (startsReference_append hstarts tail)
    have happend := opening?_append_atSignOrEnd hrun (atSignOrEnd_of_referenceOrEnd hnext) hinner
    simpa [raw] using happend
  | reference word inner hname hwhole =>
    rw [rawText_of_whole hwhole] at hnone ⊢
    by_cases hsign : sign = '@'
    · subst hsign
      have hsome : opening? '@' ('@' :: word ++ '(' :: inner ++ rest) =
          some (word, inner ++ rest) :=
        opening?_eq_some_iff.mpr ⟨hname, by simp⟩
      rw [hsome] at hnone
      cases hnone
    · simp [opening?, Ne.symm hsign]

/-- Where a segment is over in front of a text that is over itself, it is over in front of both. -/
theorem EndsBefore.append {pieces : List Lexeme} {rest tail : Text} (hrest : rest ≠ [])
    (hends : EndsBefore (ofExpression rest) tail) (hfront : EndsBefore pieces rest) :
    EndsBefore pieces (rest ++ tail) := by
  intro last hlast
  have hover := hfront last hlast
  cases last with
  | text run =>
    rcases hover with hnil | hstarts
    · exact absurd hnil hrest
    · exact Or.inr (startsReference_append hstarts tail)
  | closeParen => exact opening?_append_of_endsBefore hrest hends hover
  | field key =>
    obtain ⟨c, rest, rfl⟩ := List.exists_cons_of_ne_nil hrest
    exact hover
  | _ => exact absurd hover hrest

theorem ofExpression_append {s tail : Text} (hends : EndsBefore (ofExpression s) tail) :
    ofExpression (s ++ tail) = ofExpression s ++ ofExpression tail := by
  induction s using segment_induction with
  | nil => simp [ofExpression_nil]
  | segment pieces rest hsegment hfront ih =>
    rw [hsegment.split hfront] at hends ⊢
    rw [List.append_assoc]
    by_cases hrest : rest = []
    · subst hrest
      rw [ofExpression_nil, List.append_nil] at hends ⊢
      rw [List.nil_append, hsegment.split hends]
    · have hinner : EndsBefore (ofExpression rest) tail :=
        (endsBefore_append_iff (ofExpression_ne_nil hrest)).mp hends
      rw [hsegment.split (EndsBefore.append hrest hinner hfront), ih hinner, List.append_assoc]

/-- Whether a text ends inside an argument list that is not closed, so that whatever follows is
    taken for an argument. -/
def leavesOpen (s : Text) : Bool :=
  match (ofExpression s).getLast? with
  | none | some (text _) | some (field _) | some closeParen => false
  | some _ => true

/-- A text that leaves no list open is over in front of a reference. -/
theorem endsBefore_of_not_leavesOpen {s tail : Text} (hopen : leavesOpen s = false)
    (htail : ReferenceOrEnd tail) : EndsBefore (ofExpression s) tail := by
  intro last hlast
  rw [leavesOpen, hlast] at hopen
  have hat := atSignOrEnd_of_referenceOrEnd htail
  cases last with
  | text run => exact htail
  | closeParen => exact opening?_dot_of_atSignOrEnd hat
  | field key =>
    intro c hc
    rw [hat c hc]
    decide
  | _ => simp at hopen

end TagText.Lexeme
