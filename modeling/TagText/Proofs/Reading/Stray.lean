import TagText.Proofs.Editing.Segments
import TagText.Proofs.Reading.Locality

/-!
A reference that breaks off inside its parentheses, in front of any expression. It ends where its
key stops: what follows is read as it is by itself, moved on, and the broken reference is literal
text in front of that.
-/

namespace TagText

open Lexeme

/-- A reference up to its key, without the parenthesis that closes it. -/
def strayReference (group key : Text) : Text := '@' :: group ++ '(' :: key

namespace Node

/-- A text in front of nodes goes in front of their first text. -/
theorem segments_weld_text (s : Text) (position : Int) (nodes : List Node) :
    texts (weld [text s position] nodes) = (texts nodes).modifyHead (s ++ ·) ∧
      references (weld [text s position] nodes) = references nodes := by
  rcases nodes with _ | ⟨_ | r, nodes⟩
  · exact ⟨rfl, rfl⟩
  · simp [weld, texts, Function.comp_def]
  · exact ⟨rfl, rfl⟩

/-- Moving nodes on moves their references, and leaves their texts as they are. -/
theorem segments_map_moved (k : Int) (nodes : List Node) :
    texts (nodes.map (moved k)) = texts nodes ∧
      references (nodes.map (moved k)) = (references nodes).map (Reference.moved k) := by
  induction nodes with
  | nil => exact ⟨rfl, rfl⟩
  | cons node nodes ih =>
    obtain ⟨htexts, hreferences⟩ := ih
    cases node <;> simp [moved, texts, htexts, hreferences]

end Node

section

variable {c : Catalog} {group key rest : Text} {offset : Nat} {reading : Reading}
  (hname : isName group = true) (hkey : ∀ c ∈ key, isFieldChar c)
  (hrest : ∀ c ∈ rest.head?, isFieldChar c = false ∧ c ≠ ')')

theorem Lexeme.rawText_referenceHead (group key : Text) :
    rawText (referenceHead group key) = strayReference group key := by
  simp [referenceHead, strayReference, raw]

include hname hkey in
theorem Lexeme.segment_referenceHead : Segment (referenceHead group key) := by
  have hpieces := @ofReference_broken group key [] hkey (by simp)
  have hsegment := Segment.reference group (key ++ []) hname (by rw [hpieces])
  rwa [hpieces] at hsegment

include hrest in
/-- A reference whose key is not closed ends where the key does. -/
theorem Lexeme.endsBefore_referenceHead : EndsBefore (referenceHead group key) rest := by
  simpa [EndsBefore, referenceHead, endsBefore] using hrest

/-- Without its closing parenthesis, nothing of a reference is complete. -/
theorem Part.ofSegment_referenceHead (group key : Text) (offset : Nat) :
    ofSegment offset (referenceHead group key) =
      .broken (strayReference group key)
        { group := [], field := [], calls := [], position := offset } := by
  rw [← rawText_referenceHead]
  rfl

include hname hkey hrest

theorem brokenCount_stray_append :
    brokenCount (strayReference group key ++ rest) = brokenCount rest + 1 := by
  have hsegment := segment_referenceHead hname hkey
  have hends : EndsBefore (ofExpression (strayReference group key)) rest := by
    rw [← rawText_referenceHead, hsegment.ofExpression_eq]
    exact endsBefore_referenceHead hrest
  have hone : brokenCount (strayReference group key) = 1 := by
    rw [brokenCount, ← rawText_referenceHead, partsOf_of_segment hsegment,
      Part.ofSegment_referenceHead]
    rfl
  rw [brokenCount_append hends, hone, Nat.add_comm]

theorem partsRead_stray_append {nodes : List Node}
    (hread : PartsRead c (offset + (strayReference group key).length) rest nodes) :
    PartsRead c offset (strayReference group key ++ rest)
      (.text (strayReference group key) offset :: nodes) := by
  have hsegment := segment_referenceHead hname hkey
  have hnode : (Part.ofSegment offset (referenceHead group key)).resolve c =
      .ok (.text (strayReference group key) offset) := by
    rw [Part.ofSegment_referenceHead]
    rfl
  rw [← rawText_referenceHead] at hread hnode ⊢
  exact (partsRead_segment hsegment (endsBefore_referenceHead hrest)).mpr
    ⟨_, nodes, hnode, hread, rfl⟩

namespace Reading

/-- The nodes behind a stray reference are those of what follows it, moved on. -/
theorem ofExpression_stray_append_eq_weld (hread : ofExpression c rest = .ok reading) :
    ofExpression c (strayReference group key ++ rest) = .ok
      { document :=
          { nodes := Node.weld [.text (strayReference group key) 0]
              (reading.document.nodes.map (Node.moved (strayReference group key).length)) }
        brokenCount := reading.brokenCount + 1 } := by
  obtain ⟨nodes, hnodes, rfl⟩ := ofExpression_eq_ok_iff.mp hread
  have hmoved := hnodes.moved (strayReference group key).length
  rw [Nat.add_zero, ← Nat.zero_add (strayReference group key).length] at hmoved
  refine ofExpression_eq_ok_iff.mpr ⟨_, partsRead_stray_append hname hkey hrest hmoved, ?_⟩
  rw [Node.joinTexts_cons, Node.joinTexts_map_moved, brokenCount_stray_append hname hkey hrest]
  simp

end Reading

end

namespace Reading

/-- A stray reference swallows nothing. Put in front of an expression that its key does not go on
    with and that does not close it, it changes the reading of that expression in three ways only:
    the references stand further on by its length, its characters are in front of the first literal
    text, and there is one more broken reference. -/
theorem ofExpression_stray_append {c : Catalog} {group key rest : Text} {reading : Reading}
    (hname : isName group = true) (hkey : ∀ c ∈ key, isFieldChar c)
    (hrest : ∀ c ∈ rest.head?, isFieldChar c = false ∧ c ≠ ')')
    (hread : ofExpression c rest = .ok reading) :
    ∃ whole, ofExpression c (strayReference group key ++ rest) = .ok whole ∧
      whole.document.references =
        reading.document.references.map (Reference.moved (strayReference group key).length) ∧
      Node.texts whole.document.nodes =
        (Node.texts reading.document.nodes).modifyHead (strayReference group key ++ ·) ∧
      whole.document.trailing = reading.document.trailing ∧
      whole.brokenCount = reading.brokenCount + 1 := by
  have htrailing := (ofExpression_eq_ok_iff_cut.mp hread).1
  refine ⟨_, ofExpression_stray_append_eq_weld hname hkey hrest hread, ?_, ?_, htrailing.symm, rfl⟩
  · simp only [Document.references_eq, Node.segments_weld_text, Node.segments_map_moved]
  · simp only [Node.segments_weld_text, Node.segments_map_moved]

/-- Behind a stray reference stand another one, a text, and a complete reference. -/
theorem ofExpression_stray_append_stray :
    let rest := "@c( x @d(e).f('y')".toList
    let found (position : Int) : Reference :=
      { group := "d".toList, field := "e".toList, position
        calls := [{ key := "f".toList, args := [.text "y".toList], position := position + 5 }] }
    ofExpression {} rest = .ok
        { document := { nodes := [.text "@c( x ".toList 0, .reference (found 6)] }
          brokenCount := 1 } ∧
      ∃ whole, ofExpression {} ("@a(b:".toList ++ rest) = .ok whole ∧
        whole.document.references = [found 11] ∧
        Node.texts whole.document.nodes = ["@a(b:@c( x ".toList, []] ∧ whole.brokenCount = 2 := by
  intro rest found
  have hread : ofExpression {} rest = .ok
      { document := { nodes := [.text "@c( x ".toList 0, .reference (found 6)] }
        brokenCount := 1 } := by decide +kernel
  have hkey : ∀ c ∈ "b:".toList, isFieldChar c := List.all_eq_true.mp (by decide +kernel)
  have hat : isFieldChar '@' = false ∧ '@' ≠ ')' := by decide +kernel
  obtain ⟨whole, hwhole, hreferences, htexts, -, hbroken⟩ :=
    @ofExpression_stray_append {} "a".toList "b:".toList rest _ (by decide +kernel) hkey
      (by simpa [rest] using hat) hread
  exact ⟨hread, whole, hwhole, hreferences, htexts, hbroken⟩

end Reading

end TagText
