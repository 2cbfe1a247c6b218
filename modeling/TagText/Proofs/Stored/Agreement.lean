import TagText.Proofs.Stored.Enclosure

/-!
The expression of a stored value, read inside the value, where it is scanned up to a limit, and by
itself, where it is scanned to its end. Both give the same nodes, the ones inside the value moved on
by the open marker; what is not dynamic is one text.
-/

namespace TagText

open Lexeme

/-- What a reading of an expression becomes behind an open marker and in front of a close marker
    with a trailing text. -/
def Reading.enclosed (trailing : Text) (reading : Reading) : Reading where
  document := { nodes := reading.document.nodes.map (Node.moved openMarker.length), trailing }
  brokenCount := reading.brokenCount

namespace Node

@[simp] theorem isBlankText_moved (k : Int) (node : Node) :
    (node.moved k).isBlankText = node.isBlankText := by
  cases node with
  | text content position => cases content <;> rfl
  | reference r => rfl

/-- Texts are joined in the same way wherever they stand. -/
theorem joinTexts_map_moved (k : Int) (nodes : List Node) :
    joinTexts (nodes.map (moved k)) = (joinTexts nodes).map (moved k) := by
  induction nodes with
  | nil => rfl
  | cons node nodes ih =>
    cases node with
    | reference r => rw [List.map_cons, moved, joinTexts, joinTexts, List.map_cons, ih, moved]
    | text content position =>
      rw [List.map_cons, moved, joinTexts, joinTexts, ih]
      cases hjoined : joinTexts nodes with
      | nil => rfl
      | cons next rest => cases next <;> rfl

end Node

theorem mapM_resolve_moved (c : Catalog) (k : Nat) (parts : List Part) :
    (parts.map (Part.moved k)).mapM (Part.resolve c) =
      (parts.mapM (Part.resolve c)).map (List.map (Node.moved k)) := by
  induction parts with
  | nil => rfl
  | cons part parts ih =>
    rw [List.map_cons, List.mapM_cons, List.mapM_cons, Part.resolve_moved, ih]
    cases part.resolve c with
    | error e => rfl
    | ok node => cases parts.mapM (Part.resolve c) <;> rfl

/-- Where an outline stands shows in the positions of what it is read as, and in nothing else. -/
theorem Outline.resolve_enclosed (c : Catalog) (parts : List Part) (trailing : Text) :
    resolve c { parts := parts.map (Part.moved openMarker.length), trailing } =
      (resolve c { parts, trailing := [] }).map (Reading.enclosed trailing) := by
  have hcount := Part.countP_isBroken_moved openMarker.length parts
  have hkeep : (fun node : Node => !node.isBlankText) ∘ Node.moved openMarker.length =
      fun node => !node.isBlankText := by
    funext node
    simp
  rw [resolve, resolve, mapM_resolve_moved]
  cases parts.mapM (Part.resolve c) with
  | error e => rfl
  | ok nodes =>
    have hnodes : Node.joinTexts ((nodes.map (Node.moved openMarker.length)).filter
          fun node => !node.isBlankText) =
        (Node.joinTexts (nodes.filter fun node => !node.isBlankText)).map
          (Node.moved openMarker.length) := by
      rw [List.filter_map, hkeep, Node.joinTexts_map_moved]
    have hdocument := congrArg (Document.mk · trailing) hnodes
    exact congrArg Except.ok (congrArg₂ Reading.mk hdocument hcount)

namespace Reading

/-- A dynamic value is read as its expression is by itself, refusals included. -/
theorem ofValue_of_region {v : Text} {region : Region} (hregion : Region.ofValue? v = some region)
    (c : Catalog) :
    ofValue c v = (ofExpression c region.expression).map (enclosed region.trailing) := by
  rw [ofValue, ofExpression, ofSymbols, ofSymbols, Outline.ofSymbols_ofValue hregion,
    Outline.ofSymbols_ofExpression, Outline.resolve_enclosed]

/-- A dynamic value is its expression between the markers and the trailing text, and the expression,
    which holds no close marker, is read in it as it is read by itself, seven characters further on.
    A literal value is one text, and its own expression. -/
theorem ofValue_eq_ofExpression (c : Catalog) (v : Text) :
    (isActive v = true → ∃ trailing, v = openMarker ++ unwrap v ++ closeMarker ++ trailing ∧
      ¬ closeMarker <:+: unwrap v ∧
      ofValue c v = (ofExpression c (unwrap v)).map fun reading =>
        { document := { nodes := reading.document.nodes.map (Node.moved 7), trailing }
          brokenCount := reading.brokenCount }) ∧
    (isActive v = false → unwrap v = v ∧
      (v ≠ [] → ofValue c v = .ok { document := { nodes := [.text v 0] }, brokenCount := 0 })) := by
  constructor
  · intro hactive
    obtain ⟨region, hregion⟩ := isActive_iff.mp hactive
    obtain ⟨hvalue, hfree⟩ := Region.ofValue?_eq_some_iff.mp hregion
    rw [unwrap_of_region hregion]
    exact ⟨region.trailing, hvalue, hfree, ofValue_of_region hregion c⟩
  · intro hliteral
    have hnone := not_isActive_iff.mp hliteral
    refine ⟨unwrap_literal hnone, fun hne => ?_⟩
    rw [ofValue_literal hnone, if_neg (by simpa using hne)]

/-- A value that goes on with markers behind its first close marker, and a text that holds markers
    but does not start with one. -/
theorem ofValue_eq_ofExpression_markers :
    let v := "@tags()Hi @a(b).c('x')@d(@endtags()@tags() tail@endtags()".toList
    let w := "Hi @tags()@a(b)@endtags()".toList
    let r (k : Int) : Reference :=
      { group := "a".toList
        field := "b".toList
        calls := [{ key := "c".toList, args := [.text "x".toList], position := k + 5 }]
        position := k }
    let nodes (k : Int) : List Node :=
      [.text "Hi ".toList k, .reference (r (k + 3)), .text "@d(".toList (k + 15)]
    let trailing := "@tags() tail@endtags()".toList
    ofExpression {} (unwrap v) = .ok { document := { nodes := nodes 0 }, brokenCount := 1 } ∧
      ofValue {} v = .ok { document := { nodes := nodes 7, trailing }, brokenCount := 1 } ∧
      ofValue {} w = .ok { document := { nodes := [.text w 0] }, brokenCount := 0 } := by
  intro v w r nodes trailing
  have hread : ofExpression {} (unwrap v) =
      .ok { document := { nodes := nodes 0 }, brokenCount := 1 } := by decide +kernel
  obtain ⟨found, hvalue, -, hv⟩ := (ofValue_eq_ofExpression {} v).1 (by decide +kernel)
  obtain ⟨-, hw⟩ := (ofValue_eq_ofExpression {} w).2 (by decide +kernel)
  have hfront : v = openMarker ++ unwrap v ++ closeMarker ++ trailing := by decide +kernel
  obtain rfl : found = trailing := List.append_cancel_left (hvalue.symm.trans hfront)
  rw [hread] at hv
  exact ⟨hread, hv, hw (by decide)⟩

end Reading

end TagText
