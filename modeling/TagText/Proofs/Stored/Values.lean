import TagText.Proofs.Reading.Expressions
import TagText.Proofs.Stored.Regions

/-!
Reading stored values. Between the markers of a dynamic value stands an expression without a close
marker, which is read as if it stood alone; a literal value is one text.
-/

namespace TagText

open Lexeme (ofLiteral symbol? raw Resumes)

namespace Outline

theorem ofSymbols_openMarker (source : Text) (pieces : List Lexeme) :
    ofSymbols source (Symbol.locate {} (.openMarker :: pieces)) =
      ofSymbols source (Symbol.locate (Cursor.past {} openMarker) pieces) := by
  rw [Symbol.locate]
  simp only [symbol?, raw]
  rw [ofSymbols.eq_def]

theorem ofSymbols_closeMarker {source : Text} {place : Cursor} (pieces : List Lexeme) :
    ofSymbols source (Symbol.locate place (.closeMarker :: pieces)) =
      { parts := [], trailing := source.drop (place.offset + closeMarker.length) } := by
  rw [Symbol.locate]
  simp only [symbol?, raw]
  rw [ofSymbols.eq_def]
  simp [Cursor.offset_past]

/-- The outline of a dynamic value is that of its expression, behind the open marker. -/
theorem ofSymbols_ofValue {v : Text} {region : Region} (hregion : Region.ofValue? v = some region) :
    ofSymbols v (Symbol.ofValue v) =
      { parts := (partsOf region.expression).map (Part.moved openMarker.length)
        trailing := region.trailing } := by
  obtain ⟨hv, -⟩ := Region.ofValue?_eq_some_iff.mp hregion
  have hplace : (Cursor.past {} openMarker).offset = openMarker.length := rfl
  have hinner := embeds region.expression openMarker (closeMarker ++ region.trailing)
    (Cursor.past {} openMarker) (.closeMarker :: ofLiteral region.trailing) hplace
    (by simp [Resumes, symbol?, SymbolKind.resumes])
  have hsource : openMarker ++ region.expression ++ (closeMarker ++ region.trailing) =
      v := by simp [hv, Region.value]
  have htrailing : v.drop (openMarker.length + region.expression.length +
      closeMarker.length) = region.trailing := by
    rw [← hsource, ← List.append_assoc]
    exact List.drop_left' (by simp [Nat.add_assoc])
  rw [hsource, ofSymbols_closeMarker, Cursor.offset_past _ region.expression, hplace,
    htrailing] at hinner
  rw [Symbol.ofValue_of_region hregion, ofSymbols_openMarker, hinner]
  simp [prepend]

end Outline

namespace Reading

/-- A literal value is read as one text, or as nothing. -/
theorem ofValue_literal {v : Text} (hnone : Region.ofValue? v = none) (c : Catalog) :
    ofValue c v =
      .ok { document := { nodes := if v.isEmpty then [] else [.text v 0] }, brokenCount := 0 } := by
  rw [ofValue, ofSymbols, Symbol.ofValue_literal hnone]
  cases v with
  | nil =>
    have houtline := Outline.ofSymbols_end [] {}
    exact congrArg (Outline.resolve c) houtline
  | cons d v =>
    simp only [ofLiteral, List.isEmpty_cons, Bool.false_eq_true, if_false, Symbol.locate, symbol?]
    rw [Outline.ofSymbols_text rfl, Outline.ofSymbols.eq_def]
    rfl

/-- A dynamic value is read as the nodes that cut its expression, with its trailing text. -/
theorem ofValue_eq_ok_iff_cut {c : Catalog} {v : Text} {region : Region}
    (hregion : Region.ofValue? v = some region) {reading : Reading} :
    ofValue c v = .ok reading ↔ reading.document.trailing = region.trailing ∧
      Cut c openMarker.length region.expression reading.document.nodes reading.brokenCount := by
  rw [ofValue, ofSymbols, Outline.ofSymbols_ofValue hregion, Outline.resolve_eq_ok_iff_cut]

end Reading

end TagText
