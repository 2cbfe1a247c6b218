import TagText.Proofs.Lexing.Places
import TagText.Proofs.Stored.Agreement

/-!
The symbols of expressions and of stored values tile their texts. Those of a dynamic value stand in
front of its first close marker, up to the symbol for the marker itself.
-/

namespace TagText

open Lexeme

/-- A mark stands at an offset of a text and nowhere in front of it. -/
structure Text.FirstAt (mark text : Text) (k : Nat) : Prop where
  found : mark <+: text.drop k
  first : ∀ j, mark <+: text.drop j → k ≤ j

namespace Symbol

/-- Whether a symbol is a marker. -/
def isMarker (s : Symbol) : Bool := s.kind = .openMarker || s.kind = .closeMarker

theorem not_isMarker_of_mem_placed {s : Text} {place : Cursor} {x : Symbol}
    (hx : x ∈ placed place (Lexeme.ofExpression s)) : x.isMarker = false := by
  induction s using segment_induction generalizing place with
  | nil =>
    rw [ofExpression_nil] at hx
    cases hx
  | segment pieces rest hsegment hends ih =>
    rw [hsegment.split hends, placed_append] at hx
    rcases List.mem_append.mp hx with hx | hx
    · cases hsegment with
      | literal run =>
        obtain rfl := List.mem_singleton.mp hx
        rfl
      | reference word inner =>
        obtain ⟨tail, hshape, hinner⟩ := ofReference_shape word inner
        rw [hshape] at hx
        rcases List.mem_cons.mp hx with rfl | hx
        · rfl
        · have hresumes := hinner _ x hx
          cases hkind : x.kind <;> simp_all [isMarker, SymbolKind.resumes]
    · exact ih hx

/-- Where the symbols of a dynamic value stand: those of its expression end in front of the first
    close marker, and a symbol for the marker starts there. -/
def Framed (close : Nat) (symbols : List Symbol) : Prop :=
  ∃ opened inner closed after, symbols = opened :: (inner ++ closed :: after) ∧
    opened.kind = .openMarker ∧ closed.kind = .closeMarker ∧ closed.start = close ∧
    (∀ x ∈ inner, x.isMarker = false ∧ x.stop ≤ close) ∧ ∀ x ∈ after, x.isMarker = false

variable {text : Text} {region : Region}

theorem firstAt_closeMarker (hregion : Region.ofValue? text = some region) :
    Text.FirstAt closeMarker text (openMarker ++ region.expression).length := by
  obtain ⟨rfl, hfree⟩ := Region.ofValue?_eq_some_iff.mp hregion
  have hcut : Text.cut? closeMarker region.value =
      some (openMarker ++ region.expression, region.trailing) :=
    Text.cut?_append at_not_mem_closeMarker ((closeMarker_openMarker_iff _).not.mpr hfree)
  have hsplit : region.value =
      openMarker ++ region.expression ++ (closeMarker ++ region.trailing) := by
    simp [Region.value]
  constructor
  · rw [hsplit, List.drop_left]
    exact List.prefix_append _ _
  · rintro j ⟨rest, hrest⟩
    have hwhole : region.value = region.value.take j ++ closeMarker ++ rest := by
      rw [List.append_assoc, hrest, List.take_append_drop]
    exact (Text.length_le_of_cut? hcut hwhole).trans (List.length_take_le _ _)

theorem not_mem_ofLiteral (s : Text) :
    (∀ piece ∈ ofLiteral s, piece.isSilent = false) ∧
      ∀ quote body, quoted quote body ∉ ofLiteral s := by
  unfold ofLiteral
  split <;> simp [isSilent]

theorem rawText_ofLiteral (s : Text) : rawText (ofLiteral s) = s := by
  cases s <;> simp [ofLiteral, raw]

/-- The pieces of a dynamic value tile it. -/
theorem rawText_of_region (hregion : Region.ofValue? text = some region) :
    rawText (.openMarker :: (Lexeme.ofExpression region.expression ++
      .closeMarker :: ofLiteral region.trailing)) = text := by
  rw [(Region.ofValue?_eq_some_iff.mp hregion).1]
  simp [rawText_ofExpression, rawText_ofLiteral, raw, Region.value]

theorem tiles_ofExpression (text : Text) : Tiles text text.length (ofExpression text) := by
  have hordered := ordered_ofExpression [] text
  rw [List.append_nil] at hordered
  have htiles := tiles_of_ordered hordered nofun nofun
  rwa [rawText_ofExpression, ← ofExpression_eq] at htiles

theorem tiles_ofValue_literal (hnone : Region.ofValue? text = none) :
    Tiles text text.length (ofValue text) := by
  obtain ⟨hloud, hquoted⟩ := not_mem_ofLiteral text
  have hordered : Ordered [] false (ofLiteral text) := by
    unfold ofLiteral
    split
    · exact .done
    · exact .outside rfl .done
  have htiles := tiles_of_ordered hordered nofun nofun
  rwa [rawText_ofLiteral, ← ofValue_literal hnone] at htiles

theorem tiles_ofValue_of_region (hregion : Region.ofValue? text = some region) :
    Tiles text (openMarker ++ region.expression).length (ofValue text) := by
  obtain ⟨hloud, hquoted⟩ := not_mem_ofLiteral region.trailing
  have hordered := ordered_ofExpression (.closeMarker :: ofLiteral region.trailing)
    region.expression
  have htiles := tiles_of_ordered (@Ordered.outside _ .openMarker _ rfl hordered)
    (List.forall_mem_cons.mpr ⟨rfl, hloud⟩) (by simpa using hquoted)
  have hraw := rawText_of_region hregion
  have hlength : text.length - (rawText (.closeMarker :: ofLiteral region.trailing)).length =
      (openMarker ++ region.expression).length := by
    rw [← hraw]
    simp only [rawText_cons, rawText_append, rawText_ofExpression, raw, List.length_append]
    omega
  rw [hraw, hlength] at htiles
  rw [ofValue_of_region hregion]
  exact htiles

theorem framed_ofValue (hregion : Region.ofValue? text = some region) :
    Framed (openMarker ++ region.expression).length (ofValue text) := by
  have hplace : (Cursor.past {} openMarker).offset = openMarker.length := rfl
  rw [ofValue_of_region hregion, locate]
  simp only [symbol?, raw]
  rw [locate_append, locate]
  simp only [symbol?, raw]
  refine ⟨_, _, _, _, rfl, rfl, rfl, ?_, fun x hx => ⟨not_isMarker_of_mem_placed hx, ?_⟩,
    fun x hx => ?_⟩
  · simp [rawText_ofExpression]
  · obtain ⟨front, piece, back, hpieces, -, hstart, hstop⟩ := exists_of_mem_placed hx
    have hlength := congrArg (fun pieces => (rawText pieces).length) hpieces
    simp only [rawText_ofExpression, rawText_append, rawText_cons, List.length_append] at hlength
    rw [hstop, hstart, hplace, List.length_append]
    omega
  · unfold ofLiteral at hx
    split at hx
    · obtain rfl := List.mem_singleton.mp hx
      rfl
    · simp only [locate, symbol?, List.mem_cons, List.not_mem_nil, or_false] at hx
      rcases hx with rfl | rfl <;> rfl

/-- Nothing of a text is lost among its symbols. The symbols of an expression, and those of a stored
    value, follow one another from the first character to the end, each with the text that stands
    there, and what they leave out is skipped inside an argument list: white space, or white space
    and a quote that nothing closes up to the end of the expression. The expression of a dynamic
    value ends with the first close marker. -/
theorem tiles (text : Text) :
    Tiles text text.length (ofExpression text) ∧
      (isActive text = false → Tiles text text.length (ofValue text)) ∧
      (isActive text = true → ∃ close, Text.FirstAt closeMarker text close ∧
        Tiles text close (ofValue text) ∧ Framed close (ofValue text)) := by
  refine ⟨tiles_ofExpression text, fun hliteral => ?_, fun hactive => ?_⟩
  · exact tiles_ofValue_literal (not_isActive_iff.mp hliteral)
  · obtain ⟨region, hregion⟩ := isActive_iff.mp hactive
    exact ⟨_, firstAt_closeMarker hregion, tiles_ofValue_of_region hregion,
      framed_ofValue hregion⟩

/-- A quoted argument with a backslash, white space around an argument and a quote without an end,
    behind which a second close marker stands. -/
theorem tiles_unterminated :
    let text := "@tags()@a(b).c( 'x\\'y' , 1 ).d( \"z@endtags()\"@endtags()".toList
    (isActive text = true ∧ ∃ close, Text.FirstAt closeMarker text close ∧
      Tiles text close (ofValue text) ∧ Framed close (ofValue text)) ∧
      (ofValue text).map (fun s => (s.kind, String.ofList s.value, s.start, s.stop)) =
        [(.openMarker, "@tags()", 0, 7), (.atSign, "@", 7, 8), (.name, "a", 8, 9),
         (.openParen, "(", 9, 10), (.field, "b", 10, 11), (.closeParen, ")", 11, 12),
         (.dot, ".", 12, 13), (.name, "c", 13, 14), (.openParen, "(", 14, 15),
         (.quoted, "x'y", 16, 22), (.comma, ",", 23, 24), (.bare, "1", 25, 26),
         (.closeParen, ")", 27, 28), (.dot, ".", 28, 29), (.name, "d", 29, 30),
         (.openParen, "(", 30, 31), (.closeMarker, "@endtags()", 34, 44),
         (.text, "\"@endtags()", 44, 55), (.endOfText, "", 55, 55)] := by
  intro text
  have hactive : isActive text = true := by decide +kernel
  refine ⟨⟨hactive, (tiles text).2.2 hactive⟩, ?_⟩
  decide +kernel

end Symbol

end TagText
