import TagText.Proofs.Lexing.Limits
import TagText.Proofs.Stored.Markers

/-!
The parts of a stored value. A value is dynamic exactly when it has an expression and a trailing
text, and the scanner, which never cuts the value, finds the pieces of that expression in front of
its limit and the trailing text behind the close marker there.
-/

namespace TagText

open Lexeme (ofLiteral)

theorem closeMarker_eq : closeMarker = '@' :: "endtags()".toList := rfl

theorem at_not_mem_closeMarker : '@' ∉ "endtags()".toList := by decide

theorem Text.not_infix_of_cut? {d : Char} {mark s before after : Text}
    (hcut : cut? (d :: mark) s = some (before, after)) : ¬ d :: mark <:+: before := by
  rintro ⟨x, y, rfl⟩
  have hs : s = x ++ d :: mark ++ (y ++ d :: mark ++ after) := by simpa using cut?_eq hcut
  have hle := length_le_of_cut? hcut hs
  simp only [List.length_append, List.length_cons] at hle
  omega

/-- Behind an open marker, a value is cut at its close marker. -/
theorem Region.ofValue?_openMarker (inner : Text) :
    ofValue? (openMarker ++ inner) = (Text.cut? closeMarker inner).map fun (expression, trailing) =>
      { expression, trailing } := by
  rw [ofValue?, List.isPrefixOf?_eq_some_iff_append_eq.mpr rfl]

/-- A value is dynamic with some parts when it is made of them and the first close marker is the one
    that ends the expression. -/
theorem Region.ofValue?_eq_some_iff {v : Text} {region : Region} :
    ofValue? v = some region ↔ v = region.value ∧ ¬ closeMarker <:+: region.expression := by
  obtain ⟨s, trailing⟩ := region
  constructor
  · intro hregion
    rw [ofValue?] at hregion
    split at hregion
    · cases hregion
    · rename_i inner hinner
      obtain ⟨⟨before, after⟩, hcut, heq⟩ := Option.map_eq_some_iff.mp hregion
      cases heq
      refine ⟨?_, Text.not_infix_of_cut? hcut⟩
      rw [← List.append_eq_of_isPrefixOf?_eq_some hinner, Text.cut?_eq hcut, value]
      simp
  · rintro ⟨rfl, hs⟩
    have hcut : Text.cut? closeMarker (s ++ closeMarker ++ trailing) = some (s, trailing) :=
      Text.cut?_append at_not_mem_closeMarker hs
    rw [value, List.append_assoc, List.append_assoc, ofValue?_openMarker, ← List.append_assoc, hcut]
    rfl

theorem Region.ofValue?_eq_none {v : Text} (hv : ¬ closeMarker <:+: v) : ofValue? v = none := by
  cases hregion : ofValue? v with
  | none => rfl
  | some region =>
    obtain ⟨rfl, -⟩ := ofValue?_eq_some_iff.mp hregion
    exact absurd ⟨openMarker ++ region.expression, region.trailing, rfl⟩ hv

/-- No close marker starts inside the open marker. -/
theorem closeMarker_openMarker_iff (s : Text) :
    closeMarker <:+: openMarker ++ s ↔ closeMarker <:+: s := by
  refine ⟨fun hinner => ?_, List.infix_append_of_infix_right⟩
  have hopen : openMarker ++ s = '@' :: ("tags()".toList ++ s) := rfl
  rw [hopen, List.infix_cons_iff] at hinner
  rcases hinner with hfront | hinner
  · have hsecond := (List.cons_prefix_cons.mp hfront).2
    exact absurd (List.cons_prefix_cons.mp hsecond).1 (by decide)
  · exact Text.infix_of_head_not_mem (by decide) hinner

/-- A text in markers is dynamic, whatever its first close marker is. -/
theorem Region.isActive_value (region : Region) : isActive region.value = true := by
  rw [isActive, Bool.and_eq_true, List.isPrefixOf_iff_prefix, Text.holds_iff]
  refine ⟨⟨region.expression ++ closeMarker ++ region.trailing, ?_⟩, ?_⟩
  · simp [value]
  · exact ⟨openMarker ++ region.expression, region.trailing, rfl⟩

/-- A value is dynamic exactly when it has the parts of one. -/
theorem isActive_iff {v : Text} :
    isActive v = true ↔ ∃ region, Region.ofValue? v = some region := by
  constructor
  · rw [isActive, Bool.and_eq_true, List.isPrefixOf_iff_prefix, Text.holds_iff]
    rintro ⟨⟨inner, rfl⟩, hclose⟩
    rw [closeMarker_openMarker_iff] at hclose
    rw [Region.ofValue?_openMarker]
    cases hcut : Text.cut? closeMarker inner with
    | none => exact absurd hclose (Text.cut?_eq_none_iff.mp hcut)
    | some found => exact ⟨_, rfl⟩
  · rintro ⟨region, hregion⟩
    obtain ⟨rfl, -⟩ := Region.ofValue?_eq_some_iff.mp hregion
    exact region.isActive_value

theorem not_isActive_iff {v : Text} : isActive v = false ↔ Region.ofValue? v = none := by
  rw [← Bool.not_eq_true, isActive_iff, Option.eq_none_iff_forall_ne_some, not_exists]

theorem unwrap_of_region {v : Text} {region : Region} (hregion : Region.ofValue? v = some region) :
    unwrap v = region.expression := by
  rw [unwrap, hregion]

/-- An expression without a close marker comes back out of its value. -/
theorem Region.unwrap_value (region : Region) (hfree : ¬ closeMarker <:+: region.expression) :
    unwrap region.value = region.expression :=
  unwrap_of_region (ofValue?_eq_some_iff.mpr ⟨rfl, hfree⟩)

theorem unwrap_literal {v : Text} (hnone : Region.ofValue? v = none) : unwrap v = v := by
  rw [unwrap, hnone]

namespace Text

/-- A mark is found where a text is cut at it. -/
theorem find?_of_cut? {mark s before after : Text} (hcut : cut? mark s = some (before, after)) :
    find? mark s = some before.length := by
  rw [find?]
  fun_induction cut? mark s generalizing before with
  | case1 =>
    obtain ⟨rest, hrest, heq⟩ := Option.map_eq_some_iff.mp hcut
    cases heq
    rw [search?, hrest]
    rfl
  | case2 c s rest hrest =>
    obtain ⟨rfl, rfl⟩ := by simpa using hcut
    rw [search?, hrest]
    rfl
  | case3 c s hnone ih =>
    obtain ⟨front, hfront, rfl⟩ := by simpa using hcut
    obtain ⟨found, hfound, hoffset⟩ := Option.map_eq_some_iff.mp (ih hfront)
    rw [search?, hnone]
    simp [hfound, hoffset]

end Text

namespace Symbol

variable {v : Text}

/-- The limit in a dynamic value leaves its expression in front of it, and the symbols there are
    those that the expression has by itself. -/
theorem ofValue_of_region {region : Region} (hregion : Region.ofValue? v = some region) :
    ofValue v = locate {} (.openMarker :: (Lexeme.ofExpression region.expression ++
      .closeMarker :: ofLiteral region.trailing)) := by
  have hactive := isActive_iff.mpr ⟨region, hregion⟩
  obtain ⟨hvalue, hfree⟩ := Region.ofValue?_eq_some_iff.mp hregion
  have hinner : v.drop openMarker.length =
      region.expression ++ closeMarker ++ region.trailing := by
    rw [hvalue, Region.value, List.append_assoc, List.append_assoc, List.drop_left,
      ← List.append_assoc]
  have hcut : Text.cut? closeMarker (region.expression ++ closeMarker ++ region.trailing) =
      some (region.expression, region.trailing) :=
    Text.cut?_append at_not_mem_closeMarker hfree
  have hscan := @Lexeme.scan_upTo (closeMarker ++ region.trailing) region.expression
  rw [Window.upTo, ← List.append_assoc] at hscan
  rw [ofValue, Lexeme.scanValue, if_pos hactive]
  simp only [hinner, Text.find?_of_cut? hcut, Option.getD_some, hscan, Window.upTo,
    List.nil_append, List.drop_left, List.cons_append]

theorem ofValue_literal (hnone : Region.ofValue? v = none) :
    ofValue v = locate {} (ofLiteral v) := by
  rw [ofValue, Lexeme.scanValue, not_isActive_iff.mpr hnone]
  rfl

end Symbol

end TagText
