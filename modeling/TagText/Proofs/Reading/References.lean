import TagText.Proofs.Reading.Streams

/-!
The references of what was read, next to the texts that they were read from. The complete references
of an outline and the references of the document correspond, one by one and call by call.
-/

namespace TagText

/-- What two lists have at an index is related if the lists are. -/
theorem exists_of_forall₂ {α β : Type} {R : α → β → Prop} {xs : List α} {ys : List β}
    (hall : List.Forall₂ R xs ys) {n : Nat} {y : β} (hy : ys[n]? = some y) :
    ∃ x, xs[n]? = some x ∧ R x y := by
  induction hall generalizing n with
  | nil => cases hy
  | @cons x first xs ys hfirst _ ih =>
    cases n with
    | zero =>
      obtain rfl := Option.some.inj hy
      exact ⟨x, rfl, hfirst⟩
    | succ n => exact ih hy

/-- The complete reference that a part is. -/
def Part.reference? : Part → Option RawReference
  | reference r => some r
  | _ => none

namespace Outline

variable {c : Catalog} {outline : Outline} {reading : Reading}

/-- The complete references, in order. -/
def references (outline : Outline) : List RawReference := outline.parts.filterMap Part.reference?

theorem forall₂_references {parts : List Part} {nodes : List Node}
    (hnodes : List.Forall₂ (fun part node => part.resolve c = .ok node) parts nodes) :
    List.Forall₂ (fun raw r => raw.resolve c = .ok r) (parts.filterMap Part.reference?)
      (Node.references nodes) := by
  induction hnodes with
  | nil => exact .nil
  | @cons part node parts nodes hnode _ ih =>
    cases part with
    | text content position =>
      cases hnode
      exact ih
    | reference raw =>
      obtain ⟨r, hr, rfl⟩ := Part.resolve_reference hnode
      exact .cons hr ih
    | broken content start =>
      obtain ⟨found, -, hdone⟩ := bind_eq_ok_iff.mp hnode
      cases hdone
      exact ih

/-- Each reference of a document was read from the complete reference of the same index. -/
theorem exists_resolve (hread : outline.resolve c = .ok reading) {n : Nat} {r : Reference}
    (hr : reading.document.references[n]? = some r) :
    ∃ raw, outline.references[n]? = some raw ∧ raw.resolve c = .ok r := by
  obtain ⟨nodes, hnodes, hdone⟩ := bind_eq_ok_iff.mp hread
  cases hdone
  rw [Document.references_eq, (Node.segments_joinTexts _).2,
    Node.references_filter_not_isBlankText] at hr
  exact exists_of_forall₂ (forall₂_references (mapM_eq_ok_iff.mp hnodes)) hr

end Outline

/-- Each call of a reference was read from the call of the same index. -/
theorem RawReference.exists_carries {c : Catalog} {raw : RawReference} {r : Reference}
    (hread : raw.resolve c = .ok r) {i : Nat} {call : Call} (hcall : r.calls[i]? = some call) :
    ∃ rawCall, raw.calls[i]? = some rawCall ∧
      call.Carries c r.group r.field i rawCall.key rawCall.args := by
  obtain ⟨hgroup, hfield, hcalls⟩ := carries_of_resolve hread
  obtain ⟨⟨rawCall, index⟩, hindex, hcarries⟩ := exists_of_forall₂ hcalls hcall
  obtain ⟨hraw, rfl⟩ : raw.calls[i]? = some rawCall ∧ i = index := by
    simpa [List.getElem?_zipIdx] using hindex
  rw [hgroup, hfield]
  exact ⟨rawCall, hraw, hcarries⟩

end TagText
