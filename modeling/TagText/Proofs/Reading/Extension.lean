import TagText.Proofs.Reading.Streams
import TagText.Proofs.Validation.Coverage
import TagText.Proofs.Writing.Resolving

/-!
Reading under a catalog that holds more. Only names that stood for nothing can come to stand for
something. A stored value without such names is read as the same document with the same arguments,
the same is reported about it, and its references keep their types; broken references stay the text
that they were.
-/

namespace TagText

variable {c wide : Catalog}

/-- A key that stands for something on a group's field stands for the same in a larger catalog. -/
theorem Catalog.Includes.declaration?_eq (hwide : wide.Includes c) {group field key : Text}
    {first : Bool} {g : Group} (hg : c.group? group = some g) {m : Modifier}
    (hm : c.declaration? group field first key = some m) :
    wide.declaration? group field first key = some m := by
  rw [declaration?] at hm ⊢
  rw [hwide.method?_eq hg]
  by_cases hown : (field.isEmpty && first) = true
  · rw [if_pos hown] at hm ⊢
    cases hmethod : c.method? group key with
    | some found => rwa [hmethod] at hm
    | none =>
      rw [hmethod, Option.none_or] at hm
      rw [Option.none_or, hwide.modifier? hm]
  · rw [if_neg hown] at hm ⊢
    exact hwide.modifier? hm

namespace RawReference

/-- A chain is read as before where its keys stand for something. -/
theorem resolveCalls_of_includes (hwide : wide.Includes c) {group field : Text} {g : Group}
    (hg : c.group? group = some g) {first : Bool} {raws : List RawCall} {calls : List Call}
    (hread : resolveCalls c group field first raws = .ok calls)
    (hhead : ∀ call ∈ calls.head?, ∃ m, c.declaration? group field first call.key = some m)
    (hknows : c.Knows calls.tail) : resolveCalls wide group field first raws = .ok calls := by
  induction raws generalizing first calls with
  | nil => exact hread
  | cons raw raws ih =>
    obtain ⟨args, hargs, hread⟩ := bind_eq_ok_iff.mp hread
    obtain ⟨rest, hrest, heq⟩ := bind_eq_ok_iff.mp hread
    cases heq
    obtain ⟨m, hm⟩ := hhead _ rfl
    have hsame := hwide.declaration?_eq hg hm
    have hnext : ∀ call ∈ rest.head?, ∃ m, c.declaration? group field false call.key = some m := by
      intro call hcall
      obtain ⟨m, hm⟩ := hknows call (List.mem_of_mem_head? hcall)
      exact ⟨m, by simpa [Catalog.declaration?] using hm⟩
    have hagain := ih hrest hnext fun call hcall => hknows call (List.mem_of_mem_tail hcall)
    rw [hm] at hargs
    rw [resolveCalls, hsame, hagain, hargs]
    rfl

/-- A covered reference is read as before. -/
theorem resolve_of_includes (hwide : wide.Includes c) {raw : RawReference} {r : Reference}
    (hread : raw.resolve c = .ok r) (hcovered : r.Covered c) : raw.resolve wide = .ok r := by
  obtain ⟨calls, hcalls, heq⟩ := bind_eq_ok_iff.mp hread
  cases heq
  refine bind_eq_ok_iff.mpr ⟨calls, ?_, rfl⟩
  cases hcovered with
  | modifiers hg hmethod hknows =>
    refine resolveCalls_of_includes hwide hg hcalls (fun call hcall => ?_)
      fun call hcall => hknows call (List.mem_of_mem_tail hcall)
    obtain ⟨m, hm⟩ := hknows call (List.mem_of_mem_head? hcall)
    refine ⟨m, ?_⟩
    by_cases hfield : raw.field = []
    · have hnone := hmethod hfield call hcall
      simp only at hg
      simp [Catalog.declaration?, Catalog.method?, hg, hfield, hnone, hm]
    · simpa [Catalog.declaration?, hfield] using hm
  | @method g m first rest hg hfield hchain hm hknows =>
    simp only at hg hfield hchain
    subst hchain
    refine resolveCalls_of_includes hwide hg hcalls (fun call hcall => ?_) hknows
    obtain rfl := Option.some.inj hcall
    exact ⟨m, by simp [Catalog.declaration?, Catalog.method?, hg, hfield, hm]⟩

end RawReference

/-- A part that becomes a covered reference or a text becomes the same again. -/
theorem Part.eq_of_includes (hwide : wide.Includes c) {part : Part} {node again : Node}
    (hnode : part.resolve c = .ok node) (hagain : part.resolve wide = .ok again)
    (hcovered : ∀ r ∈ node.reference?, r.Covered c) : again = node := by
  cases part with
  | text content position =>
    cases hnode
    cases hagain
    rfl
  | reference raw =>
    obtain ⟨r, hr, rfl⟩ := resolve_reference hnode
    obtain ⟨found, hfound, rfl⟩ := resolve_reference hagain
    have hsame := RawReference.resolve_of_includes hwide hr (hcovered r rfl)
    cases hsame.symm.trans hfound
    rfl
  | broken content start =>
    obtain ⟨-, -, hdone⟩ := bind_eq_ok_iff.mp hnode
    cases hdone
    obtain ⟨-, -, hdone⟩ := bind_eq_ok_iff.mp hagain
    cases hdone
    rfl

namespace Outline

theorem nodes_eq_of_includes (hwide : wide.Includes c) {parts : List Part}
    {nodes again : List Node}
    (hnodes : List.Forall₂ (fun part node => part.resolve c = .ok node) parts nodes)
    (hagain : List.Forall₂ (fun part node => part.resolve wide = .ok node) parts again)
    (hcovered : ∀ r ∈ Node.references nodes, r.Covered c) : again = nodes := by
  induction hnodes generalizing again with
  | nil =>
    cases hagain
    rfl
  | @cons part node parts nodes hnode _ ih =>
    cases hagain with
    | cons hfirst hrest =>
      have hmem : ∀ r ∈ node.reference?, r.Covered c := fun r hr =>
        hcovered r (List.mem_filterMap.mpr ⟨node, List.mem_cons_self, hr⟩)
      have hmore : ∀ r ∈ Node.references nodes, r.Covered c := by
        intro r hr
        obtain ⟨other, hother, hr⟩ := List.mem_filterMap.mp hr
        exact hcovered r (List.mem_filterMap.mpr ⟨other, List.mem_cons_of_mem node hother, hr⟩)
      rw [Part.eq_of_includes hwide hnode hfirst hmem, ih hrest hmore]

/-- An outline is read as before if all that is read as a reference is covered. -/
theorem resolve_eq_of_includes (hwide : wide.Includes c) {outline : Outline}
    {reading again : Reading} (hread : outline.resolve c = .ok reading)
    (hagain : outline.resolve wide = .ok again)
    (hcovered : ∀ r ∈ reading.document.references, r.Covered c) : again = reading := by
  obtain ⟨nodes, hnodes, hdone⟩ := bind_eq_ok_iff.mp hread
  cases hdone
  obtain ⟨others, hothers, hdone⟩ := bind_eq_ok_iff.mp hagain
  cases hdone
  rw [Document.references_eq, (Node.segments_joinTexts _).2,
    Node.references_filter_not_isBlankText] at hcovered
  rw [nodes_eq_of_includes hwide (mapM_eq_ok_iff.mp hnodes) (mapM_eq_ok_iff.mp hothers) hcovered]

end Outline

namespace Reading

/-- Extending a catalog leaves alone what is already in use. A stored value that can be read under
    both catalogs, and about which the smaller one reports neither an unknown group nor an unknown
    modifier, is read as the same document, arguments and positions included. In every context the
    same diagnostics are reported for it, and its references have the same types behind each
    number of calls. -/
theorem ofValue_extend {groups : List Group} {modifiers : List Modifier}
    (hextend : c.extend groups modifiers = .ok wide) {value : Text} {reading again : Reading}
    (hread : ofValue c value = .ok reading) (hagain : ofValue wide value = .ok again)
    {context : Option Context}
    (hknown : ∀ diagnostic ∈ reading.document.diagnostics c context,
      diagnostic.problem.kind ≠ .unknownGroup ∧ diagnostic.problem.kind ≠ .unknownModifier) :
    again = reading ∧
      again.document.diagnostics wide context = reading.document.diagnostics c context ∧
      ∀ r ∈ again.document.references, r.runningType wide = r.runningType c ∧
        ∀ count, (r.upTo count).runningType wide = (r.upTo count).runningType c := by
  have hwide := Catalog.includes_of_extend hextend
  have hcovered := Document.covered_of_diagnostics hknown
  obtain rfl := Outline.resolve_eq_of_includes hwide hread hagain hcovered
  refine ⟨rfl, Document.diagnostics_eq_of_includes hwide hcovered, fun r hr => ?_⟩
  exact ⟨(hcovered r hr).runningType_eq hwide,
    fun count => ((hcovered r hr).upTo count).runningType_eq hwide⟩

/-- A method that is called like a new modifier, an unknown field, a mismatch, a context that no
    group in use applies to, and a broken reference with the name of the new modifier, the sign and
    the key of the new group being trailing text. -/
theorem ofValue_extend_captured :
    let number : Param := { key := [], type := .number }
    let truth : Param := { key := [], type := .boolean }
    let method : Modifier := { key := "x".toList, params := [number] }
    let a : Group := { key := "a".toList, fields := [{ key := "b".toList }], methods := [method] }
    let z : Group := { key := "z".toList, contexts := ["page".toList] }
    let m : Modifier := { key := "m".toList, accepted := [.number], params := [number] }
    let x : Modifier := { key := "x".toList, params := [truth] }
    let c : Catalog := { groups := [a], modifiers := [m] }
    let wide : Catalog := { groups := [a, z], modifiers := [m, x] }
    let value := "@tags()@a(b).m(3)@a().x('1')@a(n).m(no)@a(b).x(1@endtags()@z".toList
    let context := some (Context.named "page".toList)
    let call (key : String) (arg : Arg) (position : Int) : Call :=
      { key := key.toList, args := [arg], position }
    let reference (field : String) (call : Call) (position : Int) : Node :=
      .reference { group := "a".toList, field := field.toList, calls := [call], position }
    let nodes :=
      [reference "b" (call "m" (.int 3) 12) 7, reference "" (call "x" (.int 1) 21) 17,
       reference "n" (call "m" (.text "no".toList) 33) 28, .text "@a(b).x(1".toList 39]
    let d : Document := { nodes, trailing := "@z".toList }
    c.extend [z] [x] = .ok wide ∧ ofValue wide value = .ok { document := d, brokenCount := 1 } ∧
      (d.diagnostics wide context).map (fun diagnostic => diagnostic.problem.kind) =
        [.groupNotApplicable, .typeMismatch, .groupNotApplicable, .groupNotApplicable,
         .unknownField, .invalidArgument] ∧
      d.references.map (Reference.runningType wide) = [some .text, some .text, none] := by
  intro number truth method a z m x c wide value context call reference nodes d
  have hextend : c.extend [z] [x] = .ok wide := rfl
  have hread : ofValue c value = .ok { document := d, brokenCount := 1 } := by decide +kernel
  have hwide : ofValue wide value = .ok { document := d, brokenCount := 1 } := by decide +kernel
  have hkinds : (d.diagnostics c context).map (fun diagnostic => diagnostic.problem.kind) =
      [.groupNotApplicable, .typeMismatch, .groupNotApplicable, .groupNotApplicable,
       .unknownField, .invalidArgument] := by decide +kernel
  have htypes : d.references.map (Reference.runningType c) = [some .text, some .text, none] := by
    decide +kernel
  have hknown : ∀ diagnostic ∈ d.diagnostics c context,
      diagnostic.problem.kind ≠ .unknownGroup ∧ diagnostic.problem.kind ≠ .unknownModifier := by
    decide +kernel
  obtain ⟨-, hsame, hrunning⟩ := ofValue_extend hextend hread hwide hknown
  refine ⟨hextend, hwide, ?_, ?_⟩
  · rw [hsame, hkinds]
  · rw [← htypes]
    exact List.map_congr_left fun r hr => (hrunning r hr).1

end Reading

end TagText
