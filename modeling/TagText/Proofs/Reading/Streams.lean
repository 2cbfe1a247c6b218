import TagText.Proofs.Editing.Segments
import TagText.Proofs.Outline.Stops
import TagText.Proofs.Reading.Overlong

/-!
Reading a stream of symbols of any kinds in any order. A stream is refused only where a number of
it is; of every other stream the reader makes nodes that a text can have next to each other, one
reference or one broken reference for each sign that it reaches.
-/

namespace TagText

/-- A list that cannot be read holds an entry that cannot be read. -/
theorem exists_of_mapM_error {ε α β : Type} {f : α → Except ε β} {xs : List α} {e : ε}
    (hxs : xs.mapM f = .error e) : ∃ x ∈ xs, f x = .error e := by
  induction xs with
  | nil => cases hxs
  | cons x xs ih =>
    rw [List.mapM_cons, bind_eq_error_iff] at hxs
    rcases hxs with hx | ⟨y, -, hrest⟩
    · exact ⟨x, List.mem_cons_self, hx⟩
    · rcases bind_eq_error_iff.mp hrest with hxs | ⟨ys, -, hdone⟩
      · obtain ⟨z, hz, hread⟩ := ih hxs
        exact ⟨z, List.mem_cons_of_mem x hz, hread⟩
      · cases hdone

/-- A list that can be read holds no entry that cannot be read. -/
theorem exists_of_mapM_ok {ε α β : Type} {f : α → Except ε β} {xs : List α} {ys : List β}
    (hxs : xs.mapM f = .ok ys) {x : α} (hx : x ∈ xs) : ∃ y, f x = .ok y := by
  have hread := mapM_eq_ok_iff.mp hxs
  induction hread with
  | nil => cases hx
  | @cons first y rest ys hfirst hrest ih =>
    rcases List.mem_cons.mp hx with rfl | hx
    · exact ⟨y, hfirst⟩
    · exact ih (mapM_eq_ok_iff.mpr hrest) hx

/-- An argument is refused only as a number. -/
theorem Arg.atPlace_eq_error_iff {place : Option Param} {s : Text} {e : ConversionError} :
    atPlace place s = .error e ↔
      place.map Param.type = some .number ∧ ofNumberText s = .error e := by
  cases place with
  | none => simp [atPlace]
  | some p =>
    cases htype : p.type with
    | number => simp [atPlace, ofText, htype]
    | boolean =>
      simp only [atPlace, ofText, htype, Option.map_some]
      cases truth? s <;> simp
    | text | choice => simp [atPlace, ofText, htype]

theorem Arg.exists_of_ofTexts_error {params : List Param} {raws : List Text} {e : ConversionError}
    (hraws : ofTexts params raws = .error e) :
    ∃ (j : Nat) (s : Text), raws[j]? = some s ∧ atPlace params[j]? s = .error e := by
  induction raws generalizing params with
  | nil => cases params <;> cases hraws
  | cons raw raws ih =>
    rw [ofTexts_cons, bind_eq_error_iff] at hraws
    rcases hraws with hraw | ⟨a, -, hrest⟩
    · exact ⟨0, raw, rfl, hraw⟩
    · rcases bind_eq_error_iff.mp hrest with hraws | ⟨args, -, hdone⟩
      · obtain ⟨j, s, hs, hread⟩ := ih hraws
        refine ⟨j + 1, s, hs, ?_⟩
        rwa [List.getElem?_tail] at hread
      · cases hdone

namespace RawReference

/-- The texts that stand where the catalog declares a number. -/
def IsNumber (c : Catalog) (r : RawReference) (s : Text) : Prop :=
  ∃ (i j : Nat) (call : RawCall), r.calls[i]? = some call ∧ call.args[j]? = some s ∧
    (c.place? r.group r.field i call.key j).map Param.type = some .number

theorem exists_of_resolveCalls_error {c : Catalog} {group field : Text} {index : Nat}
    {raws : List RawCall} {e : ConversionError}
    (hraws : resolveCalls c group field (index = 0) raws = .error e) :
    ∃ (i j : Nat) (call : RawCall) (s : Text), raws[i]? = some call ∧ call.args[j]? = some s ∧
      Arg.atPlace (c.place? group field (index + i) call.key j) s = .error e := by
  induction raws generalizing index with
  | nil => cases hraws
  | cons raw raws ih =>
    have hnext := @ih (index + 1)
    rw [show decide (index + 1 = 0) = false by simp] at hnext
    rw [resolveCalls, bind_eq_error_iff, c.declaration?_eq] at hraws
    rcases hraws with hargs | ⟨args, -, hrest⟩
    · obtain ⟨j, s, hs, hread⟩ := Arg.exists_of_ofTexts_error hargs
      refine ⟨0, j, raw, s, rfl, hs, ?_⟩
      rw [Catalog.place?, Nat.add_zero]
      cases hsignature : c.signature? group field index raw.key with
      | none => simpa [hsignature] using hread
      | some m => simpa [hsignature] using hread
    · rcases bind_eq_error_iff.mp hrest with hraws | ⟨calls, -, hdone⟩
      · obtain ⟨i, j, call, s, hcall, hs, hread⟩ := hnext hraws
        refine ⟨i + 1, j, call, s, hcall, hs, ?_⟩
        rwa [Nat.add_right_comm] at hread
      · cases hdone

/-- A reference is refused exactly when a number of it is. -/
theorem resolve_eq_error_iff {c : Catalog} {r : RawReference} {e : ConversionError} :
    r.resolve c = .error e ↔ ∃ s, r.IsNumber c s ∧ Arg.ofNumberText s = .error e := by
  constructor
  · intro hread
    rcases bind_eq_error_iff.mp hread with hcalls | ⟨calls, -, hdone⟩
    · obtain ⟨i, j, call, s, hcall, hs, hplace⟩ :=
        @exists_of_resolveCalls_error c r.group r.field 0 _ _ hcalls
      rw [Nat.zero_add, Arg.atPlace_eq_error_iff] at hplace
      exact ⟨s, ⟨i, j, call, hcall, hs, hplace.1⟩, hplace.2⟩
    · cases hdone
  · rintro ⟨s, ⟨i, j, call, hcall, hs, htype⟩, hnumber⟩
    exact resolve_of_place_error hcall hs (Arg.atPlace_eq_error_iff.mpr ⟨htype, hnumber⟩)

end RawReference

namespace Part

/-- What is complete of the reference that a part starts with. -/
def started? : Part → Option RawReference
  | text _ _ => none
  | reference r => some r
  | broken _ start => some start

theorem resolve_eq_error_iff {c : Catalog} {part : Part} {e : ConversionError} :
    part.resolve c = .error e ↔ ∃ r ∈ part.started?, r.resolve c = .error e := by
  cases part with
  | text content position => simp [resolve, started?]
  | reference r =>
    simp only [resolve, started?, bind_eq_error_iff, Option.mem_def, Option.some.injEq]
    simp [pure, Except.pure]
  | broken content start =>
    simp only [resolve, started?, bind_eq_error_iff, Option.mem_def, Option.some.injEq]
    simp [pure, Except.pure]

theorem countP_startsAtSign (parts : List Part) :
    parts.countP startsAtSign = parts.countP isReference + parts.countP isBroken := by
  induction parts with
  | nil => rfl
  | cons part parts ih =>
    simp only [List.countP_cons, ih]
    cases part <;> simp [startsAtSign, isReference, isBroken] <;> omega

end Part

theorem Node.references_filter_not_isBlankText (nodes : List Node) :
    references (nodes.filter fun node => !node.isBlankText) = references nodes := by
  induction nodes with
  | nil => rfl
  | cons node nodes ih =>
    cases node with
    | reference r =>
      rw [List.filter_cons_of_pos rfl, references_reference, references_reference, ih]
    | text s position =>
      rw [List.filter_cons, references_text, ← ih]
      split <;> rfl

namespace Outline

/-- The complete references of an outline are the references that come of it. -/
theorem length_references_of_resolve {c : Catalog} {parts : List Part} {nodes : List Node}
    (hnodes : List.Forall₂ (fun part node => part.resolve c = .ok node) parts nodes) :
    (Node.references nodes).length = parts.countP Part.isReference := by
  induction hnodes with
  | nil => rfl
  | @cons part node parts nodes hnode _ ih =>
    rw [List.countP_cons, ← ih]
    cases part with
    | text content position =>
      cases hnode
      rfl
    | reference r =>
      obtain ⟨found, -, rfl⟩ := Part.resolve_reference hnode
      rfl
    | broken content start =>
      obtain ⟨found, -, hdone⟩ := bind_eq_ok_iff.mp hnode
      cases hdone
      rfl

/-- What is read of an outline: no text without characters and no two texts next to each other, and
    a reference for each complete part. -/
theorem shape_of_resolve {c : Catalog} {outline : Outline} {reading : Reading}
    (hread : outline.resolve c = .ok reading) :
    Node.Normal reading.document.nodes ∧
      reading.document.references.length + reading.brokenCount =
        outline.parts.countP Part.startsAtSign ∧
      reading.document.trailing = outline.trailing := by
  obtain ⟨nodes, hnodes, hdone⟩ := bind_eq_ok_iff.mp hread
  cases hdone
  refine ⟨Node.normal_joinTexts fun node hnode => ?_, ?_, rfl⟩
  · simpa using (List.mem_filter.mp hnode).2
  · rw [Document.references_eq, (Node.segments_joinTexts _).2,
      Node.references_filter_not_isBlankText,
      length_references_of_resolve (mapM_eq_ok_iff.mp hnodes), Part.countP_startsAtSign]
    rfl

theorem resolve_eq_error_iff {c : Catalog} {outline : Outline} {e : ConversionError} :
    outline.resolve c = .error e ↔
      ∃ part ∈ outline.parts, ∃ r ∈ part.started?, r.resolve c = .error e := by
  constructor
  · intro hread
    rcases bind_eq_error_iff.mp hread with hparts | ⟨nodes, -, hdone⟩
    · obtain ⟨part, hpart, herror⟩ := exists_of_mapM_error hparts
      exact ⟨part, hpart, Part.resolve_eq_error_iff.mp herror⟩
    · cases hdone
  · rintro ⟨part, hpart, herror⟩
    have herror := Part.resolve_eq_error_iff.mpr herror
    cases hread : outline.resolve c with
    | error other =>
      cases e
      cases other
      rfl
    | ok reading =>
      obtain ⟨nodes, hnodes, -⟩ := bind_eq_ok_iff.mp hread
      obtain ⟨node, hnode⟩ := exists_of_mapM_ok hnodes hpart
      rw [herror] at hnode
      cases hnode

end Outline

namespace Reading

/-- Reading of streams, whatever their symbols are: A stream is refused exactly when a text that
    stands where a number is declared is refused as one, in a reference or in what is complete of a
    broken one. Else its nodes hold no text without characters and no two texts next to each other,
    each reference sign in front of the first symbol that ends the reading has become a reference or
    a broken one, and that symbol decides about the trailing text. What stands behind it plays no
    part at all. -/
theorem ofSymbols_stream (c : Catalog) (source : Text) (symbols : List Symbol) :
    (∀ e, ofSymbols c source symbols = .error e ↔
      ∃ part ∈ (Outline.ofSymbols source symbols).parts, ∃ r ∈ part.started?,
        ∃ s, r.IsNumber c s ∧ Arg.ofNumberText s = .error e) ∧
    (∀ reading, ofSymbols c source symbols = .ok reading →
      Node.Normal reading.document.nodes ∧
        reading.document.references.length + reading.brokenCount =
          ((symbols.takeWhile fun s => !s.kind.stops).countP fun s => s.kind = .atSign) ∧
        reading.document.trailing =
          Outline.trailingAt source (symbols.find? fun s => s.kind.stops)) ∧
    ofSymbols c source (Symbol.upToStop symbols) = ofSymbols c source symbols := by
  refine ⟨fun e => ?_, fun reading hread => ?_, ?_⟩
  · simp only [ofSymbols, Outline.resolve_eq_error_iff, RawReference.resolve_eq_error_iff]
  · obtain ⟨hnormal, hcount, htrailing⟩ := Outline.shape_of_resolve hread
    rw [Outline.countP_startsAtSign_ofSymbols] at hcount
    rw [Outline.trailing_ofSymbols] at htrailing
    exact ⟨hnormal, hcount, htrailing⟩
  · rw [ofSymbols, Outline.ofSymbols_upToStop, ofSymbols]

/-- A stream out of order: symbols astray, offsets that run backwards, a reference on a number, two
    broken references, of which the last is cut short by a close marker, and a sign behind it. -/
theorem ofSymbols_stream_disordered :
    let c : Catalog :=
      { modifiers := [{ key := "m".toList, params := [{ key := [], type := .number }] }] }
    let source := "abcdefgh".toList
    let symbol (kind : SymbolKind) (value : String) (start stop : Nat) : Symbol :=
      { kind, value := value.toList, start, stop }
    let front :=
      [symbol .comma "" 5 2, symbol .field "f" 6 8, symbol .atSign "" 0 1, symbol .name "g" 0 0,
       symbol .openParen "" 0 0, symbol .field "f" 0 0, symbol .closeParen "" 0 0,
       symbol .dot "" 3 4, symbol .name "m" 0 0, symbol .openParen "" 0 0, symbol .bare "12" 0 0,
       symbol .closeParen "" 0 0, symbol .openMarker "" 0 0, symbol .text "" 1 2,
       symbol .atSign "" 1 2, symbol .openParen "" 0 0, symbol .atSign "" 4 5, symbol .name "g" 0 0]
    let stop := symbol .closeMarker "" 7 2
    let more := [symbol .atSign "" 0 1, symbol .endOfText "" 0 0, symbol .text "t" 0 1]
    let call : Call := { key := "m".toList, args := [.int 12], position := 3 }
    let r : Reference := { group := "g".toList, field := "f".toList, calls := [call] }
    let nodes := [Node.text "gh".toList 6, .reference r, .text "bcdefg".toList 1]
    ofSymbols c source (front ++ stop :: more) =
        .ok { document := { nodes, trailing := "cdefgh".toList }, brokenCount := 2 } ∧
      ofSymbols c source (front ++ [stop]) = ofSymbols c source (front ++ stop :: more) ∧
      Node.Normal nodes ∧ 1 + 2 = front.countP fun s => s.kind = .atSign := by
  intro c source symbol front stop more call r nodes
  have hread : ofSymbols c source (front ++ stop :: more) =
      .ok { document := { nodes, trailing := "cdefgh".toList }, brokenCount := 2 } := by
    decide +kernel
  obtain ⟨-, hshape, hstop⟩ := ofSymbols_stream c source (front ++ stop :: more)
  obtain ⟨hnormal, hcount, -⟩ := hshape _ hread
  exact ⟨hread, hstop, hnormal, hcount⟩

end Reading

end TagText
