import TagText.Proofs.Reading.Parts

/-!
The nodes of an expression cut it into stretches of text: a reference takes up what the grammar
derives it from, and a text takes up what gives no reference when it is read by itself. A reading
is exactly such a cut.
-/

namespace TagText

open Lexeme

/-- A text that gives no reference, and nothing of which is refused. -/
def Loose (c : Catalog) (s : Text) : Prop :=
  s ≠ [] ∧ ∀ part ∈ partsOf s, part.Stays c

/-- How many broken references a text holds. -/
def brokenCount (s : Text) : Nat := (partsOf s).countP Part.isBroken

/-- Whether a list of nodes starts with a text. -/
def Node.startsText : List Node → Bool
  | text _ _ :: _ => true
  | _ => false

/-- A text from an offset on is cut into nodes, with some broken references inside its literal
    stretches. -/
inductive Cut (c : Catalog) : Nat → Text → List Node → Nat → Prop
  | nil {offset : Nat} : Cut c offset [] [] 0
  | text {offset broken : Nat} {s rest : Text} {nodes : List Node} : Loose c s →
    Node.startsText nodes = false → (rest ≠ [] → leavesOpen s = false) →
    Cut c (offset + s.length) rest nodes broken →
    Cut c offset (s ++ rest) (.text s offset :: nodes) (brokenCount s + broken)
  | reference {offset broken : Nat} {s rest : Text} {nodes : List Node} {raw : RawReference}
    {r : Reference} : Grammar.Reference offset s raw → raw.resolve c = .ok r →
    opening? '.' rest = none → Cut c (offset + s.length) rest nodes broken →
    Cut c offset (s ++ rest) (.reference r :: nodes) broken

/-- The parts of a text from an offset on are read as some nodes. -/
def PartsRead (c : Catalog) (offset : Nat) (s : Text) (nodes : List Node) : Prop :=
  List.Forall₂ (fun part node => part.resolve c = .ok node) ((partsOf s).map (Part.moved offset))
    nodes

theorem partsRead_nil {c : Catalog} {offset : Nat} {nodes : List Node} :
    PartsRead c offset [] nodes ↔ nodes = [] := by
  simp [PartsRead, partsOf_nil]

theorem partsRead_segment {c : Catalog} {offset : Nat} {pieces : List Lexeme} {rest : Text}
    {nodes : List Node} (hsegment : Segment pieces) (hends : EndsBefore pieces rest) :
    PartsRead c offset (rawText pieces ++ rest) nodes ↔
      ∃ node more, (Part.ofSegment offset pieces).resolve c = .ok node ∧
        PartsRead c (offset + (rawText pieces).length) rest more ∧ nodes = node :: more := by
  rw [PartsRead, partsOf_segment hsegment hends, List.map_cons, Part.map_moved_moved,
    Outline.moved_ofSegment hsegment, Nat.zero_add]
  exact List.forall₂_cons_left_iff

/-- A reference is over in front of what opens no modifier. -/
theorem Grammar.Reference.endsBefore {offset : Nat} {s rest : Text} {raw : RawReference}
    (hderived : Grammar.Reference offset s raw) (hrest : opening? '.' rest = none) :
    EndsBefore (ofExpression s) rest := by
  obtain ⟨pieces, hsegment, rfl, hclosed, -⟩ := hderived.reads
  rw [hsegment.ofExpression_eq]
  intro last hlast
  obtain rfl : last = closeParen := Option.some.inj (hlast.symm.trans hclosed)
  exact hrest

theorem partsRead_reference {c : Catalog} {offset : Nat} {s rest : Text} {raw : RawReference}
    {nodes : List Node} (hderived : Grammar.Reference offset s raw)
    (hrest : opening? '.' rest = none) :
    PartsRead c offset (s ++ rest) nodes ↔
      ∃ r more, raw.resolve c = .ok r ∧ PartsRead c (offset + s.length) rest more ∧
        nodes = .reference r :: more := by
  obtain ⟨pieces, hsegment, rfl, -, -⟩ := hderived.reads
  have hends := hderived.endsBefore hrest
  rw [hsegment.ofExpression_eq] at hends
  rw [partsRead_segment hsegment hends, (Part.ofSegment_eq_reference_iff hsegment).mpr hderived]
  constructor
  · rintro ⟨node, more, hnode, hmore, rfl⟩
    obtain ⟨r, hr, rfl⟩ := Part.resolve_reference hnode
    exact ⟨r, more, hr, hmore, rfl⟩
  · rintro ⟨r, more, hr, hmore, rfl⟩
    exact ⟨.reference r, more, bind_eq_ok_iff.mpr ⟨r, hr, rfl⟩, hmore, rfl⟩

theorem partsRead_append {c : Catalog} {offset : Nat} {s tail : Text} {before after : List Node}
    (hends : EndsBefore (ofExpression s) tail) (hbefore : PartsRead c offset s before)
    (hafter : PartsRead c (offset + s.length) tail after) :
    PartsRead c offset (s ++ tail) (before ++ after) := by
  rw [PartsRead, partsOf_append hends, List.map_append, Part.map_moved_moved]
  exact List.rel_append hbefore hafter

theorem brokenCount_append {s tail : Text} (hends : EndsBefore (ofExpression s) tail) :
    brokenCount (s ++ tail) = brokenCount s + brokenCount tail := by
  rw [brokenCount, partsOf_append hends, List.countP_append, Part.countP_isBroken_moved,
    ← brokenCount, ← brokenCount]

theorem brokenCount_reference {offset : Nat} {s : Text} {raw : RawReference}
    (hderived : Grammar.Reference offset s raw) : brokenCount s = 0 := by
  obtain ⟨pieces, hsegment, rfl, -, -⟩ := hderived.reads
  have hpart := Outline.moved_ofSegment hsegment 0 offset
  rw [Nat.zero_add, (Part.ofSegment_eq_reference_iff hsegment).mpr hderived] at hpart
  rw [brokenCount, partsOf_of_segment hsegment]
  cases hsegment : Part.ofSegment 0 pieces with
  | reference r => rfl
  | _ => rw [hsegment] at hpart; cases hpart

/-- A reference that is not broken is derived by the grammar. -/
theorem exists_reference_of_brokenCount {word inner : Text} (hname : isName word = true)
    (hwhole : (ofReference word inner).2 = [])
    (hbroken : brokenCount (rawText (ofReference word inner).1) = 0) :
    ∃ raw, Grammar.Reference 0 (rawText (ofReference word inner).1) raw := by
  have hsegment := Segment.reference word inner hname hwhole
  obtain ⟨tail, hshape, -⟩ := ofReference_shape word inner
  rw [brokenCount, partsOf_of_segment hsegment] at hbroken
  cases hpart : Part.ofSegment 0 (ofReference word inner).1 with
  | reference raw => exact ⟨raw, (Part.ofSegment_eq_reference_iff hsegment).mp hpart⟩
  | broken content start => simp [hpart, Part.isBroken] at hbroken
  | text content position =>
    rw [hshape, Part.ofSegment, Part.ofRead] at hpart
    · split at hpart <;> cases hpart
    · simp

theorem not_isBlankText_of_partsRead {c : Catalog} {offset : Nat} {s : Text} {nodes : List Node}
    (hread : PartsRead c offset s nodes) : ∀ node ∈ nodes, node.isBlankText = false := by
  induction s using segment_induction generalizing offset nodes with
  | nil => simp [partsRead_nil.mp hread]
  | segment pieces rest hsegment hends ih =>
    obtain ⟨node, more, hnode, hmore, rfl⟩ := (partsRead_segment hsegment hends).mp hread
    exact List.forall_mem_cons.mpr ⟨Part.not_isBlankText_of_ofSegment hsegment hnode, ih hmore⟩

/-- The parts of a text are read as nodes of which the texts are joined. -/
theorem Outline.resolve_eq_ok_iff {c : Catalog} {offset : Nat} {s trailing : Text}
    {reading : Reading} :
    resolve c { parts := (partsOf s).map (Part.moved offset), trailing } = .ok reading ↔
      ∃ nodes, PartsRead c offset s nodes ∧ reading =
        { document := { nodes := Node.joinTexts nodes, trailing }
          brokenCount := TagText.brokenCount s } := by
  have hbroken : ((partsOf s).map (Part.moved offset)).countP Part.isBroken =
      TagText.brokenCount s := Part.countP_isBroken_moved offset (partsOf s)
  have hkept : ∀ nodes, PartsRead c offset s nodes →
      nodes.filter (fun node => !node.isBlankText) = nodes := by
    intro nodes hread
    exact List.filter_eq_self.mpr fun node hnode => by
      simp [not_isBlankText_of_partsRead hread node hnode]
  rw [resolve, bind_eq_ok_iff]
  simp only [mapM_eq_ok_iff]
  constructor
  · rintro ⟨nodes, hnodes, heq⟩
    cases heq
    refine ⟨nodes, hnodes, ?_⟩
    rw [hkept nodes hnodes, ← hbroken]
    rfl
  · rintro ⟨nodes, hnodes, rfl⟩
    refine ⟨nodes, hnodes, ?_⟩
    rw [hkept nodes hnodes, ← hbroken]
    rfl

/-- An expression is read as the joined nodes of its parts. -/
theorem Reading.ofExpression_eq_ok_iff {c : Catalog} {s : Text} {reading : Reading} :
    ofExpression c s = .ok reading ↔ ∃ nodes, PartsRead c 0 s nodes ∧ reading =
      { document := { nodes := Node.joinTexts nodes }, brokenCount := TagText.brokenCount s } := by
  have hmoved : (partsOf s).map (Part.moved 0) = partsOf s := by
    rw [Part.moved_zero, List.map_id]
  rw [ofExpression, ofSymbols, Outline.ofSymbols_ofExpression, ← Outline.resolve_eq_ok_iff, hmoved]

end TagText
