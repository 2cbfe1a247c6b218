import TagText.Proofs.Lexing.Concatenation
import TagText.Proofs.Reading.Cut

/-!
An expression is read as some nodes exactly when they cut it.
-/

namespace TagText

open Lexeme

namespace Lexeme

/-- What a segment is over before does not reach beyond the next text, where a reference follows. -/
theorem EndsBefore.of_append {pieces : List Lexeme} {s tail : Text} (hs : s ≠ [])
    (htail : atSignOrEnd tail) (hends : EndsBefore pieces (s ++ tail)) : EndsBefore pieces s := by
  intro last hlast
  have hover := hends last hlast
  obtain ⟨first, rest, rfl⟩ := List.exists_cons_of_ne_nil hs
  cases last with
  | text run =>
    rcases hover with hnil | hstarts
    · cases hnil
    · refine Or.inr ?_
      by_contra hnot
      have hnone := opening?_append_atSignOrEnd hs htail
        (startsReference_eq_false_iff.mp (Bool.eq_false_iff.mpr hnot))
      rw [startsReference_eq_false_iff.mpr hnone] at hstarts
      cases hstarts
  | closeParen => exact opening?_eq_none_of_append hover
  | field key => exact hover
  | _ => cases hover

theorem leavesOpen_of_endsBefore {s tail : Text} (htail : tail ≠ [])
    (hends : EndsBefore (ofExpression s) tail) : leavesOpen s = false := by
  unfold leavesOpen
  cases hlast : (ofExpression s).getLast? with
  | none => rfl
  | some last =>
    have hover := hends last hlast
    cases last with
    | text | field | closeParen => rfl
    | _ => exact absurd hover htail

theorem leavesOpen_append {s tail : Text} (htail : tail ≠ [])
    (hends : EndsBefore (ofExpression s) tail) : leavesOpen (s ++ tail) = leavesOpen tail := by
  rw [leavesOpen, ofExpression_append hends,
    List.getLast?_append_of_ne_nil _ (ofExpression_ne_nil htail), leavesOpen]

end Lexeme

theorem Loose.append {c : Catalog} {s tail : Text} (hs : Loose c s) (htail : Loose c tail)
    (hends : EndsBefore (ofExpression s) tail) : Loose c (s ++ tail) := by
  refine ⟨by simp [hs.1], fun part hpart => ?_⟩
  rw [partsOf_append hends] at hpart
  rcases List.mem_append.mp hpart with hpart | hpart
  · exact hs.2 part hpart
  · obtain ⟨found, hfound, rfl⟩ := List.mem_map.mp hpart
    exact Part.stays_moved.mpr (htail.2 found hfound)

theorem Part.stays_ofSegment {c : Catalog} {pieces : List Lexeme} (hsegment : Segment pieces)
    {offset : Nat} (hpart : (ofSegment offset pieces).Stays c) (other : Nat) :
    (ofSegment other pieces).Stays c := by
  have hoffset := Outline.moved_ofSegment hsegment 0 offset
  have hother := Outline.moved_ofSegment hsegment 0 other
  rw [Nat.zero_add] at hoffset hother
  rw [← hoffset, stays_moved] at hpart
  rwa [← hother, stays_moved]

theorem loose_segment {c : Catalog} {pieces : List Lexeme} (hsegment : Segment pieces)
    {offset : Nat} (hpart : (Part.ofSegment offset pieces).Stays c) : Loose c (rawText pieces) := by
  refine ⟨hsegment.rawText_ne_nil, ?_⟩
  rw [partsOf_of_segment hsegment, List.forall_mem_singleton]
  exact Part.stays_ofSegment hsegment hpart 0

theorem Grammar.Reference.startsReference {offset : Nat} {s : Text} {raw : RawReference}
    (hderived : Grammar.Reference offset s raw) : Lexeme.startsReference s = true := by
  cases hderived with
  | @intro group field chain _ hname =>
    exact startsReference_iff.mpr ⟨group, _, opening?_eq_some_iff.mpr ⟨hname, rfl⟩⟩

/-- What stands behind a text is nothing, or a reference. -/
theorem Cut.referenceOrEnd {c : Catalog} {offset broken : Nat} {s : Text} {nodes : List Node}
    (hcut : Cut c offset s nodes broken) (hnodes : Node.startsText nodes = false) :
    ReferenceOrEnd s := by
  cases hcut with
  | nil => exact Or.inl rfl
  | text => cases hnodes
  | reference hderived => exact Or.inr (startsReference_append hderived.startsReference _)

namespace Node

theorem joinTexts_text {nodes : List Node} (hnodes : startsText (joinTexts nodes) = false)
    (content : Text) (position : Int) :
    joinTexts (text content position :: nodes) = text content position :: joinTexts nodes := by
  rw [joinTexts]
  cases hjoined : joinTexts nodes with
  | nil => rfl
  | cons node rest =>
    cases node with
    | text more place => rw [hjoined] at hnodes; cases hnodes
    | reference r => rfl

theorem joinTexts_text_text {nodes rest : List Node} {more : Text} {place : Int}
    (hnodes : joinTexts nodes = text more place :: rest) (content : Text) (position : Int) :
    joinTexts (text content position :: nodes) = text (content ++ more) position :: rest := by
  rw [joinTexts, hnodes]

/-- A text in front of others stands for itself, or goes on with the text that they start with. -/
theorem joinTexts_cases (content : Text) (position : Int) (nodes : List Node) :
    (startsText (joinTexts nodes) = false ∧
      joinTexts (text content position :: nodes) = text content position :: joinTexts nodes) ∨
    ∃ more place rest, joinTexts nodes = text more place :: rest ∧
      joinTexts (text content position :: nodes) = text (content ++ more) position :: rest := by
  cases hstarts : startsText (joinTexts nodes) with
  | false => exact Or.inl ⟨rfl, joinTexts_text hstarts content position⟩
  | true =>
    cases hjoined : joinTexts nodes with
    | nil => rw [hjoined] at hstarts; cases hstarts
    | cons node rest =>
      cases node with
      | reference => rw [hjoined] at hstarts; cases hstarts
      | text more place =>
        exact Or.inr ⟨more, place, rest, rfl, joinTexts_text_text hjoined content position⟩

end Node

/-- The joined nodes of an expression's parts cut it. -/
theorem cut_of_partsRead {c : Catalog} {offset : Nat} {s : Text} {nodes : List Node}
    (hread : PartsRead c offset s nodes) :
    Cut c offset s (Node.joinTexts nodes) (brokenCount s) := by
  induction s using segment_induction generalizing offset nodes with
  | nil =>
    rw [partsRead_nil.mp hread, brokenCount, partsOf_nil]
    exact .nil
  | segment pieces rest hsegment hends ih =>
    obtain ⟨node, more, hnode, hmore, rfl⟩ := (partsRead_segment hsegment hends).mp hread
    have hrest := ih hmore
    have hwhole := hsegment.ofExpression_eq
    rw [brokenCount_append (by rwa [hwhole])]
    generalize brokenCount rest = broken at hrest ⊢
    cases hpart : (Part.ofSegment offset pieces).isReference with
    | true =>
      obtain ⟨raw, hraw⟩ := Part.exists_of_isReference hpart
      rw [hraw] at hnode
      obtain ⟨found, hfound, rfl⟩ := Part.resolve_reference hnode
      have hderived := (Part.ofSegment_eq_reference_iff hsegment).mp hraw
      rw [brokenCount_reference hderived, Nat.zero_add]
      exact .reference hderived hfound (hends closeParen (hderived.closed hsegment)) hrest
    | false =>
      obtain rfl := Part.resolve_ofSegment hsegment hpart hnode
      have hloose := loose_segment hsegment ⟨hpart, _, hnode⟩
      rcases Node.joinTexts_cases (rawText pieces) offset more with
        ⟨hstarts, hjoin⟩ | ⟨next, place, nodes, hjoined, hjoin⟩ <;> rw [hjoin]
      · exact .text hloose hstarts (fun hne => leavesOpen_of_endsBefore hne (by rwa [hwhole])) hrest
      · -- The text in front goes on with the text that the rest starts with.
        rw [hjoined] at hrest
        cases hrest with
        | @text _ broken _ rest _ hnext hnodes hopen hcut =>
          have hafter := atSignOrEnd_of_referenceOrEnd (hcut.referenceOrEnd hnodes)
          have hover : EndsBefore (ofExpression (rawText pieces)) next := by
            rw [hwhole]
            exact EndsBefore.of_append hnext.1 hafter hends
          rw [← List.append_assoc, ← Nat.add_assoc, ← brokenCount_append hover]
          refine .text (hloose.append hnext hover) hnodes ?_ ?_
          · rwa [leavesOpen_append hnext.1 hover]
          · rwa [List.length_append, ← Nat.add_assoc]

/-- A text without references joins into one node, whatever follows it. -/
theorem Loose.partsRead {c : Catalog} {s : Text} (hloose : Loose c s) (offset : Nat) :
    ∃ texts, PartsRead c offset s texts ∧
      ∀ more, Node.startsText (Node.joinTexts more) = false →
        Node.joinTexts (texts ++ more) = .text s offset :: Node.joinTexts more := by
  induction s using segment_induction generalizing offset with
  | nil => exact absurd rfl hloose.1
  | segment pieces rest hsegment hends ih =>
    have hparts := hloose.2
    rw [partsOf_segment hsegment hends, List.forall_mem_cons] at hparts
    obtain ⟨hfirst, hrest⟩ := hparts
    obtain ⟨hpart, node, hnode⟩ := Part.stays_ofSegment hsegment hfirst offset
    obtain rfl := Part.resolve_ofSegment hsegment hpart hnode
    by_cases hnil : rest = []
    · subst hnil
      refine ⟨[.text (rawText pieces) offset], ?_, fun more hmore => ?_⟩
      · exact (partsRead_segment hsegment hends).mpr ⟨_, [], hnode, partsRead_nil.mpr rfl, rfl⟩
      · rw [List.append_nil]
        exact Node.joinTexts_text hmore _ _
    · have hinner : Loose c rest :=
        ⟨hnil, fun part hpart => Part.stays_moved.mp (hrest _ (List.mem_map_of_mem hpart))⟩
      obtain ⟨texts, hread, hjoin⟩ := ih hinner (offset + (rawText pieces).length)
      refine ⟨.text (rawText pieces) offset :: texts, ?_, fun more hmore => ?_⟩
      · exact (partsRead_segment hsegment hends).mpr ⟨_, texts, hnode, hread, rfl⟩
      · exact Node.joinTexts_text_text (hjoin more hmore) _ _

/-- What cuts an expression are the joined nodes of its parts. -/
theorem Cut.partsRead {c : Catalog} {offset broken : Nat} {s : Text} {nodes : List Node}
    (hcut : Cut c offset s nodes broken) :
    broken = brokenCount s ∧ ∃ all, PartsRead c offset s all ∧ Node.joinTexts all = nodes := by
  induction hcut with
  | nil => exact ⟨by rw [brokenCount, partsOf_nil]; rfl, [], partsRead_nil.mpr rfl, rfl⟩
  | @text offset broken s rest nodes hloose hnodes hopen hcut ih =>
    obtain ⟨rfl, all, hread, rfl⟩ := ih
    obtain ⟨texts, htexts, hjoin⟩ := hloose.partsRead offset
    have hends : EndsBefore (ofExpression s) rest := by
      by_cases hrest : rest = []
      · subst hrest
        exact fun last _ => endsBefore_nil last
      · exact endsBefore_of_not_leavesOpen (hopen hrest) (hcut.referenceOrEnd hnodes)
    refine ⟨(brokenCount_append hends).symm, texts ++ all, ?_, hjoin all hnodes⟩
    exact partsRead_append hends htexts hread
  | @reference offset broken s rest nodes raw r hderived hr hrest hcut ih =>
    obtain ⟨rfl, all, hread, rfl⟩ := ih
    refine ⟨?_, .reference r :: all, ?_, rfl⟩
    · rw [brokenCount_append (hderived.endsBefore hrest), brokenCount_reference hderived,
        Nat.zero_add]
    · exact (partsRead_reference hderived hrest).mpr ⟨r, all, hr, hread, rfl⟩

/-- The parts of a text from an offset on are read as the nodes that cut it. -/
theorem Outline.resolve_eq_ok_iff_cut {c : Catalog} {offset : Nat} {s trailing : Text}
    {reading : Reading} :
    resolve c { parts := (partsOf s).map (Part.moved offset), trailing } = .ok reading ↔
      reading.document.trailing = trailing ∧
        Cut c offset s reading.document.nodes reading.brokenCount := by
  rw [resolve_eq_ok_iff]
  constructor
  · rintro ⟨nodes, hread, rfl⟩
    exact ⟨rfl, cut_of_partsRead hread⟩
  · rintro ⟨htrailing, hcut⟩
    obtain ⟨hbroken, all, hread, hnodes⟩ := hcut.partsRead
    obtain ⟨⟨nodes, trailing⟩, broken⟩ := reading
    simp only at htrailing hbroken hnodes
    exact ⟨all, hread, by rw [htrailing, hbroken, hnodes]⟩

/-- An expression is read as a list of nodes exactly when they cut it, and every reading of an
    expression is without trailing text. -/
theorem Reading.ofExpression_eq_ok_iff_cut {c : Catalog} {s : Text} {reading : Reading} :
    ofExpression c s = .ok reading ↔
      reading.document.trailing = [] ∧ Cut c 0 s reading.document.nodes reading.brokenCount := by
  have hmoved : (partsOf s).map (Part.moved 0) = partsOf s := by
    rw [Part.moved_zero, List.map_id]
  rw [ofExpression, ofSymbols, Outline.ofSymbols_ofExpression, ← Outline.resolve_eq_ok_iff_cut,
    hmoved]

/-- A text is loose exactly when it is read as itself where it stands alone. -/
theorem loose_iff_ofExpression {c : Catalog} {s : Text} :
    Loose c s ↔ s ≠ [] ∧ ∃ broken, Reading.ofExpression c s =
      .ok { document := { nodes := [.text s 0] }, brokenCount := broken } := by
  constructor
  · intro hloose
    have hnone : ([] : Text) ≠ [] → leavesOpen s = false := fun hne => absurd rfl hne
    have hcut : Cut c 0 (s ++ []) [.text s 0] _ := .text hloose rfl hnone .nil
    rw [List.append_nil] at hcut
    exact ⟨hloose.1, _, Reading.ofExpression_eq_ok_iff_cut.mpr ⟨rfl, hcut⟩⟩
  · rintro ⟨-, broken, hread⟩
    obtain ⟨-, hcut⟩ := Reading.ofExpression_eq_ok_iff_cut.mp hread
    simp only at hcut
    generalize hnodes : [Node.text s 0] = nodes at hcut
    cases hcut with
    | nil | reference => cases hnodes
    | text hloose =>
      obtain ⟨rfl, rfl⟩ := by simpa using hnodes
      rwa [List.append_nil]

end TagText
