import TagText.Proofs.Stored.Agreement
import TagText.Proofs.Writing.Writable

/-!
Expressions put one behind the other. Where the first has no broken reference and the second is
empty or starts with the sign of references, neither reaches into the other: the nodes of the whole
are those of the first and those of the second, moved on, and only two texts that meet in the middle
become one.
-/

namespace TagText

open Lexeme

namespace Node

/-- The nodes of two lists one behind the other. A text at the end of the first and one at the start
    of the second become one, at the position of the first. -/
def weld : List Node → List Node → List Node
  | [], after => after
  | [text s position], text t _ :: after => text (s ++ t) position :: after
  | node :: before, after => node :: weld before after

theorem weld_reference (r : Reference) (after : List Node) :
    weld [reference r] after = reference r :: after := rfl

theorem weld_cons_cons (node next : Node) (before after : List Node) :
    weld (node :: next :: before) after = node :: weld (next :: before) after := by
  cases node <;> rfl

theorem weld_weld (node : Node) (before after : List Node) :
    weld (weld [node] before) after = weld [node] (weld before after) := by
  cases node with
  | reference r =>
    cases before with
    | nil => rfl
    | cons next before => rw [weld_reference, weld_reference, weld_cons_cons]
  | text s position =>
    rcases before with _ | ⟨_ | r, _ | ⟨next, before⟩⟩
    · rfl
    · rcases after with _ | ⟨_ | _, after⟩ <;> simp [weld]
    · simp [weld]
    · rfl
    · rfl

theorem joinTexts_cons (node : Node) (nodes : List Node) :
    joinTexts (node :: nodes) = weld [node] (joinTexts nodes) := by
  cases node with
  | reference r => rfl
  | text s position =>
    rcases joinTexts_cases s position nodes with
      ⟨hstarts, hjoin⟩ | ⟨more, place, rest, hnext, hjoin⟩
    · rw [hjoin]
      rcases hnodes : joinTexts nodes with _ | ⟨_ | r, rest⟩
      · rfl
      · rw [hnodes] at hstarts
        cases hstarts
      · rfl
    · rw [hjoin, hnext]
      rfl

/-- Joining the texts of two lists of nodes joins those of each, and then the two that meet. -/
theorem joinTexts_append (before after : List Node) :
    joinTexts (before ++ after) = weld (joinTexts before) (joinTexts after) := by
  induction before with
  | nil => rfl
  | cons node before ih => rw [List.cons_append, joinTexts_cons, ih, joinTexts_cons, weld_weld]

end Node

namespace Lexeme

/-- Two literal runs are one, if the second starts with the sign of references. -/
theorem literalRun_append {run more : Text} (hrun : literalRun run = (run, []))
    (hmore : literalRun more = (more, [])) (hat : atSignOrEnd more) :
    literalRun (run ++ more) = (run ++ more, []) := by
  induction run with
  | nil => exact hmore
  | cons c run ih =>
    rw [literalRun] at hrun
    split at hrun
    · cases hrun
    · rename_i hstarts
      have hinner : literalRun run = (run, []) := by
        obtain ⟨hfirst, hsecond⟩ := by simpa using hrun
        exact Prod.ext hfirst hsecond
      have hnone := startsReference_eq_false_iff.mp (Bool.eq_false_iff.mpr hstarts)
      have hwhole := opening?_append_atSignOrEnd (List.cons_ne_nil c run) hat hnone
      rw [List.cons_append] at hwhole ⊢
      rw [literalRun, startsReference_eq_false_iff.mpr hwhole, ih hinner]
      rfl

/-- A segment that is over in front of a text is over in front of a longer one, if that goes on with
    the sign of references. -/
theorem EndsBefore.append_atSignOrEnd {pieces : List Lexeme} {rest tail : Text} (hrest : rest ≠ [])
    (htail : atSignOrEnd tail) (hends : EndsBefore pieces rest) :
    EndsBefore pieces (rest ++ tail) := by
  intro last hlast
  have hover := hends last hlast
  cases last with
  | text run =>
    rcases hover with hnil | hstarts
    · exact absurd hnil hrest
    · exact Or.inr (startsReference_append hstarts tail)
  | closeParen => exact opening?_append_atSignOrEnd hrest htail hover
  | field key =>
    obtain ⟨c, rest, rfl⟩ := List.exists_cons_of_ne_nil hrest
    exact hover
  | _ => exact absurd hover hrest

end Lexeme

theorem startsReference_ofReference {word inner : Text} (hname : isName word = true)
    (hwhole : (ofReference word inner).2 = []) :
    startsReference (rawText (ofReference word inner).1) = true := by
  have htile := rawText_of_whole hwhole
  exact startsReference_iff.mpr ⟨word, inner, opening?_eq_some_iff.mpr ⟨hname, htile⟩⟩

/-- A segment that is not broken is over in front of the sign of references, unless it is a literal
    run and so is what follows it. -/
theorem Lexeme.Segment.endsBefore_or_literal {pieces : List Lexeme} (hsegment : Segment pieces)
    (hbroken : brokenCount (rawText pieces) = 0) {tail : Text} (htail : atSignOrEnd tail) :
    EndsBefore pieces tail ∨ ∃ run more rest, pieces = [text run] ∧ tail = more ++ rest ∧
      Segment [text more] ∧ Segment [text (run ++ more)] ∧ ReferenceOrEnd rest := by
  cases hsegment with
  | reference word inner hname hwhole =>
    left
    obtain ⟨raw, hderived⟩ := exists_reference_of_brokenCount hname hwhole hbroken
    have hends := hderived.endsBefore (opening?_dot_of_atSignOrEnd htail)
    rwa [(Segment.reference word inner hname hwhole).ofExpression_eq] at hends
  | literal run hrun hnone hliteral =>
    by_cases hover : ReferenceOrEnd tail
    · left
      intro last hlast
      obtain rfl := Option.some.inj hlast
      exact hover
    · right
      obtain ⟨hne, hstarts⟩ := not_or.mp hover
      obtain ⟨front, rest, hfront, hends, rfl⟩ := Segment.exists_front hne
      cases hfront with
      | reference word inner hname hwhole =>
        have hfront := startsReference_ofReference hname hwhole
        exact absurd (startsReference_append hfront rest) hstarts
      | literal more hmore hmoreNone hmoreRun =>
        obtain ⟨first, more, rfl⟩ := List.exists_cons_of_ne_nil hmore
        have hat : atSignOrEnd (first :: more) := fun c hc => htail c (by simpa [raw] using hc)
        refine ⟨run, first :: more, rest, rfl, by simp [raw], .literal _ hmore hmoreNone hmoreRun,
          .literal _ (by simp) (opening?_append_atSignOrEnd hrun hat hnone)
            (literalRun_append hliteral hmoreRun hat), ?_⟩
        exact hends _ rfl

variable {c : Catalog} {offset : Nat} {tail : Text} {before after nodes : List Node}

theorem endsBefore_literal {run rest : Text} (hrest : ReferenceOrEnd rest) :
    EndsBefore [text run] rest := by
  intro last hlast
  obtain rfl := Option.some.inj hlast
  exact hrest

theorem partsRead_literal {run rest : Text} (hsegment : Segment [text run])
    (hrest : ReferenceOrEnd rest) :
    PartsRead c offset (run ++ rest) nodes ↔
      ∃ more, PartsRead c (offset + run.length) rest more ∧ nodes = .text run offset :: more := by
  have hread : PartsRead c offset (rawText [text run] ++ rest) nodes ↔ _ :=
    partsRead_segment hsegment (endsBefore_literal hrest)
  rw [rawText_text] at hread
  rw [hread]
  constructor
  · rintro ⟨node, more, hnode, hmore, rfl⟩
    cases hnode
    exact ⟨more, hmore, rfl⟩
  · rintro ⟨more, hmore, rfl⟩
    exact ⟨_, more, rfl, hmore, rfl⟩

theorem brokenCount_literal {run rest : Text} (hsegment : Segment [text run])
    (hrest : ReferenceOrEnd rest) : brokenCount (run ++ rest) = brokenCount rest := by
  have hpieces := hsegment.ofExpression_eq
  have hparts := partsOf_of_segment hsegment
  rw [rawText_text] at hpieces hparts
  rw [brokenCount_append (by rw [hpieces]; exact endsBefore_literal hrest), brokenCount, hparts]
  exact Nat.zero_add _

/-- A segment that is not broken is read in front of the sign of references as it is by itself. -/
theorem partsRead_segment_append {pieces : List Lexeme} (hsegment : Segment pieces)
    (hbroken : brokenCount (rawText pieces) = 0) (htail : atSignOrEnd tail) {node : Node}
    (hnode : (Part.ofSegment offset pieces).resolve c = .ok node)
    (hafter : PartsRead c (offset + (rawText pieces).length) tail after) :
    brokenCount (rawText pieces ++ tail) = brokenCount tail ∧
      ∃ nodes, PartsRead c offset (rawText pieces ++ tail) nodes ∧
        Node.joinTexts nodes = Node.joinTexts (node :: after) := by
  rcases hsegment.endsBefore_or_literal hbroken htail with
    hends | ⟨run, more, rest, rfl, rfl, hmore, hboth, hrest⟩
  · have hwhole := hsegment.ofExpression_eq
    rw [brokenCount_append (by rwa [hwhole]), hbroken, Nat.zero_add]
    exact ⟨rfl, node :: after,
      (partsRead_segment hsegment hends).mpr ⟨node, after, hnode, hafter, rfl⟩, rfl⟩
  · -- Two literal runs meet, and are one run of the whole.
    cases hnode
    rw [rawText_text] at hafter ⊢
    obtain ⟨others, hothers, rfl⟩ := (partsRead_literal hmore hrest).mp hafter
    rw [Nat.add_assoc, ← List.length_append] at hothers
    rw [← List.append_assoc, brokenCount_literal hboth hrest, brokenCount_literal hmore hrest]
    refine ⟨rfl, .text (run ++ more) offset :: others,
      (partsRead_literal hboth hrest).mpr ⟨others, hothers, rfl⟩, ?_⟩
    rw [Node.joinTexts_cons, Node.joinTexts_cons, Node.joinTexts_cons, ← Node.weld_weld]
    rfl

/-- A text without broken references is read in front of the sign of references as it is by
    itself. -/
theorem partsRead_append_atSignOrEnd {s : Text} (hbroken : brokenCount s = 0)
    (htail : atSignOrEnd tail) (hbefore : PartsRead c offset s before)
    (hafter : PartsRead c (offset + s.length) tail after) :
    brokenCount (s ++ tail) = brokenCount tail ∧
      ∃ nodes, PartsRead c offset (s ++ tail) nodes ∧
        Node.joinTexts nodes = Node.joinTexts (before ++ after) := by
  induction s using segment_induction generalizing offset before with
  | nil =>
    rw [partsRead_nil.mp hbefore]
    exact ⟨rfl, after, hafter, rfl⟩
  | segment pieces rest hsegment hends ih =>
    obtain ⟨node, more, hnode, hmore, rfl⟩ := (partsRead_segment hsegment hends).mp hbefore
    have hwhole := hsegment.ofExpression_eq
    rw [brokenCount_append (by rwa [hwhole])] at hbroken
    obtain ⟨hfirst, hrest⟩ := Nat.add_eq_zero_iff.mp hbroken
    by_cases hnil : rest = []
    · subst hnil
      rw [List.append_nil] at hafter ⊢
      rw [partsRead_nil.mp hmore]
      exact partsRead_segment_append hsegment hfirst htail hnode hafter
    · rw [List.length_append, ← Nat.add_assoc] at hafter
      obtain ⟨hcount, nodes, hnodes, hjoin⟩ := ih hrest hmore hafter
      have hover := EndsBefore.append_atSignOrEnd hnil htail hends
      rw [List.append_assoc, brokenCount_append (by rwa [hwhole]), hfirst, hcount, Nat.zero_add]
      refine ⟨rfl, node :: nodes,
        (partsRead_segment hsegment hover).mpr ⟨node, nodes, hnode, hnodes, rfl⟩, ?_⟩
      rw [List.cons_append, Node.joinTexts_cons, hjoin, ← Node.joinTexts_cons]

/-- Parts that stand further on are read as nodes that stand further on. -/
theorem PartsRead.moved {s : Text} (hread : PartsRead c offset s nodes) (k : Nat) :
    PartsRead c (k + offset) s (nodes.map (Node.moved k)) := by
  rw [PartsRead, ← Part.map_moved_moved, List.forall₂_map_left_iff, List.forall₂_map_right_iff]
  refine hread.imp fun part node hnode => ?_
  rw [Part.resolve_moved, hnode]
  rfl

namespace Reading

/-- Reading is local. Behind an expression that is read without broken references, anything that is
    empty or starts with the sign of references is read as it is by itself: the nodes of both stand
    one behind the other, those of the second moved on, and only texts that meet become one. The
    broken references are those of the second. -/
theorem ofExpression_append_eq_weld {s : Text} {first second : Reading}
    (hfirst : ofExpression c s = .ok first) (hbroken : first.brokenCount = 0)
    (hsecond : ofExpression c tail = .ok second) (htail : atSignOrEnd tail) :
    ofExpression c (s ++ tail) = .ok
      { document :=
          { nodes := Node.weld first.document.nodes
              (second.document.nodes.map (Node.moved s.length)) }
        brokenCount := second.brokenCount } := by
  obtain ⟨before, hbefore, rfl⟩ := ofExpression_eq_ok_iff.mp hfirst
  obtain ⟨after, hafter, rfl⟩ := ofExpression_eq_ok_iff.mp hsecond
  have hmoved := hafter.moved s.length
  rw [Nat.add_zero, ← Nat.zero_add s.length] at hmoved
  obtain ⟨hcount, nodes, hnodes, hjoin⟩ :=
    partsRead_append_atSignOrEnd hbroken htail hbefore hmoved
  refine ofExpression_eq_ok_iff.mpr ⟨nodes, hnodes, ?_⟩
  rw [hjoin, Node.joinTexts_append, Node.joinTexts_map_moved, hcount]
  simp

/-- A name that breaks off at the end of an expression does not go on in the next one, whose first
    sign starts no reference either; the reference behind that and the broken one at the end are
    left as they are. -/
theorem ofExpression_append_meeting :
    let s := "Hi @a(b).c('@d') @e".toList
    let tail := "@f @g(h).c(i)@j(k".toList
    let r (group field arg : String) (position distance : Int) : Node :=
      .reference
        { group := group.toList, field := field.toList, position
          calls := [{ key := "c".toList, args := [.text arg.toList],
                      position := position + distance }] }
    ofExpression {} s = .ok
        { document :=
            { nodes := [.text "Hi ".toList 0, r "a" "b" "@d" 3 5, .text " @e".toList 16] }
          brokenCount := 0 } ∧
      ofExpression {} tail = .ok
        { document :=
            { nodes := [.text "@f ".toList 0, r "g" "h" "i" 3 5, .text "@j(k".toList 13] }
          brokenCount := 1 } ∧
      ofExpression {} (s ++ tail) = .ok
        { document :=
            { nodes := [.text "Hi ".toList 0, r "a" "b" "@d" 3 5, .text " @e@f ".toList 16,
                        r "g" "h" "i" 22 5, .text "@j(k".toList 32] }
          brokenCount := 1 } := by
  intro s tail r
  have hfirst : ofExpression {} s = .ok
      { document :=
          { nodes := [.text "Hi ".toList 0, r "a" "b" "@d" 3 5, .text " @e".toList 16] }
        brokenCount := 0 } := by decide +kernel
  have hsecond : ofExpression {} tail = .ok
      { document :=
          { nodes := [.text "@f ".toList 0, r "g" "h" "i" 3 5, .text "@j(k".toList 13] }
        brokenCount := 1 } := by decide +kernel
  have hat : atSignOrEnd tail := by simp [atSignOrEnd, tail]
  refine ⟨hfirst, hsecond, ?_⟩
  rw [ofExpression_append_eq_weld hfirst rfl hsecond hat]
  decide +kernel

end Reading

end TagText
