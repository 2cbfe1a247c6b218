import TagText.Proofs.Reading.Places
import TagText.Proofs.Writing.Settled

/-!
Documents that a host puts together. Where names are names and no text opens a reference or goes on
with one, the canonical expression is read as the same texts and references again, whatever the
arguments hold; what kinds the arguments are of is up to the places where they stand.
-/

namespace TagText

open Lexeme

/-- Whether a sign, a name and an opening parenthesis stand at the front of a text. -/
def Lexeme.Opens (sign : Char) (s : Text) : Prop :=
  ∃ word rest, isName word = true ∧ s = sign :: word ++ '(' :: rest

/-- No reference opens anywhere in a text. -/
def Lexeme.Plain (s : Text) : Prop := ∀ t, t <:+ s → ¬ Opens '@' t

theorem Lexeme.opening?_eq_none_iff {sign : Char} {s : Text} :
    opening? sign s = none ↔ ¬ Opens sign s := by
  rw [Option.eq_none_iff_forall_ne_some, Opens]
  constructor
  · rintro hnone ⟨word, rest, hopening⟩
    exact hnone (word, rest) (opening?_eq_some_iff.mpr hopening)
  · rintro hnot ⟨word, rest⟩ hopening
    exact hnot ⟨word, rest, opening?_eq_some_iff.mp hopening⟩

/-- Nodes of which the names are names, no text is empty or next to another, no text opens a
    reference anywhere, and none opens a modifier right behind a reference. -/
structure Node.Writable (nodes : List Node) : Prop where
  normal : Normal nodes
  named : ∀ r, reference r ∈ nodes → r.WellNamed
  plain : ∀ s position, text s position ∈ nodes → Plain s
  apart : ∀ r s position, [reference r, text s position] <:+: nodes → ¬ Opens '.' s

/-- A reference that comes back as another one: with the same group and field, and with the same
    keys in order, each argument being what the text that it is written as is read as at its
    place. -/
structure Reference.Returns (c : Catalog) (r again : Reference) : Prop where
  group : again.group = r.group
  field : again.field = r.field
  calls : List.Forall₂
    (fun (call, i) back =>
      Call.Carries c r.group r.field i call.key (call.args.map Arg.spelled) back)
    r.calls.zipIdx again.calls

theorem Call.forall₂_spelled_iff {R : Text → List Text → Nat → Call → Prop} {offset index : Nat}
    {calls again : List Call} :
    List.Forall₂ (fun (call, i) back => R call.key call.args i back)
        ((spelled offset calls).zipIdx index) again ↔
      List.Forall₂ (fun (call, i) back => R call.key (call.args.map Arg.spelled) i back)
        (calls.zipIdx index) again := by
  induction calls generalizing offset index again with
  | nil => simp [spelled]
  | cons call calls ih =>
    rw [spelled, List.zipIdx_cons, List.zipIdx_cons, List.forall₂_cons_left_iff,
      List.forall₂_cons_left_iff]
    simp only [ih]

/-- A reference comes back as what is read of its written form, wherever that stands. -/
theorem Reference.carries_spelled_iff {c : Catalog} {r again : Reference} (offset : Nat) :
    again.Carries c (r.spelled offset) ↔ r.Returns c again := by
  have hcalls := @Call.forall₂_spelled_iff
    (fun key texts i back => Call.Carries c r.group r.field i key texts back)
    (offset + r.group.length + r.field.length + 3) 0 r.calls again.calls
  exact ⟨fun h => ⟨h.group, h.field, hcalls.mp h.calls⟩,
    fun h => ⟨h.group, h.field, hcalls.mpr h.calls⟩⟩

theorem Reference.returns_of_resolve {c : Catalog} {r again : Reference} {offset : Nat}
    (hread : (r.spelled offset).resolve c = .ok again) : r.Returns c again :=
  (carries_spelled_iff offset).mp (RawReference.carries_of_resolve hread)

theorem Reference.Returns.exists_resolve {c : Catalog} {r again : Reference}
    (hreturns : r.Returns c again) (offset : Nat) :
    ∃ found, (r.spelled offset).resolve c = .ok found :=
  RawReference.exists_resolve_of_carries ((carries_spelled_iff offset).mpr hreturns)

theorem Reference.returns_moved {c : Catalog} {r again : Reference} {k : Int} :
    r.Returns c (again.moved k) ↔ r.Returns c again := by
  constructor
  · intro hreturns
    have hcalls := List.forall₂_map_right_iff.mp hreturns.calls
    exact ⟨hreturns.group, hreturns.field,
      hcalls.imp fun _ back hback => hback.at_position back.position⟩
  · intro hreturns
    refine ⟨hreturns.group, hreturns.field, List.forall₂_map_right_iff.mpr ?_⟩
    exact hreturns.calls.imp fun _ back hback => hback.at_position (back.position + k)

namespace Lexeme

/-- A text that opens no reference is one literal run. -/
theorem literalRun_of_plain {s : Text} (hplain : Plain s) : literalRun s = (s, []) := by
  induction s with
  | nil => rfl
  | cons c s ih =>
    have hrest := ih fun t ht => hplain t (ht.trans (List.suffix_cons c s))
    have hnone := opening?_eq_none_iff.mpr (hplain (c :: s) List.suffix_rfl)
    simp [literalRun, startsReference, hnone, hrest]

theorem rawText_text (s : Text) : rawText [text s] = s := by simp [raw]

theorem leavesOpen_of_literal {s : Text} (hsegment : Segment [text s]) : leavesOpen s = false := by
  have hpieces := hsegment.ofExpression_eq
  rw [rawText_text] at hpieces
  rw [leavesOpen, hpieces]
  rfl

theorem Segment.of_plain {s : Text} (hs : s ≠ []) (hplain : Plain s) : Segment [text s] :=
  .literal s hs (opening?_eq_none_iff.mpr (hplain s List.suffix_rfl)) (literalRun_of_plain hplain)

end Lexeme

section

variable {s : Text} (hs : s ≠ []) (hplain : Plain s)

include hs hplain

theorem partsOf_of_plain : partsOf s = [.text s 0] := by
  have hparts := partsOf_of_segment (Segment.of_plain hs hplain)
  rw [rawText_text] at hparts
  rw [hparts, Part.ofSegment]

theorem brokenCount_of_plain : brokenCount s = 0 := by
  rw [brokenCount, partsOf_of_plain hs hplain]
  rfl

theorem Loose.of_plain (c : Catalog) : Loose c s := by
  refine ⟨hs, ?_⟩
  rw [partsOf_of_plain hs hplain, List.forall_mem_singleton]
  exact ⟨rfl, _, rfl⟩

end

namespace Node.Writable

theorem tail {node : Node} {nodes : List Node} (hwritable : Writable (node :: nodes)) :
    Writable nodes where
  normal := normal_tail hwritable.normal
  named r hr := hwritable.named r (List.mem_cons_of_mem _ hr)
  plain s position hs := hwritable.plain s position (List.mem_cons_of_mem _ hs)
  apart r s position hpair := hwritable.apart r s position (List.infix_cons hpair)

/-- What stands behind a text opens a reference. -/
theorem referenceOrEnd_written {nodes : List Node} (hwritable : Writable nodes)
    (hnodes : startsText nodes = false) : ReferenceOrEnd (nodes.flatMap written) := by
  cases nodes with
  | nil => exact Or.inl rfl
  | cons node nodes =>
    cases node with
    | text => cases hnodes
    | reference r =>
      have hderived := Grammar.Reference.written (hwritable.named r List.mem_cons_self) 0
      exact Or.inr (startsReference_append hderived.startsReference _)

/-- What stands behind a reference opens no modifier. -/
theorem not_startsCall {r : Reference} {nodes : List Node}
    (hwritable : Writable (.reference r :: nodes)) : startsCall nodes = false := by
  cases nodes with
  | nil => rfl
  | cons node nodes =>
    cases node with
    | reference => rfl
    | text s position =>
      have hpair : [.reference r, .text s position] <:+:
          .reference r :: .text s position :: nodes := ⟨[], nodes, rfl⟩
      have hnone := opening?_eq_none_iff.mpr (hwritable.apart r s position hpair)
      simp [startsCall, hnone]

theorem brokenCount_eq_zero {nodes : List Node} (hwritable : Writable nodes) :
    (nodes.map brokenCount).sum = 0 := by
  induction nodes with
  | nil => rfl
  | cons node nodes ih =>
    rw [List.map_cons, List.sum_cons, ih hwritable.tail]
    cases node with
    | reference => rfl
    | text s position =>
      exact brokenCount_of_plain hwritable.normal.1 (hwritable.plain s position List.mem_cons_self)

/-- Writable nodes settle down when every reference of theirs comes back. -/
theorem settled {c : Catalog} {nodes : List Node} (hwritable : Writable nodes)
    (hreturns : ∀ r, reference r ∈ nodes → ∃ again, r.Returns c again) :
    Settled c (fun r again => r.Returns c again) nodes := by
  induction nodes with
  | nil => exact .nil
  | cons node nodes ih =>
    have hrest := ih hwritable.tail fun r hr => hreturns r (List.mem_cons_of_mem _ hr)
    cases node with
    | text s position =>
      obtain ⟨hs, hnodes, -⟩ := hwritable.normal
      have hplain := hwritable.plain s position List.mem_cons_self
      have hopen := leavesOpen_of_literal (Segment.of_plain hs hplain)
      exact .text (Loose.of_plain hs hplain c) hnodes (fun _ => hopen) hrest
    | reference r =>
      obtain ⟨again, hagain⟩ := hreturns r List.mem_cons_self
      obtain ⟨found, hfound⟩ := hagain.exists_resolve 0
      exact .reference (hwritable.named r List.mem_cons_self) hfound
        (Reference.returns_of_resolve hfound) hwritable.not_startsCall hrest

/-- Where the written form of writable nodes is read, every reference of theirs comes back. -/
theorem returns_of_partsRead {c : Catalog} {offset : Nat} {nodes all : List Node}
    (hwritable : Writable nodes) (hread : PartsRead c offset (nodes.flatMap written) all) :
    ∀ r, reference r ∈ nodes → ∃ again, r.Returns c again := by
  induction nodes generalizing offset all with
  | nil => simp
  | cons node nodes ih =>
    rw [List.flatMap_cons] at hread
    cases node with
    | text s position =>
      obtain ⟨hs, hnodes, -⟩ := hwritable.normal
      have hplain := hwritable.plain s position List.mem_cons_self
      have hends : EndsBefore [Lexeme.text s] (nodes.flatMap written) := by
        intro last hlast
        cases hlast
        exact hwritable.tail.referenceOrEnd_written hnodes
      have hwhole : PartsRead c offset (rawText [Lexeme.text s] ++ nodes.flatMap written) all := by
        rwa [rawText_text]
      obtain ⟨node, more, -, hmore, -⟩ :=
        (partsRead_segment (Segment.of_plain hs hplain) hends).mp hwhole
      simpa using ih hwritable.tail hmore
    | reference r =>
      have hnamed := hwritable.named r List.mem_cons_self
      have hnext := (opening?_written_iff hwritable.tail.normal).mpr hwritable.not_startsCall
      obtain ⟨again, more, hagain, hmore, -⟩ :=
        (partsRead_reference (Grammar.Reference.written hnamed offset) hnext).mp hread
      intro found hfound
      rcases List.mem_cons.mp hfound with heq | hfound
      · cases heq
        exact ⟨again, Reference.returns_of_resolve hagain⟩
      · exact ih hwritable.tail hmore found hfound

end Node.Writable

/-- Writing a document that a host has put together and reading it again: it is read unless a text
    is refused at the place of its argument, and then the texts and the references are the same
    ones, no reference is broken, and each argument is what its text is read as at its place. No
    argument ends its quotes, adds another or starts a reference. -/
theorem Reading.ofExpression_expression_of_writable {c : Catalog} {d : Document}
    (hwritable : Node.Writable d.nodes) :
    ((∃ reading, ofExpression c d.expression = .ok reading) ↔
      ∀ r, .reference r ∈ d.nodes → ∃ again, r.Returns c again) ∧
    ∀ reading, ofExpression c d.expression = .ok reading →
      reading.brokenCount = 0 ∧ reading.document.trailing = [] ∧
        List.Forall₂ (Node.Related fun r again => r.Returns c again) d.nodes
          reading.document.nodes := by
  -- What is read of the written form comes back, and what comes back gives a reading of it.
  have hreturns : (∃ reading, ofExpression c d.expression = .ok reading) →
      ∀ r, .reference r ∈ d.nodes → ∃ again, r.Returns c again := by
    rintro ⟨reading, hread⟩
    obtain ⟨all, hparts, -⟩ := ofExpression_eq_ok_iff.mp hread
    exact hwritable.returns_of_partsRead hparts
  have hback : (∀ r, .reference r ∈ d.nodes → ∃ again, r.Returns c again) →
      ∃ again, ofExpression c d.expression =
          .ok { document := { nodes := again }, brokenCount := 0 } ∧
        List.Forall₂ (Node.Related fun r again => r.Returns c again) d.nodes again := by
    intro hall
    obtain ⟨again, hcut, hrelated⟩ :=
      (hwritable.settled hall).cut (fun _ _ _ => Reference.returns_moved) 0
    rw [hwritable.brokenCount_eq_zero] at hcut
    exact ⟨again, ofExpression_eq_ok_iff_cut.mpr ⟨rfl, hcut⟩, hrelated⟩
  refine ⟨⟨hreturns, fun hall => ?_⟩, fun reading hread => ?_⟩
  · obtain ⟨again, hagain, -⟩ := hback hall
    exact ⟨_, hagain⟩
  · obtain ⟨again, hagain, hrelated⟩ := hback (hreturns ⟨reading, hread⟩)
    obtain rfl := Except.ok.inj (hread.symm.trans hagain)
    exact ⟨rfl, rfl, hrelated⟩

/-- Quotes, parentheses, commas, line ends and references inside an argument stay inside it; only
    an argument at a declared place takes the kind of that place. -/
theorem Reading.ofExpression_expression_of_writable_nested :
    let param : Param := { key := "digits".toList, type := .number }
    let c : Catalog := { modifiers := [{ key := "m".toList, params := [param] }] }
    let nasty := "'\\\x22), @x(y).m('\n".toList
    let r : Reference :=
      { group := "a".toList
        field := "k.1:-".toList
        calls :=
          [{ key := "m".toList, args := [.text " 12 ".toList, .int 1, .text nasty] },
           { key := "n".toList, args := [.nothing, .bool true, .float (.infinite true)] }] }
    let again : Reference :=
      { group := "a".toList
        field := "k.1:-".toList
        calls :=
          [{ key := "m".toList, args := [.int 12, .text "1".toList, .text nasty], position := 15 },
           { key := "n".toList
             args := [.text [], .text "true".toList, .text "-inf".toList]
             position := 48 }]
        position := 6 }
    let other : Reference := { group := "b".toList }
    let d : Document :=
      { nodes :=
          [.text "a@b (@".toList 0, .reference r, .text ".m @".toList 0, .reference other] }
    let back : Document :=
      { nodes :=
          [.text "a@b (@".toList 0, .reference again, .text ".m @".toList 64,
           .reference { other with position := 68 }] }
    Node.Writable d.nodes ∧
      ofExpression c d.expression = .ok { document := back, brokenCount := 0 } ∧
      List.Forall₂ (Node.Related fun r again => r.Returns c again) d.nodes back.nodes := by
  intro param c nasty r again other d back
  have hplain : ∀ s ∈ ["a@b (@".toList, ".m @".toList], ∀ t ∈ s.tails,
      Lexeme.opening? '@' t = none := by decide +kernel
  have hpoint : Lexeme.opening? '.' ".m @".toList = none := by decide +kernel
  have hnamed : r.WellNamed ∧ other.WellNamed :=
    ⟨⟨by decide +kernel, List.all_eq_true.mp (by decide +kernel), by decide +kernel⟩,
      ⟨by decide +kernel, by simp [other], by decide +kernel⟩⟩
  have hwritable : Node.Writable d.nodes := by
    refine ⟨⟨by decide, rfl, by decide, rfl, trivial⟩, ?_, ?_, ?_⟩
    · intro found hfound
      obtain rfl | rfl : found = r ∨ found = other := by simpa [d] using hfound
      · exact hnamed.1
      · exact hnamed.2
    · intro s position hs t ht
      have hmem : s ∈ ["a@b (@".toList, ".m @".toList] := by
        simp only [d, List.mem_cons, List.not_mem_nil, Node.text.injEq, reduceCtorEq] at hs ⊢
        tauto
      exact Lexeme.opening?_eq_none_iff.mp (hplain s hmem t ((List.mem_tails t s).mpr ht))
    · intro found s position hpair
      obtain ⟨-, rfl, -⟩ : found = r ∧ s = ".m @".toList ∧ position = 0 := by
        simpa [d, List.infix_cons_iff] using hpair
      exact Lexeme.opening?_eq_none_iff.mp hpoint
  have hread : ofExpression c d.expression = .ok { document := back, brokenCount := 0 } := by
    decide +kernel
  obtain ⟨-, hback⟩ := @ofExpression_expression_of_writable c d hwritable
  exact ⟨hwritable, hread, (hback _ hread).2.2⟩

end TagText
