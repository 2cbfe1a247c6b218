import TagText.Proofs.Writing.Settled

/-!
What is read of an expression is read again from the canonical expression, kinds of arguments and
broken references included. Infinite numbers are the only thing that gets lost.
-/

namespace TagText

open Lexeme

/-- Nodes that come back the same but for their positions. -/
abbrev SettledExactly (c : Catalog) (nodes : List Node) : Prop :=
  Settled c (fun r again => again.unplaced = r.unplaced) nodes

theorem Node.mem_args {nodes : List Node} {trailing : Text} {r : Reference}
    (hr : Node.reference r ∈ nodes) {a : Arg} (ha : a ∈ r.args) :
    a ∈ ({ nodes, trailing } : Document).args :=
  List.mem_flatMap.mpr ⟨r, List.mem_filterMap.mpr ⟨_, hr, rfl⟩, ha⟩

theorem Cut.broken_eq {c : Catalog} {offset broken : Nat} {s : Text} {nodes : List Node}
    (hcut : Cut c offset s nodes broken) : broken = (nodes.map Node.brokenCount).sum := by
  induction hcut with
  | nil => rfl
  | text _ _ _ _ ih => simp [ih, Node.brokenCount]
  | reference _ _ _ _ ih => simp [ih, Node.brokenCount]

theorem Cut.not_startsCall {c : Catalog} {offset broken : Nat} {s : Text} {nodes : List Node}
    (hcut : Cut c offset s nodes broken) (hnone : opening? '.' s = none) :
    Node.startsCall nodes = false := by
  cases hcut with
  | nil => rfl
  | text => simp [Node.startsCall, opening?_eq_none_of_append hnone]
  | reference => rfl

theorem Cut.nodes_eq_nil {c : Catalog} {offset broken : Nat} {s : Text} {nodes : List Node}
    (hcut : Cut c offset s nodes broken) (hs : s = []) : nodes = [] := by
  cases hcut with
  | nil => rfl
  | text hloose => exact absurd (List.append_eq_nil_iff.mp hs).1 hloose.1
  | reference hderived =>
    cases hderived
    simp at hs

theorem Cut.normal {c : Catalog} {offset broken : Nat} {s : Text} {nodes : List Node}
    (hcut : Cut c offset s nodes broken) : Node.Normal nodes := by
  induction hcut with
  | nil => trivial
  | text hloose hnodes _ _ ih => exact ⟨hloose.1, hnodes, ih⟩
  | reference _ _ _ _ ih => exact ih

theorem Cut.wellNamed {c : Catalog} {offset broken : Nat} {s : Text} {nodes : List Node}
    (hcut : Cut c offset s nodes broken) : ∀ r, Node.reference r ∈ nodes → r.WellNamed := by
  induction hcut with
  | nil => simp
  | text _ _ _ _ ih => simpa using ih
  | reference hderived hr _ _ ih =>
    intro r hmem
    rcases List.mem_cons.mp hmem with heq | hmem
    · cases heq
      exact hderived.wellNamed hr
    · exact ih r hmem

/-- What cuts a text is settled, as long as its numbers are finite. -/
theorem Cut.settled {c : Catalog} {offset broken : Nat} {s : Text} {nodes : List Node}
    (hcut : Cut c offset s nodes broken)
    (hargs : ∀ r, Node.reference r ∈ nodes → ∀ a ∈ r.args, a.isFinite = true) :
    SettledExactly c nodes := by
  induction hcut with
  | nil => exact .nil
  | text hloose hnodes hopen hcut ih =>
    refine .text hloose hnodes (fun hne => hopen ?_) (ih fun r hr => hargs r (by simp [hr]))
    exact fun hrest => hne (hcut.nodes_eq_nil hrest)
  | reference hderived hr hnext hcut ih =>
    obtain ⟨again, hagain, hsame⟩ := RawReference.resolve_spelled hr (hargs _ List.mem_cons_self) 0
    exact .reference (hderived.wellNamed hr) hagain hsame (hcut.not_startsCall hnext)
      (ih fun r hr => hargs r (by simp [hr]))

theorem unplaced_eq_of_related {nodes again : List Node}
    (hrelated : List.Forall₂ (Node.Related fun r again => again.unplaced = r.unplaced)
      nodes again) :
    again.map Node.unplaced = nodes.map Node.unplaced := by
  induction hrelated with
  | nil => rfl
  | cons hnode _ ih =>
    rw [List.map_cons, List.map_cons, ih]
    cases hnode with
    | text => rfl
    | reference hsame => rw [Node.unplaced, Node.unplaced, hsame]

/-- Reading an expression, writing what was read and reading again gives the same document, with
    every argument of its own kind and with as many broken references; what is written is
    canonical. -/
theorem Reading.ofExpression_expression {c : Catalog} {s : Text} {reading : Reading}
    (hread : ofExpression c s = .ok reading)
    (hfinite : ∀ a ∈ reading.document.args, a.isFinite = true) :
    ∃ again, ofExpression c reading.document.expression = .ok again ∧
      again.document.unplaced = reading.document.unplaced ∧
      again.brokenCount = reading.brokenCount ∧
      again.document.expression = reading.document.expression := by
  obtain ⟨htrailing, hcut⟩ := ofExpression_eq_ok_iff_cut.mp hread
  have hsettled := hcut.settled fun r hr a ha => hfinite a (Node.mem_args hr ha)
  obtain ⟨again, hagain, hrelated⟩ := hsettled.cut (by simp) 0
  rw [← hcut.broken_eq] at hagain
  have hnodes := unplaced_eq_of_related hrelated
  have hsame : ({ nodes := again } : Document).unplaced = reading.document.unplaced := by
    rw [Document.unplaced, Document.unplaced, hnodes, htrailing]
  refine ⟨{ document := { nodes := again }, brokenCount := reading.brokenCount },
    ofExpression_eq_ok_iff_cut.mpr ⟨rfl, hagain⟩, hsame, rfl, ?_⟩
  rw [← Document.expression_unplaced, hsame, Document.expression_unplaced]

/-- A broken reference comes back as the text that it is, and a spaced one without its spaces. -/
theorem Reading.ofExpression_expression_of_broken :
    let call : Call := { key := "c".toList, args := [.text "x".toList], position := 5 }
    let r : Reference := { group := "a".toList, field := "b".toList, calls := [call] }
    let d : Document := { nodes := [.reference r, .text " @post(id".toList 14] }
    ofExpression {} "@a(b).c( 'x' ) @post(id".toList = .ok { document := d, brokenCount := 1 } ∧
      ∃ again, ofExpression {} d.expression = .ok again ∧ again.document.unplaced = d.unplaced ∧
        again.brokenCount = 1 ∧ again.document.expression = d.expression := by
  intro call r d
  have hread : ofExpression {} "@a(b).c( 'x' ) @post(id".toList =
      .ok { document := d, brokenCount := 1 } := by decide +kernel
  exact ⟨hread, ofExpression_expression hread (by decide)⟩

end TagText
