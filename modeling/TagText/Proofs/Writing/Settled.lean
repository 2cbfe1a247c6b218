import TagText.Proofs.Grammar.Unambiguous
import TagText.Proofs.Reading.Spans
import TagText.Proofs.Writing.Resolving

/-!
Nodes that are read as they are written. Whether they are can be seen from each node by itself and
from the text that stands next to a reference.
-/

namespace TagText

open Lexeme

/-- Whether a modifier is opened at the front of the text that nodes start with. -/
def Node.startsCall : List Node → Bool
  | text s _ :: _ => (opening? '.' s).isSome
  | _ => false

/-- The broken references of a node. -/
def Node.brokenCount : Node → Nat
  | text s _ => TagText.brokenCount s
  | reference _ => 0

/-- Nodes with the same texts, and with references that are related. -/
inductive Node.Related (P : Reference → Reference → Prop) : Node → Node → Prop
  | text {s : Text} {position place : Int} : Related P (text s position) (text s place)
  | reference {r again : Reference} : P r again → Related P (reference r) (reference again)

/-- Nodes that settle down when they are written and read: no text gives a reference, opens a
    modifier behind one or stays open in front of one, and every reference comes back as a related
    one. -/
inductive Settled (c : Catalog) (P : Reference → Reference → Prop) : List Node → Prop
  | nil : Settled c P []
  | text {s : Text} {position : Int} {nodes : List Node} : Loose c s →
    Node.startsText nodes = false → (nodes ≠ [] → leavesOpen s = false) → Settled c P nodes →
    Settled c P (.text s position :: nodes)
  | reference {r again : Reference} {nodes : List Node} : r.WellNamed →
    (r.spelled 0).resolve c = .ok again → P r again → Node.startsCall nodes = false →
    Settled c P nodes → Settled c P (.reference r :: nodes)

/-- No text is empty or stands next to another. -/
def Node.Normal : List Node → Prop
  | [] => True
  | text s _ :: nodes => s ≠ [] ∧ startsText nodes = false ∧ Normal nodes
  | reference _ :: nodes => Normal nodes

theorem Call.spelled_moved (k offset : Nat) (calls : List Call) :
    spelled (offset + k) calls = (spelled offset calls).map (RawCall.moved k) := by
  induction calls generalizing offset with
  | nil => rfl
  | cons call calls ih =>
    rw [spelled, spelled, List.map_cons, Nat.add_right_comm, ih]
    rfl

theorem Reference.spelled_moved (k offset : Nat) (r : Reference) :
    r.spelled (offset + k) = (r.spelled offset).moved k := by
  have hcalls := Call.spelled_moved k (offset + r.group.length + r.field.length + 3) r.calls
  rw [show offset + r.group.length + r.field.length + 3 + k =
    offset + k + r.group.length + r.field.length + 3 by omega] at hcalls
  rw [spelled, spelled, hcalls]
  rfl

theorem Reference.length_calls_spelled (offset : Nat) (r : Reference) :
    (r.spelled offset).calls.length = r.calls.length := by
  have hcalls : ∀ (calls : List Call) (start : Nat),
      (Call.spelled start calls).length = calls.length := by
    intro calls
    induction calls with
    | nil => exact fun _ => rfl
    | cons call calls ih => exact fun start => congrArg Nat.succ (ih _)
  exact hcalls r.calls _

theorem RawReference.length_calls_of_resolve {c : Catalog} {raw : RawReference} {r : Reference}
    (hread : raw.resolve c = .ok r) : r.calls.length = raw.calls.length := by
  obtain ⟨calls, hcalls, heq⟩ := bind_eq_ok_iff.mp hread
  cases heq
  simpa using congrArg List.length (keys_of_resolveCalls hcalls)

/-- What a written form is read as does not depend on its offset, up to positions. -/
theorem Reference.resolve_spelled_iff {c : Catalog} {r : Reference} {offset : Nat}
    {again : Reference} :
    (r.spelled offset).resolve c = .ok again ↔
      ∃ start, (r.spelled 0).resolve c = .ok start ∧ again = start.moved offset := by
  rw [← Nat.zero_add offset, spelled_moved, RawReference.resolve_moved]
  cases (r.spelled 0).resolve c with
  | error e => simp [Except.map]
  | ok start => simp [Except.map, eq_comm]

theorem atSignOrEnd_written {nodes : List Node} (hnodes : Node.startsText nodes = false) :
    atSignOrEnd (nodes.flatMap Node.written) := by
  cases nodes with
  | nil => simp [atSignOrEnd]
  | cons node nodes =>
    cases node with
    | text => cases hnodes
    | reference r => simp [atSignOrEnd, Node.written, Reference.written]

theorem written_ne_nil {nodes : List Node} (hnodes : Node.startsText nodes = false)
    (hne : nodes ≠ []) : nodes.flatMap Node.written ≠ [] := by
  cases nodes with
  | nil => exact absurd rfl hne
  | cons node nodes =>
    cases node with
    | text => cases hnodes
    | reference r => simp [Node.written, Reference.written]

theorem Node.normal_tail {node : Node} {nodes : List Node} (hnormal : Normal (node :: nodes)) :
    Normal nodes := by
  cases node with
  | text => exact hnormal.2.2
  | reference => exact hnormal

/-- A modifier opens behind a reference only if the next text opens it. -/
theorem opening?_written_iff {nodes : List Node} (hnormal : Node.Normal nodes) :
    opening? '.' (nodes.flatMap Node.written) = none ↔ Node.startsCall nodes = false := by
  cases nodes with
  | nil => simp [opening?, Node.startsCall]
  | cons node nodes =>
    cases node with
    | text s position =>
      obtain ⟨hs, hnodes, -⟩ := hnormal
      have hstarts : Node.startsCall (.text s position :: nodes) = (opening? '.' s).isSome := rfl
      rw [hstarts, Option.isSome_eq_false_iff, Option.isNone_iff_eq_none, List.flatMap_cons]
      exact ⟨opening?_eq_none_of_append,
        opening?_append_atSignOrEnd hs (atSignOrEnd_written hnodes)⟩
    | reference r =>
      have hwritten : atSignOrEnd ((Node.reference r :: nodes).flatMap Node.written) :=
        atSignOrEnd_written rfl
      exact iff_of_true (opening?_dot_of_atSignOrEnd hwritten) rfl

theorem Settled.normal {c : Catalog} {P : Reference → Reference → Prop} {nodes : List Node}
    (hsettled : Settled c P nodes) : Node.Normal nodes := by
  induction hsettled with
  | nil => trivial
  | text hloose hnodes _ _ ih => exact ⟨hloose.1, hnodes, ih⟩
  | reference _ _ _ _ _ ih => exact ih

theorem startsText_eq_of_related {P : Reference → Reference → Prop} {nodes again : List Node}
    (hrelated : List.Forall₂ (Node.Related P) nodes again) :
    Node.startsText again = Node.startsText nodes := by
  cases hrelated with
  | nil => rfl
  | cons hnode _ => cases hnode <;> rfl

section

variable {c : Catalog} {P : Reference → Reference → Prop}

/-- Settled nodes cut the text that they are written as, into related ones. -/
theorem Settled.cut (hP : ∀ r s k, P r (Reference.moved k s) ↔ P r s) {nodes : List Node}
    (hsettled : Settled c P nodes) (offset : Nat) :
    ∃ again, Cut c offset (nodes.flatMap Node.written) again (nodes.map Node.brokenCount).sum ∧
      List.Forall₂ (Node.Related P) nodes again := by
  induction hsettled generalizing offset with
  | nil => exact ⟨[], .nil, .nil⟩
  | @text s position nodes hloose hnodes hopen _ ih =>
    obtain ⟨again, hcut, hrelated⟩ := ih (offset + s.length)
    refine ⟨.text s offset :: again, ?_, .cons .text hrelated⟩
    refine .text hloose (by rwa [startsText_eq_of_related hrelated]) (fun hrest => hopen ?_) hcut
    rintro rfl
    exact hrest rfl
  | @reference r start nodes hnamed hresolve hstart hcall hrest ih =>
    have hwritten := Grammar.Reference.written hnamed offset
    obtain ⟨again, hcut, hrelated⟩ := ih (offset + r.written.length)
    refine ⟨.reference (start.moved offset) :: again, ?_,
      .cons (.reference ((hP _ _ _).mpr hstart)) hrelated⟩
    have hread : (r.spelled offset).resolve c = .ok (start.moved offset) :=
      Reference.resolve_spelled_iff.mpr ⟨start, hresolve, rfl⟩
    have hnext := (opening?_written_iff hrest.normal).mpr hcall
    simpa [Node.written, Node.brokenCount] using Cut.reference hwritten hread hnext hcut

/-- Nodes that are read as related ones when they are written are settled. -/
theorem settled_of_cut_written (hP : ∀ r s k, P r (Reference.moved k s) ↔ P r s)
    (hcalls : ∀ r s, P r s → r.calls.length = s.calls.length) {nodes again : List Node}
    (hnormal : Node.Normal nodes) (hnamed : ∀ r, Node.reference r ∈ nodes → r.WellNamed)
    {offset broken : Nat} (hcut : Cut c offset (nodes.flatMap Node.written) again broken)
    (hrelated : List.Forall₂ (Node.Related P) nodes again) : Settled c P nodes := by
  induction hrelated generalizing offset broken with
  | nil => exact .nil
  | @cons node other nodes again hnode hrest ih =>
    have ih := @ih (Node.normal_tail hnormal) fun r hr => hnamed r (List.mem_cons_of_mem _ hr)
    generalize hwritten : (node :: nodes).flatMap Node.written = s at hcut
    cases hnode with
    | @text t position place =>
      cases hcut with
      | @text _ broken _ rest _ hloose hnodes hopen hcut =>
        obtain rfl : nodes.flatMap Node.written = rest := List.append_cancel_left hwritten
        rw [startsText_eq_of_related hrest] at hnodes
        exact .text hloose hnodes (fun hne => hopen (written_ne_nil hnodes hne)) (ih hcut)
    | @reference r found hfound =>
      cases hcut with
      | @reference _ _ t rest _ raw _ hderived hraw hnext hcut =>
        have hnamed := hnamed r List.mem_cons_self
        have hlength : (r.spelled offset).calls.length = raw.calls.length := by
          rw [Reference.length_calls_spelled, hcalls r found hfound,
            RawReference.length_calls_of_resolve hraw]
        obtain ⟨rfl, rfl, rfl⟩ := (Grammar.Reference.written hnamed offset).unique hderived hlength
          hwritten
        obtain ⟨start, hstart, rfl⟩ := Reference.resolve_spelled_iff.mp hraw
        exact .reference hnamed hstart ((hP _ _ _).mp hfound)
          ((opening?_written_iff (Node.normal_tail hnormal)).mp hnext) (ih hcut)

end

end TagText
