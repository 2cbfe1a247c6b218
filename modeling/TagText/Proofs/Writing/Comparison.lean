import TagText.Proofs.Document.Comparison
import TagText.Proofs.Writing.RoundTrip

/-!
Nodes that come back as equal ones when they are written and read.
-/

namespace TagText

/-- Nodes that come back as equal ones. -/
abbrev SettledEqually (c : Catalog) (nodes : List Node) : Prop :=
  Settled c (fun r again => again.equals r = true) nodes

theorem Node.related_equals_iff {nodes again : List Node} :
    List.Forall₂ (Node.Related fun r again => again.equals r = true) nodes again ↔
      equalLists Node.equals again nodes = true := by
  have hnode : ∀ node other : Node,
      Related (fun r again => again.equals r = true) node other ↔ other.equals node = true := by
    intro node other
    constructor
    · rintro (_ | hequal)
      · simp [equals]
      · exact hequal
    · intro hequal
      cases node with
      | text s position =>
        cases other with
        | text t place =>
          obtain rfl : t = s := by simpa [equals] using hequal
          exact .text
        | reference r => cases hequal
      | reference r =>
        cases other with
        | text t place => cases hequal
        | reference again => exact .reference hequal
  rw [equalLists_iff]
  constructor
  · exact fun hrelated => (hrelated.imp fun node other => (hnode node other).mp).flip
  · exact fun hequal => (hequal.imp fun other node => (hnode node other).mpr).flip

/-- Well named nodes come back as equal ones exactly when they are settled. -/
theorem settledEqually_iff {c : Catalog} {nodes : List Node} (hnormal : Node.Normal nodes)
    (hnamed : ∀ r, Node.reference r ∈ nodes → r.WellNamed) (offset : Nat) :
    SettledEqually c nodes ↔ ∃ again broken,
      Cut c offset (nodes.flatMap Node.written) again broken ∧
        equalLists Node.equals again nodes = true := by
  constructor
  · intro hsettled
    obtain ⟨again, hcut, hrelated⟩ := hsettled.cut (by simp) offset
    exact ⟨again, _, hcut, Node.related_equals_iff.mp hrelated⟩
  · rintro ⟨again, broken, hcut, hequal⟩
    refine settled_of_cut_written (by simp) (fun r again hequal => ?_) hnormal hnamed hcut
      (Node.related_equals_iff.mpr hequal)
    exact (Reference.length_calls_of_equals hequal).symm

theorem Settled.imp {c : Catalog} {P Q : Reference → Reference → Prop} {nodes : List Node}
    (hsettled : Settled c P nodes)
    (himp : ∀ r, Node.reference r ∈ nodes → ∀ again, P r again → Q r again) :
    Settled c Q nodes := by
  induction hsettled with
  | nil => exact .nil
  | text hloose hnodes hopen _ ih =>
    exact .text hloose hnodes hopen (ih fun r hr => himp r (List.mem_cons_of_mem _ hr))
  | reference hnamed hread hagain hnext _ ih =>
    exact .reference hnamed hread (himp _ List.mem_cons_self _ hagain) hnext
      (ih fun r hr => himp r (List.mem_cons_of_mem _ hr))

end TagText
