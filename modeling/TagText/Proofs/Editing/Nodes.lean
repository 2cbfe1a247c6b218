import TagText.Editing.Draft
import TagText.Proofs.Writing.RoundTrip

/-!
Nodes that are cut out and put together again. Joining texts and splicing references in and out
leaves nodes that a text can have next to each other, though it need not be read as them.
-/

namespace TagText

/-- A node that a text can have: a text with characters, or a well named reference. -/
def Node.Fit : Node → Prop
  | text s _ => s ≠ []
  | reference r => r.WellNamed

/-- A document whose nodes a text can have next to each other. -/
structure Document.Sound (d : Document) : Prop where
  normal : Node.Normal d.nodes
  fit : ∀ node ∈ d.nodes, node.Fit

namespace Node

theorem Normal.fit_text {nodes : List Node} (hnormal : Normal nodes) {s : Text} {position : Int}
    (hnode : text s position ∈ nodes) : s ≠ [] := by
  induction nodes with
  | nil => cases hnode
  | cons node nodes ih =>
    rcases List.mem_cons.mp hnode with rfl | hmem
    · exact hnormal.1
    · exact ih (normal_tail hnormal) hmem

theorem not_isBlankText_text {s : Text} {position : Int} :
    (text s position).isBlankText = false ↔ s ≠ [] := by
  cases s <;> simp [isBlankText]

theorem Fit.not_isBlankText {node : Node} (hfit : node.Fit) : node.isBlankText = false := by
  cases node with
  | text s position => exact not_isBlankText_text.mpr hfit
  | reference r => rfl

theorem Normal.not_isBlankText {nodes : List Node} (hnormal : Normal nodes) :
    ∀ node ∈ nodes, node.isBlankText = false := by
  rintro (⟨s, position⟩ | r) hnode
  · exact not_isBlankText_text.mpr (hnormal.fit_text hnode)
  · rfl

theorem fit_joinTexts {nodes : List Node} (hfit : ∀ node ∈ nodes, node.Fit) :
    ∀ node ∈ joinTexts nodes, node.Fit := by
  induction nodes with
  | nil => simp [joinTexts]
  | cons node nodes ih =>
    obtain ⟨hnode, hnodes⟩ := List.forall_mem_cons.mp hfit
    have hrest := ih hnodes
    cases node with
    | reference r =>
      rw [joinTexts]
      exact List.forall_mem_cons.mpr ⟨hnode, hrest⟩
    | text s position =>
      rcases joinTexts_cases s position nodes with ⟨-, hjoin⟩ | ⟨more, place, rest, hjoined, hjoin⟩
      · rw [hjoin]
        exact List.forall_mem_cons.mpr ⟨hnode, hrest⟩
      · rw [hjoined] at hrest
        rw [hjoin]
        refine List.forall_mem_cons.mpr ⟨?_, (List.forall_mem_cons.mp hrest).2⟩
        exact List.append_ne_nil_of_left_ne_nil hnode _

theorem normal_joinTexts {nodes : List Node} (hnodes : ∀ node ∈ nodes, node.isBlankText = false) :
    Normal (joinTexts nodes) := by
  induction nodes with
  | nil => trivial
  | cons node nodes ih =>
    obtain ⟨hnode, hnodes⟩ := List.forall_mem_cons.mp hnodes
    have hrest := ih hnodes
    cases node with
    | reference r =>
      rw [joinTexts]
      exact hrest
    | text s position =>
      have hs : s ≠ [] := not_isBlankText_text.mp hnode
      rcases joinTexts_cases s position nodes with
        ⟨hstarts, hjoin⟩ | ⟨more, place, rest, hjoined, hjoin⟩
      · rw [hjoin]
        exact ⟨hs, hstarts, hrest⟩
      · rw [hjoined] at hrest
        rw [hjoin]
        exact ⟨List.append_ne_nil_of_left_ne_nil hs _, hrest.2⟩

end Node

theorem Cut.sound {c : Catalog} {offset broken : Nat} {s trailing : Text} {nodes : List Node}
    (hcut : Cut c offset s nodes broken) : ({ nodes, trailing } : Document).Sound := by
  refine ⟨hcut.normal, fun node hnode => ?_⟩
  cases node with
  | text s position => exact hcut.normal.fit_text hnode
  | reference r => exact hcut.wellNamed r hnode

end TagText
