import TagText.Proofs.Editing.Splices
import TagText.Proofs.Reading.Arguments
import TagText.Proofs.Writing.Comparison

/-!
The two forms of a draft. Typing reads the document off the text; an edit of a reference writes the
text off the document and does not read it again, so the two agree only as far as the nodes are
settled.
-/

namespace TagText

namespace Draft

/-- A draft with a document whose nodes a text can have next to each other. -/
def Sound (d : Draft) : Prop := ∃ document, d.document = some document ∧ document.Sound

/-- A draft whose text is read as nodes that equal those of its document. -/
def Coherent (c : Catalog) (d : Draft) : Prop :=
  ∃ document reading, d.document = some document ∧ Reading.ofExpression c d.text = .ok reading ∧
    equalLists Node.equals reading.document.nodes document.nodes = true

/-- A draft whose text was written from its document. -/
def Canonical (d : Draft) : Prop :=
  ∃ document, d.document = some document ∧ d.text = document.expression

/-- A draft whose nodes are read as equal ones when they are written. -/
def SettledEqually (c : Catalog) (d : Draft) : Prop :=
  ∃ document, d.document = some document ∧ TagText.SettledEqually c document.nodes

variable {c : Catalog} {d : Draft}

/-- Typing leaves a draft whose two forms agree. -/
theorem coherent_of_setText {text : Text} {draft : Draft}
    (hset : d.setText c text = (draft, .ok ())) : draft.Sound ∧ draft.Coherent c := by
  rw [setText] at hset
  cases hread : Reading.ofExpression c text with
  | error e => rw [hread] at hset; cases hset
  | ok reading =>
    rw [hread] at hset
    cases hset
    obtain ⟨-, hcut⟩ := Reading.ofExpression_eq_ok_iff_cut.mp hread
    exact ⟨⟨_, rfl, hcut.sound⟩, _, reading, rfl, hread, hcut.equalLists_self⟩

/-- A draft with other nodes has a text that was written from them. -/
theorem canonical_withNodes {nodes : List Node} (hfit : ∀ node ∈ nodes, node.Fit) :
    (d.withNodes nodes).Sound ∧ (d.withNodes nodes).Canonical :=
  ⟨⟨_, rfl, Node.normal_joinTexts fun node hnode => (hfit node hnode).not_isBlankText,
    Node.fit_joinTexts hfit⟩, _, rfl, rfl⟩

/-- The two forms of a draft that was written from its document agree exactly when its nodes are
    settled. -/
theorem coherent_iff_settledEqually (hsound : d.Sound) (hcanonical : d.Canonical) :
    d.Coherent c ↔ d.SettledEqually c := by
  obtain ⟨document, hdocument, hnodes⟩ := hsound
  obtain ⟨other, hother, htext⟩ := hcanonical
  obtain rfl : document = other := Option.some.inj (hdocument.symm.trans hother)
  have hsettled := settledEqually_iff (c := c) hnodes.normal
    (fun r hr => hnodes.fit (.reference r) hr) 0
  constructor
  · rintro ⟨found, reading, hfound, hread, hequal⟩
    obtain rfl : document = found := Option.some.inj (hdocument.symm.trans hfound)
    rw [htext] at hread
    obtain ⟨-, hcut⟩ := Reading.ofExpression_eq_ok_iff_cut.mp hread
    exact ⟨document, hdocument, hsettled.mpr ⟨_, _, hcut, hequal⟩⟩
  · rintro ⟨found, hfound, hnodes⟩
    obtain rfl : document = found := Option.some.inj (hdocument.symm.trans hfound)
    obtain ⟨again, broken, hcut, hequal⟩ := hsettled.mp hnodes
    refine ⟨document, { document := { nodes := again }, brokenCount := broken }, hdocument, ?_,
      hequal⟩
    rw [htext]
    exact Reading.ofExpression_eq_ok_iff_cut.mpr ⟨rfl, hcut⟩

/-- A change of a reference to fit nodes leaves a sound draft with canonical text. -/
theorem canonical_of_change (hsound : d.Sound) {index : Int} {change : Reference → List Node}
    (hchange : ∀ r, r.WellNamed → ∀ node ∈ change r, node.Fit) {draft : Draft}
    (hdraft : d.change index change = .ok (draft, .ok ())) : draft.Sound ∧ draft.Canonical := by
  obtain ⟨document, hdocument, -, hfit⟩ := hsound
  obtain ⟨before, old, after, hnodes, hset⟩ := exists_of_change hdocument hdraft
  obtain ⟨-, rfl⟩ := setNodes_eq_ok_iff.mp hset.symm
  rw [hnodes, List.forall_mem_append, List.forall_mem_cons] at hfit
  obtain ⟨hbefore, hold, hafter⟩ := hfit
  refine canonical_withNodes (List.forall_mem_append.mpr ⟨?_, hafter⟩)
  exact List.forall_mem_append.mpr ⟨hbefore, hchange old hold⟩

theorem canonical_of_replace (hsound : d.Sound) {r : Reference} (hr : r.WellNamed) {index : Int}
    {draft : Draft} (hdraft : d.replace index r = .ok (draft, .ok ())) :
    draft.Sound ∧ draft.Canonical := by
  refine canonical_of_change hsound (fun old hold => ?_) hdraft
  exact List.forall_mem_singleton.mpr hr

theorem canonical_of_remove (hsound : d.Sound) {index : Int} {draft : Draft}
    (hdraft : d.remove index = .ok (draft, .ok ())) : draft.Sound ∧ draft.Canonical :=
  canonical_of_change hsound (fun _ _ _ hnode => absurd hnode List.not_mem_nil) hdraft

theorem canonical_of_setCalls (hsound : d.Sound) {calls : List Call}
    (hcalls : ∀ call ∈ calls, Lexeme.isName call.key = true) {index : Int} {draft : Draft}
    (hdraft : d.setCalls index calls = .ok (draft, .ok ())) : draft.Sound ∧ draft.Canonical := by
  refine canonical_of_change hsound (fun r hr => List.forall_mem_singleton.mpr ?_) hdraft
  exact { group := hr.group, field := hr.field, keys := hcalls }

theorem canonical_of_insert (hsound : d.Sound) {r : Reference} (hr : r.WellNamed)
    {index : Option Int} {draft : Draft} (hdraft : d.insert index r = .ok (draft, .ok ())) :
    draft.Sound ∧ draft.Canonical := by
  obtain ⟨document, hdocument, hnodes⟩ := hsound
  rw [Draft.insert, hdocument] at hdraft
  simp only at hdraft
  split at hdraft
  · obtain ⟨-, rfl⟩ := setNodes_eq_ok_iff.mp (Except.ok.inj hdraft)
    refine canonical_withNodes (List.forall_mem_append.mpr ⟨hnodes.fit, ?_⟩)
    exact List.forall_mem_singleton.mpr hr
  · refine canonical_of_change ⟨document, hdocument, hnodes⟩ (fun old hold => ?_) hdraft
    exact List.forall_mem_cons.mpr ⟨hr, List.forall_mem_singleton.mpr hold⟩

end Draft

end TagText
