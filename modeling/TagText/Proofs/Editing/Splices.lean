import TagText.Editing.Session
import TagText.Proofs.Editing.Segments

/-!
Edits of a draft as splices of its nodes: where an index names a reference, the edit puts other
nodes in its place, and otherwise it is refused with the index and the number of references. If the
new nodes have a text, it takes the place of the old one, which otherwise stays.
-/

namespace TagText

/-- Whether a document has a text is a matter of its references. -/
theorem Document.hasText_eq_all (d : Document) :
    d.hasText = (Node.references d.nodes).all fun r => r.args.all Arg.hasText := by
  rw [hasText, args, references_eq, List.all_flatMap]

theorem hasText_append (before after : List Node) :
    ({ nodes := before ++ after } : Document).hasText =
      (({ nodes := before } : Document).hasText && ({ nodes := after } : Document).hasText) := by
  simp only [Document.hasText_eq_all, Node.references_append, List.all_append]

theorem hasText_reference (r : Reference) (nodes : List Node) :
    ({ nodes := .reference r :: nodes } : Document).hasText =
      (r.args.all Arg.hasText && ({ nodes } : Document).hasText) := by
  simp only [Document.hasText_eq_all, Node.references_reference, List.all_cons]

theorem hasText_joinTexts (nodes : List Node) (trailing : Text) :
    ({ nodes := Node.joinTexts nodes, trailing } : Document).hasText =
      ({ nodes } : Document).hasText := by
  rw [Document.hasText_eq_all, Document.hasText_eq_all, (Node.segments_joinTexts nodes).2]

namespace Draft

/-- The draft with other nodes, and with the text that is written for them. -/
def withNodes (d : Draft) (nodes : List Node) : Draft :=
  let document : Document := { nodes := Node.joinTexts nodes, trailing := d.trailing }
  { d with text := document.expression, document := some document }

variable {d draft : Draft} {document : Document} {index : Int} {change : Reference → List Node}
  {nodes : List Node}

theorem setNodes_of_hasText (htext : ({ nodes } : Document).hasText = true) :
    d.setNodes nodes = (d.withNodes nodes, .ok ()) := by
  have hjoined : ({ nodes := Node.joinTexts nodes, trailing := d.trailing } : Document).hasText =
      true := by
    rwa [hasText_joinTexts]
  simp only [setNodes, Document.writeExpression_of_hasText hjoined, withNodes]

theorem setNodes_of_not_hasText (htext : ({ nodes } : Document).hasText = false) :
    d.setNodes nodes =
      ({ d.withNodes nodes with text := d.text }, .error .overlongInteger) := by
  have hjoined : ({ nodes := Node.joinTexts nodes, trailing := d.trailing } : Document).hasText =
      false := by
    rwa [hasText_joinTexts]
  simp [setNodes, Document.writeExpression, hjoined, withNodes]

/-- Whether or not they have a text, the draft has the nodes. -/
theorem setNodes_fst (d : Draft) (nodes : List Node) :
    (d.setNodes nodes).1.document =
        some { nodes := Node.joinTexts nodes, trailing := d.trailing } ∧
      (d.setNodes nodes).1.trailing = d.trailing := by
  rw [setNodes]
  split <;> exact ⟨rfl, rfl⟩

theorem setNodes_eq_ok_iff : d.setNodes nodes = (draft, .ok ()) ↔
    ({ nodes } : Document).hasText = true ∧ draft = d.withNodes nodes := by
  cases htext : ({ nodes } : Document).hasText with
  | true => simp [setNodes_of_hasText htext, eq_comm]
  | false => simp [setNodes_of_not_hasText htext]

/-- A change puts nodes in the place of the reference of its index. -/
theorem change_append (hdocument : d.document = some document) {before after : List Node}
    {old : Reference} (hnodes : document.nodes = before ++ .reference old :: after)
    (change : Reference → List Node) :
    d.change (Node.references before).length change =
      .ok (d.setNodes (before ++ change old ++ after)) := by
  simp only [Draft.change, hdocument, Int.natCast_nonneg, if_true, Int.toNat_natCast, hnodes,
    Node.splice?_append]

/-- A change of an index that no reference has is refused. -/
theorem change_outside (hdocument : d.document = some document)
    (hrange : ¬ (0 ≤ index ∧ index < document.references.length))
    (change : Reference → List Node) :
    d.change index change = .error (.ofIndex index document.references.length) := by
  have hnone : (if 0 ≤ index then Node.splice? change document.nodes index.toNat else none) =
      none := by
    split
    · refine Node.splice?_eq_none change ?_
      rw [Document.references_eq] at hrange
      omega
    · rfl
  simp only [Draft.change, hdocument, hnone]

/-- Without an index, or with the number of references, a reference is put at the end. -/
theorem insert_end (hdocument : d.document = some document) (index : Option Int) (r : Reference)
    (hindex : index.getD document.references.length = document.references.length) :
    d.insert index r = .ok (d.setNodes (document.nodes ++ [.reference r])) := by
  simp only [Draft.insert, hdocument, if_pos hindex]

/-- With any other index, a reference is put in front of the one of that index. -/
theorem insert_change (hdocument : d.document = some document) (index : Option Int)
    (r : Reference)
    (hindex : index.getD document.references.length ≠ document.references.length) :
    d.insert index r = d.change (index.getD document.references.length) fun old =>
      [.reference r, .reference old] := by
  simp only [Draft.insert, hdocument, if_neg hindex]

theorem insert_before (hdocument : d.document = some document) {before after : List Node}
    {old : Reference} (hnodes : document.nodes = before ++ .reference old :: after)
    (r : Reference) : d.insert (some (Node.references before).length) r =
      .ok (d.setNodes (before ++ .reference r :: .reference old :: after)) := by
  have hindex : (some ((Node.references before).length : Int)).getD document.references.length ≠
      document.references.length := by
    simp only [Document.references_eq, hnodes, Option.getD_some, Node.references_append,
      Node.references_reference, List.length_append, List.length_cons]
    omega
  rw [insert_change hdocument _ r hindex, Option.getD_some, change_append hdocument hnodes]
  simp

variable {edited : Draft × Except ConversionError Unit}

theorem exists_document_of_change (hdraft : d.change index change = .ok edited) :
    ∃ document, d.document = some document := by
  cases hdocument : d.document with
  | none => simp [Draft.change, hdocument] at hdraft
  | some document => exact ⟨document, rfl⟩

theorem exists_of_change (hdocument : d.document = some document)
    (hdraft : d.change index change = .ok edited) :
    ∃ before old after, document.nodes = before ++ .reference old :: after ∧
      edited = d.setNodes (before ++ change old ++ after) := by
  by_cases hrange : 0 ≤ index ∧ index < document.references.length
  · obtain ⟨i, rfl⟩ := Int.eq_ofNat_of_zero_le hrange.1
    obtain ⟨before, old, after, hnodes, rfl⟩ := Node.exists_of_lt (Int.ofNat_lt.mp hrange.2)
    have hchange := change_append hdocument hnodes change
    exact ⟨before, old, after, hnodes, Except.ok.inj (hdraft.symm.trans hchange)⟩
  · cases hdraft.symm.trans (change_outside hdocument hrange change)

end Draft

/-- The edit of a reference that an operation asks for. -/
def Draft.edit? (d : Draft) : Operation → Option Edited
  | .replace index r => some (d.replace index r)
  | .insert index r => some (d.insert index r)
  | .remove index => some (d.remove index)
  | .setCalls index calls => some (d.setCalls index calls)
  | _ => none

/-- The references that an edit puts in the place of others: the one that it brings along, or one of
    the others with the calls that it brings along. -/
inductive Operation.Puts (taken : List Reference) : Operation → Reference → Prop
  | replace {index : Int} {r : Reference} : Puts taken (.replace index r) r
  | insert {index : Option Int} {r : Reference} : Puts taken (.insert index r) r
  | setCalls {index : Int} {calls : List Call} {old : Reference} : old ∈ taken →
    Puts taken (.setCalls index calls) { old with calls }

namespace Draft

variable {d : Draft} {document : Document} {op : Operation}
  {edited : Draft × Except ConversionError Unit}

/-- An edit takes references out of the nodes and puts others in their place. -/
theorem exists_of_edit (hdocument : d.document = some document)
    (hedit : d.edit? op = some (.ok edited)) :
    ∃ (before after : List Node) (taken put : List Reference),
      document.nodes = before ++ taken.map .reference ++ after ∧
      edited = d.setNodes (before ++ put.map .reference ++ after) ∧
      ∀ r ∈ put, r ∈ taken ∨ op.Puts taken r := by
  cases op with
  | replace index r =>
    obtain ⟨before, old, after, hnodes, rfl⟩ := exists_of_change hdocument (Option.some.inj hedit)
    refine ⟨before, after, [old], [r], by simp [hnodes], rfl, ?_⟩
    exact List.forall_mem_singleton.mpr (Or.inr .replace)
  | insert index r =>
    have hinsert : d.insert index r = .ok edited := Option.some.inj hedit
    by_cases hindex : index.getD document.references.length = document.references.length
    · obtain rfl := Except.ok.inj ((insert_end hdocument _ r hindex).symm.trans hinsert)
      refine ⟨document.nodes, [], [], [r], by simp, by simp, ?_⟩
      exact List.forall_mem_singleton.mpr (Or.inr .insert)
    · rw [insert_change hdocument _ r hindex] at hinsert
      obtain ⟨before, old, after, hnodes, rfl⟩ := exists_of_change hdocument hinsert
      refine ⟨before, after, [old], [r, old], by simp [hnodes], rfl, ?_⟩
      exact List.forall_mem_cons.mpr ⟨Or.inr .insert, fun _ hold => Or.inl hold⟩
  | remove index =>
    obtain ⟨before, old, after, hnodes, rfl⟩ := exists_of_change hdocument (Option.some.inj hedit)
    exact ⟨before, after, [old], [], by simp [hnodes], rfl, by simp⟩
  | setCalls index calls =>
    obtain ⟨before, old, after, hnodes, rfl⟩ := exists_of_change hdocument (Option.some.inj hedit)
    refine ⟨before, after, [old], [{ old with calls }], by simp [hnodes], rfl, ?_⟩
    exact List.forall_mem_singleton.mpr (Or.inr (.setCalls List.mem_cons_self))
  | _ => cases hedit

/-- An edit that is not refused gives the draft other nodes. -/
theorem exists_setNodes_of_edit (hedit : d.edit? op = some (.ok edited)) :
    ∃ nodes, edited = d.setNodes nodes := by
  cases hdocument : d.document with
  | some document =>
    obtain ⟨before, after, -, put, -, hedited, -⟩ := exists_of_edit hdocument hedit
    exact ⟨_, hedited⟩
  | none =>
    cases op <;> simp [edit?, replace, insert, remove, setCalls, Draft.change, hdocument] at hedit

end Draft

end TagText
