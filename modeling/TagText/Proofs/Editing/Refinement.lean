import TagText.Proofs.Editing.Histories

/-!
What edits of references do to an open session, seen as a list of references and a list of the texts
around them: each edit of the draft is the edit of that name of the two lists.
-/

namespace TagText

theorem insertIdx_length_append {α : Type} (before after : List α) (a : α) :
    (before ++ after).insertIdx before.length a = before ++ a :: after := by
  induction before with
  | nil => rfl
  | cons b before ih => simp [ih]

theorem modify_length_append {α : Type} (before after : List α) (a : α) (f : α → α) :
    (before ++ a :: after).modify before.length f = before ++ f a :: after := by
  induction before with
  | nil => rfl
  | cons b before ih => simp [ih]

/-- A document with some references, and with some texts in front of, between and behind them. -/
structure Document.Weaves (document : Document) (texts : List Text) (references : List Reference) :
    Prop where
  normal : Node.Normal document.nodes
  texts_eq : Node.texts document.nodes = texts
  references_eq : document.references = references

/-- The two lists determine the nodes of a document, up to the positions of the texts. -/
theorem Document.Weaves.related {document again : Document} {texts : List Text}
    {references : List Reference} (hweaves : document.Weaves texts references)
    (hagain : again.Weaves texts references) :
    List.Forall₂ (Node.Related Eq) document.nodes again.nodes :=
  Node.related_of_segments hweaves.normal hagain.normal
    (hweaves.texts_eq.trans hagain.texts_eq.symm)
    (hweaves.references_eq.trans hagain.references_eq.symm)

/-- A draft that is given normal nodes that have a text has these nodes and this text. -/
theorem Draft.setNodes_of_normal {d : Draft} {document : Document}
    (htrailing : document.trailing = d.trailing) (hnormal : Node.Normal document.nodes)
    (htext : document.hasText = true) :
    d.setNodes document.nodes =
      ({ d with text := document.expression, document := some document }, .ok ()) := by
  rw [Draft.setNodes_of_hasText htext, Draft.withNodes]
  simp only [Node.joinTexts_of_normal hnormal, ← htrailing]

namespace Session

/-- An operation that puts in some arguments gives the draft a document with some texts and
    references, beside the same trailing text. If the arguments have a text, so has the document,
    and the operation is carried out. Otherwise it is refused, and the text of the draft stays. -/
def EditsTo (s : Session) (d : Draft) (op : Operation) (given : List Arg) (texts : List Text)
    (references : List Reference) : Prop :=
  ∃ edited : Document, edited.trailing = d.trailing ∧ edited.Weaves texts references ∧
    let written : Draft := { d with text := edited.expression, document := some edited }
    let stranded : Draft := { d with document := some edited }
    s.perform op =
      if given.all Arg.hasText then (.ok .done, { s with phase := .editing written })
      else (.error (.conversion .overlongInteger), { s with phase := .editing stranded })

/-- The edits of an open session with a draft and its document, as edits of the texts and of the
    references. -/
structure Refines (s : Session) (d : Draft) (document : Document) : Prop where
  answers : (s.perform .getReferences).1 = .ok (.references document.references)
  replace (i : Nat) (r : Reference) : i < document.references.length →
    s.EditsTo d (.replace i r) r.args (Node.texts document.nodes) (document.references.set i r)
  setCalls (i : Nat) (calls : List Call) : i < document.references.length →
    s.EditsTo d (.setCalls i calls) (calls.flatMap Call.args) (Node.texts document.nodes)
      (document.references.modify i fun r => { r with calls })
  insert (i : Nat) (r : Reference) : i < document.references.length →
    s.EditsTo d (.insert (some (i : Int)) r) r.args
      ((Node.texts document.nodes).insertIdx (i + 1) []) (document.references.insertIdx i r)
  append (index : Option Int) (r : Reference) :
    index = none ∨ index = some (document.references.length : Int) →
    s.EditsTo d (.insert index r) r.args (Node.texts document.nodes ++ [[]])
      (document.references ++ [r])
  remove (i : Nat) : i < document.references.length →
    s.EditsTo d (.remove i) [] (Node.joinAt i (Node.texts document.nodes))
      (document.references.eraseIdx i)
  outside (index : Int) (r : Reference) (calls : List Call) :
    ¬ (0 ≤ index ∧ index < document.references.length) →
    ∀ op ∈ [Operation.replace index r, .setCalls index calls, .remove index],
      s.perform op =
        (.error (.edit (if hasDecimal index then
          .indexOutOfRange index document.references.length else .overlongIndex)), s)
  insert_outside (index : Int) (r : Reference) :
    ¬ (0 ≤ index ∧ index ≤ document.references.length) →
    s.perform (.insert (some index) r) =
      (.error (.edit (if hasDecimal index then
        .indexOutOfRange index document.references.length else .overlongIndex)), s)
  literal (op : Operation) (draft : Draft) : op.isStructural = true →
    (s.perform op).2.phase = .editing draft → ∃ edited, draft.document = some edited ∧
      (Node.texts edited.nodes).flatten = (Node.texts document.nodes).flatten
  restores (i : Nat) (r : Reference) : i ≤ document.references.length →
    (s.perform (.insert (some (i : Int)) r)).2.perform (.remove i) =
      (.ok .done, { s with phase := .editing { d with text := document.expression } })

variable {s : Session} {d : Draft} {document : Document} {op : Operation} {before after : List Node}
  {old r : Reference} {i : Nat}

/-- An edit that puts nodes in gives the texts and the references of those nodes. -/
theorem editsTo_setNodes (hphase : s.phase = .editing d) (hdocument : d.document = some document)
    (hnormal : Node.Normal document.nodes) {nodes : List Node}
    (hedit : d.edit? op = some (.ok (d.setNodes nodes))) {given : List Arg}
    (hgiven : ({ nodes } : Document).hasText = given.all Arg.hasText) {texts : List Text}
    {references : List Reference} (htexts : Node.texts nodes = texts)
    (hreferences : Node.references nodes = references) :
    s.EditsTo d op given texts references := by
  obtain ⟨hsame, hkept⟩ := Node.segments_joinTexts nodes
  refine ⟨{ nodes := Node.joinTexts nodes, trailing := d.trailing }, rfl,
    ⟨Draft.normal_of_edit hdocument hnormal hedit, hsame.trans htexts,
      hkept.trans hreferences⟩, ?_⟩
  rw [perform_edit hphase hedit, ← hgiven]
  cases htext : ({ nodes } : Document).hasText with
  | true => simp [Draft.setNodes_of_hasText htext, takeOver, Draft.withNodes]
  | false => simp [Draft.setNodes_of_not_hasText htext, takeOver, Draft.withNodes]

/-- A document with a text has one on both sides of a reference, which has one as well. -/
theorem hasText_nodes (hnodes : document.nodes = before ++ .reference old :: after)
    (htext : document.hasText = true) :
    ({ nodes := before } : Document).hasText = true ∧ old.args.all Arg.hasText = true ∧
      ({ nodes := after } : Document).hasText = true := by
  have hwhole : ({ nodes := document.nodes } : Document).hasText = true := htext
  rwa [hnodes, hasText_append, hasText_reference, Bool.and_eq_true, Bool.and_eq_true] at hwhole

section

variable (hphase : s.phase = .editing d) (hdocument : d.document = some document)
  (hnormal : Node.Normal document.nodes) (htext : document.hasText = true)

include hphase hdocument hnormal htext

theorem editsTo_replace (r : Reference) (hlt : i < document.references.length) :
    s.EditsTo d (.replace i r) r.args (Node.texts document.nodes)
      (document.references.set i r) := by
  obtain ⟨before, old, after, hnodes, rfl⟩ := Node.exists_of_lt hlt
  have hkept := hasText_nodes hnodes htext
  have hedit : d.edit? (.replace (Node.references before).length r) = some (.ok _) :=
    congrArg some (Draft.change_append hdocument hnodes _)
  refine editsTo_setNodes hphase hdocument hnormal hedit ?_ ?_ ?_
  · simp [hasText_append, hasText_reference, hkept, Reference.args]
  · simp [hnodes, Node.texts_append_reference]
  · simp [Document.references_eq, hnodes]

theorem editsTo_setCalls (calls : List Call) (hlt : i < document.references.length) :
    s.EditsTo d (.setCalls i calls) (calls.flatMap Call.args) (Node.texts document.nodes)
      (document.references.modify i fun r => { r with calls }) := by
  obtain ⟨before, old, after, hnodes, rfl⟩ := Node.exists_of_lt hlt
  have hkept := hasText_nodes hnodes htext
  have hedit : d.edit? (.setCalls (Node.references before).length calls) = some (.ok _) :=
    congrArg some (Draft.change_append hdocument hnodes _)
  refine editsTo_setNodes hphase hdocument hnormal hedit ?_ ?_ ?_
  · simp [hasText_append, hasText_reference, hkept, Reference.args]
  · simp [hnodes, Node.texts_append_reference]
  · simp [Document.references_eq, hnodes, modify_length_append]

theorem editsTo_remove (hlt : i < document.references.length) :
    s.EditsTo d (.remove i) [] (Node.joinAt i (Node.texts document.nodes))
      (document.references.eraseIdx i) := by
  obtain ⟨before, old, after, hnodes, rfl⟩ := Node.exists_of_lt hlt
  have hkept := hasText_nodes hnodes htext
  have hedit : d.edit? (.remove (Node.references before).length) = some (.ok _) :=
    congrArg some (Draft.change_append hdocument hnodes _)
  refine editsTo_setNodes hphase hdocument hnormal hedit ?_ ?_ ?_
  · simp [hasText_append, hkept]
  · rw [hnodes, List.append_nil, Node.texts_append_reference, Node.texts_append]
  · simp [Document.references_eq, hnodes, List.eraseIdx_append_of_length_le]

theorem editsTo_insert (r : Reference) (hlt : i < document.references.length) :
    s.EditsTo d (.insert (some (i : Int)) r) r.args
      ((Node.texts document.nodes).insertIdx (i + 1) []) (document.references.insertIdx i r) := by
  obtain ⟨before, old, after, hnodes, rfl⟩ := Node.exists_of_lt hlt
  have hkept := hasText_nodes hnodes htext
  have hedit : d.edit? (.insert (some ↑(Node.references before).length) r) = some (.ok _) :=
    congrArg some (Draft.insert_before hdocument hnodes r)
  refine editsTo_setNodes hphase hdocument hnormal hedit ?_ ?_ ?_
  · obtain ⟨hbefore, hold, hafter⟩ := hkept
    simp only [hasText_append, hasText_reference, hbefore, hold, hafter, Bool.true_and,
      Bool.and_true]
  · rw [← Node.length_texts, hnodes, Node.texts_append_reference, Node.texts_append_reference,
      insertIdx_length_append]
    rfl
  · simp [Document.references_eq, hnodes, insertIdx_length_append]

theorem editsTo_append (index : Option Int) (r : Reference)
    (hindex : index.getD document.references.length = document.references.length) :
    s.EditsTo d (.insert index r) r.args (Node.texts document.nodes ++ [[]])
      (document.references ++ [r]) := by
  have hedit : d.edit? (.insert index r) = some (.ok _) :=
    congrArg some (Draft.insert_end hdocument index r hindex)
  refine editsTo_setNodes hphase hdocument hnormal hedit ?_ ?_ ?_
  · have hwhole : ({ nodes := document.nodes } : Document).hasText = true := htext
    rw [hasText_append, hwhole, hasText_reference]
    exact Bool.and_true _
  · exact Node.texts_append_reference document.nodes [] r
  · simp [Document.references_eq]

end

/-- A reference that is taken out again where it was put in leaves the document as it was, whether
    or not the reference has a text. -/
theorem perform_remove_put (hdocument : d.document = some document)
    (htrailing : document.trailing = d.trailing) (hnormal : Node.Normal document.nodes)
    (htext : document.hasText = true) (hnodes : document.nodes = before ++ after)
    (hput : Node.Normal (before ++ .reference r :: after)) :
    { s with phase := .editing (d.setNodes (before ++ Node.reference r :: after)).1 }.perform
        (.remove (Node.references before).length) =
      (.ok .done, { s with phase := .editing { d with text := document.expression } }) := by
  obtain ⟨hput_document, hput_trailing⟩ := d.setNodes_fst (before ++ .reference r :: after)
  generalize (d.setNodes (before ++ .reference r :: after)).1 = draft at *
  have hchange := Draft.change_append hput_document (Node.joinTexts_of_normal hput) fun _ => []
  have hset := Draft.setNodes_of_normal (htrailing.trans hput_trailing.symm) hnormal htext
  rw [List.append_nil, ← hnodes, hset] at hchange
  have hedit : draft.edit? (.remove (Node.references before).length) = some (.ok _) :=
    congrArg some hchange
  rw [perform_edit rfl hedit, ← hdocument, hput_trailing]
  rfl

/-- An edit that is refused changes nothing. -/
theorem perform_edit_error (hphase : s.phase = .editing d) {error : EditError}
    (hedit : d.edit? op = some (.error error)) : s.perform op = (.error (.edit error), s) :=
  perform_edit hphase hedit

/-- An edit that is not refused at once is taken over, whether or not its text can be written. -/
theorem perform_edit_snd (hphase : s.phase = .editing d)
    {edited : Draft × Except ConversionError Unit} (hedit : d.edit? op = some (.ok edited)) :
    (s.perform op).2 = { s with phase := .editing edited.1 } := by
  rw [perform_edit hphase hedit]
  obtain ⟨draft, _ | _⟩ := edited <;> rfl

/-- Edits of references neither lose nor make literal characters. -/
theorem flatten_texts_of_edit {edited : Draft × Except ConversionError Unit}
    (hdocument : d.document = some document) (hedit : d.edit? op = some (.ok edited)) :
    ∃ changed, edited.1.document = some changed ∧
      (Node.texts changed.nodes).flatten = (Node.texts document.nodes).flatten := by
  obtain ⟨before, after, taken, put, hnodes, rfl, -⟩ := Draft.exists_of_edit hdocument hedit
  refine ⟨_, (d.setNodes_fst _).1, ?_⟩
  rw [(Node.segments_joinTexts _).1, hnodes]
  simp only [Node.flatten_texts_append, Node.flatten_texts_map_reference]

/-- Every edit of an open session with a document that a text can have, and that can be written, is
    an edit of its texts and its references. -/
theorem refines (hphase : s.phase = .editing d) (hdocument : d.document = some document)
    (htrailing : document.trailing = d.trailing) (hnormal : Node.Normal document.nodes)
    (htext : document.hasText = true) : s.Refines d document where
  answers := by simp [perform_editing hphase, performOpen, answerFrom, hdocument, answer]
  replace i r hlt := editsTo_replace hphase hdocument hnormal htext r hlt
  setCalls i calls hlt := editsTo_setCalls hphase hdocument hnormal htext calls hlt
  insert i r hlt := editsTo_insert hphase hdocument hnormal htext r hlt
  append index r hindex := by
    refine editsTo_append hphase hdocument hnormal htext index r ?_
    rcases hindex with rfl | rfl <;> rfl
  remove i hlt := editsTo_remove hphase hdocument hnormal htext hlt
  outside index r calls hrange := by
    have hchange := Draft.change_outside hdocument hrange
    simp only [List.forall_mem_cons, List.not_mem_nil, false_implies, implies_true, and_true]
    exact ⟨perform_edit_error hphase (congrArg some (hchange _)),
      perform_edit_error hphase (congrArg some (hchange _)),
      perform_edit_error hphase (congrArg some (hchange _))⟩
  insert_outside index r hrange := by
    have hindex : index ≠ document.references.length := by omega
    have hinsert := Draft.insert_change hdocument (some index) r hindex
    refine perform_edit_error hphase (congrArg some (hinsert.trans ?_))
    exact Draft.change_outside hdocument (by simp; omega) _
  literal op draft hop hdraft := by
    obtain ⟨result, hedit⟩ := Draft.exists_edit?_of_isStructural (d := d) hop
    cases result with
    | error error =>
      rw [perform_edit_error hphase hedit] at hdraft
      obtain rfl := Phase.editing.inj (hphase.symm.trans hdraft)
      exact ⟨document, hdocument, rfl⟩
    | ok edited =>
      rw [perform_edit_snd hphase hedit] at hdraft
      obtain rfl := Phase.editing.inj hdraft
      exact flatten_texts_of_edit hdocument hedit
  restores i r hle := by
    rcases Nat.lt_or_eq_of_le hle with hlt | rfl
    · obtain ⟨before, old, after, hnodes, rfl⟩ := Node.exists_of_lt hlt
      obtain ⟨hbefore, hafter⟩ := Node.normal_append_reference_iff.mp (hnodes ▸ hnormal)
      have hedit : d.edit? (.insert (some ↑(Node.references before).length) r) = some (.ok _) :=
        congrArg some (Draft.insert_before hdocument hnodes r)
      rw [perform_edit_snd hphase hedit]
      refine perform_remove_put hdocument htrailing hnormal htext hnodes ?_
      exact Node.normal_append_reference_iff.mpr ⟨hbefore, hafter⟩
    · have hedit : d.edit? (.insert (some ↑document.references.length) r) = some (.ok _) :=
        congrArg some (Draft.insert_end hdocument _ r rfl)
      rw [perform_edit_snd hphase hedit]
      refine perform_remove_put hdocument htrailing hnormal htext (List.append_nil _).symm ?_
      exact Node.normal_append_reference_iff.mpr ⟨hnormal, trivial⟩

/-- After a run of a session in which every text could be read and written, an open session has a
    document that is made of its texts and its references, and that every edit changes as the two
    lists, although the text of the draft does not follow where an edit brings along an integer
    without one. An edit with an index out of range is refused and changes nothing. -/
theorem run_refines (hclosed : s.phase = .closed) {ops : List Operation}
    (hread : ∀ outcome ∈ s.run ops, ∀ e, outcome.1 ≠ .error (.conversion e))
    (hphase : (s.after ops).phase = .editing d) :
    ∃ document, d.document = some document ∧ document.trailing = d.trailing ∧
      document.Weaves (Node.texts document.nodes) document.references ∧
      (∀ again : Document, again.Weaves (Node.texts document.nodes) document.references →
        List.Forall₂ (Node.Related Eq) document.nodes again.nodes) ∧
      (s.after ops).Refines d document := by
  obtain ⟨document, hrecords⟩ := exists_records hclosed hread hphase
  have hweaves : document.Weaves (Node.texts document.nodes) document.references :=
    ⟨hrecords.normal, rfl, rfl⟩
  refine ⟨document, hrecords.document_eq, hrecords.trailing, hweaves, fun _ => hweaves.related, ?_⟩
  exact refines hphase hrecords.document_eq hrecords.trailing hrecords.normal hrecords.written

/-- The texts on both sides of a reference that is taken out become one, and behind the last
    reference there is no other to take out. An index with a digit too many is refused without being
    named, and an argument with one leaves the new reference beside the old text. -/
theorem run_refines_of_overlong :
    let s : Session := { catalog := {}, context := .named "post".toList }
    let ops : List Operation :=
      [.start "a@post(id)b@post(title)".toList, .replace 5 { group := [] }]
    let first : Reference := { group := "post".toList, field := "id".toList, position := 1 }
    let last : Reference := { group := "post".toList, field := "title".toList, position := 11 }
    let document : Document :=
      { nodes := [.text "a".toList 0, .reference first, .text "b".toList 10, .reference last] }
    let d : Draft :=
      { text := "a@post(id)b@post(title)".toList, document := some document, trailing := [] }
    let n : Int := 10 ^ maxIntegerDigits
    let r : Reference := { first with calls := [{ key := "round".toList, args := [.int n] }] }
    (s.after ops).phase = .editing d ∧
      (s.after ops).EditsTo d (.remove 0) [] ["ab".toList, []] [last] ∧
      (s.after ops).perform (.remove 2) = (.error (.edit (.indexOutOfRange 2 2)), s.after ops) ∧
      (s.after ops).perform (.remove n) = (.error (.edit .overlongIndex), s.after ops) ∧
      ∃ edited : Document, edited.references = [r, last] ∧
        (s.after ops).perform (.replace 0 r) =
          (.error (.conversion .overlongInteger),
            { s.after ops with phase := .editing { d with document := some edited } }) := by
  intro s ops first last document d n r
  have hphase : (s.after ops).phase = .editing d := by decide +kernel
  have hread : ∀ outcome ∈ s.run ops, refusesText outcome.1 = false := by decide +kernel
  obtain ⟨found, hfound, -, -, -, hrefines⟩ :=
    run_refines rfl (fun outcome hmem => refusesText_eq_false_iff.mp (hread outcome hmem)) hphase
  obtain rfl : document = found := Option.some.inj hfound
  have htwo : hasDecimal 2 = true := by decide +kernel
  have hn : hasDecimal n = false := by decide +kernel
  have hlarge : ¬ n < 2 := by decide +kernel
  clear_value n
  have hsecond := hrefines.outside 2 first [] (by decide) (.remove 2) (by simp)
  have hbeyond := hrefines.outside n first [] (fun h => hlarge h.2) (.remove n) (by simp)
  rw [if_pos htwo] at hsecond
  rw [if_neg (by simp [hn])] at hbeyond
  obtain ⟨edited, -, hweaves, hreplace⟩ := hrefines.replace 0 r (by decide)
  have hgiven : r.args.all Arg.hasText = false := by simp [r, Reference.args, Arg.hasText, hn]
  rw [hgiven] at hreplace
  exact ⟨hphase, hrefines.remove 0 (by decide), hsecond, hbeyond, edited, hweaves.references_eq,
    hreplace⟩

end Session

end TagText
