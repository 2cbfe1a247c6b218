import TagText.Proofs.Editing.Commits
import TagText.Proofs.Editing.Sessions

/-!
Which drafts are committed as dynamic values: those with a reference or a trailing text, which take
the markers. Any other draft is committed as its text, and is a literal unless that text has the
markers itself. Typing can bring this about only with a modifier that is opened and broken off right
behind the open marker, and an edit of a reference only by taking the reference out.
-/

namespace TagText

namespace Node

/-- Joining texts keeps the references. -/
theorem reference_mem_joinTexts_iff {nodes : List Node} {r : Reference} :
    reference r ∈ joinTexts nodes ↔ reference r ∈ nodes := by
  rw [← mem_references, (segments_joinTexts nodes).2, mem_references]

end Node

namespace Document

theorem hasReferences_iff {d : Document} :
    d.hasReferences = true ↔ ∃ r, Node.reference r ∈ d.nodes := by
  rw [hasReferences, List.any_eq_true]
  constructor
  · rintro ⟨node, hnode, hr⟩
    cases node with
    | text => cases hr
    | reference r => exact ⟨r, hnode⟩
  · rintro ⟨r, hr⟩
    exact ⟨_, hr, rfl⟩

end Document

namespace Reading

variable {c : Catalog} {s : Text} {reading : Reading}

theorem expression_of_not_hasReferences (hread : ofExpression c s = .ok reading)
    (hnone : reading.document.hasReferences = false) : reading.document.expression = s := by
  have hstored := stored_of_not_hasReferences hread hnone
  have hempty := (ofExpression_eq_ok_iff_cut.mp hread).1
  rwa [Document.stored, hnone, hempty] at hstored

/-- An expression that starts with the open marker holds a reference, unless a modifier is opened
    right behind the marker. -/
theorem opening?_of_openMarker {rest : Text}
    (hread : ofExpression c (openMarker ++ rest) = .ok reading)
    (hnone : reading.document.hasReferences = false) :
    (Lexeme.opening? '.' rest).isSome = true := by
  by_contra hopening
  have hclosed : Lexeme.opening? '.' rest = none := by simpa using hopening
  have hname : Lexeme.isName "tags".toList = true := by decide
  have hderived : Grammar.Reference 0 openMarker
      { group := "tags".toList, field := [], calls := [], position := 0 } :=
    .intro hname (fun _ hc => absurd hc List.not_mem_nil) .nil
  obtain ⟨nodes, hnodes, rfl⟩ := ofExpression_eq_ok_iff.mp hread
  obtain ⟨r, more, -, -, rfl⟩ := (partsRead_reference hderived hclosed).mp hnodes
  simp [Document.hasReferences, Node.joinTexts, Node.reference?] at hnone

theorem exists_opening?_of_isActive (hread : ofExpression c s = .ok reading)
    (hnone : reading.document.hasReferences = false) (hactive : isActive s = true) :
    ∃ rest, s = openMarker ++ rest ∧ (Lexeme.opening? '.' rest).isSome = true := by
  obtain ⟨region, hregion⟩ := isActive_iff.mp hactive
  obtain ⟨rfl, -⟩ := Region.ofValue?_eq_some_iff.mp hregion
  rw [Region.value, List.append_assoc, List.append_assoc] at hread ⊢
  exact ⟨_, rfl, opening?_of_openMarker hread hnone⟩

end Reading

namespace Draft

/-- A draft with a document that can be written, and that has its trailing text and, if there are no
    references, its text. -/
def Mirrored (d : Draft) : Prop :=
  ∃ document, d.document = some document ∧ document.hasText = true ∧
    document.trailing = d.trailing ∧ (document.hasReferences = false → document.expression = d.text)

/-- A draft that takes no markers but has them in its text. -/
structure Disguised (d : Draft) : Prop where
  plain : ∃ document, d.document = some document ∧ document.hasReferences = false
  trailing : d.trailing = []
  active : isActive d.text = true

variable {c : Catalog} {d draft : Draft} {index : Int} {document : Document}

/-- Typing leaves a draft that mirrors its document, and its text has the markers only in front of a
    modifier that is broken off. -/
theorem mirrored_of_setText {text : Text} (hset : d.setText c text = (draft, .ok ())) :
    draft.Mirrored ∧ (draft.Disguised →
      ∃ rest, draft.text = openMarker ++ rest ∧ (Lexeme.opening? '.' rest).isSome = true) := by
  rw [setText] at hset
  cases hread : Reading.ofExpression c text with
  | error e => rw [hread] at hset; cases hset
  | ok reading =>
    rw [hread] at hset
    cases hset
    refine ⟨⟨_, rfl, Reading.hasText_of_ofExpression hread _, rfl,
      Reading.expression_of_not_hasReferences hread⟩, ?_⟩
    rintro ⟨⟨document, hdocument, hnone⟩, -, hactive⟩
    cases hdocument
    exact Reading.exists_opening?_of_isActive hread hnone hactive

/-- A draft that was given other nodes mirrors its document, and is not disguised if one of them is
    a reference. -/
theorem mirrored_of_setNodes {nodes : List Node} (hset : d.setNodes nodes = (draft, .ok ())) :
    draft.Mirrored ∧ ∀ r, .reference r ∈ nodes → ¬ draft.Disguised := by
  obtain ⟨htext, rfl⟩ := setNodes_eq_ok_iff.mp hset
  refine ⟨⟨_, rfl, (hasText_joinTexts _ _).trans htext, rfl, fun _ => rfl⟩, ?_⟩
  rintro r hr ⟨⟨document, hdocument, hnone⟩, -, -⟩
  cases hdocument
  have hjoined : .reference r ∈ Node.joinTexts nodes := Node.reference_mem_joinTexts_iff.mpr hr
  exact Bool.false_ne_true (hnone.symm.trans (Document.hasReferences_iff.mpr ⟨r, hjoined⟩))

/-- A change of a reference gives the draft other nodes, among them those that it puts in. -/
theorem exists_setNodes_of_change {change : Reference → List Node}
    (hdraft : d.change index change = .ok (draft, .ok ())) :
    ∃ nodes r, d.setNodes nodes = (draft, .ok ()) ∧ change r ⊆ nodes := by
  obtain ⟨document, hdocument⟩ := exists_document_of_change hdraft
  obtain ⟨before, old, after, -, hset⟩ := exists_of_change hdocument hdraft
  refine ⟨_, old, hset.symm, fun node hnode => ?_⟩
  exact List.mem_append_left _ (List.mem_append_right _ hnode)

theorem mirrored_of_change {change : Reference → List Node}
    (hdraft : d.change index change = .ok (draft, .ok ())) : draft.Mirrored := by
  obtain ⟨nodes, -, hset, -⟩ := exists_setNodes_of_change hdraft
  exact (mirrored_of_setNodes hset).1

/-- A change that puts a reference in leaves no disguised draft. -/
theorem not_disguised_of_change {change : Reference → List Node}
    (hchange : ∀ old, ∃ r, .reference r ∈ change old)
    (hdraft : d.change index change = .ok (draft, .ok ())) : ¬ draft.Disguised := by
  obtain ⟨nodes, old, hset, hsubset⟩ := exists_setNodes_of_change hdraft
  obtain ⟨r, hr⟩ := hchange old
  exact (mirrored_of_setNodes hset).2 r (hsubset hr)

theorem mirrored_of_insert {index : Option Int} {r : Reference}
    (hdraft : d.insert index r = .ok (draft, .ok ())) : draft.Mirrored ∧ ¬ draft.Disguised := by
  rw [Draft.insert] at hdraft
  split at hdraft
  · cases hdraft
  · simp only at hdraft
    split at hdraft
    · obtain ⟨hmirrored, hplain⟩ := mirrored_of_setNodes (Except.ok.inj hdraft)
      exact ⟨hmirrored, hplain r (List.mem_append_right _ List.mem_cons_self)⟩
    · exact ⟨mirrored_of_change hdraft,
        not_disguised_of_change (fun _ => ⟨r, List.mem_cons_self⟩) hdraft⟩

theorem Disguised.not_marked (hdisguised : d.Disguised) (hdocument : d.document = some document) :
    ¬ (document.hasReferences = true ∨ d.trailing ≠ []) := by
  obtain ⟨⟨found, hfound, hnone⟩, hempty, -⟩ := hdisguised
  obtain rfl : document = found := Option.some.inj (hdocument.symm.trans hfound)
  simp [hnone, hempty]

/-- What a draft is committed as is dynamic because of a reference, because of the trailing text, or
    because the draft is disguised. -/
theorem Mirrored.isActive_stored_iff (hmirrored : d.Mirrored) : ∃ document,
    d.document = some document ∧ document.hasText = true ∧
    (isActive document.stored = true ↔
      (document.hasReferences = true ∨ d.trailing ≠ []) ∨ d.Disguised) ∧
    (document.hasReferences = false → d.trailing = [] → document.stored = d.text) := by
  obtain ⟨document, hdocument, htext, htrailing, hplain⟩ := hmirrored
  refine ⟨document, hdocument, htext, ?_, fun hnone hempty => ?_⟩
  · rw [Document.isActive_stored_iff, htrailing]
    by_cases hmarked : document.hasReferences = true ∨ d.trailing ≠ []
    · exact iff_of_true (Or.inl hmarked) (Or.inl hmarked)
    · obtain ⟨hnone, hempty⟩ : document.hasReferences = false ∧ d.trailing = [] := by
        simpa using hmarked
      rw [hplain hnone, or_iff_right hmarked, or_iff_right hmarked]
      exact ⟨fun hactive => ⟨⟨document, hdocument, hnone⟩, hempty, hactive⟩, Disguised.active⟩
  · simp [Document.stored, hnone, htrailing, hempty, hplain]

end Draft

namespace Session

/-- A session whose draft, if it has one, mirrors its document. -/
def Mirrored (s : Session) : Prop := ∀ draft, s.phase = .editing draft → draft.Mirrored

/-- What a step leaves behind: a session with the same catalog whose draft mirrors its document and
    is disguised only as the kind of the step allows. -/
structure Leaves (c : Catalog) (op : Operation) (s : Session) : Prop where
  catalog : s.catalog = c
  mirrored : s.Mirrored
  typed : op.isTyping = true → ∀ draft, s.phase = .editing draft → draft.Disguised →
    ∃ rest, draft.text = openMarker ++ rest ∧ (Lexeme.opening? '.' rest).isSome = true
  edited : op.isStructural = true → ∀ draft, s.phase = .editing draft → draft.Disguised →
    ∃ index, op = .remove index

variable {s s' : Session} {op : Operation} {draft : Draft}

theorem leaves_of_typing (hop : op.isStructural = false) {c : Catalog} {d : Draft} {text : Text}
    (hset : d.setText c text = (draft, .ok ())) :
    Leaves s.catalog op { s with phase := .editing draft } := by
  obtain ⟨hmirrored, hopens⟩ := Draft.mirrored_of_setText hset
  refine ⟨rfl, ?_, ?_, fun hedit => absurd hedit (by simp [hop])⟩
  · rintro _ ⟨⟩
    exact hmirrored
  · rintro - _ ⟨⟩
    exact hopens

theorem leaves_of_edit (hop : op.isTyping = false) (hmirrored : draft.Mirrored)
    (hremoved : draft.Disguised → ∃ index, op = .remove index) :
    Leaves s.catalog op { s with phase := .editing draft } := by
  refine ⟨rfl, ?_, fun htyping => absurd htyping (by simp [hop]), ?_⟩
  · rintro _ ⟨⟩
    exact hmirrored
  · rintro - _ ⟨⟩
    exact hremoved

/-- A step leaves a draft that mirrors its document, and is disguised only as its operation
    allows. -/
theorem Step.leaves (hstep : s.Step op s') (hmirrored : s.Mirrored) :
    Leaves s.catalog op s' := by
  cases hstep with
  | typing hedit hset => exact leaves_of_typing hedit hset
  | @replace d draft index r hphase hdraft =>
    have hplain := Draft.not_disguised_of_change (fun _ => ⟨r, List.mem_cons_self⟩) hdraft
    exact leaves_of_edit rfl (Draft.mirrored_of_change hdraft) fun h => absurd h hplain
  | insert hphase hdraft =>
    obtain ⟨hmirrored, hplain⟩ := Draft.mirrored_of_insert hdraft
    exact leaves_of_edit rfl hmirrored fun h => absurd h hplain
  | remove hphase hdraft =>
    exact leaves_of_edit rfl (Draft.mirrored_of_change hdraft) fun _ => ⟨_, rfl⟩
  | @setCalls d draft index calls hphase hdraft =>
    have hplain := Draft.not_disguised_of_change (fun old => ⟨_, List.mem_cons_self⟩) hdraft
    exact leaves_of_edit rfl (Draft.mirrored_of_change hdraft) fun h => absurd h hplain
  | looking htyping hedit =>
    exact ⟨rfl, hmirrored, fun h => absurd h (by simp [htyping]),
      fun h => absurd h (by simp [hedit])⟩
  | ending htyping hedit hended =>
    exact ⟨rfl, fun draft h => absurd h (hended draft), fun h => absurd h (by simp [htyping]),
      fun h => absurd h (by simp [hedit])⟩

/-- In a run in which every operation succeeds, every draft mirrors its document. -/
theorem run_leaves {ops : List Operation} (hmirrored : s.Mirrored)
    (hok : ∀ outcome ∈ s.run ops, outcome.1.isOk = true) :
    List.Forall₂ (fun op outcome => Leaves s.catalog op outcome.2) ops (s.run ops) := by
  refine run_forall (P := fun other => other.catalog = s.catalog ∧ other.Mirrored) ?_
    ⟨rfl, hmirrored⟩ (fun _ _ => trivial) hok
  rintro other next op ⟨hcatalog, hmirrored⟩ - hstep
  rw [← hcatalog]
  have hleaves := hstep.leaves hmirrored
  exact ⟨⟨hleaves.catalog, hleaves.mirrored⟩, hleaves⟩

/-- What an open session commits is dynamic exactly when its document has a reference or its
    trailing text is not empty, unless the draft is disguised. Without both, a draft that is not
    disguised is committed as its text, which is read back as a literal. Typing disguises a draft
    only with a modifier that is opened right behind the open marker and broken off, and an edit
    only by taking a reference out. -/
theorem run_commit_isActive_iff (hclosed : s.phase = .closed) {ops : List Operation}
    (hok : ∀ outcome ∈ s.run ops, outcome.1.isOk = true) :
    List.Forall₂ (fun op (outcome : Outcome) => ∀ draft, outcome.2.phase = .editing draft →
      ∃ document v, draft.document = some document ∧
        (outcome.2.perform .commit).1 = .ok (.text v) ∧
        ((isActive v = true ↔ document.hasReferences = true ∨ draft.trailing ≠ []) ↔
          ¬ draft.Disguised) ∧
        (document.hasReferences = false → draft.trailing = [] → ¬ draft.Disguised →
          v = draft.text ∧ Reading.ofValue s.catalog v =
            .ok { document := { nodes := if v.isEmpty then [] else [.text v 0] }
                  brokenCount := 0 }) ∧
        (op.isTyping = true → draft.Disguised → ∃ rest, draft.text = openMarker ++ rest ∧
          (Lexeme.opening? '.' rest).isSome = true) ∧
        (op.isStructural = true → draft.Disguised → ∃ index, op = .remove index))
      ops (s.run ops) := by
  have hmirrored : s.Mirrored := by
    intro draft hdraft
    rw [hclosed] at hdraft
    cases hdraft
  refine (run_leaves hmirrored hok).imp fun op outcome hleaves draft hdraft => ?_
  obtain ⟨document, hdocument, htext, hactive, hliteral⟩ :=
    (hleaves.mirrored draft hdraft).isActive_stored_iff
  have hcommit : (outcome.2.perform .commit).1 = .ok (.text document.stored) :=
    congrArg Prod.fst (perform_commit hdraft hdocument htext)
  refine ⟨document, document.stored, hdocument, hcommit, ?_, ?_,
    fun htyping => hleaves.typed htyping draft hdraft,
    fun hedit => hleaves.edited hedit draft hdraft⟩
  · rw [hactive, or_iff_left_iff_imp]
    exact ⟨fun hmarked hdisguised => hdisguised.not_marked hdocument (hmarked hdisguised),
      fun hplain hdisguised => absurd hdisguised hplain⟩
  · intro hnone hempty hplain
    have hinactive : isActive document.stored = false := by
      rw [← Bool.not_eq_true, hactive, not_or]
      exact ⟨by simp [hnone, hempty], hplain⟩
    exact ⟨hliteral hnone hempty, Reading.ofValue_literal (not_isActive_iff.mp hinactive) _⟩

/-- Texts that removed references kept apart make up a dynamic value. -/
theorem run_commit_isActive_of_remove :
    let s : Session := { catalog := {}, context := .named "post".toList }
    let ops : List Operation :=
      [.start [], .setText "@ta@post(id)gs()x@endt@post(id)ags()".toList, .remove 0, .remove 0]
    let v := "@tags()x@endtags()".toList
    let document : Document := { nodes := [.text v 0] }
    let draft : Draft := { text := v, document := some document, trailing := [] }
    (∀ outcome ∈ s.run ops, outcome.1.isOk = true) ∧
      ∃ outcome, (s.run ops)[3]? = some outcome ∧ outcome.2.phase = .editing draft ∧
        (outcome.2.perform .commit).1 = .ok (.text v) ∧
        ¬ (isActive v = true ↔ document.hasReferences = true ∨ draft.trailing ≠ []) := by
  intro s ops v document draft
  have hok : ∀ outcome ∈ s.run ops, outcome.1.isOk = true := by decide +kernel
  have hphase : ((s.run ops).map fun outcome => outcome.2.phase)[3]? = some (.editing draft) := by
    decide +kernel
  obtain ⟨outcome, houtcome, hediting⟩ : ∃ outcome, (s.run ops)[3]? = some outcome ∧
      outcome.2.phase = .editing draft := by simpa using hphase
  refine ⟨hok, outcome, houtcome, hediting, ?_⟩
  obtain ⟨hlt, rfl⟩ := List.getElem?_eq_some_iff.mp houtcome
  have hrun := run_commit_isActive_iff rfl hok
  obtain ⟨found, value, hfound, hcommit, hexact, -⟩ :=
    (List.forall₂_iff_get.mp hrun).2 3 (by decide) hlt draft hediting
  obtain rfl : document = found := Option.some.inj hfound
  have hdisguised : draft.Disguised := ⟨⟨document, rfl, rfl⟩, rfl, by decide +kernel⟩
  have hstored : document.stored = v := by decide +kernel
  have hwritten := congrArg Prod.fst (perform_commit hediting rfl rfl)
  have hvalue : (.ok (.text v) : Except SessionError Answer) = .ok (.text value) := by
    rw [← hstored]
    exact hwritten.symm.trans hcommit
  obtain rfl : v = value := by simpa using hvalue
  exact ⟨hcommit, fun hiff => hexact.mp hiff hdisguised⟩

end Session

end TagText
