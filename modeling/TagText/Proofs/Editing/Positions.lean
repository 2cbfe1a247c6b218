import TagText.Catalog.DefaultModifiers
import TagText.Proofs.Editing.Histories
import TagText.Proofs.Reading.Spans
import TagText.Proofs.Validation.Reports

/-!
Where the positions in a draft come from. Typing takes them from the text. An edit of a reference
writes another text and keeps the positions that there are, so that afterwards they point into the
text that was typed last, or are those that a host has given to what it has put in.
-/

namespace TagText

namespace Operation

/-- The reference that an operation brings along. -/
def reference? : Operation → Option Reference
  | replace _ r | insert _ r => some r
  | _ => none

/-- The calls that an operation brings along. -/
def calls : Operation → List Call
  | replace _ r | insert _ r => r.calls
  | setCalls _ calls => calls
  | _ => []

end Operation

/-- Changes in which a text was typed last, and the edits behind it. -/
structure TypedLast (changes : List Operation) (x : Text) (edits : List Operation) : Prop where
  exists_typing : ∃ earlier op, changes = earlier ++ op :: edits ∧ op.typed? = some x
  edits : ∀ edit ∈ edits, edit.typed? = none

/-- A position that starts a group in a text, or that was brought along with the group by an
    edit. -/
def Reference.Sourced (x : Text) (edits : List Operation) (r : Reference) (position : Int) : Prop :=
  x.StandsAt position r.opening ∨
    ∃ edit ∈ edits, ∃ given, edit.reference? = some given ∧ given.group = r.group ∧
      given.position = position

/-- A position that starts a modifier in a text, or that was brought along with it by an edit. -/
def Call.Sourced (x : Text) (edits : List Operation) (call : Call) (position : Int) : Prop :=
  x.StandsAt position call.opening ∨
    ∃ edit ∈ edits, ∃ given ∈ edit.calls, given.key = call.key ∧ given.position = position

/-- A reference that has its own position and those of its calls from a text or from edits. -/
structure Reference.ComesFrom (x : Text) (edits : List Operation) (r : Reference) : Prop where
  own : r.Sourced x edits r.position
  calls : ∀ call ∈ r.calls, call.Sourced x edits call.position

variable {x : Text} {edits changes : List Operation} {op : Operation} {r : Reference}

theorem TypedLast.typed (hop : op.typed? = some x) (changes : List Operation) :
    TypedLast (changes ++ [op]) x [] :=
  ⟨⟨changes, op, rfl, hop⟩, fun _ hedit => absurd hedit List.not_mem_nil⟩

theorem TypedLast.edited (htyped : TypedLast changes x edits) (hop : op.typed? = none) :
    TypedLast (changes ++ [op]) x (edits ++ [op]) := by
  obtain ⟨⟨earlier, typing, rfl, htyping⟩, hedits⟩ := htyped
  refine ⟨⟨earlier, typing, by simp, htyping⟩, List.forall_mem_append.mpr ⟨hedits, ?_⟩⟩
  exact List.forall_mem_singleton.mpr hop

theorem TypedLast.exists_last (htyped : TypedLast changes x edits) :
    ∃ op, changes.getLast? = some op ∧ op.typed? = if edits = [] then some x else none := by
  obtain ⟨⟨earlier, typing, rfl, htyping⟩, hedits⟩ := htyped
  rcases List.eq_nil_or_concat' edits with rfl | ⟨edits, last, rfl⟩
  · exact ⟨typing, List.getLast?_concat, by simp [htyping]⟩
  · refine ⟨last, ?_, by simp [hedits last]⟩
    rw [← List.cons_append, ← List.append_assoc, List.getLast?_concat]

theorem Call.Sourced.mono {call : Call} {position : Int} (hcall : call.Sourced x edits position)
    (more : List Operation) : call.Sourced x (edits ++ more) position :=
  hcall.imp_right fun ⟨edit, hedit, hgiven⟩ => ⟨edit, List.mem_append_left _ hedit, hgiven⟩

theorem Reference.Sourced.mono {position : Int} (hr : r.Sourced x edits position)
    (more : List Operation) : r.Sourced x (edits ++ more) position :=
  hr.imp_right fun ⟨edit, hedit, hgiven⟩ => ⟨edit, List.mem_append_left _ hedit, hgiven⟩

theorem Reference.ComesFrom.mono (hr : r.ComesFrom x edits) (more : List Operation) :
    r.ComesFrom x (edits ++ more) :=
  ⟨hr.own.mono more, fun call hcall => (hr.calls call hcall).mono more⟩

theorem Reference.StandsIn.comesFrom (hr : r.StandsIn x) : r.ComesFrom x [] :=
  ⟨Or.inl hr.own, fun call hcall => Or.inl (hr.calls call hcall)⟩

theorem Operation.sourced_of_mem_calls {call : Call} (hcall : call ∈ op.calls) :
    call.Sourced x (edits ++ [op]) call.position :=
  Or.inr ⟨op, List.mem_append_right _ List.mem_cons_self, call, hcall, rfl, rfl⟩

/-- What an edit puts in has its positions from where those had them that it takes out, or from the
    edit. -/
theorem Operation.Puts.comesFrom {taken : List Reference} (hputs : op.Puts taken r)
    (htaken : ∀ old ∈ taken, old.ComesFrom x edits) : r.ComesFrom x (edits ++ [op]) := by
  have hlast : op ∈ edits ++ [op] := List.mem_append_right _ List.mem_cons_self
  cases hputs with
  | replace | insert =>
    exact ⟨Or.inr ⟨_, hlast, r, rfl, rfl, rfl⟩, fun call hcall => sourced_of_mem_calls hcall⟩
  | setCalls hold =>
    exact ⟨(htaken _ hold).own.mono _, fun call hcall => sourced_of_mem_calls hcall⟩

/-- A draft of which the references have their positions from the text that was typed last, or from
    the edits since. -/
def Draft.Points (changes : List Operation) (d : Draft) : Prop :=
  ∃ document x edits, d.document = some document ∧ TypedLast changes x edits ∧
    ∀ r ∈ document.references, r.ComesFrom x edits

namespace Draft

variable {c : Catalog} {d draft : Draft}

theorem points_of_setText (changes : List Operation) (hset : d.setText c x = (draft, .ok ()))
    (hop : op.typed? = some x) : draft.Points (changes ++ [op]) := by
  obtain ⟨plain, hplain, rfl⟩ := setText_eq_ok_iff.mp hset
  refine ⟨_, x, [], rfl, .typed hop changes, fun r hr => ?_⟩
  exact (Reading.standsIn_of_ofExpression hplain (Node.mem_references.mp hr)).comesFrom

theorem Points.of_edit (hpoints : d.Points changes)
    (hedit : d.edit? op = some (.ok (draft, .ok ()))) : draft.Points (changes ++ [op]) := by
  obtain ⟨document, x, edits, hdocument, htyped, hfrom⟩ := hpoints
  obtain ⟨before, after, taken, put, hnodes, hset, hput⟩ := exists_of_edit hdocument hedit
  obtain ⟨-, rfl⟩ := setNodes_eq_ok_iff.mp hset.symm
  refine ⟨_, x, edits ++ [op], rfl, htyped.edited (typed?_of_edit? hedit), fun r hr => ?_⟩
  rw [Document.references_eq, (Node.segments_joinTexts _).2] at hr
  simp only [Document.references_eq, hnodes, Node.references_append,
    Node.references_map_reference, List.mem_append] at hfrom hr
  rcases hr with (hbefore | hmem) | hafter
  · exact (hfrom r (Or.inl (Or.inl hbefore))).mono _
  · have htaken : ∀ old ∈ taken, old.ComesFrom x edits := fun old hold => hfrom old (by simp [hold])
    rcases hput r hmem with hkept | hputs
    · exact (htaken r hkept).mono _
    · exact hputs.comesFrom htaken
  · exact (hfrom r (Or.inr hafter)).mono _

end Draft

/-- A diagnostic names a reference and has its position, or that of one of its calls, either from
    the text or from the edits. -/
inductive Diagnostic.Traced (references : List Reference) (x : Text) (edits : List Operation) :
    Diagnostic → Prop
  | own {diagnostic : Diagnostic} {r : Reference} :
    references[diagnostic.reference]? = some r → diagnostic.call = none →
    r.Sourced x edits diagnostic.position → Traced references x edits diagnostic
  | call {diagnostic : Diagnostic} {r : Reference} {i : Nat} {call : Call} :
    references[diagnostic.reference]? = some r → diagnostic.call = some i →
    r.calls[i]? = some call → call.Sourced x edits diagnostic.position →
    Traced references x edits diagnostic

theorem Document.traced_of_mem_diagnostics {c : Catalog} {context : Option Context}
    {document : Document} (hfrom : ∀ r ∈ document.references, r.ComesFrom x edits)
    {diagnostic : Diagnostic} (hdiagnostic : diagnostic ∈ document.diagnostics c context) :
    diagnostic.Traced document.references x edits := by
  obtain ⟨r, hr, hplace⟩ := hasPlace_of_mem_diagnostics hdiagnostic
  have hown := hfrom r (List.mem_of_getElem? hr)
  generalize hcall : diagnostic.call = index at hplace
  generalize hposition : diagnostic.position = position at hplace
  cases hplace with
  | own => exact .own hr hcall (hposition ▸ hown.own)
  | call hat =>
    exact .call hr hcall hat (hposition ▸ hown.calls _ (List.mem_of_getElem? hat))

namespace Session

variable {s : Session} {ops : List Operation} {d : Draft}

/-- After a run of a session in which every operation succeeds, each diagnostic of an open session
    has a position at which the text that was typed last has the start of the reference or of the
    modifier that the diagnostic names, or a position that was brought along with it by an edit
    since. Without edits that text is the draft's; with edits it may be another one, because they
    write the draft's text from the document. -/
theorem run_diagnose_traced (hclosed : s.phase = .closed)
    (hok : ∀ outcome ∈ s.run ops, outcome.1.isOk = true)
    (hphase : (s.after ops).phase = .editing d) :
    ∃ document x edits, d.document = some document ∧ TypedLast (s.changes ops) x edits ∧
      (edits = [] → d.text = x) ∧ (edits ≠ [] → d.text = document.expression) ∧
      ((s.after ops).perform .diagnose).1 =
        .ok (.diagnostics (document.diagnostics s.catalog (some s.context))) ∧
      ∀ diagnostic ∈ document.diagnostics s.catalog (some s.context),
        diagnostic.Traced document.references x edits := by
  have hread : ∀ outcome ∈ s.run ops, ∀ e, outcome.1 ≠ .error (.conversion e) := by
    intro outcome hmem e herror
    have hsuccess := hok outcome hmem
    rw [herror] at hsuccess
    cases hsuccess
  obtain ⟨document, hrecords⟩ := exists_records hclosed hread hphase
  have hpoints : d.Points (s.changes ops) :=
    after_induction (fun _ hset => Draft.points_of_setText [] hset rfl)
      (fun _ hset => Draft.points_of_setText _ hset rfl)
      (fun hpoints hedit => hpoints.of_edit hedit) rfl hclosed hread hphase
  obtain ⟨found, x, edits, hfound, htyped, hfrom⟩ := hpoints
  obtain rfl : document = found := Option.some.inj (hrecords.document_eq.symm.trans hfound)
  obtain ⟨last, hlast, hop⟩ := htyped.exists_last
  refine ⟨document, x, edits, hfound, htyped, fun hnone => ?_, fun hsome => ?_, ?_, ?_⟩
  · rw [if_pos hnone] at hop
    exact (hrecords.typed last x hlast hop).1
  · rw [if_neg hsome] at hop
    exact hrecords.edited last hlast hop
  · obtain ⟨phase, hafter⟩ := s.exists_phase_after ops
    have hvalid := @Document.validate_of_hasText s.catalog (some s.context) _ hrecords.written
    rw [perform_editing hphase, performOpen, answerFrom, hfound, hafter]
    simp [hvalid, answer]
  · exact fun diagnostic hmem => Document.traced_of_mem_diagnostics hfrom hmem

/-- A reference that has moved to the front keeps the position that it had: a diagnostic of it
    points into the text that was typed, and behind the end of the text that there is. -/
theorem run_diagnose_of_remove :
    let s : Session := { catalog := Default.catalog, context := .named "post".toList }
    let x := "@post(title)@post(nope)".toList
    let ops : List Operation := [.start [], .setText x, .remove 0]
    let r : Reference := { group := "post".toList, field := "nope".toList, position := 12 }
    let document : Document := { nodes := [.reference r] }
    let d : Draft := { text := "@post(nope)".toList, document := some document, trailing := [] }
    let diagnostic : Diagnostic :=
      { problem := .unknownField r.field r.group, reference := 0, call := none, position := 12 }
    (∀ outcome ∈ s.run ops, outcome.1.isOk = true) ∧ (s.after ops).phase = .editing d ∧
      ((s.after ops).perform .diagnose).1 = .ok (.diagnostics [diagnostic]) ∧
      Text.StandsAt x diagnostic.position r.opening ∧
      ¬ Text.StandsAt d.text diagnostic.position r.opening := by
  intro s x ops r document d diagnostic
  have hok : ∀ outcome ∈ s.run ops, outcome.1.isOk = true := by decide +kernel
  have hphase : (s.after ops).phase = .editing d := by decide +kernel
  obtain ⟨found, typed, edits, hfound, htyped, -, -, hdiagnose, htraced⟩ :=
    run_diagnose_traced rfl hok hphase
  obtain rfl : document = found := Option.some.inj hfound
  have hdiagnostics : document.diagnostics s.catalog (some s.context) = [diagnostic] := by
    decide +kernel
  have hchanges : s.changes ops = [.start [], .setText x, .remove 0] := by decide +kernel
  obtain ⟨rfl, rfl⟩ : x = typed ∧ [.remove 0] = edits := by
    obtain ⟨⟨earlier, op, heq, hop⟩, hedits⟩ := htyped
    rw [hchanges] at heq
    rcases earlier with _ | ⟨first, _ | ⟨second, _ | ⟨third, rest⟩⟩⟩
    · obtain ⟨-, rfl⟩ := List.cons.inj heq
      cases hedits (.setText x) List.mem_cons_self
    · obtain ⟨-, rfl, rfl⟩ := by simpa using heq
      exact ⟨Option.some.inj hop, rfl⟩
    · obtain ⟨-, -, rfl, -⟩ := by simpa using heq
      cases hop
    · simp at heq
  refine ⟨hok, hphase, hdiagnostics ▸ hdiagnose, ?_, ?_⟩
  · cases htraced diagnostic (hdiagnostics ▸ List.mem_cons_self) with
    | own hr _ hsourced =>
      obtain rfl := Option.some.inj hr
      rcases hsourced with hstands | ⟨edit, hedit, given, hgiven, -⟩
      · exact hstands
      · obtain rfl := List.mem_singleton.mp hedit
        cases hgiven
    | call _ hcall => cases hcall
  · rintro ⟨place, hplace, hprefix⟩
    obtain rfl : 12 = place := Int.ofNat.inj hplace
    exact absurd hprefix (by decide)

end Session

end TagText
