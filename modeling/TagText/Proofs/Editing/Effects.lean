import TagText.Proofs.Editing.Refusals

/-!
Everything that an operation can do to a session. What it says of each kind of operation is all that
the facts about runs need; none of them looks at how an operation is carried out.
-/

namespace TagText

/-- Whether an operation only looks at the draft. -/
def Operation.isLooking : Operation → Bool
  | getText | getTrailing | getDocument | getReferences | diagnose | suggest _ => true
  | _ => false

/-- A text that is taken over is read, beside the trailing text that the draft has already. -/
theorem Draft.setText_eq_ok_iff {c : Catalog} {d draft : Draft} {text : Text} :
    d.setText c text = (draft, .ok ()) ↔ ∃ plain, Reading.ofExpression c text = .ok plain ∧
      draft = { d with text, document := some { plain.document with trailing := d.trailing } } := by
  rw [setText]
  cases Reading.ofExpression c text <;> simp [eq_comm]

namespace Draft

variable {d draft : Draft} {document : Document} {op : Operation}

/-- An edit of a draft of which the nodes can stand next to each other leaves such a draft. -/
theorem normal_of_edit (hdocument : d.document = some document)
    (hnormal : Node.Normal document.nodes) {nodes : List Node}
    (hedit : d.edit? op = some (.ok (d.setNodes nodes))) : Node.Normal (Node.joinTexts nodes) := by
  obtain ⟨before, after, taken, put, hnodes, hset, -⟩ := exists_of_edit hdocument hedit
  have hsame : Node.joinTexts nodes = Node.joinTexts (before ++ put.map .reference ++ after) := by
    have hfirst := congrArg (fun edited => edited.1.document) hset
    simp only [(d.setNodes_fst _).1, Option.some.injEq] at hfirst
    exact congrArg Document.nodes hfirst
  rw [hsame]
  refine Node.normal_joinTexts fun node hnode => ?_
  have hkept := hnormal.not_isBlankText node
  simp only [hnodes, List.mem_append, List.mem_map] at hkept hnode
  rcases hnode with (hbefore | ⟨r, -, rfl⟩) | hafter
  · exact hkept (Or.inl (Or.inl hbefore))
  · rfl
  · exact hkept (Or.inr hafter)

/-- An edit that is carried out writes the text of the draft. -/
theorem written_of_edit (hdocument : d.document = some document)
    (hnormal : Node.Normal document.nodes) (hedit : d.edit? op = some (.ok (draft, .ok ()))) :
    ∃ edited, draft = { d with text := edited.expression, document := some edited } ∧
      edited.trailing = d.trailing ∧ edited.hasText = true ∧ Node.Normal edited.nodes := by
  obtain ⟨nodes, hset⟩ := exists_setNodes_of_edit hedit
  obtain ⟨htext, rfl⟩ := setNodes_eq_ok_iff.mp hset.symm
  exact ⟨_, rfl, rfl, (hasText_joinTexts _ _).trans htext,
    normal_of_edit hdocument hnormal (hset ▸ hedit)⟩

end Draft

namespace Session

/-- What an operation that succeeds does to a session. -/
inductive Effect (s : Session) : Operation → Session → Prop
  | opened {v : Text} {reading : Reading} {draft : Draft} : s.phase = .closed →
    Reading.ofValue s.catalog v = .ok reading →
    Draft.setText s.catalog
      { text := [], document := none, trailing := reading.document.trailing } (unwrap v) =
      (draft, .ok ()) → Effect s (.start v) { s with phase := .editing draft }
  | typed {d draft : Draft} {text : Text} : s.phase = .editing d →
    d.setText s.catalog text = (draft, .ok ()) →
    Effect s (.setText text) { s with phase := .editing draft }
  | edited {op : Operation} {d draft : Draft} : s.phase = .editing d →
    d.edit? op = some (.ok (draft, .ok ())) → Effect s op { s with phase := .editing draft }
  | looked {op : Operation} {d : Draft} : s.phase = .editing d → op.isLooking = true →
    Effect s op s
  | committed {d : Draft} : s.phase = .editing d → Effect s .commit { s with phase := .committed }
  | cancelled {d : Draft} : s.phase = .editing d → Effect s .cancel { s with phase := .cancelled }

variable {s : Session} {op : Operation} {d draft : Draft}

/-- A document that can be written is committed. -/
theorem perform_commit (hphase : s.phase = .editing d) {document : Document}
    (hdocument : d.document = some document) (htext : document.hasText = true) :
    s.perform .commit = (.ok (.text document.stored), { s with phase := .committed }) := by
  rw [perform_editing hphase]
  simp [performOpen, answerFrom, hdocument, Document.write_of_hasText htext, answer]

theorem setText_of_retype {text : Text} (hok : (s.retype d text).1.isOk = true) :
    ∃ draft, d.setText s.catalog text = (draft, .ok ()) ∧
      (s.retype d text).2 = { s with phase := .editing draft } := by
  rw [retype] at hok ⊢
  cases hset : d.setText s.catalog text with
  | mk draft result =>
    rw [hset] at hok
    cases result with
    | error e => cases hok
    | ok => exact ⟨draft, rfl, rfl⟩

theorem effect_takeOver {result : Draft.Edited} (hphase : s.phase = .editing d)
    (hedit : d.edit? op = some result) (hok : (s.takeOver result).1.isOk = true) :
    s.Effect op (s.takeOver result).2 := by
  obtain _ | ⟨draft, _ | _⟩ := result
  · cases hok
  · cases hok
  · exact .edited hphase hedit

theorem effect_performOpen (hphase : s.phase = .editing d)
    (hok : (s.performOpen d op).1.isOk = true) : s.Effect op (s.performOpen d op).2 := by
  cases op with
  | start => cases hok
  | getText | getTrailing => exact .looked hphase rfl
  | getReferences | diagnose =>
    rw [performOpen, answerFrom_snd]
    exact .looked hphase rfl
  | getDocument | suggest =>
    rw [performOpen]
    split <;> exact .looked hphase rfl
  | setText text =>
    obtain ⟨draft, hset, heq⟩ := setText_of_retype hok
    exact heq ▸ .typed hphase hset
  | replace | insert | remove | setCalls => exact effect_takeOver hphase rfl hok
  | commit =>
    rw [performOpen] at hok ⊢
    generalize s.answerFrom d _ = outcome at hok ⊢
    obtain ⟨_ | value, _⟩ := outcome
    · cases hok
    · exact .committed hphase
  | cancel => exact .cancelled hphase

/-- An operation that succeeds has one of the effects. -/
theorem effect_perform (hok : (s.perform op).1.isOk = true) : s.Effect op (s.perform op).2 := by
  unfold perform at hok ⊢
  split at hok
  · rename_i v hphase
    rw [start] at hok ⊢
    cases hread : Reading.ofValue s.catalog v with
    | error e =>
      rw [hread] at hok
      cases hok
    | ok reading =>
      rw [hread] at hok
      obtain ⟨draft, hset, heq⟩ := setText_of_retype hok
      exact heq ▸ .opened hphase hread hset
  · rename_i d hphase
    exact effect_performOpen hphase hok
  · cases hok

/-- An operation that strands no draft has one of the effects, or is refused and changes nothing. -/
theorem effect_or_refused (hread : ∀ e, (s.perform op).1 ≠ .error (.conversion e)) :
    (s.perform op).1.isOk = true ∧ s.Effect op (s.perform op).2 ∨
      (s.perform op).1.isOk = false ∧ (s.perform op).2 = s := by
  cases hresult : (s.perform op).1 with
  | ok answer =>
    have hok : (s.perform op).1.isOk = true := by rw [hresult]; rfl
    exact Or.inl ⟨rfl, effect_perform hok⟩
  | error error =>
    refine Or.inr ⟨rfl, ?_⟩
    rcases perform_of_error hresult with hself | ⟨draft, hstrands⟩
    · exact hself
    · obtain ⟨e, hperform⟩ := hstrands.perform_eq
      exact absurd (congrArg Prod.fst hperform) (hread e)

end Session

end TagText
