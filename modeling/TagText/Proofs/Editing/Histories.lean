import TagText.Proofs.Editing.Sessions

/-!
What the draft of an open session owes to the operations that were carried out: its trailing text to
the value that was opened, and its text and its document to the last operation that has changed
them. Operations that were refused in between leave no trace, as long as none of them was refused
because a text cannot be read or written.
-/

namespace TagText

namespace Operation

/-- Whether an operation changes the draft. -/
def isChanging (op : Operation) : Bool := op.isTyping || op.isStructural

/-- The expression that an operation puts into the draft as it stands. -/
def typed? : Operation → Option Text
  | start initial => some (unwrap initial)
  | setText text => some text
  | _ => none

theorem isChanging_of_isLooking (op : Operation) (hop : op.isLooking = true) :
    op.isChanging = false := by
  rw [isChanging, op.isTyping_of_isLooking hop, op.isStructural_of_isLooking hop]
  rfl

end Operation

theorem Draft.isChanging_of_edit? {d : Draft} {op : Operation} {result : Edited}
    (hedit : d.edit? op = some result) : op.isChanging = true := by
  cases op with
  | replace | insert | remove | setCalls => rfl
  | _ => cases hedit

theorem Draft.typed?_of_edit? {d : Draft} {op : Operation} {result : Edited}
    (hedit : d.edit? op = some result) : op.typed? = none := by
  cases op with
  | replace | insert | remove | setCalls => rfl
  | _ => cases hedit

theorem Draft.exists_edit?_of_isStructural {d : Draft} {op : Operation}
    (hop : op.isStructural = true) : ∃ result, d.edit? op = some result := by
  cases op with
  | replace | insert | remove | setCalls => exact ⟨_, rfl⟩
  | _ => cases hop

namespace Session

/-- The session after operations. -/
def after (s : Session) (ops : List Operation) : Session :=
  ops.foldl (fun s op => (s.perform op).2) s

/-- An operation changes nothing of a session but its phase. -/
theorem exists_phase_perform (s : Session) (op : Operation) :
    ∃ phase, (s.perform op).2 = { s with phase } := by
  cases hresult : (s.perform op).1 with
  | ok answer =>
    have heffect : s.Effect op (s.perform op).2 := effect_perform (by rw [hresult]; rfl)
    generalize (s.perform op).2 = next at heffect ⊢
    cases heffect <;> exact ⟨_, rfl⟩
  | error error =>
    rcases perform_of_error hresult with hself | ⟨draft, hstrands⟩
    · exact ⟨s.phase, hself⟩
    · obtain ⟨e, hperform⟩ := hstrands.perform_eq
      exact ⟨_, congrArg Prod.snd hperform⟩

theorem exists_phase_after (s : Session) (ops : List Operation) :
    ∃ phase, s.after ops = { s with phase } := by
  induction ops generalizing s with
  | nil => exact ⟨s.phase, rfl⟩
  | cons op ops ih =>
    obtain ⟨phase, hfirst⟩ := s.exists_phase_perform op
    obtain ⟨last, hrest⟩ := ih (s.perform op).2
    refine ⟨last, hrest.trans ?_⟩
    rw [hfirst]

/-- The operations among others that have changed the draft, without those that were refused. -/
def changes (s : Session) : List Operation → List Operation
  | [] => []
  | op :: ops =>
    if (s.perform op).1.isOk && op.isChanging then op :: changes (s.perform op).2 ops
    else changes (s.perform op).2 ops

/-- Whether an answer refuses a text because it cannot be read or written. -/
def refusesText : Except SessionError Answer → Bool
  | .error (.conversion _) => true
  | _ => false

theorem refusesText_eq_false_iff {result : Except SessionError Answer} :
    refusesText result = false ↔ ∀ e, result ≠ .error (.conversion e) := by
  rcases result with (_ | _ | e) | _
  case error.conversion => exact iff_of_false Bool.false_ne_true.symm (fun hnone => hnone e rfl)
  all_goals simp [refusesText]

/-- A session of which the draft, if it has one, holds of the changes; before it is open there are
    none. -/
structure Holds (c : Catalog) (P : List Operation → Draft → Prop) (changes : List Operation)
    (s : Session) : Prop where
  catalog : s.catalog = c
  closed : s.phase = .closed → changes = []
  editing : ∀ d, s.phase = .editing d → P changes d

section

variable {c : Catalog} {P : List Operation → Draft → Prop}
  (hopened : ∀ {v : Text} {reading : Reading} {draft : Draft}, Reading.ofValue c v = .ok reading →
    Draft.setText c { text := [], document := none, trailing := reading.document.trailing }
      (unwrap v) = (draft, .ok ()) → P [.start v] draft)
  (htyped : ∀ {changes : List Operation} {d draft : Draft} {x : Text}, P changes d →
    d.setText c x = (draft, .ok ()) → P (changes ++ [.setText x]) draft)
  (hedited : ∀ {changes : List Operation} {d draft : Draft} {op : Operation}, P changes d →
    d.edit? op = some (.ok (draft, .ok ())) → P (changes ++ [op]) draft)

include hopened htyped hedited

theorem Holds.of_effect {changes : List Operation} {s s' : Session} {op : Operation}
    (hs : s.Holds c P changes) (heffect : s.Effect op s') :
    s'.Holds c P (if op.isChanging then changes ++ [op] else changes) := by
  have hdraft : ∀ {changes : List Operation} {draft : Draft}, P changes draft →
      Holds c P changes { s with phase := .editing draft } := by
    intro changes draft hnew
    refine ⟨hs.catalog, fun hphase => ?_, ?_⟩
    · cases hphase
    · rintro _ ⟨⟩
      exact hnew
  obtain rfl := hs.catalog
  cases heffect with
  | opened hclosed hread hset =>
    rw [hs.closed hclosed]
    exact hdraft (hopened hread hset)
  | typed hphase hset => exact hdraft (htyped (hs.editing _ hphase) hset)
  | edited hphase hedit =>
    rw [if_pos (Draft.isChanging_of_edit? hedit)]
    exact hdraft (hedited (hs.editing _ hphase) hedit)
  | looked _ hop =>
    rw [if_neg (by simp [Operation.isChanging_of_isLooking op hop])]
    exact hs
  | committed | cancelled =>
    refine ⟨rfl, fun hphase => ?_, fun draft hphase => ?_⟩
    · cases hphase
    · cases hphase

/-- The induction is on the operations that are to come, for any changes that were made before. -/
theorem Holds.after {s : Session} {before ops : List Operation} (hs : s.Holds c P before)
    (hread : ∀ outcome ∈ s.run ops, ∀ e, outcome.1 ≠ .error (.conversion e)) :
    (s.after ops).Holds c P (before ++ s.changes ops) := by
  induction ops generalizing s before with
  | nil => rwa [changes, List.append_nil]
  | cons op ops ih =>
    obtain ⟨hfirst, hrest⟩ := List.forall_mem_cons.mp hread
    rw [changes]
    rcases effect_or_refused hfirst with ⟨hok, heffect⟩ | ⟨hrefused, hself⟩
    · have hnext := hs.of_effect hopened htyped hedited heffect
      rw [hok, Bool.true_and]
      split at hnext
      · rw [if_pos ‹_›, List.append_cons]
        exact ih hnext hrest
      · rw [if_neg ‹_›]
        exact ih hnext hrest
    · have hnext : (s.perform op).2.Holds c P before := by rwa [hself]
      rw [hrefused, Bool.false_and, if_neg Bool.false_ne_true]
      exact ih hnext hrest

/-- What typing and edits keep up between the changes and the draft holds in every open session
    after a run in which every text could be read and written. -/
theorem after_induction {s : Session} (hcatalog : s.catalog = c) (hclosed : s.phase = .closed)
    {ops : List Operation} (hread : ∀ outcome ∈ s.run ops, ∀ e, outcome.1 ≠ .error (.conversion e))
    {d : Draft} (hphase : (s.after ops).phase = .editing d) : P (s.changes ops) d := by
  have hstart : s.Holds c P [] := by
    refine ⟨hcatalog, fun _ => rfl, fun draft hediting => ?_⟩
    cases hclosed.symm.trans hediting
  exact (hstart.after hopened htyped hedited hread).editing d hphase

end

end Session

/-- A draft with its document, as the changes have made them. -/
structure Draft.Records (c : Catalog) (changes : List Operation) (d : Draft) (document : Document) :
    Prop where
  document_eq : d.document = some document
  trailing : document.trailing = d.trailing
  written : document.hasText = true
  normal : Node.Normal document.nodes
  opened : ∃ v reading, changes.head? = some (.start v) ∧ Reading.ofValue c v = .ok reading ∧
    reading.document.trailing = d.trailing
  typed : ∀ op x, changes.getLast? = some op → op.typed? = some x → d.text = x ∧
    ∃ plain, Reading.ofExpression c x = .ok plain ∧
      document = { plain.document with trailing := d.trailing }
  edited : ∀ op, changes.getLast? = some op → op.typed? = none → d.text = document.expression

namespace Draft

variable {c : Catalog} {changes : List Operation} {d draft : Draft} {document : Document}
  {op : Operation}

theorem Records.head?_append (hrecords : d.Records c changes document) :
    ∃ v reading, (changes ++ [op]).head? = some (.start v) ∧ Reading.ofValue c v = .ok reading ∧
      reading.document.trailing = d.trailing := by
  obtain ⟨v, reading, hhead, hread⟩ := hrecords.opened
  exact ⟨v, reading, by simp [hhead], hread⟩

/-- Typing records the text and what is read of it. -/
theorem records_of_setText {x : Text} (changes : List Operation)
    (hset : d.setText c x = (draft, .ok ()))
    (hop : op.typed? = some x)
    (hopened : ∃ v reading, (changes ++ [op]).head? = some (.start v) ∧
      Reading.ofValue c v = .ok reading ∧ reading.document.trailing = d.trailing) :
    ∃ document, draft.Records c (changes ++ [op]) document := by
  obtain ⟨plain, hplain, rfl⟩ := setText_eq_ok_iff.mp hset
  obtain ⟨-, hcut⟩ := Reading.ofExpression_eq_ok_iff_cut.mp hplain
  have hlast : (changes ++ [op]).getLast? = some op := List.getLast?_concat
  refine ⟨_, rfl, rfl, Reading.hasText_of_ofExpression hplain _, hcut.normal, hopened, ?_, ?_⟩
  · intro last y hchange hy
    obtain rfl := Option.some.inj (hlast.symm.trans hchange)
    obtain rfl := Option.some.inj (hop.symm.trans hy)
    exact ⟨rfl, plain, hplain, rfl⟩
  · intro last hchange hnone
    obtain rfl := Option.some.inj (hlast.symm.trans hchange)
    cases hop.symm.trans hnone

/-- An edit of a reference records the document and what is written of it. -/
theorem Records.of_edit (hrecords : d.Records c changes document)
    (hedit : d.edit? op = some (.ok (draft, .ok ()))) :
    ∃ edited, draft.Records c (changes ++ [op]) edited := by
  obtain ⟨edited, rfl, htrailing, hwritten, hnormal⟩ :=
    written_of_edit hrecords.document_eq hrecords.normal hedit
  have hlast : (changes ++ [op]).getLast? = some op := List.getLast?_concat
  have hop : op.typed? = none := typed?_of_edit? hedit
  refine ⟨edited, rfl, htrailing, hwritten, hnormal, hrecords.head?_append, ?_, fun _ _ _ => rfl⟩
  intro last y hchange hy
  obtain rfl := Option.some.inj (hlast.symm.trans hchange)
  cases hop.symm.trans hy

end Draft

namespace Session

variable {s : Session} {ops : List Operation} {d : Draft}

theorem exists_records (hclosed : s.phase = .closed)
    (hread : ∀ outcome ∈ s.run ops, ∀ e, outcome.1 ≠ .error (.conversion e))
    (hphase : (s.after ops).phase = .editing d) :
    ∃ document, d.Records s.catalog (s.changes ops) document := by
  refine after_induction (P := fun changes d => ∃ document, d.Records s.catalog changes document)
    ?_ ?_ ?_ rfl hclosed hread hphase
  · intro v reading draft hvalue hset
    exact Draft.records_of_setText [] hset rfl ⟨v, reading, rfl, hvalue, rfl⟩
  · rintro changes d draft x ⟨document, hrecords⟩ hset
    exact Draft.records_of_setText changes hset rfl hrecords.head?_append
  · rintro changes d draft op ⟨document, hrecords⟩ hedit
    exact hrecords.of_edit hedit

/-- After a run of a session in which every text could be read and written, an open session has a
    draft as the changes have made it, with its trailing text from the value that was opened. A
    trailing text that is not empty ends the value that is committed, behind the close marker. -/
theorem run_records (hclosed : s.phase = .closed)
    (hread : ∀ outcome ∈ s.run ops, ∀ e, outcome.1 ≠ .error (.conversion e))
    (hphase : (s.after ops).phase = .editing d) :
    ∃ document, d.Records s.catalog (s.changes ops) document ∧
      ((s.after ops).perform .getTrailing).1 = .ok (.text d.trailing) ∧
      ((s.after ops).perform .commit).1 = .ok (.text document.stored) ∧
      (d.trailing ≠ [] → document.stored =
        openMarker ++ document.expression ++ closeMarker ++ d.trailing) := by
  obtain ⟨document, hdraft⟩ := exists_records hclosed hread hphase
  refine ⟨document, hdraft, ?_, ?_, fun hne => ?_⟩
  · rw [perform_editing hphase]
    rfl
  · exact congrArg Prod.fst (perform_commit hphase hdraft.document_eq hdraft.written)
  · rw [Document.stored, hdraft.trailing, if_pos (by simp [hne])]

/-- An index out of range and a second opening are refused on the way, and the group that is put in
    is no name. -/
theorem run_records_of_refusals :
    let s : Session := { catalog := {}, context := .named "post".toList }
    let v := "@tags()a@post(id)b@endtags() tail".toList
    let r : Reference := { group := "no name".toList }
    let ops : List Operation := [.start v, .remove 3, .start [], .remove 0, .insert none r]
    let document : Document :=
      { nodes := [.text "ab".toList 0, .reference r], trailing := " tail".toList }
    let d : Draft :=
      { text := "ab@no name()".toList, document := some document, trailing := " tail".toList }
    (s.after ops).phase = .editing d ∧ s.changes ops = [.start v, .remove 0, .insert none r] ∧
      d.Records s.catalog (s.changes ops) document ∧
      ((s.after ops).perform .commit).1 =
        .ok (.text "@tags()ab@no name()@endtags() tail".toList) := by
  intro s v r ops document d
  have hphase : (s.after ops).phase = .editing d := by decide +kernel
  have hread : ∀ outcome ∈ s.run ops, refusesText outcome.1 = false := by decide +kernel
  obtain ⟨found, hdraft, -, hcommit, htrailing⟩ :=
    run_records rfl (fun outcome hmem => refusesText_eq_false_iff.mp (hread outcome hmem)) hphase
  obtain rfl : document = found := Option.some.inj hdraft.document_eq
  refine ⟨hphase, by decide +kernel, hdraft, ?_⟩
  rw [hcommit, htrailing (by decide)]
  have hexpression : document.expression = "ab@no name()".toList := by decide +kernel
  rw [hexpression]
  rfl

end Session

end TagText
