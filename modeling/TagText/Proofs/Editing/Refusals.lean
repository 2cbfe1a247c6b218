import TagText.Catalog.DefaultModifiers
import TagText.Proofs.Editing.Splices
import TagText.Proofs.Reading.Overlong
import TagText.Proofs.Stored.Agreement

/-!
Operations that a session refuses. A refusal changes nothing, unless one form of the draft has been
changed already when it shows that the other cannot be had. A text that cannot be read is then in
the draft, beside the document of the text before it, or beside no document if the session was
opened with it; and nodes without a text are in the draft beside the text from before.
-/

namespace TagText

namespace Session

/-- An operation that changes one form of the draft although the other cannot be had, and the draft
    that it leaves: a text that cannot be read, or nodes that have no text. -/
inductive Strands (s : Session) : Operation → Draft → Prop
  | setText {d : Draft} {text : Text} {error : ConversionError} : s.phase = .editing d →
    Reading.ofExpression s.catalog text = .error error → Strands s (.setText text) { d with text }
  | start {v : Text} {error : ConversionError} : s.phase = .closed → isActive v = false →
    Reading.ofExpression s.catalog v = .error error →
    Strands s (.start v) { text := v, document := none, trailing := [] }
  | edit {op : Operation} {d : Draft} {nodes : List Node} : s.phase = .editing d →
    d.edit? op = some (.ok (d.setNodes nodes)) → ({ nodes } : Document).hasText = false →
    Strands s op { d.withNodes nodes with text := d.text }

variable {s : Session} {op : Operation} {error : SessionError} {d draft : Draft}

theorem perform_editing (hphase : s.phase = .editing d) (op : Operation) :
    s.perform op = s.performOpen d op := by
  simp [perform, hphase]

theorem perform_closed (hphase : s.phase = .closed) (v : Text) :
    s.perform (.start v) = s.start v := by
  simp [perform, hphase]

/-- A text that is refused stays in the draft. -/
theorem retype_of_error {text : Text} {e : ConversionError}
    (hread : Reading.ofExpression s.catalog text = .error e) :
    s.retype d text = (.error (.conversion e), { s with phase := .editing { d with text } }) := by
  simp [retype, Draft.setText, hread]

theorem exists_of_retype_error {text : Text} (herror : (s.retype d text).1 = .error error) :
    ∃ e, Reading.ofExpression s.catalog text = .error e := by
  cases hread : Reading.ofExpression s.catalog text with
  | error e => exact ⟨e, rfl⟩
  | ok reading => simp [retype, Draft.setText, hread] at herror

/-- An edit of a reference is taken over, or refused. -/
theorem perform_edit (hphase : s.phase = .editing d) {result : Draft.Edited}
    (hedit : d.edit? op = some result) : s.perform op = s.takeOver result := by
  rw [perform_editing hphase]
  cases op <;> cases hedit <;> rfl

/-- An edit that is refused changes nothing, unless its nodes have no text. -/
theorem takeOver_of_error (hphase : s.phase = .editing d) {result : Draft.Edited}
    (hedit : d.edit? op = some result) (herror : (s.takeOver result).1 = .error error) :
    (s.takeOver result).2 = s ∨ ∃ draft, s.Strands op draft := by
  cases result with
  | error e => exact Or.inl rfl
  | ok edited =>
    obtain ⟨nodes, rfl⟩ := Draft.exists_setNodes_of_edit hedit
    cases htext : ({ nodes } : Document).hasText with
    | true =>
      rw [Draft.setNodes_of_hasText htext] at herror
      cases herror
    | false => exact Or.inr ⟨_, .edit hphase hedit htext⟩

theorem answerFrom_snd (view : Document → Except ConversionError Answer) :
    (s.answerFrom d view).2 = s := by
  rw [answerFrom]
  split
  · rfl
  · split <;> rfl

/-- An open session that refuses an operation stays as it is, or is left stranded. -/
theorem performOpen_of_error (hphase : s.phase = .editing d)
    (herror : (s.performOpen d op).1 = .error error) :
    (s.performOpen d op).2 = s ∨ ∃ draft, s.Strands op draft := by
  cases op with
  | start | getText | getTrailing => exact Or.inl rfl
  | getReferences | diagnose => exact Or.inl (answerFrom_snd _)
  | getDocument | suggest =>
    refine Or.inl ?_
    rw [performOpen]
    split <;> rfl
  | setText text =>
    obtain ⟨e, hread⟩ := exists_of_retype_error herror
    exact Or.inr ⟨_, .setText hphase hread⟩
  | replace | insert | remove | setCalls => exact takeOver_of_error hphase rfl herror
  | commit =>
    refine Or.inl ?_
    rw [performOpen] at herror ⊢
    split at herror
    · cases herror
    · exact answerFrom_snd _
  | cancel => cases herror

/-- A closed session that cannot be opened with a value stays closed, or is open with an unread
    text. The expression of a dynamic value cannot be the one that is refused second, because it has
    been read in the value. -/
theorem start_of_error {v : Text} (hphase : s.phase = .closed)
    (herror : (s.start v).1 = .error error) :
    (s.start v).2 = s ∨ ∃ draft, s.Strands (.start v) draft := by
  rw [start] at herror ⊢
  cases hvalue : Reading.ofValue s.catalog v with
  | error e => exact Or.inl rfl
  | ok reading =>
    rw [hvalue] at herror
    obtain ⟨e, hread⟩ := exists_of_retype_error herror
    refine Or.inr ?_
    cases hregion : Region.ofValue? v with
    | none =>
      rw [unwrap_literal hregion] at hread
      exact ⟨_, .start hphase (not_isActive_iff.mpr hregion) hread⟩
    | some region =>
      rw [unwrap_of_region hregion] at hread
      rw [Reading.ofValue_of_region hregion, hread] at hvalue
      cases hvalue

theorem perform_of_error (herror : (s.perform op).1 = .error error) :
    (s.perform op).2 = s ∨ ∃ draft, s.Strands op draft := by
  unfold perform at herror ⊢
  split at herror
  · rename_i hphase
    exact start_of_error hphase herror
  · rename_i d hphase
    exact performOpen_of_error hphase herror
  · exact Or.inl rfl

/-- An operation that strands a draft is refused, and leaves the session open with the draft. -/
theorem Strands.perform_eq (hstrands : s.Strands op draft) :
    ∃ e, s.perform op = (.error (.conversion e), { s with phase := .editing draft }) := by
  cases hstrands with
  | @setText d text e hphase hread =>
    exact ⟨e, (perform_editing hphase _).trans (retype_of_error hread)⟩
  | @start v e hphase hliteral hread =>
    have hnone := not_isActive_iff.mp hliteral
    refine ⟨e, ?_⟩
    rw [perform_closed hphase]
    simp only [Session.start, Reading.ofValue_literal hnone, unwrap_literal hnone]
    exact retype_of_error hread
  | edit hphase hedit htext =>
    refine ⟨.overlongInteger, (perform_edit hphase hedit).trans ?_⟩
    rw [Draft.setNodes_of_not_hasText htext]
    rfl

/-- An operation that is refused leaves the session exactly as it was, unless it strands a draft
    that the session did not have already. In that case the session is open with this draft: with a
    text that cannot be read beside the document from before, or with nodes that have no text beside
    the text from before. -/
theorem perform_eq_self_iff_of_error (herror : (s.perform op).1 = .error error) :
    ((s.perform op).2 = s ↔ ∀ draft, s.Strands op draft → s.phase = .editing draft) ∧
      ∀ draft, s.Strands op draft → (s.perform op).2 = { s with phase := .editing draft } := by
  have hstranded : ∀ draft, s.Strands op draft →
      (s.perform op).2 = { s with phase := .editing draft } := by
    intro draft hstrands
    obtain ⟨e, hperform⟩ := hstrands.perform_eq
    rw [hperform]
  refine ⟨⟨fun hself draft hstrands => ?_, fun hphase => ?_⟩, hstranded⟩
  · have hsession := (hstranded draft hstrands).symm.trans hself
    exact (congrArg Session.phase hsession).symm
  · rcases perform_of_error herror with hself | ⟨draft, hstrands⟩
    · exact hself
    · rw [hstranded draft hstrands, ← hphase draft hstrands]

/-- An integer with a digit too many is refused: in a text that is set it has replaced the text of
    the draft, and in a reference that is put in, the document. -/
theorem perform_ne_self_of_overlong :
    let closed : Session := { catalog := Default.catalog, context := .named "post".toList }
    let s := (closed.perform (.start "Hi".toList)).2
    let call := '.' :: "truncate".toList ++ '(' :: (digitText (List.replicate 4301 9) ++ [')'])
    let text := '@' :: "post".toList ++ '(' :: ("title".toList ++ ')' :: call)
    let n : Int := 10 ^ maxIntegerDigits
    let r : Reference :=
      { group := "post".toList, calls := [{ key := "truncate".toList, args := [.int n] }] }
    (s.perform (.setText text)).1 = .error (.conversion .overlongInteger) ∧
      (s.perform (.setText text)).2 ≠ s ∧
      (s.perform (.insert none r)).1 = .error (.conversion .overlongInteger) ∧
      (s.perform (.insert none r)).2 ≠ s := by
  intro closed s call text n r
  let document : Document := { nodes := [.text "Hi".toList 0] }
  let d : Draft := { text := "Hi".toList, document := some document, trailing := [] }
  have hphase : s.phase = .editing d := by decide +kernel
  have hread : Reading.ofExpression s.catalog text = .error .overlongInteger :=
    Reading.ofExpression_nines (by decide +kernel)
  have htyped : s.Strands (.setText text) { d with text } := .setText hphase hread
  have hrefused : (s.perform (.setText text)).1 = .error (.conversion .overlongInteger) := by
    rw [perform_editing hphase]
    exact congrArg Prod.fst (retype_of_error hread)
  have hn : hasDecimal n = false := by decide +kernel
  clear_value n
  let nodes : List Node := document.nodes ++ [.reference r]
  have hargs : r.args.all Arg.hasText = false := by simp [r, Reference.args, hn]
  have hnodes : ({ nodes } : Document).hasText = false := by
    rw [hasText_append, hasText_reference, hargs, Bool.false_and, Bool.and_false]
  have hedit : d.edit? (.insert none r) = some (.ok (d.setNodes nodes)) := by
    rw [Draft.edit?, Draft.insert_end rfl none r rfl]
  have hinserted : s.Strands (.insert none r) { d.withNodes nodes with text := d.text } :=
    .edit hphase hedit hnodes
  obtain ⟨e, hinsert⟩ := hinserted.perform_eq
  cases e
  have hfailed : (s.perform (.insert none r)).1 = .error (.conversion .overlongInteger) :=
    congrArg Prod.fst hinsert
  refine ⟨hrefused, fun hself => ?_, hfailed, fun hself => ?_⟩
  · have hkept := (perform_eq_self_iff_of_error hrefused).1.mp hself _ htyped
    rw [hphase] at hkept
    have htext := congrArg Draft.text (Phase.editing.inj hkept)
    exact absurd (congrArg List.head? htext) (by decide)
  · have hkept := (perform_eq_self_iff_of_error hfailed).1.mp hself _ hinserted
    rw [hphase] at hkept
    have hdocument := congrArg Draft.document (Phase.editing.inj hkept)
    have hnodes := congrArg Document.nodes (Option.some.inj hdocument)
    have hcount : 1 = 2 := congrArg List.length hnodes
    cases hcount

end Session

end TagText
