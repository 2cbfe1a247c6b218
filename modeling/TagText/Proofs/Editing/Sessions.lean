import TagText.Proofs.Editing.Drafts
import TagText.Proofs.Editing.Effects

/-!
The two forms of the draft over whole runs of a session. Typing makes them agree; an edit of a
reference keeps them apart when the nodes that it has put next to each other are read as others.
What an operation can do is said once, by a relation between sessions; each fact about runs is an
invariant of its steps.
-/

namespace TagText

/-- A reference that was read of some expression. -/
def Reference.IsRead (c : Catalog) (r : Reference) : Prop :=
  ∃ s reading, Reading.ofExpression c s = .ok reading ∧
    Node.reference r ∈ reading.document.nodes

namespace Operation

/-- An operation of which the references and the calls were read of expressions. -/
def Supplied (c : Catalog) : Operation → Prop
  | replace _ r | insert _ r => r.IsRead c
  | setCalls _ calls => ∃ r : Reference, r.IsRead c ∧ r.calls = calls
  | _ => True

/-- Whether an operation replaces the text of the draft. -/
def isTyping : Operation → Bool
  | start _ | setText _ => true
  | _ => false

/-- Whether an operation edits a reference of the draft. -/
def isStructural : Operation → Bool
  | replace _ _ | insert _ _ | remove _ | setCalls _ _ => true
  | _ => false

theorem isTyping_of_isLooking (op : Operation) (hop : op.isLooking = true) :
    op.isTyping = false := by
  cases op with
  | getText | getTrailing | getDocument | getReferences | diagnose | suggest => rfl
  | _ => cases hop

theorem isStructural_of_isLooking (op : Operation) (hop : op.isLooking = true) :
    op.isStructural = false := by
  cases op with
  | getText | getTrailing | getDocument | getReferences | diagnose | suggest => rfl
  | _ => cases hop

end Operation

theorem Reference.IsRead.wellNamed {c : Catalog} {r : Reference} (hread : r.IsRead c) :
    r.WellNamed := by
  obtain ⟨s, reading, hread, hr⟩ := hread
  exact (Reading.ofExpression_eq_ok_iff_cut.mp hread).2.wellNamed r hr

namespace Session

/-- What an operation that succeeds does to a session: it types a text, edits a reference, looks, or
    ends the session. -/
inductive Step (s : Session) : Operation → Session → Prop
  | typing {op : Operation} {d draft : Draft} {text : Text} : op.isStructural = false →
    d.setText s.catalog text = (draft, .ok ()) → Step s op { s with phase := .editing draft }
  | replace {d draft : Draft} {index : Int} {r : Reference} : s.phase = .editing d →
    d.replace index r = .ok (draft, .ok ()) →
    Step s (.replace index r) { s with phase := .editing draft }
  | insert {d draft : Draft} {index : Option Int} {r : Reference} : s.phase = .editing d →
    d.insert index r = .ok (draft, .ok ()) →
    Step s (.insert index r) { s with phase := .editing draft }
  | remove {d draft : Draft} {index : Int} : s.phase = .editing d →
    d.remove index = .ok (draft, .ok ()) → Step s (.remove index) { s with phase := .editing draft }
  | setCalls {d draft : Draft} {index : Int} {calls : List Call} : s.phase = .editing d →
    d.setCalls index calls = .ok (draft, .ok ()) →
    Step s (.setCalls index calls) { s with phase := .editing draft }
  | looking {op : Operation} : op.isTyping = false → op.isStructural = false → Step s op s
  | ending {op : Operation} {phase : Phase} : op.isTyping = false → op.isStructural = false →
    (∀ draft, phase ≠ .editing draft) → Step s op { s with phase }

section

variable {s : Session} {op : Operation} {d : Draft}

theorem Effect.step {s' : Session} (heffect : s.Effect op s') : s.Step op s' := by
  cases heffect with
  | opened _ _ hset | typed _ hset => exact .typing rfl hset
  | edited hphase hedit =>
    cases op with
    | replace => exact .replace hphase (Option.some.inj hedit)
    | insert => exact .insert hphase (Option.some.inj hedit)
    | remove => exact .remove hphase (Option.some.inj hedit)
    | setCalls => exact .setCalls hphase (Option.some.inj hedit)
    | _ => cases hedit
  | looked _ hop => exact .looking (op.isTyping_of_isLooking hop) (op.isStructural_of_isLooking hop)
  | committed | cancelled => exact .ending rfl rfl (by simp)

/-- What holds of a session at first, and is kept up by the operations that may be carried out,
    holds all along a run in which every operation succeeds, with what each step makes true. -/
theorem run_forall {P : Session → Prop} {Q : Operation → Session → Prop} {may : Operation → Prop}
    (hstep : ∀ {s s' : Session} {op : Operation}, P s → may op → s.Step op s' → P s' ∧ Q op s')
    {ops : List Operation} (hs : P s) (hops : ∀ op ∈ ops, may op)
    (hok : ∀ outcome ∈ s.run ops, outcome.1.isOk = true) :
    List.Forall₂ (fun op outcome => Q op outcome.2) ops (s.run ops) := by
  induction ops generalizing s with
  | nil => exact .nil
  | cons op ops ih =>
    obtain ⟨hop, hops⟩ := List.forall_mem_cons.mp hops
    rw [run] at hok ⊢
    obtain ⟨hfirst, hrest⟩ := List.forall_mem_cons.mp hok
    obtain ⟨hkept, hmade⟩ := hstep hs hop (effect_perform hfirst).step
    exact .cons hmade (ih hkept hops hrest)

end

/-- A session whose draft, if it has one, has a document that a text can have. -/
def Sound (s : Session) : Prop := ∀ draft, s.phase = .editing draft → draft.Sound

/-- What a step leaves behind: a sound session with the same catalog, in which typing has made the
    two forms of the draft agree, and an edit of a reference has written the text. -/
structure Follows (c : Catalog) (op : Operation) (s : Session) : Prop where
  catalog : s.catalog = c
  sound : s.Sound
  typed : op.isTyping = true → ∀ draft, s.phase = .editing draft → draft.Coherent c
  edited : op.isStructural = true → ∀ draft, s.phase = .editing draft → draft.Canonical

variable {s s' : Session} {op : Operation} {draft : Draft}

theorem follows_of_typing (hop : op.isStructural = false) (hsound : draft.Sound)
    (hcoherent : draft.Coherent s.catalog) :
    Follows s.catalog op { s with phase := .editing draft } := by
  refine ⟨rfl, ?_, ?_, fun hedit => absurd hedit (by simp [hop])⟩
  · rintro _ ⟨⟩
    exact hsound
  · rintro - _ ⟨⟩
    exact hcoherent

theorem follows_of_edit (hop : op.isTyping = false) (hdraft : draft.Sound ∧ draft.Canonical) :
    Follows s.catalog op { s with phase := .editing draft } := by
  refine ⟨rfl, ?_, fun htyping => absurd htyping (by simp [hop]), ?_⟩
  · rintro _ ⟨⟩
    exact hdraft.1
  · rintro - _ ⟨⟩
    exact hdraft.2

/-- A step leaves a sound session, and a draft as its operation makes it. -/
theorem Step.follows (hstep : s.Step op s') (hsound : s.Sound) (hop : op.Supplied s.catalog) :
    Follows s.catalog op s' := by
  cases hstep with
  | typing hedit hset =>
    obtain ⟨hsound, hcoherent⟩ := Draft.coherent_of_setText hset
    exact follows_of_typing hedit hsound hcoherent
  | replace hphase hdraft =>
    exact follows_of_edit rfl (Draft.canonical_of_replace (hsound _ hphase) hop.wellNamed hdraft)
  | insert hphase hdraft =>
    exact follows_of_edit rfl (Draft.canonical_of_insert (hsound _ hphase) hop.wellNamed hdraft)
  | remove hphase hdraft =>
    exact follows_of_edit rfl (Draft.canonical_of_remove (hsound _ hphase) hdraft)
  | setCalls hphase hdraft =>
    obtain ⟨r, hr, rfl⟩ := hop
    exact follows_of_edit rfl
      (Draft.canonical_of_setCalls (hsound _ hphase) hr.wellNamed.keys hdraft)
  | looking htyping hedit =>
    exact ⟨rfl, hsound, fun h => absurd h (by simp [htyping]), fun h => absurd h (by simp [hedit])⟩
  | ending htyping hedit hended =>
    exact ⟨rfl, fun draft h => absurd h (hended draft), fun h => absurd h (by simp [htyping]),
      fun h => absurd h (by simp [hedit])⟩

/-- In a run in which every operation succeeds, each step follows from the one before. -/
theorem run_follows {ops : List Operation} (hsound : s.Sound)
    (hops : ∀ op ∈ ops, op.Supplied s.catalog)
    (hok : ∀ outcome ∈ s.run ops, outcome.1.isOk = true) :
    List.Forall₂ (fun op outcome => Follows s.catalog op outcome.2) ops (s.run ops) := by
  refine run_forall (P := fun other => other.catalog = s.catalog ∧ other.Sound) ?_ ⟨rfl, hsound⟩
    hops hok
  rintro other next op ⟨hcatalog, hsound⟩ hop hstep
  rw [← hcatalog] at hop ⊢
  have hfollows := hstep.follows hsound hop
  exact ⟨⟨hfollows.catalog, hfollows.sound⟩, hfollows⟩

/-- Over a run of a session, typing always leaves a text that is read as the document; an edit of a
    reference does exactly when the document's nodes are settled. -/
theorem coherent_of_run (hclosed : s.phase = .closed) {ops : List Operation}
    (hops : ∀ op ∈ ops, op.Supplied s.catalog)
    (hok : ∀ outcome ∈ s.run ops, outcome.1.isOk = true) :
    List.Forall₂ (fun op (outcome : Outcome) => ∀ draft, outcome.2.phase = .editing draft →
      (op.isTyping = true → draft.Coherent s.catalog) ∧
      (op.isStructural = true → (draft.Coherent s.catalog ↔ draft.SettledEqually s.catalog)))
      ops (s.run ops) := by
  have hsound : s.Sound := by
    intro draft hdraft
    rw [hclosed] at hdraft
    cases hdraft
  refine (run_follows hsound hops hok).imp fun op outcome hstep draft hdraft => ⟨?_, ?_⟩
  · exact fun htyping => hstep.typed htyping draft hdraft
  · intro hedit
    exact Draft.coherent_iff_settledEqually (hstep.sound draft hdraft)
      (hstep.edited hedit draft hdraft)

/-- Texts that a removed reference kept apart make up a reference of their own. -/
theorem not_coherent_of_remove :
    let s : Session := { catalog := {}, context := .named "post".toList }
    let ops : List Operation :=
      [.start [], .setText "@po@post(id)st(title)".toList, .remove 0]
    let nodes : List Node := [.text "@post(title)".toList 0]
    let draft : Draft :=
      { text := "@post(title)".toList, document := some { nodes }, trailing := [] }
    (∀ outcome ∈ s.run ops, outcome.1.isOk = true) ∧
      ((s.run ops).map fun outcome => outcome.2.phase)[2]? = some (.editing draft) ∧
      ¬ draft.Coherent s.catalog := by
  intro s ops nodes draft
  have hok : ∀ outcome ∈ s.run ops, outcome.1.isOk = true := by decide +kernel
  have hphase : ((s.run ops).map fun outcome => outcome.2.phase)[2]? = some (.editing draft) := by
    decide +kernel
  refine ⟨hok, hphase, ?_⟩
  obtain ⟨outcome, houtcome, hediting⟩ : ∃ outcome, (s.run ops)[2]? = some outcome ∧
      outcome.2.phase = .editing draft := by simpa using hphase
  obtain ⟨hlt, rfl⟩ := List.getElem?_eq_some_iff.mp houtcome
  have hrun := coherent_of_run rfl (by simp [ops, Operation.Supplied]) hok
  have hstep := (List.forall₂_iff_get.mp hrun).2 2 (by decide) hlt draft hediting
  rw [hstep.2 rfl]
  rintro ⟨document, hdocument, hsettled⟩
  cases hdocument
  cases hsettled with
  | text hloose =>
    obtain ⟨-, broken, hread⟩ := loose_iff_ofExpression.mp hloose
    let r : Reference := { group := "post".toList, field := "title".toList }
    have hreference : Reading.ofExpression {} "@post(title)".toList =
        .ok { document := { nodes := [.reference r] }, brokenCount := 0 } := by decide +kernel
    cases hreference.symm.trans hread

end Session

end TagText
