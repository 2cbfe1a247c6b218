import TagText.Proofs.Editing.Histories

/-!
The life of a session. It is opened once and ended once, by committing or by cancelling, and what it
answers before and after that is the same refusal for every operation. Which phase it is in follows
from the operations that have succeeded, as long as none was refused because a text cannot be read.
-/

namespace TagText

namespace Operation

/-- Whether an operation opens a session. -/
def isOpening : Operation → Bool
  | start _ => true
  | _ => false

/-- Whether an operation ends a session. -/
def isEnding : Operation → Bool
  | commit | cancel => true
  | _ => false

/-- Whether an operation takes a session to another phase. -/
def isTurning (op : Operation) : Bool := op.isOpening || op.isEnding

theorem isTurning_of_isLooking (op : Operation) (hop : op.isLooking = true) :
    op.isTurning = false := by
  cases op with
  | getText | getTrailing | getDocument | getReferences | diagnose | suggest => rfl
  | _ => cases hop

end Operation

theorem Draft.isTurning_of_edit? {d : Draft} {op : Operation} {result : Edited}
    (hedit : d.edit? op = some result) : op.isTurning = false := by
  cases op with
  | replace | insert | remove | setCalls => rfl
  | _ => cases hedit

/-- The phases that one operation can lead to. -/
inductive Phase.Moves : Phase → Phase → Prop
  | rests (phase : Phase) : Moves phase phase
  | edits (d draft : Draft) : Moves (.editing d) (.editing draft)
  | opens (draft : Draft) : Moves .closed (.editing draft)
  | commits (d : Draft) : Moves (.editing d) .committed
  | cancels (d : Draft) : Moves (.editing d) .cancelled

namespace Session

/-- The operations among others that succeed. -/
def succeeded (s : Session) : List Operation → List Operation
  | [] => []
  | op :: ops =>
    if (s.perform op).1.isOk then op :: succeeded (s.perform op).2 ops
    else succeeded (s.perform op).2 ops

/-- The turns that a session can have taken, and the phase that they have led to. -/
inductive Lived : List Operation → Phase → Prop
  | closed : Lived [] .closed
  | editing (v : Text) (d : Draft) : Lived [.start v] (.editing d)
  | committed (v : Text) : Lived [.start v, .commit] .committed
  | cancelled (v : Text) : Lived [.start v, .cancel] .cancelled

/-- What a session answers to an operation because of the operations that have succeeded before. -/
structure Guards (past : List Operation) (s : Session) (op : Operation) : Prop where
  opening : op.isOpening = true → ((s.perform op).1.isOk = true ↔ s.phase = .closed)
  unopened : (∀ earlier ∈ past, earlier.isOpening = false) → op.isOpening = false →
    s.perform op = (.error (.wrongPhase op.verb "closed".toList), s)
  committed : .commit ∈ past → s.perform op = (.error (.wrongPhase op.verb "committed".toList), s)
  cancelled : .cancel ∈ past → s.perform op = (.error (.wrongPhase op.verb "cancelled".toList), s)

variable {s s' : Session} {op : Operation} {past ops : List Operation}

/-- A session is opened at most once, and ended at most once. -/
theorem Lived.countP_le {phase : Phase} (hlived : Lived (past.filter Operation.isTurning) phase) :
    past.countP Operation.isOpening ≤ 1 ∧ past.countP Operation.isEnding ≤ 1 := by
  have hcount : ∀ kind : Operation → Bool, (∀ op, kind op = true → op.isTurning = true) →
      past.countP kind = (past.filter Operation.isTurning).countP kind := by
    intro kind hkind
    rw [List.countP_filter]
    refine List.countP_congr fun op _ => ?_
    simpa using hkind op
  rw [hcount Operation.isOpening (fun op hop => by simp [Operation.isTurning, hop]),
    hcount Operation.isEnding (fun op hop => by simp [Operation.isTurning, hop])]
  generalize past.filter Operation.isTurning = turns at hlived
  cases hlived <;> simp [List.countP_cons, Operation.isOpening, Operation.isEnding]

theorem Lived.closed_of_forall {phase : Phase}
    (hlived : Lived (past.filter Operation.isTurning) phase)
    (hnone : ∀ earlier ∈ past, earlier.isOpening = false) : phase = .closed := by
  have hstart : ∀ v, .start v ∉ past.filter Operation.isTurning := by
    intro v hmem
    cases hnone _ (List.mem_filter.mp hmem).1
  generalize past.filter Operation.isTurning = turns at hlived hstart
  cases hlived with
  | closed => rfl
  | editing v | committed v | cancelled v => exact absurd List.mem_cons_self (hstart v)

/-- A session that has been ended is in the phase that it was ended with. -/
theorem Lived.ended_of_mem {phase : Phase} (hlived : Lived (past.filter Operation.isTurning) phase)
    (hmem : op ∈ past) (hop : op.isEnding = true) :
    op = .commit ∧ phase = .committed ∨ op = .cancel ∧ phase = .cancelled := by
  have hturn : op ∈ past.filter Operation.isTurning :=
    List.mem_filter.mpr ⟨hmem, by simp [Operation.isTurning, hop]⟩
  generalize past.filter Operation.isTurning = turns at hlived hturn
  cases op with
  | commit => cases hlived <;> simp at hturn ⊢
  | cancel => cases hlived <;> simp at hturn ⊢
  | _ => cases hop

/-- A session that is not open refuses every operation but the first opening. -/
theorem perform_eq_refuse (hediting : ∀ d, s.phase ≠ .editing d)
    (hopening : s.phase = .closed → op.isOpening = false) : s.perform op = s.refuse op := by
  unfold perform
  split
  · rename_i hclosed
    cases hopening hclosed
  · rename_i d hphase
    exact absurd hphase (hediting d)
  · rfl

/-- Only a closed session is opened, and it is unless the value cannot be read. -/
theorem isOk_start_iff {v : Text} (hread : ∀ e, (s.perform (.start v)).1 ≠ .error (.conversion e)) :
    (s.perform (.start v)).1.isOk = true ↔ s.phase = .closed := by
  constructor
  · intro hok
    have heffect := effect_perform hok
    generalize (s.perform (.start v)).2 = next at heffect
    cases heffect with
    | opened hclosed => exact hclosed
    | edited _ hedit => cases hedit
    | looked _ hop => cases hop
  · intro hclosed
    rw [perform_closed hclosed, start] at hread ⊢
    cases hvalue : Reading.ofValue s.catalog v with
    | error e => exact absurd (by rw [hvalue]) (hread e)
    | ok reading =>
      simp only [hvalue, retype] at hread ⊢
      split at hread
      · rfl
      · rename_i e _
        exact absurd rfl (hread e)

theorem Lived.guards (hlived : Lived (past.filter Operation.isTurning) s.phase)
    (hread : ∀ e, (s.perform op).1 ≠ .error (.conversion e)) : Guards past s op where
  opening hop := by
    cases op with
    | start v => exact isOk_start_iff hread
    | _ => cases hop
  unopened hnone hop := by
    have hphase := hlived.closed_of_forall hnone
    rw [perform_eq_refuse (by simp [hphase]) (fun _ => hop), refuse, hphase]
    rfl
  committed hmem := by
    rcases hlived.ended_of_mem hmem rfl with ⟨-, hphase⟩ | ⟨hop, -⟩
    · rw [perform_eq_refuse (by simp [hphase]) (by simp [hphase]), refuse, hphase]
      rfl
    · cases hop
  cancelled hmem := by
    rcases hlived.ended_of_mem hmem rfl with ⟨hop, -⟩ | ⟨-, hphase⟩
    · cases hop
    · rw [perform_eq_refuse (by simp [hphase]) (by simp [hphase]), refuse, hphase]
      rfl

/-- An operation that succeeds is a turn that its phase allows, or leaves the phase as it is but for
    the draft. -/
theorem Effect.lived (hlived : Lived (past.filter Operation.isTurning) s.phase)
    (heffect : s.Effect op s') :
    Lived ((past ++ [op]).filter Operation.isTurning) s'.phase ∧ s.phase.Moves s'.phase := by
  rw [List.filter_append]
  generalize past.filter Operation.isTurning = turns at hlived
  have hstays : op.isTurning = false →
      turns ++ [op].filter Operation.isTurning = turns := by
    intro hop
    rw [List.filter_cons_of_neg (by simp [hop]), List.filter_nil, List.append_nil]
  cases heffect with
  | opened hclosed =>
    rw [hclosed] at hlived ⊢
    cases hlived
    exact ⟨.editing _ _, .opens _⟩
  | typed hediting =>
    rw [hediting] at hlived ⊢
    cases hlived
    exact ⟨.editing _ _, .edits _ _⟩
  | edited hediting hedit =>
    rw [hstays (Draft.isTurning_of_edit? hedit)]
    rw [hediting] at hlived ⊢
    cases hlived
    exact ⟨.editing _ _, .edits _ _⟩
  | looked _ hop =>
    rw [hstays (op.isTurning_of_isLooking hop)]
    exact ⟨hlived, .rests _⟩
  | committed hediting =>
    rw [hediting] at hlived ⊢
    cases hlived
    exact ⟨.committed _, .commits _⟩
  | cancelled hediting =>
    rw [hediting] at hlived ⊢
    cases hlived
    exact ⟨.cancelled _, .cancels _⟩

/-- A run keeps up what a session has lived through, and each operation moves it on. The induction
    is on the operations that are to come, for any that have succeeded before. -/
theorem Lived.after (hlived : Lived (past.filter Operation.isTurning) s.phase)
    (hread : ∀ outcome ∈ s.run ops, ∀ e, outcome.1 ≠ .error (.conversion e)) :
    Lived ((past ++ s.succeeded ops).filter Operation.isTurning) (s.after ops).phase ∧
      List.IsChain Phase.Moves (s.phase :: (s.run ops).map fun outcome => outcome.2.phase) := by
  induction ops generalizing s past with
  | nil =>
    rw [succeeded, List.append_nil]
    exact ⟨hlived, List.isChain_singleton _⟩
  | cons op ops ih =>
    obtain ⟨hfirst, hrest⟩ := List.forall_mem_cons.mp hread
    rw [succeeded, run, List.map_cons, List.isChain_cons_cons]
    rcases effect_or_refused hfirst with ⟨hok, heffect⟩ | ⟨hrefused, hself⟩
    · obtain ⟨hnext, hmoves⟩ := heffect.lived hlived
      obtain ⟨hlast, hchain⟩ := ih hnext hrest
      rw [if_pos hok, List.append_cons]
      exact ⟨hlast, hmoves, hchain⟩
    · have hnext : Lived (past.filter Operation.isTurning) (s.perform op).2.phase := by rwa [hself]
      obtain ⟨hlast, hchain⟩ := ih hnext hrest
      rw [if_neg (by simp [hrefused])]
      refine ⟨hlast, ?_, hchain⟩
      rw [hself]
      exact .rests s.phase

theorem run_append (s : Session) (before ops : List Operation) :
    s.run (before ++ ops) = s.run before ++ (s.after before).run ops := by
  induction before generalizing s with
  | nil => rfl
  | cons op before ih =>
    rw [List.cons_append, run, run, ih]
    rfl

/-- Of the operations of a run on a new session in which every text could be read and written, at
    most one opens the session and at most one ends it, and its phase only moves on from closed to
    open and from open to committed or cancelled. On the way, it is opened exactly while it is
    closed; every operation before that, and every one after it has been committed or cancelled, is
    refused with its kind and the phase, whatever its arguments, and changes nothing. -/
theorem run_lifeCycle (hclosed : s.phase = .closed)
    (hread : ∀ outcome ∈ s.run ops, ∀ e, outcome.1 ≠ .error (.conversion e)) :
    (s.succeeded ops).countP Operation.isOpening ≤ 1 ∧
      (s.succeeded ops).countP Operation.isEnding ≤ 1 ∧
      List.IsChain Phase.Moves (s.phase :: (s.run ops).map fun outcome => outcome.2.phase) ∧
      Lived ((s.succeeded ops).filter Operation.isTurning) (s.after ops).phase ∧
      ∀ before op rest, ops = before ++ op :: rest →
        Guards (s.succeeded before) (s.after before) op := by
  have hstart : Lived (([] : List Operation).filter Operation.isTurning) s.phase := by
    rw [hclosed]
    exact .closed
  obtain ⟨hlived, hmoves⟩ := hstart.after hread
  refine ⟨hlived.countP_le.1, hlived.countP_le.2, hmoves, hlived, ?_⟩
  rintro before op rest rfl
  rw [run_append, run, List.forall_mem_append, List.forall_mem_cons] at hread
  obtain ⟨hbefore, hop, -⟩ := hread
  exact (hstart.after hbefore).1.guards hop

/-- An edit before the opening, and an edit and an opening after the end: all are refused. -/
theorem run_lifeCycle_of_refusals :
    let s : Session := { catalog := {}, context := .named "post".toList }
    let before : List Operation := [.remove 0, .start "Hi".toList, .getText, .cancel]
    let ops : List Operation := before ++ .setText "Ho".toList :: [.start []]
    s.succeeded ops = [.start "Hi".toList, .getText, .cancel] ∧
      (s.after ops).phase = .cancelled ∧
      (s.after before).perform (.setText "Ho".toList) =
        (.error (.wrongPhase "edit".toList "cancelled".toList), s.after before) := by
  intro s before ops
  have hsucceeded : s.succeeded ops = [.start "Hi".toList, .getText, .cancel] := by decide +kernel
  have hread : ∀ outcome ∈ s.run ops, refusesText outcome.1 = false := by decide +kernel
  obtain ⟨-, -, -, hlived, hguards⟩ := run_lifeCycle rfl
    fun outcome hmem => refusesText_eq_false_iff.mp (hread outcome hmem)
  rw [hsucceeded] at hlived
  have hcancelled : .cancel ∈ s.succeeded before := by decide +kernel
  refine ⟨hsucceeded, ?_, (hguards before _ _ rfl).cancelled hcancelled⟩
  generalize (s.after ops).phase = phase at hlived
  cases hlived
  rfl

end Session

end TagText
