import TagText.Proofs.Catalog.Lookup
import TagText.Proofs.Validation.Mismatches
import TagText.Validation.Typing

/-!
The names in a reference. They are all known exactly when no unknown name is reported. A reference
of which the type is known has no other names, and a modifier that takes this type can follow it: no
unknown name and no mismatch is reported for the longer chain.
-/

namespace TagText

/-- Whether a problem is a name that is not known. -/
def ProblemKind.isUnknown (kind : ProblemKind) : Bool :=
  kind = unknownGroup || kind = unknownField || kind = unknownModifier

/-- The modifiers of a chain are all known. -/
def Catalog.Knows (c : Catalog) (calls : List Call) : Prop :=
  ∀ call ∈ calls, ∃ m, c.modifier? call.key = some m

/-- The names in a reference are all known: its group, its field or, on an empty field, the method
    of the group that its first call names, and the modifiers of its other calls. -/
inductive Reference.Named (c : Catalog) (r : Reference) : Prop
  | field {g : Group} {f : Field} : c.group? r.group = some g → r.field ≠ [] →
    g.field? r.field = some f → c.Knows r.calls → Named c r
  | method {g : Group} {m : Modifier} {call : Call} {calls : List Call} :
    c.group? r.group = some g → r.field = [] → r.calls = call :: calls →
    g.method? call.key = some m → c.Knows calls → Named c r

/-- The reference with one more call behind its chain. -/
def Reference.followedBy (r : Reference) (call : Call) : Reference :=
  { r with calls := r.calls ++ [call] }

/-- A modifier can follow a reference: a method of the group, where the reference is to the group
    itself, or a modifier that takes values of the type of the reference. -/
inductive Reference.Precedes (c : Catalog) (r : Reference) (m : Modifier) : Prop
  | method {g : Group} : c.group? r.group = some g → r.field = [] → r.calls = [] →
    m ∈ g.methods → Precedes c r m
  | modifier {type : ValueType} : r.runningType c = some type → m ∈ c.modifiers →
    type ∈ m.accepted → Precedes c r m

theorem Problem.isUnknown_of_mem_problemsWith {m : Modifier} {params : List Param}
    {values : List Arg} {problem : Problem} (hproblem : problem ∈ m.problemsWith params values) :
    problem.kind.isUnknown = false := by
  rcases kind_of_mem_problemsWith hproblem with hkind | hkind <;> (rw [hkind]; rfl)

namespace Catalog

variable {c : Catalog} {type : Option ValueType} {calls : List Call} {call : Call}
  {found : ValueType}

theorem knows_cons_iff {m : Modifier} (hm : c.modifier? call.key = some m) :
    c.Knows (call :: calls) ↔ c.Knows calls := by
  rw [Knows, List.forall_mem_cons]
  exact and_iff_right ⟨m, hm⟩

theorem Knows.append_call (hcalls : c.Knows calls) {m : Modifier}
    (hm : c.modifier? call.key = some m) : c.Knows (calls ++ [call]) :=
  List.forall_mem_append.mpr ⟨hcalls, List.forall_mem_singleton.mpr ⟨m, hm⟩⟩

/-- A chain reports no unknown name exactly when its modifiers are known. -/
theorem forall_chainProblems_iff {start : Nat} :
    (∀ entry ∈ c.chainProblems start type calls, entry.1.kind.isUnknown = false) ↔
      c.Knows calls := by
  induction calls generalizing start type with
  | nil => exact iff_of_true nofun nofun
  | cons call calls ih =>
    unfold chainProblems
    cases hm : c.modifier? call.key with
    | none =>
      refine iff_of_false (fun hnone => ?_) fun hknows => ?_
      · cases hnone _ List.mem_cons_self
      · obtain ⟨m, hknown⟩ := hknows call List.mem_cons_self
        rw [hm] at hknown
        cases hknown
    | some m =>
      rw [knows_cons_iff hm, List.forall_mem_append, ih]
      refine and_iff_right fun entry hentry => ?_
      obtain ⟨problem, hproblem, rfl⟩ := List.mem_map.mp hentry
      rcases List.mem_append.mp hproblem with htype | harguments
      · obtain ⟨found, -, -, rfl⟩ := (mismatch?_eq_some_iff hm).mp (Option.mem_toList.mp htype)
        rfl
      · exact Problem.isUnknown_of_mem_problemsWith harguments

/-- The type behind a chain is known exactly when its modifiers are and the type that the checks go
    by is. -/
theorem threadType_eq_some_iff : c.threadType type calls = some found ↔
    c.Knows calls ∧ c.checkedType type calls = some found := by
  induction calls generalizing type with
  | nil => exact (and_iff_right nofun).symm
  | cons call calls ih =>
    unfold threadType
    cases hm : c.modifier? call.key with
    | none =>
      refine iff_of_false nofun ?_
      rintro ⟨hknows, -⟩
      obtain ⟨m, hknown⟩ := hknows call List.mem_cons_self
      rw [hm] at hknown
      cases hknown
    | some m =>
      have hbehind : c.typeBehind type call = m.resultType type := by simp [typeBehind, hm]
      rw [knows_cons_iff hm, checkedType, List.foldl_cons, hbehind, ← checkedType]
      exact ih

/-- No mismatch is reported at a call behind a chain whose type its modifier takes. -/
theorem ne_of_mismatch_mem {start : Nat} {m : Modifier}
    (hcalls : c.checkedType type calls = some found) (hm : c.modifier? call.key = some m)
    (haccepts : found ∈ m.accepted) {entry : Problem × Nat × Int}
    (hentry : entry ∈ c.chainProblems start type (calls ++ [call]))
    (hkind : entry.1.kind = .typeMismatch) : entry.2.1 ≠ start + calls.length := by
  obtain ⟨i, other, behind, ⟨hget, hbehind, n, hn, hrefuses⟩, rfl⟩ :=
    mismatch_mem_chainProblems_iff.mp ⟨hentry, hkind⟩
  intro hlast
  obtain rfl : i = calls.length := Nat.add_left_cancel hlast
  rw [List.getElem?_concat_length] at hget
  obtain rfl := Option.some.inj hget
  rw [List.take_left, hcalls] at hbehind
  obtain rfl := Option.some.inj hbehind
  obtain rfl := Option.some.inj (hm.symm.trans hn)
  simp [Modifier.accepts, haccepts] at hrefuses

end Catalog

namespace Reference

variable {c : Catalog} {context : Option Context} {r : Reference}

theorem isUnknown_of_mem_applicability? {g : Group} {problem : Problem}
    (hproblem : problem ∈ (applicability? g context).toList) : problem.kind.isUnknown = false := by
  have hproblem := Option.mem_toList.mp hproblem
  unfold applicability? at hproblem
  split at hproblem
  · cases hproblem
  · split at hproblem <;> cases hproblem
    rfl

theorem problems_of_field {g : Group} {f : Field} (hg : c.group? r.group = some g)
    (hfield : r.field ≠ []) (hf : g.field? r.field = some f) :
    r.problems c context =
      ((applicability? g context).toList, c.chainProblems 0 (some f.type) r.calls) := by
  simp [problems, hg, hfield, hf]

theorem problems_of_method {g : Group} {m : Modifier} {call : Call} {calls : List Call}
    (hg : c.group? r.group = some g) (hfield : r.field = []) (hcalls : r.calls = call :: calls)
    (hm : g.method? call.key = some m) :
    r.problems c context = ((applicability? g context).toList, c.methodProblems m call calls) := by
  simp [problems, hg, hfield, hcalls, hm]

/-- No unknown name is among the problems of a reference exactly when its names are known. -/
theorem named_iff_problems :
    (∀ problem ∈ (r.problems c context).1, problem.kind.isUnknown = false) ∧
      (∀ entry ∈ (r.problems c context).2, entry.1.kind.isUnknown = false) ↔ r.Named c := by
  constructor
  · rintro ⟨hown, hchain⟩
    cases hg : c.group? r.group with
    | none => cases hown (.unknownGroup r.group) (by simp [problems, hg])
    | some g =>
      by_cases hfield : r.field = []
      · cases hcalls : r.calls with
        | nil => cases hown (.noField r.group) (by simp [problems, hg, hfield, hcalls])
        | cons call calls =>
          cases hm : g.method? call.key with
          | none => cases hown (.noField r.group) (by simp [problems, hg, hfield, hcalls, hm])
          | some m =>
            rw [problems_of_method hg hfield hcalls hm] at hchain
            have hrest := (List.forall_mem_append.mp hchain).2
            exact .method hg hfield hcalls hm (Catalog.forall_chainProblems_iff.mp hrest)
      · cases hf : g.field? r.field with
        | none => cases hown (.unknownField r.field r.group) (by simp [problems, hg, hfield, hf])
        | some f =>
          rw [problems_of_field hg hfield hf] at hchain
          exact .field hg hfield hf (Catalog.forall_chainProblems_iff.mp hchain)
  · rintro (⟨hg, hfield, hf, hknows⟩ | ⟨hg, hfield, hcalls, hm, hknows⟩)
    · rw [problems_of_field hg hfield hf]
      exact ⟨fun _ => isUnknown_of_mem_applicability?, Catalog.forall_chainProblems_iff.mpr hknows⟩
    · rw [problems_of_method hg hfield hcalls hm]
      refine ⟨fun _ => isUnknown_of_mem_applicability?, List.forall_mem_append.mpr ⟨?_, ?_⟩⟩
      · intro entry hentry
        obtain ⟨problem, hproblem, rfl⟩ := List.mem_map.mp hentry
        exact Problem.isUnknown_of_mem_problemsWith hproblem
      · exact Catalog.forall_chainProblems_iff.mpr hknows

/-- No unknown name is reported for a reference exactly when its names are known. -/
theorem named_iff_diagnostics {n : Nat} :
    (∀ diagnostic ∈ r.diagnostics c context n, diagnostic.problem.kind.isUnknown = false) ↔
      r.Named c := by
  rw [← @named_iff_problems c context r, diagnostics, List.forall_mem_append,
    List.forall_mem_map, List.forall_mem_map]

namespace Precedes

variable {m : Modifier} {call : Call}

theorem of_mem_methodsOf (hfield : r.field = []) (hcalls : r.calls = [])
    (hm : m ∈ c.methodsOf r.group) : r.Precedes c m := by
  unfold Catalog.methodsOf at hm
  cases hg : c.group? r.group with
  | none => simp [hg] at hm
  | some g => exact .method hg hfield hcalls (by simpa [hg] using hm)

theorem of_mem_modifiersFor (hm : m ∈ c.modifiersFor (r.runningType c)) : r.Precedes c m := by
  unfold Catalog.modifiersFor at hm
  cases htype : r.runningType c with
  | none => simp [htype] at hm
  | some type =>
    rw [htype] at hm
    obtain ⟨hmem, haccepts⟩ := List.mem_filter.mp hm
    exact .modifier htype hmem (by simpa [Modifier.accepts] using haccepts)

/-- What a reference with a known type starts its chain with: a type, and calls that take it to the
    type of the reference. -/
theorem exists_of_runningType {type : ValueType} (htype : r.runningType c = some type) :
    ∃ g, c.group? r.group = some g ∧
      ((r.field ≠ [] ∧ ∃ f, g.field? r.field = some f ∧
          c.threadType (some f.type) r.calls = some type) ∨
        (r.field = [] ∧ ∃ call calls n, r.calls = call :: calls ∧ g.method? call.key = some n ∧
          c.threadType n.output calls = some type)) := by
  unfold runningType at htype
  cases hg : c.group? r.group with
  | none => simp [hg] at htype
  | some g =>
    refine ⟨g, rfl, ?_⟩
    by_cases hfield : r.field = []
    · cases hcalls : r.calls with
      | nil => simp [hg, hfield, hcalls] at htype
      | cons call calls =>
        cases hn : g.method? call.key with
        | none => simp [hg, hfield, hcalls, hn] at htype
        | some n =>
          simp only [hg, hfield, hcalls, hn, List.isEmpty_nil, Bool.not_true] at htype
          exact Or.inr ⟨hfield, call, calls, n, rfl, hn, htype⟩
    · cases hf : g.field? r.field with
      | none => simp [hg, hfield, hf] at htype
      | some f =>
        exact Or.inl ⟨hfield, f, rfl, by simpa [hg, hfield, hf] using htype⟩

/-- A modifier that can follow a reference is known behind it, like all names in front. -/
theorem named (hprecedes : r.Precedes c m) (hkey : call.key = m.key) :
    (r.followedBy call).Named c := by
  cases hprecedes with
  | @method g hg hfield hcalls hm =>
    have hfirst : (r.followedBy call).calls = [call] := by simp [followedBy, hcalls]
    exact .method hg hfield hfirst (Group.method?_eq_some_iff.mpr ⟨hm, hkey.symm⟩) nofun
  | modifier htype hmem _ =>
    have hm := Catalog.modifier?_eq_some_iff.mpr ⟨hmem, hkey.symm⟩
    obtain ⟨g, hg, ⟨hfield, f, hf, hthread⟩ | ⟨hfield, first, calls, n, hcalls, hn, hthread⟩⟩ :=
      exists_of_runningType htype
    · obtain ⟨hknows, -⟩ := Catalog.threadType_eq_some_iff.mp hthread
      exact .field hg hfield hf (hknows.append_call hm)
    · obtain ⟨hknows, -⟩ := Catalog.threadType_eq_some_iff.mp hthread
      have hfirst : (r.followedBy call).calls = first :: (calls ++ [call]) := by
        simp [followedBy, hcalls]
      exact .method hg hfield hfirst hn (hknows.append_call hm)

/-- A modifier that can follow a reference takes the type in front of it. -/
theorem ne_of_mismatch (hprecedes : r.Precedes c m) (hkey : call.key = m.key)
    {entry : Problem × Nat × Int}
    (hentry : entry ∈ ((r.followedBy call).problems c context).2)
    (hkind : entry.1.kind = .typeMismatch) : entry.2.1 ≠ r.calls.length := by
  have harguments : ∀ {n : Modifier} {first : Call},
      entry ∉ (n.argumentProblems first).map fun problem => (problem, 0, first.position) := by
    intro n first hmem
    obtain ⟨problem, hproblem, rfl⟩ := List.mem_map.mp hmem
    exact Problem.kind_ne_of_mem_problemsWith hproblem hkind
  cases hprecedes with
  | @method g hg hfield hcalls hm =>
    have hmethod := Group.method?_eq_some_iff.mpr ⟨hm, hkey.symm⟩
    have hfirst : (r.followedBy call).calls = [call] := by simp [followedBy, hcalls]
    rw [problems_of_method (r := r.followedBy call) hg hfield hfirst hmethod] at hentry
    rcases List.mem_append.mp hentry with hown | hrest
    · exact absurd hown harguments
    · cases hrest
  | modifier htype hmem haccepts =>
    have hm := Catalog.modifier?_eq_some_iff.mpr ⟨hmem, hkey.symm⟩
    obtain ⟨g, hg, ⟨hfield, f, hf, hthread⟩ | ⟨hfield, first, calls, n, hcalls, hn, hthread⟩⟩ :=
      exists_of_runningType htype
    · obtain ⟨-, hbehind⟩ := Catalog.threadType_eq_some_iff.mp hthread
      rw [problems_of_field (r := r.followedBy call) hg hfield hf] at hentry
      have hne := Catalog.ne_of_mismatch_mem hbehind hm haccepts hentry hkind
      rwa [Nat.zero_add] at hne
    · obtain ⟨-, hbehind⟩ := Catalog.threadType_eq_some_iff.mp hthread
      have hfirst : (r.followedBy call).calls = first :: (calls ++ [call]) := by
        simp [followedBy, hcalls]
      rw [problems_of_method (r := r.followedBy call) hg hfield hfirst hn] at hentry
      rcases List.mem_append.mp hentry with hown | hrest
      · exact absurd hown harguments
      · have hne := Catalog.ne_of_mismatch_mem hbehind hm haccepts hrest hkind
        rwa [hcalls, List.length_cons, Nat.add_comm]

/-- Behind a reference that it can follow, a modifier is reported neither for a name that is not
    known nor for the type in front of it. -/
theorem diagnostics (hprecedes : r.Precedes c m) (hkey : call.key = m.key) {n : Nat}
    {diagnostic : Diagnostic}
    (hdiagnostic : diagnostic ∈ (r.followedBy call).diagnostics c context n) :
    diagnostic.problem.kind.isUnknown = false ∧
      (diagnostic.problem.kind = .typeMismatch → diagnostic.call ≠ some r.calls.length) := by
  refine ⟨named_iff_diagnostics.mpr (hprecedes.named hkey) diagnostic hdiagnostic, ?_⟩
  intro hkind hcall
  obtain ⟨entry, ⟨hentry, hmismatch⟩, rfl⟩ :=
    mismatch_mem_diagnostics_iff_chain.mp ⟨hdiagnostic, hkind⟩
  exact hprecedes.ne_of_mismatch hkey hentry hmismatch (Option.some.inj hcall)

end Precedes

end Reference

end TagText
