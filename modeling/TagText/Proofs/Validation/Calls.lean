import TagText.Proofs.Reading.Places
import TagText.Proofs.Validation.Names
import TagText.Proofs.Validation.Places

/-!
What is reported for one call of a reference. A chain is walked call by call, so that the problems
with the index of a call are those of that call alone: the one with the type in front of it, if
there is one, and then those with its arguments under the signature that the call is read under. Of
a reference with known names, the type in front of a call is the type of the reference cut off
there.
-/

namespace TagText

/-- Whether a diagnostic is of a kind and concerns a call of a reference, both given by their
    indices. -/
def Diagnostic.concerns (n i : Nat) (kind : ProblemKind) (diagnostic : Diagnostic) : Bool :=
  diagnostic.reference == n && diagnostic.call == some i && diagnostic.problem.kind == kind

theorem Modifier.kind_of_mem_mismatch? {m : Modifier} {type : Option ValueType} {problem : Problem}
    (hproblem : problem ∈ (m.mismatch? type).toList) : problem.kind = .typeMismatch := by
  rw [Option.mem_toList] at hproblem
  cases type with
  | none => cases hproblem
  | some found =>
    rw [mismatch?] at hproblem
    split at hproblem <;> cases hproblem
    rfl

namespace Catalog

variable {c : Catalog} {type : Option ValueType} {calls : List Call} {call : Call}

/-- The problems of a call, given the type in front of it if that is known. -/
def callProblems (c : Catalog) (type : Option ValueType) (call : Call) : List Problem :=
  match c.modifier? call.key with
  | none => [.unknownModifier call.key]
  | some m => (m.mismatch? type).toList ++ m.argumentProblems call

theorem chainProblems_cons (start : Nat) (type : Option ValueType) (call : Call)
    (calls : List Call) :
    c.chainProblems start type (call :: calls) =
      (c.callProblems type call).map (fun problem => (problem, start, call.position)) ++
        c.chainProblems (start + 1) (c.typeBehind type call) calls := by
  unfold callProblems typeBehind
  rw [chainProblems]
  cases c.modifier? call.key <;> rfl

/-- A chain has no problems with an index in front of it. -/
theorem filter_chainProblems_of_lt {start i : Nat} (hlt : i < start) :
    (c.chainProblems start type calls).filter (fun entry => entry.2.1 == i) = [] := by
  refine List.filter_eq_nil_iff.mpr fun entry hentry => ?_
  obtain ⟨j, other, -, hplace⟩ := exists_of_mem_chainProblems hentry
  simp only [hplace, beq_iff_eq]
  omega

/-- The problems with the index of a call are those of the call, behind the type that the calls in
    front of it give. -/
theorem filter_chainProblems {start i : Nat} (hcall : calls[i]? = some call) :
    (c.chainProblems start type calls).filter (fun entry => entry.2.1 == start + i) =
      (c.callProblems (c.checkedType type (calls.take i)) call).map
        fun problem => (problem, start + i, call.position) := by
  induction calls generalizing start type i with
  | nil => cases hcall
  | cons first calls ih =>
    rw [chainProblems_cons, List.filter_append, List.filter_map]
    cases i with
    | zero =>
      obtain rfl : first = call := Option.some.inj hcall
      rw [Nat.add_zero, filter_chainProblems_of_lt (Nat.lt_succ_self start), List.append_nil]
      simp [Function.comp_def, checkedType]
    | succ i =>
      have hrest := @ih (c.typeBehind type first) (start + 1) i hcall
      have hindex : start + 1 + i = start + (i + 1) := by omega
      have hown : (start == start + (i + 1)) = false := by simp
      rw [hindex] at hrest
      simpa [Function.comp_def, hown, checkedType] using hrest

/-- Where all modifiers are known, the checks go by the type behind the chain. -/
theorem Knows.checkedType_eq (hknows : c.Knows calls) (type : Option ValueType) :
    c.checkedType type calls = c.threadType type calls := by
  refine Option.ext fun found => ?_
  rw [threadType_eq_some_iff, and_iff_right hknows]

theorem Knows.take (hknows : c.Knows calls) (i : Nat) : c.Knows (calls.take i) :=
  fun call hcall => hknows call (List.mem_of_mem_take hcall)

theorem callProblems_of_modifier? {m : Modifier} (hm : c.modifier? call.key = some m)
    (type : Option ValueType) :
    c.callProblems type call = (m.mismatch? type).toList ++ m.argumentProblems call := by
  rw [callProblems, hm]

theorem filter_chainProblems_of_modifier? {i : Nat} {m : Modifier} (hcall : calls[i]? = some call)
    (hm : c.modifier? call.key = some m) :
    (c.chainProblems 0 type calls).filter (fun entry => entry.2.1 == i) =
      ((m.mismatch? (c.checkedType type (calls.take i))).toList ++ m.argumentProblems call).map
        fun problem => (problem, i, call.position) := by
  have hfilter := @filter_chainProblems c type calls call 0 i hcall
  rwa [Nat.zero_add, callProblems_of_modifier? hm] at hfilter

theorem signature?_of_field {group field key : Text} (hfield : field ≠ []) (index : Nat) :
    c.signature? group field index key = c.modifier? key := by
  simp [signature?, hfield]

theorem signature?_of_pos {group field key : Text} {index : Nat} (hindex : index ≠ 0) :
    c.signature? group field index key = c.modifier? key := by
  simp [signature?, hindex]

end Catalog

namespace Reference

variable {c : Catalog} {context : Option Context} {r : Reference} {i : Nat} {call : Call}
  {m : Modifier}

/-- Without a type to start with, all calls are read under the modifiers of their keys. -/
theorem Unseeded.signature?_eq (hunseeded : r.Unseeded c) (hcall : r.calls[i]? = some call) :
    c.signature? r.group r.field i call.key = c.modifier? call.key := by
  cases hunseeded with
  | group hnone => simp [Catalog.signature?, Catalog.method?, hnone]
  | field hfield => exact Catalog.signature?_of_field hfield i
  | method hfield hnone =>
    cases i with
    | zero =>
      have hmethod := hnone call (by rwa [List.head?_eq_getElem?])
      simp [Catalog.signature?, hmethod]
    | succ i => exact Catalog.signature?_of_pos (Nat.succ_ne_zero i)

/-- A reference that starts its chain without a type has an unknown name. -/
theorem Named.not_unseeded (hnamed : r.Named c) : ¬ r.Unseeded c := by
  intro hunseeded
  cases hnamed with
  | field hg hfield hf =>
    cases hunseeded with
    | group hnone => simp [hg] at hnone
    | field _ hnone => simp [Catalog.field?, hg, hf] at hnone
    | method hempty => exact hfield hempty
  | method hg hfield hcalls hm =>
    cases hunseeded with
    | group hnone => simp [hg] at hnone
    | field hne => exact hne hfield
    | method _ hnone => simp [Catalog.method?, hcalls, hg, hm] at hnone

/-- What gives the chain of a reference a type to start with: its field, a method of its group, or
    nothing. -/
theorem seed_cases (c : Catalog) (r : Reference) :
    r.Unseeded c ∨
      (∃ g f, c.group? r.group = some g ∧ r.field ≠ [] ∧ g.field? r.field = some f) ∨
      ∃ g n first rest, c.group? r.group = some g ∧ r.field = [] ∧ r.calls = first :: rest ∧
        g.method? first.key = some n := by
  cases hg : c.group? r.group with
  | none => exact Or.inl (.group hg)
  | some g =>
    by_cases hfield : r.field = []
    · cases hcalls : r.calls with
      | nil => exact Or.inl (.method hfield (by simp [hcalls]))
      | cons first rest =>
        cases hn : g.method? first.key with
        | none => exact Or.inl (.method hfield (by simp [hcalls, Catalog.method?, hg, hn]))
        | some n => exact Or.inr (Or.inr ⟨g, n, first, rest, rfl, hfield, rfl, hn⟩)
    · cases hf : g.field? r.field with
      | none => exact Or.inl (.field hfield (by simp [Catalog.field?, hg, hf]))
      | some f => exact Or.inr (Or.inl ⟨g, f, rfl, hfield, hf⟩)

theorem upTo_natCast (r : Reference) (i : Nat) :
    r.upTo i = { r with calls := r.calls.take i } := by
  simp [upTo]

/-- A call of a reference is checked under a signature and behind a type: the problems with its
    index are the one with that type and those with its arguments. Of a reference with known names,
    it is the type of the reference cut off in front of the call. -/
structure Checks (c : Catalog) (context : Option Context) (r : Reference) (i : Nat) (call : Call)
    (m : Modifier) (type : Option ValueType) : Prop where
  problems : (r.problems c context).2.filter (fun entry => entry.2.1 == i) =
    ((m.mismatch? type).toList ++ m.argumentProblems call).map
      fun problem => (problem, i, call.position)
  running : r.Named c → type = (r.upTo i).runningType c

theorem Unseeded.checks (hunseeded : r.Unseeded c) (hcall : r.calls[i]? = some call)
    (hm : c.signature? r.group r.field i call.key = some m) :
    r.Checks c context i call m (c.checkedType none (r.calls.take i)) := by
  rw [hunseeded.signature?_eq hcall] at hm
  refine ⟨?_, fun hnamed => absurd hunseeded hnamed.not_unseeded⟩
  rw [hunseeded.problems_eq]
  exact Catalog.filter_chainProblems_of_modifier? hcall hm

theorem checks_of_field {g : Group} {f : Field} (hg : c.group? r.group = some g)
    (hfield : r.field ≠ []) (hf : g.field? r.field = some f) (hcall : r.calls[i]? = some call)
    (hm : c.signature? r.group r.field i call.key = some m) :
    r.Checks c context i call m (c.checkedType (some f.type) (r.calls.take i)) := by
  rw [Catalog.signature?_of_field hfield] at hm
  refine ⟨?_, fun hnamed => ?_⟩
  · rw [problems_of_field hg hfield hf]
    exact Catalog.filter_chainProblems_of_modifier? hcall hm
  · cases hnamed with
    | method _ hempty => exact absurd hempty hfield
    | field _ _ _ hknows =>
      rw [(hknows.take i).checkedType_eq, upTo_natCast]
      simp [runningType, hg, hfield, hf]

section

variable {g : Group} {n : Modifier} {first : Call} {rest : List Call}
  (hg : c.group? r.group = some g) (hfield : r.field = []) (hcalls : r.calls = first :: rest)
  (hn : g.method? first.key = some n)

include hg hfield hcalls hn

/-- A method stands behind its group, which has no type. -/
theorem checks_of_method : r.Checks c context 0 first n none := by
  refine ⟨?_, fun _ => ?_⟩
  · rw [problems_of_method hg hfield hcalls hn, Catalog.methodProblems, List.filter_append,
      Catalog.filter_chainProblems_of_lt Nat.zero_lt_one, List.append_nil, List.filter_map]
    simp [Function.comp_def, Modifier.mismatch?]
  · rw [upTo_natCast]
    simp [runningType, hg, hfield]

/-- The chain behind a method starts with the type that the method gives. -/
theorem checks_behind_method (hcall : rest[i]? = some call)
    (hm : c.modifier? call.key = some m) :
    r.Checks c context (i + 1) call m (c.checkedType n.output (rest.take i)) := by
  refine ⟨?_, fun hnamed => ?_⟩
  · have hfilter := @Catalog.filter_chainProblems c n.output rest call 1 i hcall
    rw [Catalog.callProblems_of_modifier? hm, Nat.add_comm 1 i] at hfilter
    rw [problems_of_method hg hfield hcalls hn, Catalog.methodProblems, List.filter_append, hfilter,
      List.filter_map]
    simp [Function.comp_def]
  · cases hnamed with
    | field _ hne => exact absurd hfield hne
    | method _ _ hsame _ hknows =>
      obtain ⟨rfl, rfl⟩ := List.cons.inj (hcalls.symm.trans hsame)
      rw [(hknows.take i).checkedType_eq, upTo_natCast]
      simp [runningType, hg, hfield, hcalls, hn]

end

/-- Every call that has a signature is checked under it. -/
theorem exists_checks (hcall : r.calls[i]? = some call)
    (hm : c.signature? r.group r.field i call.key = some m) :
    ∃ type, r.Checks c context i call m type := by
  rcases seed_cases c r with hunseeded | ⟨g, f, hg, hfield, hf⟩ |
    ⟨g, n, first, rest, hg, hfield, hcalls, hn⟩
  · exact ⟨_, hunseeded.checks hcall hm⟩
  · exact ⟨_, checks_of_field hg hfield hf hcall hm⟩
  · rw [hcalls] at hcall
    cases i with
    | zero =>
      obtain rfl : first = call := Option.some.inj hcall
      obtain rfl : n = m := by simpa [Catalog.signature?, hfield, Catalog.method?, hg, hn] using hm
      exact ⟨_, checks_of_method hg hfield hcalls hn⟩
    | succ i =>
      rw [Catalog.signature?_of_pos (Nat.succ_ne_zero i)] at hm
      exact ⟨_, checks_behind_method hg hfield hcalls hn hcall hm⟩

/-- The diagnostics of one kind for a call that is checked. -/
theorem Checks.filter_diagnostics {type : Option ValueType}
    (hchecks : r.Checks c context i call m type) (kind : ProblemKind) (n : Nat) :
    (r.diagnostics c context n).filter (Diagnostic.concerns n i kind) =
      (((m.mismatch? type).toList ++ m.argumentProblems call).filter
          fun problem => problem.kind == kind).map fun problem =>
        { problem, reference := n, call := some i, position := call.position } := by
  -- What is wrong with the reference itself names no call.
  have hown : ((r.problems c context).1.map fun problem =>
      ({ problem, reference := n, call := none, position := r.position } : Diagnostic)).filter
        (Diagnostic.concerns n i kind) = [] := by
    simp [Diagnostic.concerns]
  have hchain : ∀ entry : Problem × Nat × Int,
      Diagnostic.concerns n i kind
          { problem := entry.1, reference := n, call := some entry.2.1, position := entry.2.2 } =
        (entry.1.kind == kind && entry.2.1 == i) := by
    intro entry
    simp [Diagnostic.concerns, Bool.and_comm]
  rw [diagnostics, List.filter_append, hown, List.nil_append, List.filter_map]
  simp only [Function.comp_def, hchain]
  rw [← List.filter_filter, hchecks.problems, List.filter_map, List.map_map]
  rfl

end Reference

end TagText
