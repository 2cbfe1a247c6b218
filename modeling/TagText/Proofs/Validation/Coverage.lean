import TagText.Proofs.Catalog.Inclusion
import TagText.Proofs.Validation.Names

/-!
References of which the catalog knows the group and every modifier. Nothing that is found out about
such a reference changes in a catalog that holds more: neither the problems that are reported nor
the types along its chain.
-/

namespace TagText

/-- The group of a reference is known, and so are the modifiers of its calls, where the first call
    on an empty field may name a method of the group instead. The field need not be known. -/
inductive Reference.Covered (c : Catalog) (r : Reference) : Prop
  | modifiers {g : Group} : c.group? r.group = some g →
    (r.field = [] → ∀ call ∈ r.calls.head?, g.method? call.key = none) → c.Knows r.calls →
    Covered c r
  | method {g : Group} {m : Modifier} {call : Call} {calls : List Call} :
    c.group? r.group = some g → r.field = [] → r.calls = call :: calls →
    g.method? call.key = some m → c.Knows calls → Covered c r

namespace Catalog

variable {c wide : Catalog} {type : Option ValueType} {calls : List Call}

/-- The modifiers of a chain are known if none of them is reported. -/
theorem knows_of_chainProblems {start : Nat}
    (hknown : ∀ entry ∈ c.chainProblems start type calls, entry.1.kind ≠ .unknownModifier) :
    c.Knows calls := by
  induction calls generalizing start type with
  | nil => exact nofun
  | cons call calls ih =>
    unfold chainProblems at hknown
    cases hm : c.modifier? call.key with
    | none =>
      simp only [hm] at hknown
      exact absurd rfl (hknown _ List.mem_cons_self)
    | some m =>
      simp only [hm] at hknown
      exact (knows_cons_iff hm).mpr (ih (List.forall_mem_append.mp hknown).2)

theorem Knows.exists_head {call : Call} (hknows : c.Knows (call :: calls)) :
    ∃ m, c.modifier? call.key = some m ∧ c.Knows calls := by
  obtain ⟨⟨m, hm⟩, hrest⟩ := List.forall_mem_cons.mp hknows
  exact ⟨m, hm, hrest⟩

namespace Includes

theorem chainProblems_eq (hwide : wide.Includes c) (hknows : c.Knows calls) (start : Nat)
    (type : Option ValueType) :
    wide.chainProblems start type calls = c.chainProblems start type calls := by
  induction calls generalizing start type with
  | nil => rfl
  | cons call calls ih =>
    obtain ⟨m, hm, hrest⟩ := hknows.exists_head
    simp only [chainProblems, hm, hwide.modifier? hm, ih hrest]

theorem threadType_eq (hwide : wide.Includes c) (hknows : c.Knows calls)
    (type : Option ValueType) : wide.threadType type calls = c.threadType type calls := by
  induction calls generalizing type with
  | nil => rfl
  | cons call calls ih =>
    obtain ⟨m, hm, hrest⟩ := hknows.exists_head
    simp only [threadType, hm, hwide.modifier? hm, ih hrest]

end Includes

end Catalog

namespace Reference

variable {c wide : Catalog} {context : Option Context} {r : Reference}

/-- A reference is covered if neither its group nor a modifier of its chain is reported as
    unknown. -/
theorem covered_of_problems
    (hown : ∀ problem ∈ (r.problems c context).1, problem.kind ≠ .unknownGroup)
    (hchain : ∀ entry ∈ (r.problems c context).2, entry.1.kind ≠ .unknownModifier) :
    r.Covered c := by
  cases hg : c.group? r.group with
  | none => exact absurd rfl (hown (.unknownGroup r.group) (by simp [problems, hg]))
  | some g =>
    by_cases hfield : r.field = []
    · cases hcalls : r.calls with
      | nil => exact .modifiers hg (by simp [hcalls]) (by simp [hcalls, Catalog.Knows])
      | cons call calls =>
        cases hm : g.method? call.key with
        | none =>
          have hproblems : (r.problems c context).2 = c.chainProblems 0 none r.calls := by
            simp [problems, hg, hfield, hcalls, hm]
          rw [hproblems] at hchain
          exact .modifiers hg (by simp [hcalls, hm]) (Catalog.knows_of_chainProblems hchain)
        | some m =>
          rw [problems_of_method hg hfield hcalls hm] at hchain
          have hrest := (List.forall_mem_append.mp hchain).2
          exact .method hg hfield hcalls hm (Catalog.knows_of_chainProblems hrest)
    · obtain ⟨type, hproblems⟩ :
          ∃ type, (r.problems c context).2 = c.chainProblems 0 type r.calls := by
        cases hf : g.field? r.field with
        | none => exact ⟨none, by simp [problems, hg, hfield, hf]⟩
        | some f => exact ⟨some f.type, by rw [problems_of_field hg hfield hf]⟩
      rw [hproblems] at hchain
      exact .modifiers hg (absurd · hfield) (Catalog.knows_of_chainProblems hchain)

theorem covered_of_diagnostics {n : Nat}
    (hknown : ∀ diagnostic ∈ r.diagnostics c context n,
      diagnostic.problem.kind ≠ .unknownGroup ∧ diagnostic.problem.kind ≠ .unknownModifier) :
    r.Covered c := by
  rw [diagnostics, List.forall_mem_append, List.forall_mem_map, List.forall_mem_map] at hknown
  exact covered_of_problems (fun problem hproblem => (hknown.1 problem hproblem).1)
    fun entry hentry => (hknown.2 entry hentry).2

namespace Covered

/-- A catalog that holds more reports the same about a covered reference. -/
theorem problems_eq (hcovered : r.Covered c) (hwide : wide.Includes c) :
    r.problems wide context = r.problems c context := by
  cases hcovered with
  | modifiers hg hmethod hknows =>
    simp only [problems, hg, hwide.group? hg, hwide.chainProblems_eq hknows]
    split
    · rfl
    · split
      · rfl
      · rename_i hfield _ call calls hcalls
        have hnone := hmethod (by simpa using hfield) call (by simp [hcalls])
        simp [hnone]
  | method hg hfield hcalls hm hknows =>
    rw [problems_of_method hg hfield hcalls hm,
      problems_of_method (hwide.group? hg) hfield hcalls hm, Catalog.methodProblems,
      hwide.chainProblems_eq hknows, Catalog.methodProblems]

/-- A catalog that holds more gives a covered reference the same type. -/
theorem runningType_eq (hcovered : r.Covered c) (hwide : wide.Includes c) :
    r.runningType wide = r.runningType c := by
  cases hcovered with
  | modifiers hg hmethod hknows =>
    simp only [runningType, hg, hwide.group? hg, hwide.threadType_eq hknows]
    split
    · rfl
    · split
      · rfl
      · rename_i hfield _ call calls hcalls
        have hnone := hmethod (by simpa using hfield) call (by simp [hcalls])
        simp [hnone]
  | method hg hfield hcalls hm hknows =>
    simp [runningType, hg, hwide.group? hg, hfield, hcalls, hm, hwide.threadType_eq hknows]

/-- A covered reference stays so when its chain is cut off. -/
theorem upTo (hcovered : r.Covered c) (count : Int) : (r.upTo count).Covered c := by
  obtain ⟨kept, hcalls⟩ : ∃ kept, r.upTo count = { r with calls := r.calls.take kept } := ⟨_, rfl⟩
  rw [hcalls]
  cases hcovered with
  | modifiers hg hmethod hknows =>
    refine .modifiers hg (fun hfield call hcall => hmethod hfield call ?_)
      fun call hcall => hknows call (List.mem_of_mem_take hcall)
    cases kept with
    | zero => cases hcall
    | succ kept => rwa [List.head?_take, if_neg (Nat.succ_ne_zero kept)] at hcall
  | @method g m call calls hg hfield hchain hm hknows =>
    cases kept with
    | zero => exact .modifiers hg nofun nofun
    | succ kept =>
      have htake : r.calls.take (kept + 1) = call :: calls.take kept := by
        rw [hchain, List.take_succ_cons]
      exact .method hg hfield htake hm fun call hcall => hknows call (List.mem_of_mem_take hcall)

end Covered

end Reference

namespace Document

variable {c wide : Catalog} {context : Option Context} {d : Document}

theorem covered_of_diagnosticsFrom {n : Nat} {references : List Reference}
    (hknown : ∀ diagnostic ∈ diagnosticsFrom c context n references,
      diagnostic.problem.kind ≠ .unknownGroup ∧ diagnostic.problem.kind ≠ .unknownModifier) :
    ∀ r ∈ references, r.Covered c := by
  induction references generalizing n with
  | nil => exact nofun
  | cons r references ih =>
    obtain ⟨hfirst, hrest⟩ := List.forall_mem_append.mp hknown
    exact List.forall_mem_cons.mpr ⟨Reference.covered_of_diagnostics hfirst, ih hrest⟩

/-- The references of a document are covered if no group and no modifier is reported as unknown. -/
theorem covered_of_diagnostics
    (hknown : ∀ diagnostic ∈ d.diagnostics c context,
      diagnostic.problem.kind ≠ .unknownGroup ∧ diagnostic.problem.kind ≠ .unknownModifier) :
    ∀ r ∈ d.references, r.Covered c :=
  covered_of_diagnosticsFrom hknown

theorem diagnosticsFrom_eq_of_includes (hwide : wide.Includes c) {references : List Reference}
    (hcovered : ∀ r ∈ references, r.Covered c) (n : Nat) :
    diagnosticsFrom wide context n references = diagnosticsFrom c context n references := by
  induction references generalizing n with
  | nil => rfl
  | cons r references ih =>
    obtain ⟨hr, hreferences⟩ := List.forall_mem_cons.mp hcovered
    simp only [diagnosticsFrom, Reference.diagnostics, hr.problems_eq hwide, ih hreferences]

/-- A catalog that holds more reports the same about a document with covered references. -/
theorem diagnostics_eq_of_includes (hwide : wide.Includes c)
    (hcovered : ∀ r ∈ d.references, r.Covered c) :
    d.diagnostics wide context = d.diagnostics c context :=
  diagnosticsFrom_eq_of_includes hwide hcovered 0

end Document

end TagText
