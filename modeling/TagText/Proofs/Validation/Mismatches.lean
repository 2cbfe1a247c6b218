import TagText.Catalog.DefaultModifiers
import TagText.Proofs.Validation.Chains

/-!
Mismatches in documents. A reference of which the group, the field or the method is unknown starts
its chain without a type. No mismatch is reported there until a modifier with an output has made the
type known, although the reference as a whole has no type.
-/

namespace TagText

/-- A reference whose chain starts without a type: its group or its field is unknown, or its field
    is empty and no method of the group follows. -/
inductive Reference.Unseeded (c : Catalog) (r : Reference) : Prop
  | group : c.group? r.group = none → Unseeded c r
  | field : r.field ≠ [] → c.field? r.group r.field = none → Unseeded c r
  | method : r.field = [] → (∀ call ∈ r.calls.head?, c.method? r.group call.key = none) →
    Unseeded c r

namespace Reference

variable {c : Catalog} {context : Option Context} {r : Reference}

/-- What can be wrong with a reference itself is its group, its field, or its use in the context. -/
theorem kind_mem_of_mem_problems {problem : Problem}
    (hproblem : problem ∈ (r.problems c context).1) :
    problem.kind ∈ [.unknownGroup, .unknownField, .groupNotApplicable] := by
  have huse : ∀ group, problem ∈ (applicability? group context).toList →
      problem.kind = .groupNotApplicable := by
    intro group hmem
    have hmem := Option.mem_toList.mp hmem
    unfold applicability? at hmem
    split at hmem
    · cases hmem
    · split at hmem <;> cases hmem
      rfl
  unfold problems at hproblem
  split at hproblem
  · obtain rfl := List.mem_singleton.mp hproblem
    simp [Problem.kind]
  · rename_i group _
    have hmore : ∀ own : Problem, own.kind = .unknownField →
        problem ∈ (applicability? group context).toList ++ [own] →
        problem.kind ∈ [.unknownGroup, .unknownField, .groupNotApplicable] := by
      intro own hown hmem
      rcases List.mem_append.mp hmem with hmem | hmem
      · simp [huse group hmem]
      · simp [List.mem_singleton.mp hmem, hown]
    split at hproblem
    · split at hproblem
      · exact hmore _ rfl hproblem
      · simp [huse group hproblem]
    · split at hproblem
      · exact hmore _ rfl hproblem
      · split at hproblem
        · exact hmore _ rfl hproblem
        · simp [huse group hproblem]

/-- Without a type to start with, the whole chain is walked from its first call on. -/
theorem Unseeded.problems_eq (hunseeded : r.Unseeded c) :
    (r.problems c context).2 = c.chainProblems 0 none r.calls := by
  unfold problems
  cases hgroup : c.group? r.group with
  | none => rfl
  | some group =>
    cases hunseeded with
    | group hnone =>
      rw [hgroup] at hnone
      cases hnone
    | field hne hnone =>
      have hfield : group.field? r.field = none := by
        simpa [Catalog.field?, hgroup] using hnone
      simp [hne, hfield]
    | method hempty hnone =>
      cases hcalls : r.calls with
      | nil => simp [hempty, Catalog.chainProblems]
      | cons call calls =>
        have hmethod : group.method? call.key = none := by
          simpa [hcalls, Catalog.method?, hgroup] using hnone
        simp [hempty, hmethod]

theorem reference_of_mem_diagnostics {n : Nat} {diagnostic : Diagnostic}
    (hdiagnostic : diagnostic ∈ r.diagnostics c context n) : diagnostic.reference = n := by
  rcases List.mem_append.mp hdiagnostic with hown | hchain
  · obtain ⟨_, -, rfl⟩ := List.mem_map.mp hown
    rfl
  · obtain ⟨_, -, rfl⟩ := List.mem_map.mp hchain
    rfl

/-- The mismatches among the diagnostics of a reference are those of its chain. -/
theorem mismatch_mem_diagnostics_iff_chain {n : Nat} {diagnostic : Diagnostic} :
    diagnostic ∈ r.diagnostics c context n ∧ diagnostic.problem.kind = .typeMismatch ↔
      ∃ entry, (entry ∈ (r.problems c context).2 ∧ entry.1.kind = .typeMismatch) ∧
        diagnostic = { problem := entry.1, reference := n, call := some entry.2.1
                       position := entry.2.2 } := by
  constructor
  · rintro ⟨hdiagnostic, hkind⟩
    rcases List.mem_append.mp hdiagnostic with hown | hchain
    · obtain ⟨problem, hproblem, rfl⟩ := List.mem_map.mp hown
      have hown := kind_mem_of_mem_problems hproblem
      rw [hkind] at hown
      exact absurd hown (by decide)
    · obtain ⟨entry, hentry, rfl⟩ := List.mem_map.mp hchain
      exact ⟨entry, ⟨hentry, hkind⟩, rfl⟩
  · rintro ⟨entry, ⟨hentry, hkind⟩, rfl⟩
    exact ⟨List.mem_append_right _ (List.mem_map.mpr ⟨entry, hentry, rfl⟩), hkind⟩

end Reference

namespace Document

variable {c : Catalog} {context : Option Context}

theorem mem_diagnosticsFrom_iff {start : Nat} {references : List Reference}
    {diagnostic : Diagnostic} : diagnostic ∈ diagnosticsFrom c context start references ↔
      ∃ (i : Nat) (r : Reference), references[i]? = some r ∧
        diagnostic ∈ r.diagnostics c context (start + i) := by
  induction references generalizing start with
  | nil => simp [diagnosticsFrom]
  | cons r references ih =>
    rw [diagnosticsFrom, List.mem_append, ih]
    constructor
    · rintro (hfirst | ⟨i, other, hother, hrest⟩)
      · exact ⟨0, r, rfl, hfirst⟩
      · exact ⟨i + 1, other, hother, by rwa [Nat.add_comm i, ← Nat.add_assoc]⟩
    · rintro ⟨i, other, hother, hmem⟩
      cases i with
      | zero =>
        obtain rfl : r = other := Option.some.inj hother
        exact Or.inl hmem
      | succ i => exact Or.inr ⟨i, other, hother, by rwa [Nat.add_assoc, Nat.add_comm 1]⟩

/-- The diagnostics with the index of a reference are those of that reference. -/
theorem mem_diagnostics_at_iff {d : Document} {n : Nat} {r : Reference}
    (hr : d.references[n]? = some r) {diagnostic : Diagnostic} :
    diagnostic ∈ d.diagnostics c context ∧ diagnostic.reference = n ↔
      diagnostic ∈ r.diagnostics c context n := by
  rw [diagnostics, mem_diagnosticsFrom_iff]
  constructor
  · rintro ⟨⟨i, other, hother, hdiagnostic⟩, hn⟩
    rw [Reference.reference_of_mem_diagnostics hdiagnostic, Nat.zero_add] at hn
    subst hn
    obtain rfl : r = other := Option.some.inj (hr.symm.trans hother)
    rwa [Nat.zero_add] at hdiagnostic
  · intro hdiagnostic
    refine ⟨⟨n, r, hr, ?_⟩, Reference.reference_of_mem_diagnostics hdiagnostic⟩
    rwa [Nat.zero_add]

/-- Of a reference to an unknown group, an unknown field, or a group itself without one of its
    methods, a mismatch is reported exactly at the calls that refuse a type which the calls in front
    of them give. -/
theorem mismatch_mem_diagnostics_iff {d : Document} {n : Nat} {r : Reference}
    (hr : d.references[n]? = some r) (hunseeded : r.Unseeded c) {diagnostic : Diagnostic} :
    diagnostic ∈ d.diagnostics c context ∧ diagnostic.reference = n ∧
        diagnostic.problem.kind = .typeMismatch ↔
      ∃ i call type, r.calls[i]? = some call ∧ c.Gives (r.calls.take i) type ∧
        c.Refuses call type ∧
        diagnostic = { problem := .typeMismatch call.key type, reference := n, call := some i
                       position := call.position } := by
  rw [← and_assoc, mem_diagnostics_at_iff hr, Reference.mismatch_mem_diagnostics_iff_chain,
    hunseeded.problems_eq]
  simp only [Catalog.mismatch_mem_chainProblems_iff]
  constructor
  · rintro ⟨_, ⟨i, call, type, ⟨hcall, htype, hrefuses⟩, rfl⟩, rfl⟩
    rw [Nat.zero_add]
    exact ⟨i, call, type, hcall, Catalog.checkedType_none_iff.mp htype, hrefuses, rfl⟩
  · rintro ⟨i, call, type, hcall, hgives, hrefuses, rfl⟩
    refine ⟨_, ⟨i, call, type, ⟨hcall, Catalog.checkedType_none_iff.mpr hgives, hrefuses⟩, rfl⟩, ?_⟩
    rw [Nat.zero_add]

/-- A modifier that gives texts makes the type of an unknown reference known. -/
theorem mismatch_mem_diagnostics_of_unknown_group :
    let truncate : Call := { key := "truncate".toList, args := [.int 5], position := 8 }
    let round : Call := { key := "round".toList, position := 20 }
    let r : Reference :=
      { group := "nope".toList, field := "x".toList, calls := [truncate, round] }
    let d : Document := { nodes := [.reference r] }
    let mismatch : Diagnostic :=
      { problem := .typeMismatch round.key .text, reference := 0, call := some 1, position := 20 }
    r.Unseeded Default.catalog ∧ r.runningType Default.catalog = none ∧
      mismatch ∈ d.diagnostics Default.catalog none := by
  intro truncate round r d mismatch
  have hunseeded : r.Unseeded Default.catalog := .group (by decide +kernel)
  have houtputs : Default.catalog.Outputs truncate .text := by decide +kernel
  have hrefuses : Default.catalog.Refuses round .text := by decide +kernel
  have hgives : Default.catalog.Gives [truncate] .text :=
    ⟨[], truncate, [], rfl, houtputs, by simp⟩
  have hiff := @mismatch_mem_diagnostics_iff Default.catalog none d 0 r rfl hunseeded mismatch
  exact ⟨hunseeded, by decide +kernel, (hiff.mpr ⟨1, round, .text, rfl, hgives, hrefuses, rfl⟩).1⟩

end Document

end TagText
