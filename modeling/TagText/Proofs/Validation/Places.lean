import TagText.Proofs.Validation.Mismatches

/-!
Where diagnostics point to. Each has the position of the reference or of the call that it names.
-/

namespace TagText

/-- The position of a reference itself, or of its call of an index. -/
inductive Reference.HasPlace (r : Reference) : Option Nat → Int → Prop
  | own : HasPlace r none r.position
  | call {i : Nat} {call : Call} : r.calls[i]? = some call → HasPlace r (some i) call.position

variable {c : Catalog} {context : Option Context}

theorem Catalog.exists_of_mem_chainProblems {index : Nat} {type : Option ValueType}
    {calls : List Call} {entry : Problem × Nat × Int}
    (hentry : entry ∈ c.chainProblems index type calls) :
    ∃ i call, calls[i]? = some call ∧ entry.2 = (index + i, call.position) := by
  induction calls generalizing index type with
  | nil => cases hentry
  | cons call calls ih =>
    have hlater : ∀ type, entry ∈ c.chainProblems (index + 1) type calls →
        ∃ i other, (call :: calls)[i]? = some other ∧ entry.2 = (index + i, other.position) := by
      intro type hrest
      obtain ⟨i, other, hother, hplace⟩ := ih hrest
      exact ⟨i + 1, other, hother, by rw [hplace, Nat.add_assoc, Nat.add_comm 1]⟩
    unfold chainProblems at hentry
    split at hentry
    · rcases List.mem_cons.mp hentry with rfl | hrest
      · exact ⟨0, call, rfl, rfl⟩
      · exact hlater _ hrest
    · rcases List.mem_append.mp hentry with hown | hrest
      · obtain ⟨problem, -, rfl⟩ := List.mem_map.mp hown
        exact ⟨0, call, rfl, rfl⟩
      · exact hlater _ hrest

namespace Reference

variable {r : Reference}

theorem exists_of_mem_problems {entry : Problem × Nat × Int}
    (hentry : entry ∈ (r.problems c context).2) :
    ∃ i call, r.calls[i]? = some call ∧ entry.2 = (i, call.position) := by
  have hchain : ∀ type, entry ∈ c.chainProblems 0 type r.calls →
      ∃ i call, r.calls[i]? = some call ∧ entry.2 = (i, call.position) := by
    intro type hmem
    simpa using Catalog.exists_of_mem_chainProblems hmem
  unfold problems at hentry
  split at hentry
  · exact hchain _ hentry
  · split at hentry
    · split at hentry <;> exact hchain _ hentry
    · cases hcalls : r.calls with
      | nil => simp [hcalls] at hentry
      | cons call calls =>
        rw [hcalls] at hchain hentry
        simp only at hentry
        split at hentry
        · exact hchain _ hentry
        · rename_i method _
          rcases List.mem_append.mp hentry with hown | hrest
          · obtain ⟨problem, -, rfl⟩ := List.mem_map.mp hown
            exact ⟨0, call, rfl, rfl⟩
          · obtain ⟨i, other, hother, hplace⟩ := Catalog.exists_of_mem_chainProblems hrest
            exact ⟨i + 1, other, hother, by rw [hplace, Nat.add_comm]⟩

theorem hasPlace_of_mem_diagnostics {n : Nat} {diagnostic : Diagnostic}
    (hdiagnostic : diagnostic ∈ r.diagnostics c context n) :
    r.HasPlace diagnostic.call diagnostic.position := by
  rcases List.mem_append.mp hdiagnostic with hown | hchain
  · obtain ⟨problem, -, rfl⟩ := List.mem_map.mp hown
    exact .own
  · obtain ⟨⟨problem, index, position⟩, hentry, rfl⟩ := List.mem_map.mp hchain
    obtain ⟨i, call, hcall, hplace⟩ := exists_of_mem_problems hentry
    cases hplace
    exact .call hcall

end Reference

/-- A diagnostic names a reference of the document, and has its place or that of one of its
    calls. -/
theorem Document.hasPlace_of_mem_diagnostics {d : Document} {diagnostic : Diagnostic}
    (hdiagnostic : diagnostic ∈ d.diagnostics c context) :
    ∃ r, d.references[diagnostic.reference]? = some r ∧
      r.HasPlace diagnostic.call diagnostic.position := by
  obtain ⟨i, r, hr, hmem⟩ := mem_diagnosticsFrom_iff.mp hdiagnostic
  rw [Nat.zero_add] at hmem
  rw [Reference.reference_of_mem_diagnostics hmem]
  exact ⟨r, hr, Reference.hasPlace_of_mem_diagnostics hmem⟩

end TagText
