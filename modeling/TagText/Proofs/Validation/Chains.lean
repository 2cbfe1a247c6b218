import Mathlib.Data.List.Induction
import TagText.Validation.Diagnostic

/-!
The types along a chain of calls. Behind an unknown modifier the type is unknown, until a modifier
with an output makes it known again. A mismatch is reported at a call exactly when the type in front
of it is known and its modifier does not take it.
-/

namespace TagText

namespace Problem

/-- The problems with arguments: one is missing, or its value does not suit its place. -/
theorem kind_of_mem_problemsWith {m : Modifier} {params : List Param} {values : List Arg}
    {problem : Problem} (hproblem : problem ∈ m.problemsWith params values) :
    problem.kind = .missingArgument ∨ problem.kind = .invalidArgument := by
  have hone : ∀ p value, m.problem? p value = some problem →
      problem.kind = .missingArgument ∨ problem.kind = .invalidArgument := by
    intro p value hproblem
    unfold Modifier.problem? at hproblem
    split at hproblem <;> split at hproblem <;> cases hproblem <;> simp [kind]
  induction params generalizing values with
  | nil => cases hproblem
  | cons p params ih =>
    cases values with
    | nil =>
      rcases List.mem_append.mp hproblem with hfirst | hrest
      · exact hone p .nothing (Option.mem_toList.mp hfirst)
      · exact ih hrest
    | cons value values =>
      rcases List.mem_append.mp hproblem with hfirst | hrest
      · exact hone p value (Option.mem_toList.mp hfirst)
      · exact ih hrest

/-- The problems with an argument are not mismatches of a type. -/
theorem kind_ne_of_mem_problemsWith {m : Modifier} {params : List Param} {values : List Arg}
    {problem : Problem} (hproblem : problem ∈ m.problemsWith params values) :
    problem.kind ≠ .typeMismatch := by
  rcases kind_of_mem_problemsWith hproblem with hkind | hkind <;> simp [hkind]

end Problem

namespace Catalog

variable {c : Catalog} {type : Option ValueType} {calls : List Call} {call : Call}
  {found : ValueType}

/-- The modifier of a call is known and does not take values of a type. -/
def Refuses (c : Catalog) (call : Call) (type : ValueType) : Prop :=
  ∃ m, c.modifier? call.key = some m ∧ m.accepts type = false

/-- The modifier of a call is known and gives values of a type, whatever it gets. -/
def Outputs (c : Catalog) (call : Call) (type : ValueType) : Prop :=
  ∃ m, c.modifier? call.key = some m ∧ m.output = some type

/-- The modifier of a call is known and gives values of the type that it gets. -/
def PassesOn (c : Catalog) (call : Call) : Prop :=
  ∃ m, c.modifier? call.key = some m ∧ m.output = none

instance : Decidable (c.Refuses call found) :=
  inferInstanceAs (Decidable (∃ m ∈ c.modifier? call.key, m.accepts found = false))

instance : Decidable (c.Outputs call found) :=
  inferInstanceAs (Decidable (∃ m ∈ c.modifier? call.key, m.output = some found))

/-- A chain gives values of a type, whatever it gets: one of its calls does, and the ones behind
    that pass the type on. -/
def Gives (c : Catalog) (calls : List Call) (type : ValueType) : Prop :=
  ∃ before call after, calls = before ++ call :: after ∧ c.Outputs call type ∧
    ∀ other ∈ after, c.PassesOn other

/-- The type behind a call, given the type in front of it if that is known. -/
def typeBehind (c : Catalog) (type : Option ValueType) (call : Call) : Option ValueType :=
  (c.modifier? call.key).bind fun m => m.resultType type

/-- The type behind a chain of calls, given the type in front of it if that is known. -/
def checkedType (c : Catalog) (type : Option ValueType) (calls : List Call) : Option ValueType :=
  calls.foldl c.typeBehind type

/-- At an index of a chain there is a call that refuses the type in front of it. -/
structure Mismatched (c : Catalog) (type : Option ValueType) (calls : List Call) (index : Nat)
    (call : Call) (found : ValueType) : Prop where
  get : calls[index]? = some call
  behind : c.checkedType type (calls.take index) = some found
  refuses : c.Refuses call found

theorem key_of_modifier? {key : Text} {m : Modifier} (hm : c.modifier? key = some m) :
    m.key = key := by
  simpa using List.find?_some hm

theorem typeBehind_eq_some_iff : c.typeBehind type call = some found ↔
    c.Outputs call found ∨ c.PassesOn call ∧ type = some found := by
  unfold typeBehind Outputs PassesOn
  cases hm : c.modifier? call.key with
  | none => simp
  | some m => cases houtput : m.output <;> simp [Modifier.resultType, houtput]

theorem gives_concat_iff : c.Gives (calls ++ [call]) found ↔
    c.Outputs call found ∨ c.PassesOn call ∧ c.Gives calls found := by
  constructor
  · rintro ⟨before, source, after, heq, hsource, hafter⟩
    rcases List.eq_nil_or_concat after with rfl | ⟨after, last, rfl⟩
    · obtain ⟨-, rfl⟩ := List.append_inj' heq rfl |>.imp id List.singleton_inj.mp
      exact Or.inl hsource
    · rw [List.concat_eq_append] at heq hafter
      rw [← List.cons_append, ← List.append_assoc] at heq
      obtain ⟨rfl, hlast⟩ := List.append_inj' heq rfl
      obtain rfl := List.singleton_inj.mp hlast
      obtain ⟨hafter, hcall⟩ := List.forall_mem_append.mp hafter
      exact Or.inr ⟨hcall _ List.mem_cons_self, before, source, after, rfl, hsource, hafter⟩
  · rintro (hcall | ⟨hcall, before, source, after, rfl, hsource, hafter⟩)
    · exact ⟨calls, call, [], rfl, hcall, by simp⟩
    · refine ⟨before, source, after ++ [call], by simp, hsource, ?_⟩
      exact List.forall_mem_append.mpr ⟨hafter, List.forall_mem_singleton.mpr hcall⟩

/-- Behind an unknown type, a chain has a type exactly when it gives that type itself. -/
theorem checkedType_none_iff : c.checkedType none calls = some found ↔ c.Gives calls found := by
  induction calls using List.reverseRecOn with
  | nil => simp [checkedType, Gives]
  | append_singleton calls call ih =>
    have hstep : c.checkedType none (calls ++ [call]) =
        c.typeBehind (c.checkedType none calls) call := by simp [checkedType]
    rw [hstep, typeBehind_eq_some_iff, ih, gives_concat_iff]

theorem mismatched_zero_iff {other : Call} : c.Mismatched type (call :: calls) 0 other found ↔
    other = call ∧ type = some found ∧ c.Refuses call found := by
  constructor
  · rintro ⟨hcall, htype, hrefuses⟩
    obtain rfl : call = other := by simpa using hcall
    exact ⟨rfl, htype, hrefuses⟩
  · rintro ⟨rfl, rfl, hrefuses⟩
    exact ⟨rfl, rfl, hrefuses⟩

theorem mismatched_succ_iff {index : Nat} {other : Call} :
    c.Mismatched type (call :: calls) (index + 1) other found ↔
      c.Mismatched (c.typeBehind type call) calls index other found :=
  ⟨fun ⟨hcall, htype, hrefuses⟩ => ⟨hcall, htype, hrefuses⟩,
    fun ⟨hcall, htype, hrefuses⟩ => ⟨hcall, htype, hrefuses⟩⟩

/-- The problem with the type in front of a call is that its modifier refuses it. -/
theorem mismatch?_eq_some_iff {m : Modifier} (hm : c.modifier? call.key = some m)
    {problem : Problem} : m.mismatch? type = some problem ↔
      ∃ found, type = some found ∧ c.Refuses call found ∧
        problem = .typeMismatch call.key found := by
  have hrefuses : ∀ found, c.Refuses call found ↔ m.accepts found = false := by
    intro found
    simp [Refuses, hm]
  have hkey := key_of_modifier? hm
  cases type with
  | none => simp [Modifier.mismatch?]
  | some found =>
    rw [Modifier.mismatch?, hkey]
    cases haccepts : m.accepts found with
    | true => simp [hrefuses, haccepts]
    | false => simp [hrefuses, haccepts, eq_comm (b := problem)]

/-- The mismatches of a chain are reported at the calls that refuse the type in front of them, and
    nowhere else. -/
theorem mismatch_mem_chainProblems_iff {start : Nat} {entry : Problem × Nat × Int} :
    entry ∈ c.chainProblems start type calls ∧ entry.1.kind = .typeMismatch ↔
      ∃ i call found, c.Mismatched type calls i call found ∧
        entry = (.typeMismatch call.key found, start + i, call.position) := by
  induction calls generalizing start type with
  | nil =>
    simp only [chainProblems, List.not_mem_nil, false_and, false_iff]
    rintro ⟨i, call, found, hmismatched, -⟩
    cases hmismatched.get
  | cons call calls ih =>
    have hrest : ∀ next, c.typeBehind type call = next →
        (entry ∈ c.chainProblems (start + 1) next calls ∧ entry.1.kind = .typeMismatch ↔
          ∃ i other found, c.Mismatched type (call :: calls) (i + 1) other found ∧
            entry = (.typeMismatch other.key found, start + (i + 1), other.position)) := by
      rintro next rfl
      simp only [ih, mismatched_succ_iff, Nat.add_assoc, Nat.add_comm 1]
    rw [← Nat.or_exists_add_one]
    simp only [mismatched_zero_iff, Nat.add_zero]
    unfold chainProblems
    cases hm : c.modifier? call.key with
    | none =>
      have hnone : ∀ found, ¬ c.Refuses call found := by simp [Refuses, hm]
      have hbehind : c.typeBehind type call = none := by simp [typeBehind, hm]
      rw [← hrest none hbehind]
      simp only [List.mem_cons, hnone, and_false, false_and, exists_false, false_or, or_and_right]
      refine or_iff_right_of_imp ?_
      rintro ⟨rfl, hkind⟩
      cases hkind
    | some m =>
      have hbehind : c.typeBehind type call = m.resultType type := by simp [typeBehind, hm]
      rw [← hrest _ hbehind, List.mem_append, or_and_right]
      refine or_congr_left ?_
      simp only [List.mem_map, List.mem_append, Option.mem_toList, mismatch?_eq_some_iff hm]
      constructor
      · rintro ⟨⟨problem, ⟨found, hfound, hrefuses, rfl⟩ | hproblem, rfl⟩, hkind⟩
        · exact ⟨call, found, ⟨rfl, hfound, hrefuses⟩, rfl⟩
        · exact absurd hkind (Problem.kind_ne_of_mem_problemsWith hproblem)
      · rintro ⟨_, found, ⟨rfl, hfound, hrefuses⟩, rfl⟩
        exact ⟨⟨_, Or.inl ⟨found, hfound, hrefuses, rfl⟩, rfl⟩, rfl⟩

end Catalog

end TagText
