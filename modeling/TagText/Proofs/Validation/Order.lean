import Mathlib.Algebra.Group.Int.Defs
import TagText.Catalog.DefaultModifiers
import TagText.Proofs.Validation.Reports

/-!
The order of diagnostics, and what becomes of them when a chain grows. They stand in the order of
the references and, for one reference, in that of its chain, behind those of the reference itself.
No problem keeps a later call from being checked: calls that are added to a chain leave the
diagnostics in front as they are, and each of them is checked like any other. Only an argument that
cannot be reported takes the diagnostics of the whole document with it.
-/

namespace TagText

/-- A diagnostic may stand in front of another one: it concerns an earlier reference or, of the same
    reference, the reference itself or no later call. -/
inductive Diagnostic.Leads (first second : Diagnostic) : Prop
  | references : first.reference < second.reference → Leads first second
  | own : first.reference = second.reference → first.call = none → Leads first second
  | calls {i j : Nat} : first.reference = second.reference → first.call = some i →
    second.call = some j → i ≤ j → Leads first second

namespace Catalog

variable {c : Catalog} {type : Option ValueType} {calls : List Call} {start : Nat}

/-- Problems of a chain, in the order of the calls that they name. -/
def InOrder (entries : List (Problem × Nat × Int)) : Prop :=
  entries.Pairwise fun first second => first.2.1 ≤ second.2.1

/-- The problems with one index stand in front of those of the chain behind it. -/
theorem inOrder_append_chainProblems (problems : List Problem) (position : Int)
    (hchain : InOrder (c.chainProblems (start + 1) type calls)) :
    InOrder (problems.map (fun problem => (problem, start, position)) ++
      c.chainProblems (start + 1) type calls) := by
  refine List.pairwise_append.mpr ⟨?_, hchain, ?_⟩
  · exact List.pairwise_map.mpr (List.pairwise_of_forall fun _ _ => le_rfl)
  · intro first hfirst second hsecond
    obtain ⟨_, -, rfl⟩ := List.mem_map.mp hfirst
    obtain ⟨i, call, -, hplace⟩ := exists_of_mem_chainProblems hsecond
    have hindex : second.2.1 = start + 1 + i := congrArg Prod.fst hplace
    show start ≤ second.2.1
    omega

theorem inOrder_chainProblems : InOrder (c.chainProblems start type calls) := by
  induction calls generalizing start type with
  | nil => exact .nil
  | cons call calls ih =>
    rw [chainProblems_cons]
    exact inOrder_append_chainProblems _ _ ih

/-- A chain that goes on: the problems in front are those of the shorter chain, and the others are
    those of a chain that starts behind it. -/
theorem chainProblems_append (start : Nat) (type : Option ValueType) (calls more : List Call) :
    c.chainProblems start type (calls ++ more) = c.chainProblems start type calls ++
      c.chainProblems (start + calls.length) (c.checkedType type calls) more := by
  induction calls generalizing start type with
  | nil => rfl
  | cons call calls ih =>
    have hindex : start + 1 + calls.length = start + (call :: calls).length := by
      rw [List.length_cons, Nat.add_assoc, Nat.add_comm 1]
    rw [List.cons_append, chainProblems_cons, chainProblems_cons, ih, hindex, List.append_assoc]
    rfl

/-- The diagnostics of a chain that starts at an index, for a reference of an index. -/
def chainDiagnostics (c : Catalog) (n start : Nat) (type : Option ValueType) (calls : List Call) :
    List Diagnostic :=
  (c.chainProblems start type calls).map fun (problem, call, position) =>
    { problem, reference := n, call := some call, position }

variable {n : Nat}

theorem le_of_mem_chainDiagnostics {diagnostic : Diagnostic}
    (hdiagnostic : diagnostic ∈ c.chainDiagnostics n start type calls) :
    ∃ i, diagnostic.call = some i ∧ start ≤ i := by
  obtain ⟨entry, hentry, rfl⟩ := List.mem_map.mp hdiagnostic
  obtain ⟨i, call, -, hplace⟩ := exists_of_mem_chainProblems hentry
  have hindex : entry.2.1 = start + i := congrArg Prod.fst hplace
  exact ⟨entry.2.1, rfl, by omega⟩

/-- The diagnostics with the index of a call are the problems of that call, behind the type that the
    calls in front of it give. -/
theorem filter_chainDiagnostics {i : Nat} {call : Call} (hcall : calls[i]? = some call) :
    (c.chainDiagnostics n start type calls).filter (fun diagnostic =>
        diagnostic.call == some (start + i)) =
      (c.callProblems (c.checkedType type (calls.take i)) call).map fun problem =>
        { problem, reference := n, call := some (start + i), position := call.position } := by
  have hfilter := @filter_chainProblems c type calls call start i hcall
  rw [chainDiagnostics, List.filter_map]
  simpa [Function.comp_def] using congrArg (List.map _) hfilter

end Catalog

namespace Reference

variable {c : Catalog} {context : Option Context} {r : Reference}

theorem inOrder_problems : Catalog.InOrder (r.problems c context).2 := by
  rcases seed_cases c r with hunseeded | ⟨g, f, hg, hfield, hf⟩ |
    ⟨g, m, first, rest, hg, hfield, hcalls, hm⟩
  · rw [hunseeded.problems_eq]
    exact Catalog.inOrder_chainProblems
  · rw [problems_of_field hg hfield hf]
    exact Catalog.inOrder_chainProblems
  · rw [problems_of_method hg hfield hcalls hm]
    exact Catalog.inOrder_append_chainProblems _ _ Catalog.inOrder_chainProblems

/-- The diagnostics of a reference are in order. -/
theorem pairwise_diagnostics (n : Nat) :
    (r.diagnostics c context n).Pairwise Diagnostic.Leads := by
  refine List.pairwise_append.mpr ⟨?_, ?_, ?_⟩
  · exact List.pairwise_map.mpr (List.pairwise_of_forall fun _ _ => .own rfl rfl)
  · exact List.pairwise_map.mpr (inOrder_problems.imp (.calls rfl rfl rfl))
  · intro first hfirst second hsecond
    obtain ⟨_, -, rfl⟩ := List.mem_map.mp hfirst
    obtain ⟨_, -, rfl⟩ := List.mem_map.mp hsecond
    exact .own rfl rfl

/-- The reference with more calls behind its chain. -/
def extendedBy (r : Reference) (calls : List Call) : Reference :=
  { r with calls := r.calls ++ calls }

variable (hwhole : r.field ≠ [] ∨ r.calls ≠ []) (calls : List Call)

include hwhole

/-- What is wrong with a reference itself does not depend on what follows its first call. -/
theorem problems_extendedBy_fst :
    ((r.extendedBy calls).problems c context).1 = (r.problems c context).1 := by
  unfold problems extendedBy
  cases hg : c.group? r.group with
  | none => rfl
  | some g =>
    by_cases hfield : r.field = []
    · obtain ⟨first, rest, hcalls⟩ := List.exists_cons_of_ne_nil (hwhole.resolve_left (· hfield))
      cases hm : g.method? first.key <;> simp [hfield, hcalls, hm]
    · cases hf : g.field? r.field <;> simp [hfield, hf]

theorem Unseeded.extendedBy (hunseeded : r.Unseeded c) : (r.extendedBy calls).Unseeded c := by
  cases hunseeded with
  | group hg => exact .group hg
  | field hfield hf => exact .field hfield hf
  | method hfield hm =>
    obtain ⟨first, rest, hcalls⟩ := List.exists_cons_of_ne_nil (hwhole.resolve_left (· hfield))
    rw [hcalls] at hm
    refine .method hfield ?_
    rw [Reference.extendedBy, hcalls]
    exact hm

omit calls

/-- The problems of a longer chain go on behind those of the chain in front. If the names in front
    are all known, they go on with the type of the reference in front. -/
theorem exists_problems_extendedBy_snd (c : Catalog) (context : Option Context) :
    ∃ type, (r.Named c → type = r.runningType c) ∧ ∀ calls,
      ((r.extendedBy calls).problems c context).2 =
        (r.problems c context).2 ++ c.chainProblems r.calls.length type calls := by
  rcases seed_cases c r with hunseeded | ⟨g, f, hg, hfield, hf⟩ |
    ⟨g, m, first, rest, hg, hfield, hcalls, hm⟩
  · refine ⟨c.checkedType none r.calls, fun hnamed => absurd hunseeded hnamed.not_unseeded,
      fun calls => ?_⟩
    rw [hunseeded.problems_eq, (hunseeded.extendedBy hwhole calls).problems_eq, extendedBy,
      Catalog.chainProblems_append, Nat.zero_add]
  · refine ⟨c.checkedType (some f.type) r.calls, fun hnamed => ?_, fun calls => ?_⟩
    · cases hnamed with
      | method _ hempty => exact absurd hempty hfield
      | field _ _ _ hknows =>
        rw [hknows.checkedType_eq]
        simp [runningType, hg, hfield, hf]
    · rw [problems_of_field hg hfield hf, problems_of_field (r := r.extendedBy calls) hg hfield hf,
        extendedBy, Catalog.chainProblems_append, Nat.zero_add]
  · refine ⟨c.checkedType m.output rest, fun hnamed => ?_, fun calls => ?_⟩
    · cases hnamed with
      | field _ hne => exact absurd hfield hne
      | method _ _ hsame _ hknows =>
        obtain ⟨rfl, rfl⟩ := List.cons.inj (hcalls.symm.trans hsame)
        rw [hknows.checkedType_eq]
        simp [runningType, hg, hfield, hcalls, hm]
    · have hlonger : (r.extendedBy calls).calls = first :: (rest ++ calls) := by
        rw [extendedBy, hcalls, List.cons_append]
      rw [problems_of_method hg hfield hcalls hm,
        problems_of_method (r := r.extendedBy calls) hg hfield hlonger hm, Catalog.methodProblems,
        Catalog.methodProblems, Catalog.chainProblems_append, hcalls, List.length_cons,
        Nat.add_comm 1, List.append_assoc]

/-- The diagnostics of a reference stay as they are when its chain goes on. -/
theorem exists_diagnostics_extendedBy (c : Catalog) (context : Option Context) :
    ∃ type, (r.Named c → type = r.runningType c) ∧ ∀ calls n,
      (r.extendedBy calls).diagnostics c context n =
        r.diagnostics c context n ++ c.chainDiagnostics n r.calls.length type calls := by
  obtain ⟨type, htype, hchain⟩ := exists_problems_extendedBy_snd hwhole c context
  refine ⟨type, htype, fun calls n => ?_⟩
  have hproblems : (r.extendedBy calls).problems c context =
      ((r.problems c context).1,
        (r.problems c context).2 ++ c.chainProblems r.calls.length type calls) :=
    Prod.ext (problems_extendedBy_fst hwhole calls) (hchain calls)
  have hposition : (r.extendedBy calls).position = r.position := rfl
  simp [diagnostics, Catalog.chainDiagnostics, hproblems, hposition]

end Reference

namespace Document

variable {c : Catalog} {context : Option Context}

theorem pairwise_diagnosticsFrom {start : Nat} {references : List Reference} :
    (diagnosticsFrom c context start references).Pairwise Diagnostic.Leads := by
  induction references generalizing start with
  | nil => exact .nil
  | cons r references ih =>
    refine List.pairwise_append.mpr ⟨r.pairwise_diagnostics start, ih, ?_⟩
    intro first hfirst second hsecond
    obtain ⟨i, other, -, hother⟩ := mem_diagnosticsFrom_iff.mp hsecond
    refine .references ?_
    rw [Reference.reference_of_mem_diagnostics hfirst,
      Reference.reference_of_mem_diagnostics hother]
    omega

/-- Validating a document fails exactly where an integer without a text stands at a place for truth
    values or choices. Otherwise each diagnostic names one of the references, and that itself or one
    of its calls, and has the position of what it names. They stand in the order of the references
    and, for each of these, in that of the calls, behind those of the reference itself. When calls
    are added to a reference with a field or a call and it can still be validated, its diagnostics
    stay as they are, and those that follow name new calls. For each new call these are all of its
    problems; the type that the new calls start with is that of the reference, where its names are
    all known. -/
theorem validate_inOrder (c : Catalog) (context : Option Context) :
    (∀ d : Document,
      ((∃ r, .reference r ∈ d.nodes ∧ r.Unreportable c) →
        d.validate c context = .error .overlongInteger) ∧
      ((¬ ∃ r, .reference r ∈ d.nodes ∧ r.Unreportable c) →
        ∃ items, d.validate c context = .ok items ∧ items.Pairwise Diagnostic.Leads ∧
          ∀ diagnostic ∈ items, ∃ r, d.references[diagnostic.reference]? = some r ∧
            r.HasPlace diagnostic.call diagnostic.position)) ∧
    ∀ r : Reference, r.field ≠ [] ∨ r.calls ≠ [] →
      ∃ type, (r.Named c → type = r.runningType c) ∧ ∀ calls n,
        ((r.extendedBy calls).Unreportable c →
          (r.extendedBy calls).validate c context n = .error .overlongInteger) ∧
        (¬ (r.extendedBy calls).Unreportable c → ∃ items added,
          r.validate c context n = .ok items ∧
          (r.extendedBy calls).validate c context n = .ok (items ++ added) ∧
          (∀ diagnostic ∈ added, ∃ i, diagnostic.call = some i ∧ r.calls.length ≤ i) ∧
          ∀ i call, calls[i]? = some call →
            added.filter (fun diagnostic => diagnostic.call == some (r.calls.length + i)) =
              (c.callProblems (c.checkedType type (calls.take i)) call).map fun problem =>
                { problem, reference := n, call := some (r.calls.length + i)
                  position := call.position }) := by
  refine ⟨fun d => ⟨validate_eq_error_iff.mpr, fun hreportable => ?_⟩, fun r hwhole => ?_⟩
  · exact ⟨_, validate_eq_ok_iff.mpr ⟨rfl, hreportable⟩, pairwise_diagnosticsFrom,
      fun _ => hasPlace_of_mem_diagnostics⟩
  · obtain ⟨type, htype, hmore⟩ := Reference.exists_diagnostics_extendedBy hwhole c context
    refine ⟨type, htype, fun calls n => ⟨Reference.validate_eq_error_iff.mpr, fun hlonger => ?_⟩⟩
    have hshorter : ¬ r.Unreportable c := by
      rw [← @Reference.unreportable_diagnostics_iff c context _ n, hmore] at hlonger
      rw [← @Reference.unreportable_diagnostics_iff c context _ n]
      rintro ⟨diagnostic, hmem, hlong⟩
      exact hlonger ⟨diagnostic, List.mem_append_left _ hmem, hlong⟩
    refine ⟨_, _, Reference.validate_eq_ok_iff.mpr ⟨rfl, hshorter⟩,
      Reference.validate_eq_ok_iff.mpr ⟨(hmore calls n).symm, hlonger⟩, ?_, ?_⟩
    · exact fun _ => Catalog.le_of_mem_chainDiagnostics
    · exact fun _ _ => Catalog.filter_chainDiagnostics

/-- Behind a mismatch, an unknown modifier is still reported, and behind that a missing argument.
    And a reference is still checked behind one to an unknown group, but nothing is reported of
    either if it has an integer with a digit too many at the place of a choice. -/
theorem validate_inOrder_of_mismatch :
    let c := Default.catalog
    let round : Call := { key := "round".toList, position := 20 }
    let nope : Call := { key := "nope".toList, position := 28 }
    let replace : Call := { key := "replace".toList, position := 35 }
    let r : Reference :=
      { group := "post".toList, field := "title".toList, calls := [round], position := 7 }
    let longer := r.extendedBy [nope, replace]
    let unknown : Reference := { group := "nope".toList }
    let mismatch : Diagnostic :=
      { problem := .typeMismatch round.key .text, reference := 1, call := some 0, position := 20 }
    let missing : Diagnostic :=
      { problem := .unknownModifier nope.key, reference := 1, call := some 1, position := 28 }
    let n : Int := 10 ^ maxIntegerDigits
    let format : Call := { key := "currency_format".toList, args := [.int n] }
    let priority : Reference :=
      { group := "post".toList, field := "priority".toList, calls := [format] }
    r.validate c none 1 = .ok [mismatch] ∧
      (∃ added, longer.validate c none 1 = .ok (mismatch :: added) ∧
        added.filter (·.call == some 1) = [missing] ∧
        (added.filter (·.call == some 2)).map (·.problem.kind) = [.missingArgument]) ∧
      (∃ items, ({ nodes := [.reference unknown, .reference longer] } : Document).validate c none =
        .ok items ∧ items.Pairwise Diagnostic.Leads) ∧
      ({ nodes := [.reference unknown, .reference priority] } : Document).validate c none =
        .error .overlongInteger := by
  intro c round nope replace r longer unknown mismatch missing n format priority
  obtain ⟨horder, hmore⟩ := validate_inOrder c none
  have hone : r.validate c none 1 = .ok [mismatch] := by decide +kernel
  have hlonger : ¬ longer.Unreportable c := by
    intro hr
    obtain ⟨a, ha, -⟩ := hr.exists_mem_args
    cases ha
  obtain ⟨type, -, hadded⟩ := hmore r (Or.inr (List.cons_ne_nil _ _))
  obtain ⟨items, added, hitems, hvalid, -, hnew⟩ := (hadded [nope, replace] 1).2 hlonger
  obtain rfl : [mismatch] = items := Except.ok.inj (hone.symm.trans hitems)
  have hnone : c.modifier? nope.key = none := by decide +kernel
  have hsecond : added.filter (·.call == some 1) = [missing] := by
    have hfilter := hnew 0 nope rfl
    rwa [Catalog.callProblems, hnone] at hfilter
  have hthird : (added.filter (·.call == some 2)).map (·.problem.kind) = [.missingArgument] := by
    have htype : c.checkedType type [nope] = none := by
      simp [Catalog.checkedType, Catalog.typeBehind, hnone]
    have hkinds : (c.callProblems none replace).map Problem.kind = [.missingArgument] := by
      decide +kernel
    have hfilter := congrArg (List.map (·.problem.kind)) (hnew 1 replace rfl)
    rw [List.map_map, List.take_succ_cons, List.take_zero, htype] at hfilter
    exact hfilter.trans hkinds
  refine ⟨hone, ⟨added, hvalid, hsecond, hthird⟩, ?_, ?_⟩
  · have hreportable := (validate_eq_ok_iff.mp (@validate_of_hasText c none
      { nodes := [.reference unknown, .reference longer] } rfl)).2
    obtain ⟨items, hitems, hpairwise, -⟩ := (horder _).2 hreportable
    exact ⟨items, hitems, hpairwise⟩
  · have hn : hasDecimal n = false := by decide +kernel
    clear_value n
    have hlost : priority.Unreportable c := Reference.unreportable_currency hn
    exact (horder _).1 ⟨priority, by simp, hlost⟩

end Document

end TagText
