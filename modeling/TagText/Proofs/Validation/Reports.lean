import TagText.Catalog.DefaultGroups
import TagText.Catalog.DefaultModifiers
import TagText.Document.Writing
import TagText.Proofs.Validation.Calls

/-!
Which documents can be validated. A value that does not suit its place is displayed in a message,
for which it has to have a text. An integer without a text suits neither a place for truth values
nor one for choices, so that no report at all can be made of a reference that has one there,
whatever else there is to report. All other documents can be validated, and those that were read are
among them.
-/

namespace TagText

/-- A problem of which the message would have to display an integer without a text. -/
def Problem.Unreportable (problem : Problem) : Prop :=
  ∃ modifier param n, problem = .invalidArgument modifier param (.int n) ∧ hasDecimal n = false

theorem Problem.message_eq_error_iff {problem : Problem} {e : ConversionError} :
    problem.message = .error e ↔ problem.Unreportable := by
  cases problem with
  | invalidArgument modifier param value =>
    cases value with
    | int n =>
      cases e
      cases htext : hasDecimal n <;>
        simp [message, Arg.displayed, Arg.plain, writeInt, Unreportable, htext, bind, Except.bind,
          pure, Except.pure]
    | _ => exact iff_of_false nofun nofun
  | _ => exact iff_of_false nofun nofun

namespace Diagnostic

/-- What is reported are the diagnostics, unless there is one that cannot be. -/
theorem report_cases (items : List Diagnostic) :
    (report items = .ok items ∧ ∀ item ∈ items, ¬ item.problem.Unreportable) ∨
      report items = .error .overlongInteger ∧ ∃ item ∈ items, item.problem.Unreportable := by
  induction items with
  | nil => exact Or.inl ⟨rfl, nofun⟩
  | cons item items ih =>
    rw [report, List.mapM_cons, ← report]
    cases hmessage : item.problem.message with
    | error e =>
      cases e
      exact Or.inr ⟨rfl, item, List.mem_cons_self, Problem.message_eq_error_iff.mp hmessage⟩
    | ok shown =>
      have hfirst : ¬ item.problem.Unreportable := by
        intro hitem
        rw [Problem.message_eq_error_iff (e := .overlongInteger) |>.mpr hitem] at hmessage
        cases hmessage
      rcases ih with ⟨hreport, hrest⟩ | ⟨hreport, other, hmem, hother⟩
      · rw [hreport]
        exact Or.inl ⟨rfl, List.forall_mem_cons.mpr ⟨hfirst, hrest⟩⟩
      · rw [hreport]
        exact Or.inr ⟨rfl, other, List.mem_cons_of_mem _ hmem, hother⟩

theorem report_eq_ok_iff {items found : List Diagnostic} : report items = .ok found ↔
    found = items ∧ ¬ ∃ item ∈ items, item.problem.Unreportable := by
  rcases report_cases items with ⟨hreport, hnone⟩ | ⟨hreport, hsome⟩
  · rw [hreport, Except.ok.injEq, eq_comm, iff_self_and]
    rintro - ⟨item, hmem, hitem⟩
    exact hnone item hmem hitem
  · rw [hreport]
    exact iff_of_false nofun fun h => h.2 hsome

theorem report_eq_error_iff {items : List Diagnostic} {e : ConversionError} :
    report items = .error e ↔ ∃ item ∈ items, item.problem.Unreportable := by
  rcases report_cases items with ⟨hreport, hnone⟩ | ⟨hreport, hsome⟩
  · rw [hreport]
    exact iff_of_false nofun fun ⟨item, hmem, hitem⟩ => hnone item hmem hitem
  · cases e
    exact iff_of_true hreport hsome

end Diagnostic

namespace Modifier

variable {m : Modifier} {call : Call}

/-- Among arguments there is an integer without a text, at a place that a modifier declares for
    truth values or choices. -/
def Unreportable (params : List Param) (args : List Arg) : Prop :=
  ∃ (i : Nat) (p : Param) (n : Int), params[i]? = some p ∧ args[i]? = some (.int n) ∧
    (p.type = .boolean ∨ p.type = .choice) ∧ hasDecimal n = false

theorem unreportable_problem?_iff {p : Param} {value : Arg} :
    (∃ problem ∈ (m.problem? p value).toList, problem.Unreportable) ↔
      ∃ n, value = .int n ∧ (p.type = .boolean ∨ p.type = .choice) ∧ hasDecimal n = false := by
  have hvalue : ∀ problem ∈ (m.problem? p value).toList, problem.Unreportable →
      ∃ n, value = .int n ∧ p.suits value = false ∧ hasDecimal n = false := by
    rintro problem hproblem ⟨modifier, param, n, rfl, hlong⟩
    rw [Option.mem_toList, problem?] at hproblem
    split at hproblem
    · split at hproblem <;> cases hproblem
    · split at hproblem
      · cases hproblem
      · rename_i hsuits
        cases hproblem
        exact ⟨n, rfl, by simpa using hsuits, hlong⟩
  constructor
  · rintro ⟨problem, hproblem, hunreportable⟩
    obtain ⟨n, rfl, hsuits, hlong⟩ := hvalue problem hproblem hunreportable
    refine ⟨n, rfl, ?_, hlong⟩
    cases htype : p.type with
    | text | number => simp [Param.suits, htype, Arg.isNumber] at hsuits
    | boolean => exact Or.inl rfl
    | choice => exact Or.inr rfl
  · rintro ⟨n, rfl, htype, hlong⟩
    have hsuits : p.suits (.int n) = false := by
      rcases htype with htype | htype <;>
        simp [Param.suits, htype, Arg.isBool, Arg.plain, writeInt, hlong]
    exact ⟨.invalidArgument m.key p.name (.int n), by simp [problem?, Arg.isMissing, hsuits],
      _, _, n, rfl, hlong⟩

theorem unreportable_problemsWith_iff {params : List Param} {args : List Arg} :
    (∃ problem ∈ m.problemsWith params args, problem.Unreportable) ↔
      Unreportable params args := by
  induction params generalizing args with
  | nil => simp [problemsWith, Unreportable]
  | cons p params ih =>
    rw [Unreportable, ← Nat.or_exists_add_one]
    cases args with
    | nil =>
      have hrest := @ih []
      have hfirst := @unreportable_problem?_iff m p .nothing
      simp [problemsWith, Unreportable, or_and_right, exists_or] at hrest hfirst ⊢
      exact ⟨hfirst, hrest⟩
    | cons value values =>
      have hfirst := @unreportable_problem?_iff m p value
      simp only [problemsWith, List.mem_append, or_and_right, exists_or, hfirst, ih, Unreportable,
        List.getElem?_cons_zero, List.getElem?_cons_succ, Option.some.injEq, exists_and_left,
        exists_eq_left']

end Modifier

theorem Problem.Unreportable.kind_eq {problem : Problem} (hproblem : problem.Unreportable) :
    problem.kind = .invalidArgument := by
  obtain ⟨modifier, param, n, rfl, -⟩ := hproblem
  rfl

namespace Catalog

variable {c : Catalog} {type : Option ValueType} {calls : List Call} {call : Call}

theorem unreportable_callProblems_iff :
    (∃ problem ∈ c.callProblems type call, problem.Unreportable) ↔
      ∃ m, c.modifier? call.key = some m ∧ Modifier.Unreportable m.params call.args := by
  rw [callProblems]
  cases hm : c.modifier? call.key with
  | none =>
    refine iff_of_false ?_ ?_
    · rintro ⟨problem, hproblem, hunreportable⟩
      obtain rfl := List.mem_singleton.mp hproblem
      cases hunreportable.kind_eq
    · rintro ⟨m, hsome, -⟩
      cases hsome
  | some m =>
    have hmismatch : ¬ ∃ problem ∈ (m.mismatch? type).toList, problem.Unreportable := by
      rintro ⟨problem, hproblem, hunreportable⟩
      cases (Modifier.kind_of_mem_mismatch? hproblem).symm.trans hunreportable.kind_eq
    simp only [List.mem_append, or_and_right, exists_or, or_iff_right hmismatch,
      Modifier.argumentProblems, Modifier.unreportable_problemsWith_iff, Option.some.injEq,
      exists_eq_left']

/-- The calls of a chain are reported one by one. -/
theorem unreportable_chainProblems_iff {start : Nat} :
    (∃ entry ∈ c.chainProblems start type calls, entry.1.Unreportable) ↔
      ∃ call ∈ calls, ∃ m, c.modifier? call.key = some m ∧
        Modifier.Unreportable m.params call.args := by
  induction calls generalizing start type with
  | nil => exact iff_of_false nofun nofun
  | cons call calls ih =>
    have hfirst := @unreportable_callProblems_iff c type call
    have hrest := @ih (c.typeBehind type call) (start + 1)
    rw [chainProblems_cons, List.exists_mem_cons_iff, ← hrest, ← hfirst]
    simp only [List.mem_append, or_and_right, exists_or, List.mem_map, exists_exists_and_eq_and]

end Catalog

namespace Reference

variable {c : Catalog} {context : Option Context} {r : Reference}

/-- A reference has an integer without a text at a place that the signature of a call declares for
    truth values or choices. -/
def Unreportable (c : Catalog) (r : Reference) : Prop :=
  ∃ (i : Nat) (call : Call) (m : Modifier), r.calls[i]? = some call ∧
    c.signature? r.group r.field i call.key = some m ∧ Modifier.Unreportable m.params call.args

/-- What cannot be reported cannot be written. -/
theorem Unreportable.exists_mem_args (hr : r.Unreportable c) :
    ∃ a ∈ r.args, a.hasText = false := by
  obtain ⟨i, call, m, hcall, -, j, p, n, -, hn, -, hlong⟩ := hr
  refine ⟨.int n, List.mem_flatMap.mpr ⟨call, List.mem_of_getElem? hcall, ?_⟩, hlong⟩
  exact List.mem_of_getElem? hn

/-- A number with a digit too many where a currency is to be chosen. -/
theorem unreportable_currency {n : Int} (hn : hasDecimal n = false) :
    let format : Call := { key := "currency_format".toList, args := [.int n] }
    Unreportable Default.catalog
      { group := "post".toList, field := "priority".toList, calls := [format] } := by
  intro format
  obtain ⟨m, hm, p, hp, hchoice⟩ : ∃ m, Default.catalog.modifier? format.key = some m ∧
      ∃ p, m.params[0]? = some p ∧ p.type = .choice := ⟨_, rfl, _, rfl, rfl⟩
  exact ⟨0, format, m, rfl, (Catalog.signature?_of_field (List.cons_ne_nil _ _) 0).trans hm, 0, p,
    n, hp, rfl, Or.inr hchoice, hn⟩

theorem unreportable_iff_of_modifier?
    (hsame : ∀ (i : Nat) (call : Call), r.calls[i]? = some call →
      c.signature? r.group r.field i call.key = c.modifier? call.key) :
    r.Unreportable c ↔ ∃ call ∈ r.calls, ∃ m, c.modifier? call.key = some m ∧
      Modifier.Unreportable m.params call.args := by
  constructor
  · rintro ⟨i, call, m, hcall, hm, hlong⟩
    exact ⟨call, List.mem_of_getElem? hcall, m, (hsame i call hcall).symm.trans hm, hlong⟩
  · rintro ⟨call, hmem, m, hm, hlong⟩
    obtain ⟨i, hcall⟩ := List.mem_iff_getElem?.mp hmem
    exact ⟨i, call, m, hcall, (hsame i call hcall).trans hm, hlong⟩

theorem unreportable_problems_iff :
    (∃ entry ∈ (r.problems c context).2, entry.1.Unreportable) ↔ r.Unreportable c := by
  rcases seed_cases c r with hunseeded | ⟨g, f, hg, hfield, hf⟩ |
    ⟨g, m, first, rest, hg, hfield, hcalls, hm⟩
  · rw [hunseeded.problems_eq, Catalog.unreportable_chainProblems_iff]
    exact (unreportable_iff_of_modifier? fun i call => hunseeded.signature?_eq).symm
  · rw [problems_of_field hg hfield hf, Catalog.unreportable_chainProblems_iff]
    refine (unreportable_iff_of_modifier? fun i call _ => ?_).symm
    exact Catalog.signature?_of_field hfield i
  · have hfirst : c.signature? r.group r.field 0 first.key = some m := by
      simp [Catalog.signature?, hfield, Catalog.method?, hg, hm]
    rw [problems_of_method hg hfield hcalls hm, Catalog.methodProblems]
    constructor
    · rintro ⟨entry, hentry, hlong⟩
      rcases List.mem_append.mp hentry with hown | hrest
      · obtain ⟨problem, hproblem, rfl⟩ := List.mem_map.mp hown
        have hargs := Modifier.unreportable_problemsWith_iff.mp ⟨problem, hproblem, hlong⟩
        exact ⟨0, first, m, by rw [hcalls]; rfl, hfirst, hargs⟩
      · obtain ⟨call, hmem, n, hn, hargs⟩ :=
          Catalog.unreportable_chainProblems_iff.mp ⟨entry, hrest, hlong⟩
        obtain ⟨i, hcall⟩ := List.mem_iff_getElem?.mp hmem
        rw [← @Catalog.signature?_of_pos c r.group r.field call.key _ i.succ_ne_zero] at hn
        exact ⟨i + 1, call, n, by rwa [hcalls], hn, hargs⟩
    · rintro ⟨i, call, n, hcall, hn, hargs⟩
      rw [hcalls] at hcall
      cases i with
      | zero =>
        obtain rfl : first = call := Option.some.inj hcall
        obtain rfl : m = n := Option.some.inj (hfirst.symm.trans hn)
        obtain ⟨problem, hproblem, hlong⟩ := Modifier.unreportable_problemsWith_iff.mpr hargs
        exact ⟨_, List.mem_append_left _ (List.mem_map.mpr ⟨problem, hproblem, rfl⟩), hlong⟩
      | succ i =>
        rw [Catalog.signature?_of_pos i.succ_ne_zero] at hn
        have hrest : call ∈ rest := List.mem_of_getElem? hcall
        obtain ⟨entry, hentry, hlong⟩ :=
          Catalog.unreportable_chainProblems_iff.mpr ⟨call, hrest, n, hn, hargs⟩
        exact ⟨entry, List.mem_append_right _ hentry, hlong⟩

theorem unreportable_diagnostics_iff {n : Nat} :
    (∃ diagnostic ∈ r.diagnostics c context n, diagnostic.problem.Unreportable) ↔
      r.Unreportable c := by
  rw [← @unreportable_problems_iff c context r]
  constructor
  · rintro ⟨diagnostic, hdiagnostic, hlong⟩
    rcases List.mem_append.mp hdiagnostic with hown | hchain
    · obtain ⟨problem, hproblem, rfl⟩ := List.mem_map.mp hown
      have hkind := kind_mem_of_mem_problems hproblem
      rw [hlong.kind_eq] at hkind
      exact absurd hkind (by decide)
    · obtain ⟨entry, hentry, rfl⟩ := List.mem_map.mp hchain
      exact ⟨entry, hentry, hlong⟩
  · rintro ⟨entry, hentry, hlong⟩
    exact ⟨_, List.mem_append_right _ (List.mem_map.mpr ⟨entry, hentry, rfl⟩), hlong⟩

theorem validate_eq_error_iff {n : Nat} {e : ConversionError} :
    r.validate c context n = .error e ↔ r.Unreportable c :=
  Diagnostic.report_eq_error_iff.trans unreportable_diagnostics_iff

theorem validate_eq_ok_iff {n : Nat} {items : List Diagnostic} :
    r.validate c context n = .ok items ↔
      items = r.diagnostics c context n ∧ ¬ r.Unreportable c := by
  rw [validate, Diagnostic.report_eq_ok_iff, unreportable_diagnostics_iff]

end Reference

namespace Document

variable {c : Catalog} {context : Option Context} {d : Document}

theorem unreportable_diagnostics_iff :
    (∃ diagnostic ∈ d.diagnostics c context, diagnostic.problem.Unreportable) ↔
      ∃ r, .reference r ∈ d.nodes ∧ r.Unreportable c := by
  constructor
  · rintro ⟨diagnostic, hmem, hlong⟩
    obtain ⟨i, r, hr, hdiagnostic⟩ := mem_diagnosticsFrom_iff.mp hmem
    refine ⟨r, mem_references.mp (List.mem_of_getElem? hr), ?_⟩
    exact Reference.unreportable_diagnostics_iff.mp ⟨diagnostic, hdiagnostic, hlong⟩
  · rintro ⟨r, hr, hlong⟩
    obtain ⟨i, hi⟩ := List.mem_iff_getElem?.mp (mem_references.mpr hr)
    obtain ⟨diagnostic, hdiagnostic, hlong⟩ := Reference.unreportable_diagnostics_iff.mpr hlong
    exact ⟨diagnostic, mem_diagnosticsFrom_iff.mpr ⟨i, r, hi, hdiagnostic⟩, hlong⟩

theorem validate_eq_error_iff {e : ConversionError} :
    d.validate c context = .error e ↔ ∃ r, .reference r ∈ d.nodes ∧ r.Unreportable c :=
  Diagnostic.report_eq_error_iff.trans unreportable_diagnostics_iff

theorem validate_eq_ok_iff {items : List Diagnostic} :
    d.validate c context = .ok items ↔ items = d.diagnostics c context ∧
      ¬ ∃ r, .reference r ∈ d.nodes ∧ r.Unreportable c := by
  rw [validate, Diagnostic.report_eq_ok_iff, unreportable_diagnostics_iff]

/-- A document that can be written can be validated. -/
theorem validate_of_hasText (htext : d.hasText = true) :
    d.validate c context = .ok (d.diagnostics c context) := by
  refine validate_eq_ok_iff.mpr ⟨rfl, ?_⟩
  rintro ⟨r, hr, hunreportable⟩
  obtain ⟨a, ha, hlong⟩ := hunreportable.exists_mem_args
  have hwritten := hasText_iff.mp htext r (mem_references.mpr hr) a ha
  rw [hlong] at hwritten
  cases hwritten

end Document

end TagText
