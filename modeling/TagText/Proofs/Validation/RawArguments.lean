import TagText.Proofs.Argument.Fitting
import TagText.Proofs.Reading.References
import TagText.Proofs.Validation.Calls

/-!
Invalid arguments, told by the texts that were read. An argument is reported exactly when its text
is not empty and does not fit the place that the signature of its call declares for it; the check
looks at the value only, and at a signature that it looks up itself. Places without an argument and
arguments without a place are not reported.
-/

namespace TagText

namespace Modifier

variable {m : Modifier}

/-- The problem with the text at a place, if it is one with the text itself. -/
def invalid? (m : Modifier) (p : Param) (raw : Text) : Option Problem :=
  if raw ≠ [] ∧ ¬ p.FitsText raw then some (.invalidArgument m.key p.name (.text raw)) else none

/-- Of the problems with a value, those that the text it was read from has. -/
theorem filter_problem? {p : Param} {raw : Text} {a : Arg}
    (hread : Arg.ofText p.type raw = .ok a) :
    (m.problem? p a).toList.filter (fun problem => problem.kind == .invalidArgument) =
      (m.invalid? p raw).toList := by
  have hmissing := Arg.isMissing_iff_of_ofText hread
  unfold problem? invalid?
  by_cases hempty : raw = []
  · rw [if_pos (hmissing.mpr hempty)]
    split <;> simp [hempty, Problem.kind]
  · rw [if_neg (mt hmissing.mp hempty)]
    rcases Param.fitsText_cases hread with ⟨hfits, hsuits⟩ | ⟨hnot, hsuits, rfl⟩
    · simp [hfits, hsuits]
    · simp [hempty, hnot, hsuits, Problem.kind]

/-- A place without an argument has no invalid one. -/
theorem filter_problem?_nothing (p : Param) :
    (m.problem? p .nothing).toList.filter (fun problem => problem.kind == .invalidArgument) =
      [] := by
  have hmissing : Arg.nothing.isMissing = true := rfl
  rw [problem?, if_pos hmissing]
  split <;> rfl

/-- The invalid arguments among the problems of a call, place by place. -/
theorem filter_problemsWith {params : List Param} {raws : List Text} {args : List Arg}
    (hread : Arg.ofTexts params raws = .ok args) :
    (m.problemsWith params args).filter (fun problem => problem.kind == .invalidArgument) =
      (params.zip raws).filterMap fun (p, raw) => m.invalid? p raw := by
  induction params generalizing raws args with
  | nil => simp [problemsWith]
  | cons p params ih =>
    cases raws with
    | nil =>
      cases hread
      have hnothing : Arg.ofTexts params [] = .ok [] := by cases params <;> rfl
      rw [problemsWith, List.filter_append, filter_problem?_nothing, ih hnothing]
      simp
    | cons raw raws =>
      obtain ⟨a, ha, hread⟩ := bind_eq_ok_iff.mp hread
      obtain ⟨rest, hrest, heq⟩ := bind_eq_ok_iff.mp hread
      cases heq
      rw [problemsWith, List.filter_append, filter_problem? ha, ih hrest, List.zip_cons_cons,
        List.filterMap_cons]
      cases hinvalid : m.invalid? p raw <;> simp [hinvalid]

/-- Only arguments can be invalid, not the type in front of a call. -/
theorem filter_invalidArgument {type : Option ValueType} {call : Call} {raws : List Text}
    (hread : Arg.ofTexts m.params raws = .ok call.args) :
    ((m.mismatch? type).toList ++ m.argumentProblems call).filter
        (fun problem => problem.kind == .invalidArgument) =
      (m.params.zip raws).filterMap fun (p, raw) => m.invalid? p raw := by
  have hmismatch : (m.mismatch? type).toList.filter
      (fun problem => problem.kind == .invalidArgument) = [] := by
    refine List.filter_eq_nil_iff.mpr fun problem hproblem => ?_
    simp [kind_of_mem_mismatch? hproblem]
  rw [List.filter_append, hmismatch, List.nil_append, argumentProblems, filter_problemsWith hread]

end Modifier

/-- Nothing concerns a reference among the diagnostics of others. -/
theorem Diagnostic.filter_concerns_eq_nil {n i : Nat} {kind : ProblemKind}
    {diagnostics : List Diagnostic}
    (hothers : ∀ diagnostic ∈ diagnostics, diagnostic.reference ≠ n) :
    diagnostics.filter (concerns n i kind) = [] := by
  refine List.filter_eq_nil_iff.mpr fun diagnostic hdiagnostic => ?_
  simp [concerns, hothers diagnostic hdiagnostic]

namespace Document

variable {c : Catalog} {context : Option Context} {kind : ProblemKind} {n i : Nat} {r : Reference}

theorem filter_diagnosticsFrom {start : Nat} {references : List Reference}
    (hr : references[n]? = some r) :
    (diagnosticsFrom c context start references).filter
        (Diagnostic.concerns (start + n) i kind) =
      (r.diagnostics c context (start + n)).filter (Diagnostic.concerns (start + n) i kind) := by
  induction references generalizing start n with
  | nil => cases hr
  | cons first references ih =>
    rw [diagnosticsFrom, List.filter_append]
    cases n with
    | zero =>
      obtain rfl := Option.some.inj hr
      have hrest : (diagnosticsFrom c context (start + 1) references).filter
          (Diagnostic.concerns (start + 0) i kind) = [] := by
        refine Diagnostic.filter_concerns_eq_nil fun diagnostic hdiagnostic => ?_
        obtain ⟨j, other, -, hother⟩ := mem_diagnosticsFrom_iff.mp hdiagnostic
        have hindex := Reference.reference_of_mem_diagnostics hother
        omega
      rw [hrest, List.append_nil]
      rfl
    | succ n =>
      have hfirst : (first.diagnostics c context start).filter
          (Diagnostic.concerns (start + (n + 1)) i kind) = [] := by
        refine Diagnostic.filter_concerns_eq_nil fun diagnostic hdiagnostic => ?_
        have hindex := Reference.reference_of_mem_diagnostics hdiagnostic
        omega
      have hrest := @ih n (start + 1) hr
      have hplace : start + 1 + n = start + (n + 1) := by omega
      rw [hplace] at hrest
      rw [hfirst, List.nil_append, hrest]

/-- The diagnostics of a document that concern a call are those of its reference. -/
theorem filter_diagnostics {d : Document} (hr : d.references[n]? = some r) :
    (d.diagnostics c context).filter (Diagnostic.concerns n i kind) =
      (r.diagnostics c context n).filter (Diagnostic.concerns n i kind) := by
  have hfrom := @filter_diagnosticsFrom c context kind n i r 0 d.references hr
  rwa [Nat.zero_add] at hfrom

end Document

namespace Reading

/-- The invalid arguments that are reported for a call of what was read are those, in the order of
    the declaration, whose texts are not empty and do not fit the places that the signature of the
    call declares for them. -/
theorem invalidArguments_of_ofValue {c : Catalog} {context : Option Context} {value : Text}
    {reading : Reading} (hread : ofValue c value = .ok reading) {n i : Nat} {r : Reference}
    (hr : reading.document.references[n]? = some r) {call : Call}
    (hcall : r.calls[i]? = some call) {m : Modifier}
    (hm : c.signature? r.group r.field i call.key = some m) :
    ∃ raw rawCall, (Outline.ofSymbols value (Symbol.ofValue value)).references[n]? = some raw ∧
      raw.calls[i]? = some rawCall ∧
      call.Carries c r.group r.field i rawCall.key rawCall.args ∧
      (reading.document.diagnostics c context).filter
          (Diagnostic.concerns n i .invalidArgument) =
        ((m.params.zip rawCall.args).filterMap fun (p, raw) => m.invalid? p raw).map fun problem =>
          { problem, reference := n, call := some i, position := call.position } := by
  obtain ⟨raw, hraw, hresolve⟩ := Outline.exists_resolve hread hr
  obtain ⟨rawCall, hrawCall, hcarries⟩ := RawReference.exists_carries hresolve hcall
  have hargs : Arg.ofTexts m.params rawCall.args = .ok call.args := by
    rw [Arg.ofTexts_eq_ok_iff, hcarries.args, ← hcarries.key]
    simp [Catalog.place?, hm]
  obtain ⟨type, hchecks⟩ := @Reference.exists_checks c context r i call m hcall hm
  refine ⟨raw, rawCall, hraw, hrawCall, hcarries, ?_⟩
  rw [Document.filter_diagnostics hr, hchecks.filter_diagnostics,
    Modifier.filter_invalidArgument hargs]

/-- A method of a group and a modifier of the same key, each with its own places. The method gets a
    text that is no number, a truth value, an empty text and one argument too many; the last place
    of the modifier gets none, though it requires one. -/
theorem invalidArguments_of_ofValue_method :
    let number (key : Char) : Param := { key := [key], type := .number, required := true }
    let flag : Param := { key := ['f'], type := .boolean }
    let sort : Param := { key := ['s'], type := .choice, choices := ["up".toList] }
    let method : Modifier := { key := ['m'], params := [number 'a', flag, number 'b'] }
    let modifier : Modifier := { key := ['m'], params := [sort, flag, number 'c'] }
    let g : Group := { key := ['g'], methods := [method] }
    let c : Catalog := { groups := [g], modifiers := [modifier] }
    let value := "@tags()@g().m(1x,TRUE,\"\",2).m(1x,2)@endtags()".toList
    let first : Call :=
      { key := ['m'], args := [.text "1x".toList, .bool true, .text [], .text ['2']]
        position := 11 }
    let second : Call :=
      { key := ['m'], args := [.text "1x".toList, .text ['2']], position := 27 }
    let r : Reference := { group := ['g'], calls := [first, second], position := 7 }
    let reading : Reading := { document := { nodes := [.reference r] }, brokenCount := 0 }
    ofValue c value = .ok reading ∧
      (reading.document.diagnostics c none).filter (Diagnostic.concerns 0 0 .invalidArgument) =
        [{ problem := .invalidArgument ['m'] ['a'] (.text "1x".toList), reference := 0
           call := some 0, position := 11 }] ∧
      (reading.document.diagnostics c none).filter (Diagnostic.concerns 0 1 .invalidArgument) =
        [{ problem := .invalidArgument ['m'] ['s'] (.text "1x".toList), reference := 0
           call := some 1, position := 27 },
         { problem := .invalidArgument ['m'] ['f'] (.text ['2']), reference := 0
           call := some 1, position := 27 }] := by
  intro number flag sort method modifier g c value first second r reading
  have hread : ofValue c value = .ok reading := by decide +kernel
  have houtline : (Outline.ofSymbols value (Symbol.ofValue value)).references =
      [{ group := ['g'], field := []
         calls :=
           [{ key := ['m'], args := ["1x".toList, "TRUE".toList, [], ['2']], position := 11 },
            { key := ['m'], args := ["1x".toList, ['2']], position := 27 }]
         position := 7 }] := by decide +kernel
  obtain ⟨raw, rawFirst, hraw, hfirst, -, hmethod⟩ :=
    @invalidArguments_of_ofValue c none value reading hread 0 0 r rfl first rfl method rfl
  obtain ⟨again, rawSecond, hagain, hsecond, -, hmodifier⟩ :=
    @invalidArguments_of_ofValue c none value reading hread 0 1 r rfl second rfl modifier rfl
  rw [houtline] at hraw hagain
  obtain rfl := Option.some.inj hraw
  obtain rfl := Option.some.inj hagain
  obtain rfl := Option.some.inj hfirst
  obtain rfl := Option.some.inj hsecond
  exact ⟨hread, hmethod.trans (by decide +kernel), hmodifier.trans (by decide +kernel)⟩

end Reading

end TagText
