import Mathlib.Algebra.Group.Int.Defs
import TagText.Proofs.Validation.Reports

/-!
The types that mismatches are reported for. Of a reference with known names, a mismatch is reported
at a call exactly when the reference, cut off in front of the call, has a type that the modifier of
the call does not take; and it is reported once. The type behind a cut-off reference is the one that
modifiers are suggested by, so that a modifier is offered exactly where it is not complained about.
All of this is lost where the reference has an argument that cannot be reported.
-/

namespace TagText

/-- At an index of a reference, a call refuses the type of the reference up to there. -/
structure Reference.Clashes (c : Catalog) (r : Reference) (i : Nat) (call : Call)
    (type : ValueType) : Prop where
  get : r.calls[i]? = some call
  behind : (r.upTo i).runningType c = some type
  refuses : c.Refuses call type

/-- Among the problems of a call, only the one with the type in front of it is a mismatch. -/
theorem Modifier.filter_typeMismatch (m : Modifier) (type : Option ValueType) (call : Call) :
    ((m.mismatch? type).toList ++ m.argumentProblems call).filter
        (fun problem => problem.kind == .typeMismatch) = (m.mismatch? type).toList := by
  have harguments : (m.argumentProblems call).filter
      (fun problem => problem.kind == .typeMismatch) = [] := by
    refine List.filter_eq_nil_iff.mpr fun problem hproblem => ?_
    simpa using Problem.kind_ne_of_mem_problemsWith hproblem
  have htype : (m.mismatch? type).toList.filter
      (fun problem => problem.kind == .typeMismatch) = (m.mismatch? type).toList := by
    refine List.filter_eq_self.mpr fun problem hproblem => ?_
    simpa using kind_of_mem_mismatch? hproblem
  rw [List.filter_append, harguments, htype, List.append_nil]

namespace Reference

variable {c : Catalog} {context : Option Context} {r : Reference} {i : Nat} {call : Call}
  {type : ValueType}

/-- A group itself has no type in front of its first call, so that a call behind a type is read
    under the modifier of its key. -/
theorem signature?_of_runningType (htype : (r.upTo i).runningType c = some type) :
    c.signature? r.group r.field i call.key = c.modifier? call.key := by
  by_cases hfield : r.field = []
  · cases i with
    | zero =>
      rw [upTo_natCast] at htype
      cases hg : c.group? r.group <;> simp [runningType, hg, hfield] at htype
    | succ i => exact Catalog.signature?_of_pos (Nat.succ_ne_zero i)
  · exact Catalog.signature?_of_field hfield i

/-- All calls of a reference with known names have a signature. -/
theorem Named.exists_signature (hnamed : r.Named c) (hcall : r.calls[i]? = some call) :
    ∃ m, c.signature? r.group r.field i call.key = some m := by
  cases hnamed with
  | field _ hfield _ hknows =>
    rw [Catalog.signature?_of_field hfield]
    exact hknows call (List.mem_of_getElem? hcall)
  | @method g m first rest hg hfield hcalls hm hknows =>
    rw [hcalls] at hcall
    cases i with
    | zero =>
      obtain rfl : first = call := Option.some.inj hcall
      exact ⟨m, by simp [Catalog.signature?, Catalog.method?, hfield, hg, hm]⟩
    | succ i =>
      rw [Catalog.signature?_of_pos (Nat.succ_ne_zero i)]
      exact hknows call (List.mem_of_getElem? hcall)

/-- The problem of a signature with the type of the reference up to its call is that the call
    clashes with the type. -/
theorem mismatch?_eq_some_iff {m : Modifier} {found : Option ValueType} {problem : Problem}
    (hcall : r.calls[i]? = some call) (hm : c.signature? r.group r.field i call.key = some m)
    (hfound : found = (r.upTo i).runningType c) :
    m.mismatch? found = some problem ↔
      ∃ type, r.Clashes c i call type ∧ problem = .typeMismatch call.key type := by
  cases found with
  | none =>
    refine iff_of_false nofun ?_
    rintro ⟨type, hclashes, -⟩
    rw [hclashes.behind] at hfound
    cases hfound
  | some other =>
    rw [signature?_of_runningType hfound.symm] at hm
    rw [Catalog.mismatch?_eq_some_iff hm]
    constructor
    · rintro ⟨type, htype, hrefuses, rfl⟩
      exact ⟨type, ⟨hcall, hfound.symm.trans htype, hrefuses⟩, rfl⟩
    · rintro ⟨type, ⟨-, hbehind, hrefuses⟩, rfl⟩
      exact ⟨type, hfound.trans hbehind, hrefuses, rfl⟩

/-- Nothing is reported at an index without a call. -/
theorem filter_diagnostics_of_none {kind : ProblemKind} (n : Nat) (hnone : r.calls[i]? = none) :
    (r.diagnostics c context n).filter (Diagnostic.concerns n i kind) = [] := by
  refine List.filter_eq_nil_iff.mpr fun diagnostic hdiagnostic hconcerns => ?_
  have hindex : diagnostic.call = some i := by simp_all [Diagnostic.concerns]
  have hplace := hasPlace_of_mem_diagnostics hdiagnostic
  rw [hindex] at hplace
  generalize diagnostic.position = position at hplace
  cases hplace with
  | call hcall => simp [hnone] at hcall

/-- Of a reference with known names, the one mismatch among the diagnostics of a call is with the
    type of the reference up to there, and there is none where there is no such type or the modifier
    of the call takes it. -/
theorem filter_mismatches_of_named (hnamed : r.Named c) (n i : Nat) :
    (∀ call type, r.Clashes c i call type →
        (r.diagnostics c context n).filter (Diagnostic.concerns n i .typeMismatch) =
          [{ problem := .typeMismatch call.key type, reference := n, call := some i
             position := call.position }]) ∧
      ((∀ call type, ¬ r.Clashes c i call type) →
        (r.diagnostics c context n).filter (Diagnostic.concerns n i .typeMismatch) = []) := by
  cases hcall : r.calls[i]? with
  | none =>
    refine ⟨fun call type hclashes => ?_, fun _ => filter_diagnostics_of_none n hcall⟩
    rw [hclashes.get] at hcall
    cases hcall
  | some call =>
    obtain ⟨m, hm⟩ := hnamed.exists_signature hcall
    obtain ⟨found, hchecks⟩ := @exists_checks c context r i call m hcall hm
    have hproblem := fun problem =>
      @mismatch?_eq_some_iff c r i call m found problem hcall hm (hchecks.running hnamed)
    rw [hchecks.filter_diagnostics, m.filter_typeMismatch]
    constructor
    · intro other type hclashes
      obtain rfl : other = call := Option.some.inj (hclashes.get.symm.trans hcall)
      rw [(hproblem _).mpr ⟨type, hclashes, rfl⟩]
      rfl
    · intro hnone
      have hmismatch : m.mismatch? found = none := by
        refine Option.eq_none_iff_forall_ne_some.mpr fun problem hsome => ?_
        obtain ⟨type, hclashes, -⟩ := (hproblem problem).mp hsome
        exact hnone call type hclashes
      rw [hmismatch]
      rfl

/-- A reference with known names can be validated unless an integer without a text stands at a place
    for truth values or choices. What is found then has a mismatch at a call exactly when there is a
    type up to there that the modifier of the call does not take, and has it once. -/
theorem mismatches_of_named (hnamed : r.Named c) (n : Nat) :
    (r.Unreportable c → r.validate c context n = .error .overlongInteger) ∧
      (¬ r.Unreportable c → ∃ items, r.validate c context n = .ok items ∧ ∀ i,
        (∀ call type, r.Clashes c i call type →
          items.filter (Diagnostic.concerns n i .typeMismatch) =
            [{ problem := .typeMismatch call.key type, reference := n, call := some i
               position := call.position }]) ∧
        ((∀ call type, ¬ r.Clashes c i call type) →
          items.filter (Diagnostic.concerns n i .typeMismatch) = [])) :=
  ⟨validate_eq_error_iff.mpr, fun hreportable =>
    ⟨_, validate_eq_ok_iff.mpr ⟨rfl, hreportable⟩, filter_mismatches_of_named hnamed n⟩⟩

/-- Behind a method that gives numbers, a modifier that keeps the type takes what it gets, and the
    one behind that, which wants texts, does not. An integer with a digit too many, at the place of
    a choice, leaves nothing reported. -/
theorem mismatches_of_named_method :
    let pick : Modifier := { key := ['p'], output := some .number }
    let keep : Modifier := { key := ['k'], accepted := [.number], output := none }
    let upper : Modifier := { key := ['u'], accepted := [.text] }
    let c : Catalog :=
      { groups := [{ key := ['g'], methods := [pick] }], modifiers := [keep, upper] }
    let calls : List Call :=
      [{ key := pick.key, position := 4 }, { key := keep.key, position := 8 },
        { key := upper.key, position := 12 }]
    let r : Reference := { group := ['g'], field := [], calls }
    let n : Int := 10 ^ maxIntegerDigits
    let format : Call := { key := "currency_format".toList, args := [.int n] }
    let priority : Reference :=
      { group := "post".toList, field := "priority".toList, calls := [format] }
    r.Named c ∧
      (∃ items, r.validate c none 0 = .ok items ∧
        items.filter (Diagnostic.concerns 0 1 .typeMismatch) = [] ∧
        items.filter (Diagnostic.concerns 0 2 .typeMismatch) =
          [{ problem := .typeMismatch upper.key .number, reference := 0, call := some 2
             position := 12 }]) ∧
      priority.Named Default.catalog ∧
      priority.validate Default.catalog none 0 = .error .overlongInteger := by
  intro pick keep upper c calls r n format priority
  have hknows : c.Knows calls.tail := by
    intro call hcall
    rcases List.mem_pair.mp hcall with rfl | rfl
    · exact ⟨keep, rfl⟩
    · exact ⟨upper, rfl⟩
  have hnamed : r.Named c := .method rfl rfl rfl (m := pick) rfl hknows
  have hclashes : r.Clashes c 2 { key := upper.key, position := 12 } .number :=
    ⟨rfl, rfl, upper, rfl, rfl⟩
  have htakes : ∀ call type, ¬ r.Clashes c 1 call type := by
    rintro call type ⟨hcall, hbehind, m, hm, hrefuses⟩
    obtain rfl := Option.some.inj hcall
    obtain rfl := Option.some.inj hbehind
    obtain rfl := Option.some.inj hm
    cases hrefuses
  have hreportable : ¬ r.Unreportable c := by
    intro hr
    obtain ⟨a, ha, -⟩ := hr.exists_mem_args
    cases ha
  obtain ⟨items, hvalid, hitems⟩ := (@mismatches_of_named c none r hnamed 0).2 hreportable
  have hn : hasDecimal n = false := by decide +kernel
  clear_value n
  have hpriority : priority.Named Default.catalog := by
    refine .field (g := Default.post) rfl (List.cons_ne_nil _ _) rfl ?_
    exact List.forall_mem_singleton.mpr ⟨_, rfl⟩
  exact ⟨hnamed, ⟨items, hvalid, (hitems 1).2 htakes, (hitems 2).1 _ _ hclashes⟩, hpriority,
    (@mismatches_of_named Default.catalog none priority hpriority 0).1 (unreportable_currency hn)⟩

end Reference

end TagText
