import TagText.Proofs.Document.Comparison
import TagText.Proofs.Reading.Expressions

/-!
The arguments of what was read. Each is the reading of some text, so none is a number that is none
and none is too long to be written: everything that was read equals itself and can be written.
-/

namespace TagText

/-- Whatever an argument was read under, it is the reading of some text. -/
theorem Arg.exists_of_mem_ofTexts {params : List Param} {raws : List Text} {args : List Arg}
    (hread : ofTexts params raws = .ok args) {a : Arg} (ha : a ∈ args) :
    ∃ type raw, ofText type raw = .ok a := by
  induction raws generalizing params args with
  | nil =>
    have hnil : args = [] := by
      cases params <;> (rw [ofTexts] at hread; cases hread; rfl)
    simp [hnil] at ha
  | cons raw raws ih =>
    cases params with
    | nil =>
      obtain ⟨rest, hrest, heq⟩ := bind_eq_ok_iff.mp hread
      cases heq
      rcases List.mem_cons.mp ha with rfl | ha
      · exact ⟨.text, raw, rfl⟩
      · exact ih hrest ha
    | cons p params =>
      obtain ⟨first, hfirst, hread⟩ := bind_eq_ok_iff.mp hread
      obtain ⟨rest, hrest, heq⟩ := bind_eq_ok_iff.mp hread
      cases heq
      rcases List.mem_cons.mp ha with rfl | ha
      · exact ⟨p.type, raw, hfirst⟩
      · exact ih hrest ha

theorem RawReference.exists_of_mem_calls {c : Catalog} {group field : Text} {first : Bool}
    {raws : List RawCall} {calls : List Call}
    (hread : resolveCalls c group field first raws = .ok calls) {a : Arg}
    (ha : a ∈ calls.flatMap Call.args) : ∃ type raw, Arg.ofText type raw = .ok a := by
  induction raws generalizing first calls with
  | nil => cases hread; cases ha
  | cons raw raws ih =>
    obtain ⟨args, hargs, hread⟩ := bind_eq_ok_iff.mp hread
    obtain ⟨rest, hrest, heq⟩ := bind_eq_ok_iff.mp hread
    cases heq
    rcases List.mem_append.mp ha with ha | ha
    · exact Arg.exists_of_mem_ofTexts hargs ha
    · exact ih hrest ha

theorem Arg.ne_nan_of_ofText {type : ParamType} {raw : Text} {a : Arg}
    (hread : ofText type raw = .ok a) : a ≠ .float .nan := by
  have hrank : ∀ negative rank, Binary64.ofRank negative rank ≠ .nan := by
    intro negative rank
    unfold Binary64.ofRank
    split <;> simp
  have hnumber : ∀ negative digits scale, Binary64.ofDecimal negative digits scale ≠ .nan := by
    intro negative digits scale
    unfold Binary64.ofDecimal
    split_ifs <;> first | exact hrank _ _ | simp
  rintro rfl
  cases type with
  | text | choice => cases hread
  | boolean =>
    simp only [ofText] at hread
    split at hread <;> cases hread
  | number =>
    simp only [ofText, ofNumberText] at hread
    split at hread
    · split at hread <;> cases hread
    · simp only [Except.ok.injEq, float.injEq] at hread
      exact hnumber _ _ _ hread
    · cases hread

/-- An argument that was read has a text. -/
theorem Arg.hasText_of_ofText {type : ParamType} {raw : Text} {a : Arg}
    (hread : ofText type raw = .ok a) : a.hasText = true := by
  cases a with
  | int n =>
    cases type with
    | text | choice => cases hread
    | boolean =>
      simp only [ofText] at hread
      split at hread <;> cases hread
    | number => exact hasDecimal_iff.mpr (natAbs_lt_of_ofNumberText hread)
  | _ => rfl

namespace Cut

variable {c : Catalog} {offset broken : Nat} {s : Text} {nodes : List Node}

theorem exists_of_mem_args (hcut : Cut c offset s nodes broken) :
    ∀ r, .reference r ∈ nodes → ∀ a ∈ r.args, ∃ type raw, Arg.ofText type raw = .ok a := by
  induction hcut with
  | nil => simp
  | text _ _ _ _ ih => simpa using ih
  | reference _ hr _ _ ih =>
    intro r hmem a ha
    rcases List.mem_cons.mp hmem with heq | hmem
    · cases heq
      obtain ⟨calls, hcalls, heq⟩ := bind_eq_ok_iff.mp hr
      cases heq
      exact RawReference.exists_of_mem_calls hcalls ha
    · exact ih r hmem a ha

/-- What cuts a text equals itself. -/
theorem equalLists_self (hcut : Cut c offset s nodes broken) :
    equalLists Node.equals nodes nodes = true := by
  refine Node.equalLists_self fun r hr a ha => ?_
  obtain ⟨type, raw, hread⟩ := hcut.exists_of_mem_args r hr a ha
  exact Arg.ne_nan_of_ofText hread

/-- What cuts a text can be written. -/
theorem hasText (hcut : Cut c offset s nodes broken) (trailing : Text) :
    ({ nodes, trailing } : Document).hasText = true := by
  refine Document.hasText_iff.mpr fun r hr a ha => ?_
  obtain ⟨type, raw, hread⟩ := hcut.exists_of_mem_args r (Document.mem_references.mp hr) a ha
  exact Arg.hasText_of_ofText hread

end Cut

/-- An expression that was read can be written again. -/
theorem Reading.hasText_of_ofExpression {c : Catalog} {s : Text} {reading : Reading}
    (hread : ofExpression c s = .ok reading) (trailing : Text) :
    { reading.document with trailing }.hasText = true :=
  (ofExpression_eq_ok_iff_cut.mp hread).2.hasText trailing

end TagText
