import TagText.Proofs.Writing.Comparison

/-!
Infinite numbers are written as texts that count as no numbers. Of what was read, exactly the nodes
without them come back as equal ones.
-/

namespace TagText

/-- The text of an infinite number, or of none, counts as a text wherever it stands. -/
theorem Arg.isFinite_of_ofText_spelled {type : ParamType} {a b : Arg}
    (hread : ofText type a.spelled = .ok b) (hequal : b.equals a = true) : a.isFinite = true := by
  cases a with
  | float x =>
    have htext : x.isFinite = false → ofText type x.text = .ok (text x.text) := by
      intro hx
      cases x with
      | finite => cases hx
      | infinite negative => cases type <;> cases negative <;> rfl
      | nan => cases type <;> rfl
    by_contra hx
    rw [spelled, htext (Bool.eq_false_iff.mpr hx)] at hread
    cases hread
    cases hequal
  | _ => rfl

theorem Arg.isFinite_of_ofTexts_spelled {params : List Param} {args again : List Arg}
    (hread : ofTexts params (args.map spelled) = .ok again)
    (hequal : equalLists equals again args = true) : ∀ a ∈ args, a.isFinite = true := by
  induction args generalizing params again with
  | nil => simp
  | cons a args ih =>
    cases params with
    | nil =>
      obtain ⟨rest, hrest, heq⟩ := bind_eq_ok_iff.mp hread
      cases heq
      obtain ⟨hfirst, hequal⟩ := by simpa [equalLists] using hequal
      have htext : ofText .text a.spelled = .ok (.text a.spelled) := rfl
      exact List.forall_mem_cons.mpr ⟨isFinite_of_ofText_spelled htext hfirst, ih hrest hequal⟩
    | cons p params =>
      obtain ⟨b, hb, hread⟩ := bind_eq_ok_iff.mp hread
      obtain ⟨rest, hrest, heq⟩ := bind_eq_ok_iff.mp hread
      cases heq
      obtain ⟨hfirst, hequal⟩ := by simpa [equalLists] using hequal
      exact List.forall_mem_cons.mpr ⟨isFinite_of_ofText_spelled hb hfirst, ih hrest hequal⟩

theorem RawReference.isFinite_of_resolveCalls_spelled {c : Catalog} {group field : Text}
    {first : Bool} {offset : Nat} {calls again : List Call}
    (hread : resolveCalls c group field first (Call.spelled offset calls) = .ok again)
    (hequal : equalLists Call.equals again calls = true) :
    ∀ a ∈ calls.flatMap Call.args, a.isFinite = true := by
  induction calls generalizing first offset again with
  | nil => simp
  | cons call calls ih =>
    obtain ⟨args, hargs, hread⟩ := bind_eq_ok_iff.mp hread
    obtain ⟨rest, hrest, heq⟩ := bind_eq_ok_iff.mp hread
    cases heq
    simp only [equalLists, Call.equals, Bool.and_eq_true] at hequal
    obtain ⟨⟨-, hfirst⟩, hequal⟩ := hequal
    intro a ha
    rcases List.mem_append.mp ha with ha | ha
    · exact Arg.isFinite_of_ofTexts_spelled hargs hfirst a ha
    · exact ih hrest hequal a ha

theorem SettledEqually.isFinite {c : Catalog} {nodes : List Node}
    (hsettled : SettledEqually c nodes) {trailing : Text} :
    ∀ a ∈ ({ nodes, trailing } : Document).args, a.isFinite = true := by
  induction hsettled with
  | nil => simp [Document.args, Document.references]
  | text _ _ _ _ ih => exact ih
  | reference _ hread hequal _ _ ih =>
    intro a ha
    rcases List.mem_append.mp ha with ha | ha
    · obtain ⟨calls, hcalls, heq⟩ := bind_eq_ok_iff.mp hread
      cases heq
      simp only [Reference.equals, Bool.and_eq_true] at hequal
      exact RawReference.isFinite_of_resolveCalls_spelled hcalls hequal.2 a ha
    · exact ih a ha

/-- What cuts a text comes back as equal nodes exactly when its numbers are finite. -/
theorem Cut.settledEqually_iff {c : Catalog} {offset broken : Nat} {s trailing : Text}
    {nodes : List Node} (hcut : Cut c offset s nodes broken) :
    SettledEqually c nodes ↔ ∀ a ∈ ({ nodes, trailing } : Document).args, a.isFinite = true := by
  refine ⟨fun hsettled => hsettled.isFinite, fun hfinite => ?_⟩
  have hargs : ∀ r, Node.reference r ∈ nodes → ∀ a ∈ r.args, a.isFinite = true :=
    fun r hr a ha => hfinite a (Node.mem_args hr ha)
  refine (hcut.settled hargs).imp fun r hr again hsame => ?_
  rw [← Reference.equals_unplaced, hsame, Reference.equals_unplaced]
  exact Reference.equals_self fun a ha => Arg.ne_nan_of_isFinite (hargs r hr a ha)

end TagText
