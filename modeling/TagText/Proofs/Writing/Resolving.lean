import TagText.Proofs.Reading.Parts
import TagText.Proofs.Writing.Spelling

/-!
What was read as a reference is well named, and is read again from how its arguments are spelled, at
whatever offset its written form stands.
-/

namespace TagText

theorem Arg.ofTexts_spelled {params : List Param} {raws : List Text} {args : List Arg}
    (hread : ofTexts params raws = .ok args) (hargs : ∀ a ∈ args, a.isFinite = true) :
    ofTexts params (args.map spelled) = .ok args := by
  induction raws generalizing params args with
  | nil =>
    have hnil : args = [] := by
      cases params <;> (rw [ofTexts] at hread; cases hread; rfl)
    subst hnil
    exact hread
  | cons raw raws ih =>
    cases params with
    | nil =>
      obtain ⟨rest, hrest, heq⟩ := bind_eq_ok_iff.mp hread
      cases heq
      have hagain := ih hrest fun a ha => hargs a (by simp [ha])
      simp only [List.map_cons, ofTexts, hagain, spelled]
      rfl
    | cons p params =>
      obtain ⟨a, ha, hread⟩ := bind_eq_ok_iff.mp hread
      obtain ⟨rest, hrest, heq⟩ := bind_eq_ok_iff.mp hread
      cases heq
      have hagain := ih hrest fun b hb => hargs b (by simp [hb])
      have hfirst := ofText_spelled ha (hargs a (by simp))
      simp only [List.map_cons, ofTexts, hagain, hfirst]
      rfl

namespace RawReference

theorem resolveCalls_spelled {c : Catalog} {group field : Text} {first : Bool}
    {raws : List RawCall} {calls : List Call}
    (hread : resolveCalls c group field first raws = .ok calls)
    (hcalls : ∀ call ∈ calls, ∀ a ∈ call.args, a.isFinite = true) (offset : Nat) :
    ∃ again, resolveCalls c group field first (Call.spelled offset calls) = .ok again ∧
      again.map Call.unplaced = calls.map Call.unplaced := by
  induction raws generalizing first calls offset with
  | nil =>
    cases hread
    exact ⟨[], rfl, rfl⟩
  | cons raw raws ih =>
    obtain ⟨args, hargs, hread⟩ := bind_eq_ok_iff.mp hread
    obtain ⟨rest, hrest, heq⟩ := bind_eq_ok_iff.mp hread
    cases heq
    obtain ⟨hfirst, hcalls⟩ := List.forall_mem_cons.mp hcalls
    obtain ⟨again, hagain, hsame⟩ := ih hrest hcalls
      (offset + ({ key := raw.key, args, position := raw.position } : Call).written.length)
    have hspelled := Arg.ofTexts_spelled hargs hfirst
    refine ⟨{ key := raw.key, args, position := offset } :: again, ?_, ?_⟩
    · simp only [Call.spelled, resolveCalls, hspelled, hagain]
      rfl
    · rw [List.map_cons, List.map_cons, hsame]
      rfl

theorem keys_of_resolveCalls {c : Catalog} {group field : Text} {first : Bool}
    {raws : List RawCall} {calls : List Call}
    (hread : resolveCalls c group field first raws = .ok calls) :
    calls.map Call.key = raws.map RawCall.key := by
  induction raws generalizing first calls with
  | nil => cases hread; rfl
  | cons raw raws ih =>
    obtain ⟨args, -, hread⟩ := bind_eq_ok_iff.mp hread
    obtain ⟨rest, hrest, heq⟩ := bind_eq_ok_iff.mp hread
    cases heq
    rw [List.map_cons, List.map_cons, ih hrest]

/-- A reference that was read is read again as it is spelled, up to positions. -/
theorem resolve_spelled {c : Catalog} {raw : RawReference} {r : Reference}
    (hread : raw.resolve c = .ok r) (hargs : ∀ a ∈ r.args, a.isFinite = true) (offset : Nat) :
    ∃ again, (r.spelled offset).resolve c = .ok again ∧ again.unplaced = r.unplaced := by
  obtain ⟨calls, hcalls, heq⟩ := bind_eq_ok_iff.mp hread
  cases heq
  have hfinite : ∀ call ∈ calls, ∀ a ∈ call.args, a.isFinite = true :=
    fun call hcall a ha => hargs a (List.mem_flatMap.mpr ⟨call, hcall, ha⟩)
  obtain ⟨again, hagain, hsame⟩ := resolveCalls_spelled hcalls hfinite
    (offset + raw.group.length + raw.field.length + 3)
  refine ⟨{ group := raw.group, field := raw.field, calls := again, position := offset }, ?_, ?_⟩
  · simp only [Reference.spelled, resolve, hagain]
    rfl
  · simp only [Reference.unplaced, hsame]

end RawReference

theorem Grammar.Calls.isName_key {offset : Nat} {s : Text} {raws : List RawCall}
    (hderived : Grammar.Calls offset s raws) : ∀ raw ∈ raws, Lexeme.isName raw.key = true := by
  induction hderived with
  | nil => simp
  | call hkey _ _ ih => exact List.forall_mem_cons.mpr ⟨hkey, ih⟩

/-- A reference that was read is well named. -/
theorem Grammar.Reference.wellNamed {c : Catalog} {offset : Nat} {s : Text} {raw : RawReference}
    {r : TagText.Reference} (hderived : Grammar.Reference offset s raw)
    (hread : raw.resolve c = .ok r) : r.WellNamed := by
  obtain ⟨calls, hcalls, heq⟩ := bind_eq_ok_iff.mp hread
  cases heq
  have hkeys := RawReference.keys_of_resolveCalls hcalls
  cases hderived with
  | intro hgroup hfield hchain =>
    refine ⟨hgroup, hfield, fun call hcall => ?_⟩
    have hmem : call.key ∈ calls.map Call.key := List.mem_map_of_mem hcall
    rw [hkeys] at hmem
    obtain ⟨found, hfound, hkey⟩ := List.mem_map.mp hmem
    rw [← hkey]
    exact hchain.isName_key found hfound

end TagText
