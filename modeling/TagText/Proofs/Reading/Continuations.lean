import TagText.Proofs.Reading.Expressions
import TagText.Proofs.Reading.Places

/-!
What is added to the end of an expression. A call without arguments goes to the chain of the
reference that the expression ends in, and a reference behind an expression that breaks off nowhere
becomes one more node. Everything in front is read as before.
-/

namespace TagText

open Lexeme Node

namespace Grammar

variable {offset : Nat} {s key : Text}

/-- A chain with a call without arguments behind it. -/
theorem Calls.append_call {calls : List RawCall} (hcalls : Calls offset s calls)
    (hkey : isName key = true) :
    Calls offset (s ++ '.' :: key ++ ['(', ')'])
      (calls ++ [{ key, args := [], position := offset + s.length }]) := by
  induction hcalls with
  | @nil offset =>
    have hcall := @Calls.call offset key _ _ _ _ hkey (.none Blank.nil) .nil
    simpa using hcall
  | @call offset word inner rest args calls hword harguments _ ih =>
    have hcall := Calls.call hword harguments ih
    have hposition : offset + ('.' :: word ++ '(' :: (inner ++ rest)).length =
        offset + word.length + inner.length + 2 + rest.length := by
      simp only [List.length_append, List.length_cons]
      omega
    rw [hposition]
    simpa using hcall

/-- A reference with a call without arguments behind it. -/
theorem Reference.append_call {raw : RawReference} (hderived : Reference offset s raw)
    (hkey : isName key = true) :
    Reference offset (s ++ '.' :: key ++ ['(', ')'])
      { raw with
        calls := raw.calls ++ [{ key, args := [], position := offset + s.length }] } := by
  cases hderived with
  | @intro group field chain calls hgroup hfield hcalls =>
    have hlonger := Reference.intro hgroup hfield (hcalls.append_call hkey)
    have hposition : offset + ('@' :: group ++ '(' :: (field ++ ')' :: chain)).length =
        offset + group.length + field.length + 3 + chain.length := by
      simp only [List.length_append, List.length_cons]
      omega
    simp only [hposition]
    simpa using hlonger

/-- A derivation starts with the sign of references. -/
theorem Reference.atSignOrEnd {raw : RawReference} (hderived : Reference offset s raw) :
    atSignOrEnd s :=
  atSignOrEnd_of_startsReference hderived.startsReference

end Grammar

namespace RawReference

theorem resolveCalls_append_call {c : Catalog} {group field : Text} {first : Bool}
    {raws : List RawCall} {calls : List Call}
    (hread : resolveCalls c group field first raws = .ok calls) (key : Text) (position : Nat) :
    resolveCalls c group field first (raws ++ [{ key, args := [], position }]) =
      .ok (calls ++ [{ key, args := [], position }]) := by
  induction raws generalizing first calls with
  | nil =>
    cases hread
    have hargs : Arg.ofTexts (((c.declaration? group field first key).map Modifier.params).getD [])
        [] = .ok [] := Arg.ofTexts_eq_ok_iff.mpr rfl
    exact bind_eq_ok_iff.mpr ⟨[], hargs, rfl⟩
  | cons raw raws ih =>
    obtain ⟨args, hargs, hrest⟩ := bind_eq_ok_iff.mp hread
    obtain ⟨more, hmore, hdone⟩ := bind_eq_ok_iff.mp hrest
    cases hdone
    exact bind_eq_ok_iff.mpr ⟨args, hargs, bind_eq_ok_iff.mpr ⟨_, ih hmore, rfl⟩⟩

/-- A call without arguments is read as it stands. -/
theorem resolve_append_call {c : Catalog} {raw : RawReference} {r : Reference}
    (hread : raw.resolve c = .ok r) (key : Text) (position : Nat) :
    ({ raw with calls := raw.calls ++ [{ key, args := [], position }] } : RawReference).resolve c =
      .ok { r with calls := r.calls ++ [{ key, args := [], position }] } := by
  obtain ⟨calls, hcalls, hdone⟩ := bind_eq_ok_iff.mp hread
  cases hdone
  exact bind_eq_ok_iff.mpr ⟨_, resolveCalls_append_call hcalls key position, rfl⟩

end RawReference

theorem Node.startsText_append_reference (nodes : List Node) (r : Reference) :
    startsText (nodes ++ [.reference r]) = startsText nodes := by
  rcases nodes with _ | ⟨_ | _, _⟩ <;> rfl

namespace Cut

variable {c : Catalog} {offset broken : Nat} {s : Text} {nodes : List Node}

/-- A cut that ends in a reference can end in any other one that is derived in its place. -/
theorem replace_last {r : Reference} (hcut : Cut c offset s (nodes ++ [.reference r]) broken) :
    ∃ (front last : Text) (raw : RawReference), s = front ++ last ∧
      Grammar.Reference (offset + front.length) last raw ∧ raw.resolve c = .ok r ∧
      ∀ {other : Text} {again : RawReference} {found : Reference},
        Grammar.Reference (offset + front.length) other again → again.resolve c = .ok found →
        Cut c offset (front ++ other) (nodes ++ [.reference found]) broken := by
  induction nodes generalizing offset s broken with
  | nil =>
    cases hcut with
    | @reference _ _ last rest _ raw _ hderived hraw _ hrest =>
      cases hrest
      refine ⟨[], last, raw, List.append_nil last, hderived, hraw, fun hother hagain => ?_⟩
      have hcut := Cut.reference hother hagain rfl .nil
      rwa [List.append_nil] at hcut
  | cons node nodes ih =>
    cases hcut with
    | @text _ broken content rest _ hloose hstarts hopen hcut =>
      obtain ⟨front, last, raw, rfl, hderived, hraw, hreplace⟩ := ih hcut
      rw [Nat.add_assoc, ← List.length_append] at hderived hreplace
      have hlast : front ++ last ≠ [] := by
        intro hnil
        rw [(List.append_eq_nil_iff.mp hnil).2] at hderived
        cases hderived
      refine ⟨content ++ front, last, raw, (List.append_assoc ..).symm, hderived, hraw,
        fun hother hagain => ?_⟩
      rw [List.append_assoc]
      refine .text hloose ?_ (fun _ => hopen hlast) (hreplace hother hagain)
      exact ((startsText_append_reference nodes _).trans
        (startsText_append_reference nodes r).symm).trans hstarts
    | @reference _ broken content rest _ first _ hfirst hfirstRaw hnext hcut =>
      obtain ⟨front, last, raw, rfl, hderived, hraw, hreplace⟩ := ih hcut
      rw [Nat.add_assoc, ← List.length_append] at hderived hreplace
      refine ⟨content ++ front, last, raw, (List.append_assoc ..).symm, hderived, hraw,
        fun {other} _ _ hother hagain => ?_⟩
      rw [List.append_assoc]
      refine .reference hfirst hfirstRaw ?_ (hreplace hother hagain)
      by_cases hfront : front = []
      · rw [hfront]
        exact opening?_dot_of_atSignOrEnd hother.atSignOrEnd
      · exact opening?_append_atSignOrEnd hfront hother.atSignOrEnd
          (opening?_eq_none_of_append hnext)

/-- A reference goes behind a cut of a text that leaves no list of arguments open. -/
theorem append_reference (hcut : Cut c offset s nodes broken) (hopen : leavesOpen s = false)
    {last : Text} {raw : RawReference} {r : Reference}
    (hderived : Grammar.Reference (offset + s.length) last raw) (hraw : raw.resolve c = .ok r) :
    Cut c offset (s ++ last) (nodes ++ [.reference r]) broken := by
  induction hcut with
  | nil =>
    have hlast := Cut.reference hderived hraw rfl .nil
    rwa [List.append_nil] at hlast
  | @text offset broken content rest nodes hloose hstarts hinner hcut ih =>
    rw [List.length_append, ← Nat.add_assoc] at hderived
    have hclosed : leavesOpen content = false ∧ leavesOpen rest = false := by
      by_cases hrest : rest = []
      · subst hrest
        rw [List.append_nil] at hopen
        exact ⟨hopen, by rw [leavesOpen, ofExpression_nil]; rfl⟩
      · have hends := endsBefore_of_not_leavesOpen (hinner hrest) (hcut.referenceOrEnd hstarts)
        rw [leavesOpen_append hrest hends] at hopen
        exact ⟨hinner hrest, hopen⟩
    rw [List.append_assoc]
    refine .text hloose ?_ (fun _ => hclosed.1) (ih hclosed.2 hderived)
    exact (startsText_append_reference nodes r).trans hstarts
  | @reference offset broken content rest nodes first _ hfirst hfirstRaw hnext hcut ih =>
    rw [List.length_append, ← Nat.add_assoc] at hderived
    rw [List.append_assoc]
    by_cases hrest : rest = []
    · subst hrest
      have hempty : leavesOpen [] = false := by
        rw [leavesOpen, ofExpression_nil]
        rfl
      exact .reference hfirst hfirstRaw (opening?_dot_of_atSignOrEnd hderived.atSignOrEnd)
        (ih hempty hderived)
    · rw [leavesOpen_append hrest (hfirst.endsBefore hnext)] at hopen
      exact .reference hfirst hfirstRaw
        (opening?_append_atSignOrEnd hrest hderived.atSignOrEnd hnext) (ih hopen hderived)

end Cut

/-- A text without broken references leaves no list of arguments open. -/
theorem leavesOpen_of_brokenCount {s : Text} (hbroken : brokenCount s = 0) :
    leavesOpen s = false := by
  induction s using segment_induction with
  | nil =>
    rw [leavesOpen, ofExpression_nil]
    rfl
  | segment pieces rest hsegment hends ih =>
    have hwhole := hsegment.ofExpression_eq
    rw [brokenCount_append (by rwa [hwhole])] at hbroken
    obtain ⟨hfirst, hrest⟩ := Nat.add_eq_zero_iff.mp hbroken
    by_cases hnil : rest = []
    · subst hnil
      rw [List.append_nil, leavesOpen, hwhole]
      cases hsegment with
      | literal run => rfl
      | reference word inner hname hover =>
        obtain ⟨raw, hderived⟩ := exists_reference_of_brokenCount hname hover hfirst
        have hclosed := hderived.closed (.reference word inner hname hover)
        rw [show (ofReference word inner).1.getLast? = some closeParen from hclosed]
    · rw [leavesOpen_append hnil (by rwa [hwhole])]
      exact ih hrest

namespace Reading

variable {c : Catalog} {s : Text} {reading : Reading}

/-- A call without arguments behind an expression that ends in a reference is the last of that
    reference's chain. -/
theorem ofExpression_append_call {nodes : List Node} {r : Reference}
    (hread : ofExpression c s = .ok reading)
    (hnodes : reading.document.nodes = nodes ++ [.reference r]) {key : Text}
    (hkey : isName key = true) :
    ofExpression c (s ++ '.' :: key ++ ['(', ')']) = .ok
      { document :=
          { nodes := nodes ++
              [.reference
                { r with calls := r.calls ++ [{ key, args := [], position := s.length }] }] }
        brokenCount := reading.brokenCount } := by
  obtain ⟨-, hcut⟩ := ofExpression_eq_ok_iff_cut.mp hread
  rw [hnodes] at hcut
  obtain ⟨front, last, raw, rfl, hderived, hraw, hreplace⟩ := hcut.replace_last
  have hlonger := hderived.append_call hkey
  have hposition : 0 + front.length + last.length = (front ++ last).length := by simp
  rw [hposition] at hlonger
  have hagain := hreplace hlonger (RawReference.resolve_append_call hraw key _)
  refine ofExpression_eq_ok_iff_cut.mpr ⟨rfl, ?_⟩
  simpa using hagain

/-- A reference behind an expression without broken references is read as one more node. -/
theorem ofExpression_append_reference (hread : ofExpression c s = .ok reading)
    (hbroken : reading.brokenCount = 0) {last : Text} {raw : RawReference} {r : Reference}
    (hderived : Grammar.Reference s.length last raw) (hraw : raw.resolve c = .ok r) :
    ofExpression c (s ++ last) = .ok
      { document := { nodes := reading.document.nodes ++ [.reference r] }, brokenCount := 0 } := by
  obtain ⟨-, hcut⟩ := ofExpression_eq_ok_iff_cut.mp hread
  rw [hbroken] at hcut
  have hopen := leavesOpen_of_brokenCount hcut.partsRead.1.symm
  rw [← Nat.zero_add s.length] at hderived
  exact ofExpression_eq_ok_iff_cut.mpr ⟨rfl, hcut.append_reference hopen hderived hraw⟩

end Reading

end TagText
