import TagText.Proofs.Stored.Enclosure
import TagText.Proofs.Writing.Finite

/-!
Stored values that are read, written and read again. Between the markers, canonical text can hold a
close marker that the value did not hold, and then the expression ends too early.
-/

namespace TagText

/-- Whether an argument comes back when it is stored: an infinite number comes back as a text, and a
    text that holds the close marker ends the expression. -/
def Arg.isStorable (a : Arg) : Bool := a.isFinite && !a.holdsMarker

namespace Region

/-- A text in markers has parts, though they need not be the ones it was made of. -/
theorem exists_ofValue?_marked (s trailing : Text) :
    ∃ region, ofValue? (openMarker ++ s ++ closeMarker ++ trailing) = some region := by
  rw [List.append_assoc, List.append_assoc, ofValue?_openMarker, ← List.append_assoc]
  cases hcut : Text.cut? closeMarker (s ++ closeMarker ++ trailing) with
  | none => exact absurd (List.infix_append s closeMarker trailing) (Text.cut?_eq_none_iff.mp hcut)
  | some found => exact ⟨{ expression := found.1, trailing := found.2 }, rfl⟩

theorem length_trailing_lt {s trailing : Text} {region : Region} (hs : closeMarker <:+: s)
    (hregion : ofValue? (openMarker ++ s ++ closeMarker ++ trailing) = some region) :
    trailing.length < region.trailing.length := by
  obtain ⟨hvalue, hfree⟩ := ofValue?_eq_some_iff.mp hregion
  have hinner : s ++ (closeMarker ++ trailing) =
      region.expression ++ (closeMarker ++ region.trailing) := by
    simpa [value] using hvalue
  have hshort : region.expression.length < s.length := by
    by_contra hle
    have hprefix : s <+: region.expression :=
      List.prefix_of_prefix_length_le ⟨_, hinner⟩ (List.prefix_append _ _) (Nat.not_lt.mp hle)
    exact hfree (hs.trans hprefix.isInfix)
  have hlength := congrArg List.length hinner
  simp only [List.length_append] at hlength
  omega

end Region

/-- Without references, an expression is one text, or nothing. -/
theorem Cut.nodes_of_not_hasReferences {c : Catalog} {offset broken : Nat} {s trailing : Text}
    {nodes : List Node} (hcut : Cut c offset s nodes broken)
    (hnone : ({ nodes, trailing } : Document).hasReferences = false) :
    nodes = if s.isEmpty then [] else [.text s offset] := by
  cases hcut with
  | nil => rfl
  | reference => simp [Document.hasReferences, Node.reference?] at hnone
  | @text _ broken s rest nodes hloose hnodes _ hcut =>
    cases hcut with
    | nil => simp [hloose.1]
    | text => cases hnodes
    | reference => simp [Document.hasReferences, Node.reference?] at hnone

/-- A document of one text, or of none, is stored as that text. -/
theorem Document.stored_text (s : Text) (position : Int) :
    ({ nodes := if s.isEmpty then [] else [.text s position] } : Document).stored = s := by
  cases s <;> simp [stored, hasReferences, Node.reference?, expression, Node.written]

namespace Reading

variable {c : Catalog}

theorem ofValue_stored_text {s : Text} (hnone : Region.ofValue? s = none) {d : Document}
    {position : Int} (hd : d = { nodes := if s.isEmpty then [] else [.text s position] }) :
    ∃ again, ofValue c d.stored = .ok again ∧ again.document.equals d = true := by
  have hstored : d.stored = s := by rw [hd, Document.stored_text]
  rw [hstored]
  refine ⟨_, ofValue_literal hnone c, ?_⟩
  cases s <;> simp [hd, Document.equals, equalLists, Node.equals]

/-- An expression in markers comes back when the first close marker is still its own and its numbers
    are finite. -/
theorem ofValue_marked_iff {offset broken : Nat} {s : Text} {d : Document}
    (hcut : Cut c offset s d.nodes broken) (hs : ¬ closeMarker <:+: s) :
    (∃ again, ofValue c (openMarker ++ d.expression ++ closeMarker ++ d.trailing) = .ok again ∧
      again.document.equals d = true) ↔ ∀ a ∈ d.args, a.isStorable = true := by
  have hmarker : closeMarker <:+: d.expression ↔ ∃ a ∈ d.args, a.holdsMarker = true :=
    hcut.closeMarker_written_iff hs
  have hfinite : SettledEqually c d.nodes ↔ ∀ a ∈ d.args, a.isFinite = true :=
    hcut.settledEqually_iff
  by_cases hinner : closeMarker <:+: d.expression
  · refine iff_of_false ?_ fun hstorable => ?_
    · rintro ⟨again, hagain, hequal⟩
      obtain ⟨region, hregion⟩ := Region.exists_ofValue?_marked d.expression d.trailing
      have hlonger := Region.length_trailing_lt hinner hregion
      obtain ⟨htrailing, -⟩ := (ofValue_eq_ok_iff_cut hregion).mp hagain
      simp only [Document.equals, Bool.and_eq_true, beq_iff_eq] at hequal
      rw [← htrailing, hequal.2] at hlonger
      exact Nat.lt_irrefl _ hlonger
    · obtain ⟨a, ha, hholds⟩ := hmarker.mp hinner
      have hstored := hstorable a ha
      simp [Arg.isStorable, hholds] at hstored
  · have hregion : Region.ofValue? (openMarker ++ d.expression ++ closeMarker ++ d.trailing) =
        some { expression := d.expression, trailing := d.trailing } :=
      Region.ofValue?_eq_some_iff.mpr ⟨rfl, hinner⟩
    have hfree : ∀ a ∈ d.args, a.holdsMarker = false := by
      simpa [hmarker] using hinner
    have hstorable : (∀ a ∈ d.args, a.isStorable = true) ↔ ∀ a ∈ d.args, a.isFinite = true :=
      forall₂_congr fun a ha => by simp [Arg.isStorable, hfree a ha]
    rw [hstorable, ← hfinite, settledEqually_iff hcut.normal hcut.wellNamed openMarker.length]
    constructor
    · rintro ⟨again, hagain, hequal⟩
      simp only [Document.equals, Bool.and_eq_true, beq_iff_eq] at hequal
      exact ⟨_, _, ((ofValue_eq_ok_iff_cut hregion).mp hagain).2, hequal.1⟩
    · rintro ⟨nodes, count, hagain, hequal⟩
      refine ⟨{ document := { nodes, trailing := d.trailing }, brokenCount := count },
        (ofValue_eq_ok_iff_cut hregion).mpr ⟨rfl, hagain⟩, ?_⟩
      simp [Document.equals, hequal]

/-- The stored form of what was read of a value is read as the same document exactly when no
    argument is an infinite number or a text with a close marker in it. -/
theorem ofValue_stored_iff {v : Text} {reading : Reading} (hread : ofValue c v = .ok reading) :
    (∃ again, ofValue c reading.document.stored = .ok again ∧
      again.document.equals reading.document = true) ↔
    ∀ a ∈ reading.document.args, a.isStorable = true := by
  cases hregion : Region.ofValue? v with
  | none =>
    rw [ofValue_literal hregion] at hread
    cases hread
    refine iff_of_true (ofValue_stored_text hregion rfl) ?_
    cases v <;> simp [Document.args, Document.references, Node.reference?]
  | some region =>
    obtain ⟨htrailing, hcut⟩ := (ofValue_eq_ok_iff_cut hregion).mp hread
    have hfree := (Region.ofValue?_eq_some_iff.mp hregion).2
    cases hshape : (reading.document.hasReferences || !reading.document.trailing.isEmpty) with
    | true =>
      rw [Document.stored, if_pos hshape]
      exact ofValue_marked_iff hcut hfree
    | false =>
      -- The markers are left out, and what they held is a literal value of its own.
      obtain ⟨hnone, hempty⟩ := by simpa using hshape
      have hdocument : reading.document = { nodes := if region.expression.isEmpty then [] else
          [.text region.expression openMarker.length] } := by
        obtain ⟨⟨nodes, trailing⟩, broken⟩ := reading
        obtain rfl : trailing = [] := hempty
        exact congrArg (Document.mk · []) (hcut.nodes_of_not_hasReferences hnone)
      refine iff_of_true (ofValue_stored_text (Region.ofValue?_eq_none hfree) hdocument) ?_
      rw [hdocument]
      split <;> simp [Document.args, Document.references, Node.reference?]

/-- A backslash keeps an argument from ending the expression, and goes when the argument is
    written. -/
theorem not_ofValue_stored_of_marker :
    ∃ reading, ofValue {} "@tags()@post(title).append('@endtags\\()')@endtags()".toList =
        .ok reading ∧
      ¬ ∃ again, ofValue {} reading.document.stored = .ok again ∧
        again.document.equals reading.document = true := by
  let call : Call := { key := "append".toList, args := [.text "@endtags()".toList], position := 19 }
  let r : Reference :=
    { group := "post".toList, field := "title".toList, calls := [call], position := 7 }
  have hread : ofValue {} "@tags()@post(title).append('@endtags\\()')@endtags()".toList =
      .ok { document := { nodes := [.reference r] }, brokenCount := 0 } := by decide +kernel
  refine ⟨_, hread, ?_⟩
  rw [ofValue_stored_iff hread]
  decide

end Reading

end TagText
