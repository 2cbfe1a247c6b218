import TagText.Proofs.Reading.Streams
import TagText.Proofs.Writing.Writable

/-!
Reading the front of an expression. Cutting an expression off can break its last reference, but the
calls that are complete in front of the cut are the first ones of the whole. So the front of what
can be read can be read: an overlong integer stays in place whatever the expression goes on with.
-/

namespace TagText

open Lexeme TagText.Symbol

/-- What is complete at the front of a chain is derivable. -/
theorem Grammar.exists_calls (s : Text) (place : Cursor) :
    ∃ raw tail, s = raw ++ tail ∧
      Calls place.offset raw (Outline.calls (placed place (ofChain s).1)).1 := by
  induction s using chain_induction generalizing place with
  | none s hnone =>
    refine ⟨[], s, rfl, ?_⟩
    rw [ofChain_none hnone, placed, Outline.calls_of_not_startsCall rfl]
    exact .nil
  | call word inner hname ih =>
    rw [ofChain_call hname, ← callPieces, placed_append]
    obtain ⟨hstarts, start, hcall⟩ := call?_placed place word (ofArguments inner).1
      (endList_placed_ofChain (place.past (rawText (callPieces word (ofArguments inner).1)))
        (ofArguments inner).2)
    cases harguments : Outline.arguments? (placed start (ofArguments inner).1) with
    | none =>
      rw [harguments] at hcall
      rw [Outline.calls_of_broken hstarts hcall]
      exact ⟨[], _, rfl, .nil⟩
    | some list =>
      obtain ⟨args, after⟩ := list
      rw [harguments] at hcall
      obtain ⟨rfl, raw, htext, hderived⟩ := arguments_of_read harguments
      obtain ⟨chain, tail, hchain, hcalls⟩ :=
        ih (place.past (rawText (callPieces word (ofArguments inner).1)))
      have hraw : rawText (ofArguments inner).1 = raw :=
        List.append_cancel_right ((rawText_ofArguments inner).trans htext)
      have hoffset := offset_past_callPieces place word (ofArguments inner).1
      rw [hraw] at hoffset
      rw [Outline.calls_of_call hstarts hcall]
      refine ⟨'.' :: word ++ '(' :: (raw ++ chain), tail, ?_,
        .call hname hderived (hoffset ▸ hcalls)⟩
      simp only [List.cons_append, List.append_assoc]
      rw [← hchain, ← htext]

/-- The complete calls of a chain are the first ones of every longer chain. -/
theorem Outline.calls_prefix {place other : Cursor} (hother : other.offset = place.offset)
    (s tail : Text) :
    (calls (placed place (ofChain s).1)).1 <+:
      (calls (placed other (ofChain (s ++ tail)).1)).1 := by
  obtain ⟨raw, more, rfl, hcalls⟩ := Grammar.exists_calls s place
  obtain ⟨pieces, -, -, hchain, hread⟩ := hcalls.reads
  have hlonger := (hread other _ hother
    (Grammar.endList_placed_ofChain (other.past (rawText pieces)) (more ++ tail))).2
  have hwhole := hchain (more ++ tail)
  rw [← List.append_assoc] at hwhole
  rw [hwhole, placed_append, hlonger]
  exact List.prefix_append _ _

namespace RawReference

theorem exists_of_resolveCalls_append {c : Catalog} {group field : Text} {first : Bool}
    {raws more : List RawCall} {calls : List Call}
    (hread : resolveCalls c group field first (raws ++ more) = .ok calls) :
    ∃ front, resolveCalls c group field first raws = .ok front := by
  induction raws generalizing first calls with
  | nil => exact ⟨[], rfl⟩
  | cons raw raws ih =>
    obtain ⟨args, hargs, hrest⟩ := bind_eq_ok_iff.mp hread
    obtain ⟨rest, hmore, -⟩ := bind_eq_ok_iff.mp hrest
    obtain ⟨front, hfront⟩ := ih hmore
    exact ⟨_, bind_eq_ok_iff.mpr ⟨args, hargs, bind_eq_ok_iff.mpr ⟨front, hfront, rfl⟩⟩⟩

end RawReference

variable {c : Catalog} {offset : Nat}

/-- What is complete of a reference can be read if it can be read with whatever follows. -/
theorem exists_resolve_of_longer {place : Cursor} {word inner tail : Text} {r : Reference}
    (hread : (Outline.reference offset
      (placed place (ofReference word (inner ++ tail)).1.tail)).1.resolve c = .ok r) :
    ∃ found, (Outline.reference offset (placed place (ofReference word inner).1.tail)).1.resolve c =
      .ok found := by
  induction inner using reference_cases with
  | broken key rest hkey hrest =>
    rw [ofReference_broken word hkey hrest]
    exact ⟨_, rfl⟩
  | closed key s hkey =>
    rw [List.append_assoc, List.cons_append, ofReference_closed word hkey] at hread
    rw [ofReference_closed word hkey]
    obtain ⟨next, hnext, hshort⟩ := Grammar.reference_placed place offset word key (ofChain s).1
    obtain ⟨other, hother, hlong⟩ :=
      Grammar.reference_placed place offset word key (ofChain (s ++ tail)).1
    have hshort := hshort []
    have hlong := hlong []
    rw [List.append_nil, List.append_nil] at hshort hlong
    rw [hlong] at hread
    rw [hshort]
    obtain ⟨more, hmore⟩ := Outline.calls_prefix (hother.trans hnext.symm) s tail
    obtain ⟨calls, hcalls, -⟩ := bind_eq_ok_iff.mp hread
    rw [← hmore] at hcalls
    obtain ⟨front, hfront⟩ := RawReference.exists_of_resolveCalls_append hcalls
    exact ⟨_, bind_eq_ok_iff.mpr ⟨front, hfront, rfl⟩⟩

/-- A part that starts with a reference can be read exactly when what is complete of it can be. -/
theorem Part.exists_resolve_ofRead_iff {content : Text} {r : RawReference} {complete : Bool} :
    (∃ node, (ofRead content r complete).resolve c = .ok node) ↔
      ∃ found, r.resolve c = .ok found := by
  constructor
  · rintro ⟨node, hnode⟩
    cases complete <;>
    · obtain ⟨found, hfound, -⟩ := bind_eq_ok_iff.mp hnode
      exact ⟨found, hfound⟩
  · rintro ⟨found, hfound⟩
    cases complete <;> exact ⟨_, bind_eq_ok_iff.mpr ⟨found, hfound, rfl⟩⟩

theorem exists_resolve_ofReference_iff {word inner : Text} :
    (∃ node, (Part.ofSegment offset (ofReference word inner).1).resolve c = .ok node) ↔
      ∃ r, (Outline.reference offset
        (placed { offset := offset + 1 } (ofReference word inner).1.tail)).1.resolve c = .ok r := by
  obtain ⟨tail, hshape, -⟩ := ofReference_shape word inner
  rw [hshape, Part.ofSegment, Part.exists_resolve_ofRead_iff]
  simp

/-- A text in which no reference opens can always be read. -/
theorem exists_partsRead_of_plain (c : Catalog) (offset : Nat) {s : Text} (hplain : Plain s) :
    ∃ nodes, PartsRead c offset s nodes := by
  by_cases hs : s = []
  · exact ⟨[], hs ▸ partsRead_nil.mpr rfl⟩
  · obtain ⟨texts, hread, -⟩ := (Loose.of_plain hs hplain c).partsRead offset
    exact ⟨texts, hread⟩

theorem Lexeme.plain_of_not_mem {s : Text} (hs : '@' ∉ s) : Plain s := by
  rintro t ht ⟨word, rest, -, rfl⟩
  exact hs (ht.subset (by simp))

/-- What a segment is over before may go on in such a way that the segment goes on too. This text
    is then the front of the opening of a modifier, which holds no sign of references. -/
theorem Lexeme.EndsBefore.append_or_plain {pieces : List Lexeme} {rest : Text} (hrest : rest ≠ [])
    (hends : EndsBefore pieces rest) (tail : Text) :
    EndsBefore pieces (rest ++ tail) ∨ Plain rest := by
  rw [or_iff_not_imp_right]
  intro hplain last hlast
  have hover := hends last hlast
  cases last with
  | text run =>
    rcases hover with hnil | hstarts
    · exact absurd hnil hrest
    · exact Or.inr (startsReference_append hstarts tail)
  | closeParen =>
    -- Only a chain can go on: the cut may stand inside the name of its next modifier.
    cases hopening : opening? '.' (rest ++ tail) with
    | none => exact hopening
    | some found =>
      have hname := (opening?_eq_some_iff.mp hopening).1
      obtain ⟨cut, -, hfront, -⟩ := exists_opening_eq_append hover hopening
      have hsign : '@' ∉ '.' :: (found.1 ++ ['(']) := by simp [not_mem_opening hname]
      refine absurd (plain_of_not_mem fun hmem => hsign ?_) hplain
      rw [← List.cons_append, hfront]
      exact List.mem_append_left cut hmem
  | field key =>
    obtain ⟨c, rest, rfl⟩ := List.exists_cons_of_ne_nil hrest
    exact hover
  | _ => exact absurd hover hrest

/-- The reference that an expression starts with can be read if the expression can be. -/
theorem exists_resolve_of_partsRead {word inner : Text} (hname : isName word = true)
    {nodes : List Node} (hread : PartsRead c offset ('@' :: word ++ '(' :: inner) nodes) :
    ∃ node, (Part.ofSegment offset (ofReference word inner).1).resolve c = .ok node := by
  obtain ⟨hover, body, -, hlocal⟩ := ofReference_local word inner
  have hsegment : Segment (ofReference word inner).1 := by
    have hbody := hlocal [] fun last _ => endsBefore_nil last
    rw [List.append_nil] at hbody
    simpa [hbody] using Segment.reference word body hname (by rw [hbody])
  rw [← rawText_ofReference word inner, partsRead_segment hsegment hover] at hread
  obtain ⟨node, -, hnode, -, -⟩ := hread
  exact ⟨node, hnode⟩

/-- The front of what can be read can be read. -/
theorem exists_partsRead_of_append {s tail : Text} {nodes : List Node}
    (hread : PartsRead c offset (s ++ tail) nodes) : ∃ front, PartsRead c offset s front := by
  induction s using segment_induction generalizing offset nodes with
  | nil => exact ⟨[], partsRead_nil.mpr rfl⟩
  | segment pieces rest hsegment hends ih =>
    rw [List.append_assoc] at hread
    -- The segment need not end where it does in front of the cut, so the part that it gives in the
    -- whole may be another one. What is complete of it here is read there as well.
    obtain ⟨node, hnode⟩ : ∃ node, (Part.ofSegment offset pieces).resolve c = .ok node := by
      cases hsegment with
      | literal run => exact ⟨_, rfl⟩
      | reference word inner hname hwhole =>
        rw [rawText_of_whole hwhole, List.append_assoc, List.cons_append] at hread
        obtain ⟨whole, hlonger⟩ := exists_resolve_of_partsRead hname hread
        obtain ⟨r, hr⟩ := exists_resolve_ofReference_iff.mp ⟨whole, hlonger⟩
        exact exists_resolve_ofReference_iff.mpr (exists_resolve_of_longer hr)
    obtain ⟨more, hmore⟩ : ∃ more, PartsRead c (offset + (rawText pieces).length) rest more := by
      by_cases hrest : rest = []
      · exact ⟨[], hrest ▸ partsRead_nil.mpr rfl⟩
      · rcases hends.append_or_plain hrest tail with hover | hplain
        · obtain ⟨-, others, -, hothers, -⟩ := (partsRead_segment hsegment hover).mp hread
          exact ih hothers
        · exact exists_partsRead_of_plain c _ hplain
    exact ⟨node :: more, (partsRead_segment hsegment hends).mpr ⟨node, more, hnode, hmore, rfl⟩⟩

/-- Whatever an expression goes on with, it can be read if the whole can be read. -/
theorem Reading.exists_ofExpression_of_append {s tail : Text} {reading : Reading}
    (hread : ofExpression c (s ++ tail) = .ok reading) :
    ∃ front, ofExpression c s = .ok front := by
  obtain ⟨nodes, hnodes, -⟩ := ofExpression_eq_ok_iff.mp hread
  obtain ⟨front, hfront⟩ := exists_partsRead_of_append hnodes
  exact ⟨_, ofExpression_eq_ok_iff.mpr ⟨front, hfront, rfl⟩⟩

/-- Whether a text is written as an integer with more digits than are accepted. -/
def Arg.IsOverlong (s : Text) : Prop :=
  ∃ negative digits, Numeral.ofText? (s.trim isSpace) = some (.integer negative digits) ∧
    maxIntegerDigits < digits.length

/-- Whether an expression holds an overlong integer where the catalog declares a number, in a
    reference or in what is complete of a broken one. -/
def HoldsOverlong (c : Catalog) (expression : Text) : Prop :=
  ∃ part ∈ partsOf expression, ∃ r ∈ part.started?, ∃ s, r.IsNumber c s ∧ Arg.IsOverlong s

theorem Arg.ofNumberText_eq_error_iff {s : Text} {e : ConversionError} :
    ofNumberText s = .error e ↔ IsOverlong s := by
  rw [ofNumberText, IsOverlong]
  cases e
  cases hnumeral : Numeral.ofText? (s.trim isSpace) with
  | none => simp
  | some numeral =>
    cases numeral with
    | integer negative digits =>
      simp only
      split <;> simp <;> omega
    | decimal => simp

/-- An expression is refused exactly when it holds an overlong integer. -/
theorem Reading.ofExpression_eq_error_iff {s : Text} {e : ConversionError} :
    ofExpression c s = .error e ↔ HoldsOverlong c s := by
  simp only [ofExpression, ofSymbols, Outline.resolve_eq_error_iff,
    RawReference.resolve_eq_error_iff, Arg.ofNumberText_eq_error_iff]
  rfl

theorem HoldsOverlong.append {s : Text} (hoverlong : HoldsOverlong c s) (tail : Text) :
    HoldsOverlong c (s ++ tail) := by
  cases hread : Reading.ofExpression c (s ++ tail) with
  | error e => exact Reading.ofExpression_eq_error_iff.mp hread
  | ok reading =>
    obtain ⟨front, hfront⟩ := Reading.exists_ofExpression_of_append hread
    have herror := (Reading.ofExpression_eq_error_iff (e := .overlongInteger)).mpr hoverlong
    rw [hfront] at herror
    cases herror

end TagText
