import TagText.Proofs.Grammar.Reads
import TagText.Proofs.Lexing.Segments
import TagText.Proofs.Outline.Ends

/-!
Chains and references are read as the grammar says, in both directions.
-/

namespace TagText

/-- Symbols that cannot go on with an argument list. -/
def Outline.EndList (symbols : List Symbol) : Prop :=
  ∀ s ∈ symbols.head?, s.kind.inList = false

theorem Outline.arguments?_append_endList {more : List Symbol} (hmore : EndList more)
    (symbols : List Symbol) :
    arguments? (symbols ++ more) =
      (arguments? symbols).map fun (args, rest) => (args, rest ++ more) := by
  cases more with
  | nil =>
    simp only [List.append_nil]
    cases arguments? symbols <;> rfl
  | cons s more => exact arguments?_append (hmore s rfl) symbols more

namespace Grammar

open Lexeme Outline TagText.Symbol

/-- The pieces of a call. -/
def callPieces (key : Text) (arguments : List Lexeme) : List Lexeme :=
  .dot :: .name key :: .openParen :: arguments

/-- A call is read from its own pieces, with what is read of its argument list. -/
theorem call?_placed (place : Cursor) (key : Text) (arguments : List Lexeme) {more : List Symbol}
    (hmore : EndList more) :
    startsCall (placed place (callPieces key arguments) ++ more) = true ∧
      ∃ start, call? (placed place (callPieces key arguments) ++ more) =
        (arguments? (placed start arguments)).map fun (args, rest) =>
          ({ key, args, position := place.offset }, rest ++ more) := by
  refine ⟨rfl, ((place.past ['.']).past key).past ['('], ?_⟩
  have happend := arguments?_append_endList hmore
    (placed (((place.past ['.']).past key).past ['(']) arguments)
  simp only [callPieces, placed, symbol?, raw, List.cons_append, call?, happend]
  cases arguments? (placed (((place.past ['.']).past key).past ['(']) arguments) <;> rfl

theorem rawText_callPieces (key : Text) (arguments : List Lexeme) :
    rawText (callPieces key arguments) = '.' :: key ++ '(' :: rawText arguments := by
  simp [callPieces, raw]

theorem offset_past_callPieces (place : Cursor) (key : Text) (arguments : List Lexeme) :
    (place.past (rawText (callPieces key arguments))).offset =
      place.offset + key.length + (rawText arguments).length + 2 := by
  rw [Cursor.offset_past, rawText_callPieces]
  simp only [List.length_append, List.length_cons]
  omega

theorem endList_placed_ofChain (place : Cursor) (s : Text) :
    EndList (placed place (ofChain s).1) := by
  induction s using chain_induction with
  | none s hnone => simp [ofChain_none hnone, placed, EndList]
  | call word inner hname ih =>
    rw [ofChain_call hname]
    simp [EndList, placed, symbol?, SymbolKind.inList, SymbolKind.isArgument]

/-- What is read as a chain is derivable, its lists are closed, and none of its symbols is left
    over. -/
theorem calls_of_read {s : Text} {place : Cursor} {found : List RawCall} {rest : List Symbol}
    (hread : Outline.calls (placed place (ofChain s).1) = (found, some rest)) :
    rest = [] ∧ Closed (closeParen :: (ofChain s).1) ∧
      ∃ raw, s = raw ++ (ofChain s).2 ∧ Calls place.offset raw found := by
  induction s using chain_induction generalizing place found rest with
  | none s hnone =>
    rw [ofChain_none hnone] at hread ⊢
    rw [placed, calls_of_not_startsCall rfl] at hread
    obtain ⟨rfl, rfl⟩ := by simpa using hread
    exact ⟨rfl, rfl, [], rfl, .nil⟩
  | call word inner hname ih =>
    rw [ofChain_call hname] at hread ⊢
    have hsplit := placed_append place (callPieces word (ofArguments inner).1)
      (ofChain (ofArguments inner).2).1
    rw [← callPieces, hsplit] at hread
    obtain ⟨hstarts, start, hcall⟩ := call?_placed place word (ofArguments inner).1
      (endList_placed_ofChain (place.past (rawText (callPieces word (ofArguments inner).1)))
        (ofArguments inner).2)
    cases harguments : arguments? (placed start (ofArguments inner).1) with
    | none =>
      rw [harguments] at hcall
      rw [calls_of_broken hstarts hcall] at hread
      cases hread
    | some list =>
      obtain ⟨args, after⟩ := list
      rw [harguments] at hcall
      rw [calls_of_call hstarts hcall] at hread
      obtain ⟨rfl, raw, htext, hderived⟩ := arguments_of_read harguments
      obtain ⟨rfl, hrest⟩ := Prod.mk.inj hread
      obtain ⟨hnil, hclosed, chain, hchain, hcalls⟩ := ih (Prod.ext rfl hrest)
      have hlist := (hderived.reads (ofArguments inner).2).closed
      rw [← htext] at hlist
      have hraw : rawText (ofArguments inner).1 = raw :=
        List.append_cancel_right ((rawText_ofArguments inner).trans htext)
      refine ⟨hnil, closed_call_iff.mpr ⟨hlist, hclosed⟩, '.' :: word ++ '(' :: (raw ++ chain), ?_,
        ?_⟩
      · simp only [List.cons_append, List.append_assoc]
        rw [← hchain, ← htext]
      · have hoffset := offset_past_callPieces place word (ofArguments inner).1
        rw [hraw] at hoffset
        exact .call hname hderived (hoffset ▸ hcalls)

/-- What a derivable chain is split into and what is read of it, whatever follows. -/
theorem Calls.reads {offset : Nat} {raw : Text} {found : List RawCall}
    (hcalls : Calls offset raw found) :
    ∃ pieces, rawText pieces = raw ∧ Closed (closeParen :: pieces) ∧
      (∀ tail, ofChain (raw ++ tail) = (pieces ++ (ofChain tail).1, (ofChain tail).2)) ∧
      ∀ (place : Cursor) (more : List Symbol), place.offset = offset → EndList more →
        EndList (placed place pieces ++ more) ∧
        Outline.calls (placed place pieces ++ more) =
          (found ++ (Outline.calls more).1, (Outline.calls more).2) := by
  induction hcalls with
  | nil => exact ⟨[], rfl, rfl, fun tail => rfl, fun place more _ hmore => ⟨hmore, rfl⟩⟩
  | @call offset key inner rest args calls hname harguments _ ih =>
    obtain ⟨pieces, hraw, hclosed, hchain, hread⟩ := ih
    have hlist := harguments.reads []
    rw [List.append_nil] at hlist
    have hinner : rawText (ofArguments inner).1 = inner := by
      have htile := rawText_ofArguments inner
      rwa [hlist.rest, List.append_nil] at htile
    refine ⟨callPieces key (ofArguments inner).1 ++ pieces, ?_, ?_, ?_, ?_⟩
    · simp [rawText_callPieces, hinner, hraw]
    · unfold Closed
      rw [callPieces, getLast?_call hlist.closed]
      exact hclosed
    · intro tail
      have hlocal := ofArguments_local hlist.closed (rest ++ tail)
      have hstep := ofChain_call hname (inner ++ (rest ++ tail))
      rw [hinner] at hlocal
      rw [hlocal, hchain] at hstep
      simpa [callPieces] using hstep
    · intro place more hplace hmore
      have hnext := offset_past_callPieces place key (ofArguments inner).1
      rw [hinner, hplace] at hnext
      obtain ⟨hend, hrest⟩ := hread _ more hnext hmore
      obtain ⟨hstarts, start, hcall⟩ := call?_placed place key (ofArguments inner).1 hend
      rw [hlist.read, hplace] at hcall
      rw [placed_append, List.append_assoc]
      refine ⟨?_, ?_⟩
      · simp [callPieces, placed, symbol?, EndList, SymbolKind.inList, SymbolKind.isArgument]
      · rw [calls_of_call hstarts hcall, List.nil_append, hrest]
        rfl

/-- The symbols of a closed reference behind its sign, with what is read of them. -/
theorem reference_placed (place : Cursor) (offset : Nat) (word key : Text) (chain : List Lexeme) :
    ∃ next : Cursor, next.offset = place.offset + word.length + key.length + 2 ∧
      ∀ more, Outline.reference offset
          (placed place (referenceHead word key ++ closeParen :: chain).tail ++ more) =
        ({ group := word, field := key, calls := (Outline.calls (placed next chain ++ more)).1
           position := offset }, (Outline.calls (placed next chain ++ more)).2) := by
  refine ⟨(((place.past word).past ['(']).past key).past [')'], ?_, fun more => rfl⟩
  simp only [Cursor.offset_past, List.length_singleton]
  omega

/-- What is read as a reference is derivable, and none of its symbols is left over. -/
theorem reference_of_read {word inner : Text} {place : Cursor} {offset : Nat} {r : RawReference}
    {rest : List Symbol} (hname : isName word = true) (hplace : place.offset = offset + 1)
    (hread : Outline.reference offset (placed place (ofReference word inner).1.tail) =
      (r, some rest)) :
    rest = [] ∧ Closed (ofReference word inner).1 ∧
      Reference offset (rawText (ofReference word inner).1) r := by
  induction inner using reference_cases with
  | closed key s hkey =>
    rw [ofReference_closed word hkey] at hread ⊢
    obtain ⟨next, hnext, hreference⟩ := reference_placed place offset word key (ofChain s).1
    have hwhole := hreference []
    rw [List.append_nil, List.append_nil] at hwhole
    obtain ⟨rfl, hrest⟩ := Prod.mk.inj (hwhole.symm.trans hread)
    obtain ⟨hnil, hclosed, raw, htext, hcalls⟩ := calls_of_read (Prod.ext rfl hrest)
    have hraw : rawText (ofChain s).1 = raw :=
      List.append_cancel_right ((rawText_ofChain s).trans htext)
    refine ⟨hnil, ?_, ?_⟩
    · unfold Closed
      rw [List.getLast?_append_of_ne_nil _ (by simp)]
      exact hclosed
    · have hoffset : next.offset = offset + word.length + key.length + 3 := by omega
      have hshape : rawText (referenceHead word key ++ closeParen :: (ofChain s).1) =
          '@' :: word ++ '(' :: (key ++ ')' :: raw) := by
        simp [referenceHead, Lexeme.raw, hraw]
      rw [hshape]
      exact .intro hname hkey (hoffset ▸ hcalls)
  | broken key rest hkey hrest =>
    rw [ofReference_broken word hkey hrest] at hread
    cases hread

/-- What a derivable reference is split into and what is read of it. -/
theorem Reference.reads {offset : Nat} {raw : Text} {r : RawReference}
    (hreference : Reference offset raw r) :
    ∃ pieces, Segment pieces ∧ rawText pieces = raw ∧ Closed pieces ∧
      ∀ place : Cursor, place.offset = offset + 1 →
        Outline.reference offset (placed place pieces.tail) = (r, some []) := by
  obtain ⟨hname, hfield, hcalls⟩ := hreference
  rename_i group field chain calls
  obtain ⟨pieces, hraw, hclosed, hchain, hread⟩ := hcalls.reads
  have hwhole := hchain []
  rw [List.append_nil, ofChain_none (s := []) rfl, List.append_nil] at hwhole
  have hpieces := ofReference_closed group hfield chain
  rw [hwhole] at hpieces
  refine ⟨referenceHead group field ++ closeParen :: pieces, ?_, ?_, ?_, ?_⟩
  · have hsegment := Segment.reference group (field ++ ')' :: chain) hname (by rw [hpieces])
    rwa [hpieces] at hsegment
  · simp [referenceHead, Lexeme.raw, hraw]
  · unfold Closed
    rw [List.getLast?_append_of_ne_nil _ (by simp)]
    exact hclosed
  · intro place hplace
    obtain ⟨next, hnext, hreference⟩ := reference_placed place offset group field pieces
    have hcalls := (hread next [] (by omega) (by simp [EndList])).2
    have hnone : startsCall [] = false := rfl
    rw [List.append_nil, calls_of_not_startsCall hnone, List.append_nil] at hcalls
    have hwhole := hreference []
    rw [List.append_nil, List.append_nil, hcalls] at hwhole
    exact hwhole

end Grammar

end TagText
