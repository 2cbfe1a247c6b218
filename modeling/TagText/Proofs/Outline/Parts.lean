import TagText.Proofs.Grammar.References
import TagText.Proofs.Lexing.Concatenation

/-!
The outline of an expression, segment by segment: a literal run is a text, a reference is complete
or broken. Where the expression stands, and what follows it in a stored value, plays no part.
-/

namespace TagText

/-- A part moved on by some characters. -/
def Part.moved (k : Nat) : Part → Part
  | text content position => text content (position + k)
  | reference r => reference (r.moved k)
  | broken content start => broken content (start.moved k)

theorem RawReference.moved_zero (r : RawReference) : r.moved 0 = r := by
  have hcall : RawCall.moved 0 = id := rfl
  simp [RawReference.moved, hcall]

theorem RawReference.moved_moved (k m : Nat) (r : RawReference) :
    (r.moved m).moved k = r.moved (m + k) := by
  simp [RawReference.moved, RawCall.moved, Function.comp_def, Nat.add_assoc]

theorem Part.moved_moved (k m : Nat) (part : Part) :
    (part.moved m).moved k = part.moved (m + k) := by
  cases part with
  | text content position => simp [moved, Nat.add_assoc]
  | reference r => simp [moved, RawReference.moved_moved]
  | broken content start => simp [moved, RawReference.moved_moved]

theorem Part.map_moved_moved (k m : Nat) (parts : List Part) :
    (parts.map (moved m)).map (moved k) = parts.map (moved (k + m)) := by
  simp [moved_moved, Nat.add_comm]

theorem Part.moved_zero : Part.moved 0 = id := by
  funext part
  cases part <;> simp [moved, RawReference.moved_zero]

/-- What becomes of a reference, with its text and with what is complete of it. -/
def Part.ofRead (content : Text) (r : RawReference) (complete : Bool) : Part :=
  if complete then reference r else broken content r

/-- What becomes of a segment at an offset. -/
def Part.ofSegment (offset : Nat) : List Lexeme → Part
  | [.text run] => text run offset
  | pieces =>
    let found := Outline.reference offset (Symbol.placed { offset := offset + 1 } pieces.tail)
    ofRead (Lexeme.rawText pieces) found.1 found.2.isSome

namespace Lexeme

theorem not_resumes_of_inCall {pieces : List Lexeme} (hpieces : ∀ piece ∈ pieces, piece.inCall)
    (place : Cursor) : ∀ s ∈ Symbol.placed place pieces, s.kind.resumes = false := by
  induction pieces generalizing place with
  | nil => simp [Symbol.placed]
  | cons piece pieces ih =>
    obtain ⟨hpiece, hpieces⟩ := List.forall_mem_cons.mp hpieces
    have hrest := ih hpieces (place.past piece.raw)
    rw [Symbol.placed]
    cases piece with
    | text | openMarker | closeMarker | atSign | field => cases hpiece
    | blank | unclosed => exact hrest
    | _ => exact List.forall_mem_cons.mpr ⟨rfl, hrest⟩

/-- The pieces of a reference: its sign, and pieces at which no reading goes on after a broken
    reference. -/
theorem ofReference_shape (word inner : Text) :
    ∃ pieces, (ofReference word inner).1 = atSign :: pieces ∧
      ∀ place, ∀ s ∈ Symbol.placed place pieces, s.kind.resumes = false := by
  have hhead : ∀ key place, ∀ s ∈ Symbol.placed place [name word, openParen, field key],
      s.kind.resumes = false := by
    intro key place
    simp [Symbol.placed, symbol?, SymbolKind.resumes]
  induction inner using reference_cases with
  | closed key s hkey =>
    rw [ofReference_closed word hkey]
    refine ⟨[name word, openParen, field key] ++ closeParen :: (ofChain s).1, rfl, ?_⟩
    intro place x hx
    rw [Symbol.placed_append] at hx
    rcases List.mem_append.mp hx with hx | hx
    · exact hhead key place x hx
    · exact not_resumes_of_inCall (List.forall_mem_cons.mpr ⟨rfl, inCall_of_mem_ofChain s⟩) _ x hx
  | broken key rest hkey hrest =>
    rw [ofReference_broken word hkey hrest]
    exact ⟨[name word, openParen, field key], rfl, hhead key⟩

/-- Whether reading can go on at the first of some pieces. -/
def Resumes (pieces : List Lexeme) : Prop :=
  ∀ piece ∈ pieces.head?, ∃ kind value, piece.symbol? = some (kind, value) ∧ kind.resumes = true

theorem resumes_nil : Resumes [] := by simp [Resumes]

theorem resumes_ofExpression (s : Text) {pieces : List Lexeme} (hpieces : Resumes pieces) :
    Resumes (ofExpression s ++ pieces) := by
  by_cases hs : s = []
  · rwa [hs, ofExpression_nil, List.nil_append]
  · obtain ⟨front, rest, hsegment, hends, rfl⟩ := Segment.exists_front hs
    rw [hsegment.split hends]
    cases hsegment with
    | literal run => simp [Resumes, symbol?, SymbolKind.resumes]
    | reference word inner =>
      obtain ⟨tail, hshape, -⟩ := ofReference_shape word inner
      simp [hshape, Resumes, symbol?, SymbolKind.resumes]

end Lexeme

theorem Symbol.locate_of_resumes {pieces : List Lexeme} (hpieces : Lexeme.Resumes pieces)
    (place : Cursor) :
    ∃ s symbols, locate place pieces = s :: symbols ∧ s.kind.resumes = true ∧
      s.start = place.offset := by
  cases pieces with
  | nil => exact ⟨_, [], rfl, rfl, rfl⟩
  | cons piece pieces =>
    obtain ⟨kind, value, hsymbol, hkind⟩ := hpieces piece rfl
    rw [locate, hsymbol]
    exact ⟨_, _, rfl, hkind, rfl⟩

namespace Outline

theorem ofSymbols_text {s : Symbol} (hkind : s.kind = .text) (source : Text)
    (symbols : List Symbol) :
    ofSymbols source (s :: symbols) = (ofSymbols source symbols).cons (.text s.value s.start) := by
  rw [ofSymbols.eq_def]
  simp only [hkind]

theorem ofSymbols_reference {s : Symbol} (hkind : s.kind = .atSign) {source : Text}
    {symbols rest : List Symbol} {r : RawReference}
    (hreference : reference s.start symbols = (r, some rest)) :
    ofSymbols source (s :: symbols) = (ofSymbols source rest).cons (.reference r) := by
  rw [ofSymbols.eq_def]
  simp only [hkind]
  split <;> simp_all

theorem ofSymbols_broken {s : Symbol} (hkind : s.kind = .atSign) (source : Text)
    {symbols : List Symbol} {r : RawReference}
    (hreference : reference s.start symbols = (r, none)) :
    ofSymbols source (s :: symbols) =
      (ofSymbols source (symbols.dropWhile fun t => !t.kind.resumes)).cons
        (.broken (source.slice s.start
          (startOf source (symbols.dropWhile fun t => !t.kind.resumes))) r) := by
  rw [ofSymbols.eq_def]
  simp only [hkind]
  split <;> simp_all

theorem slice_between (before middle after : Text) :
    (before ++ middle ++ after).slice before.length (before.length + middle.length) = middle := by
  simp [Text.slice]

/-- Where the pieces of a reference stand changes positions only. -/
theorem reference_placed_moved (place other : Cursor) {k : Nat}
    (hother : other.offset = place.offset + k) (offset : Nat) (pieces : List Lexeme) :
    (reference (offset + k) (Symbol.placed other pieces)).1 =
        (reference offset (Symbol.placed place pieces)).1.moved k ∧
      (reference (offset + k) (Symbol.placed other pieces)).2.isSome =
        (reference offset (Symbol.placed place pieces)).2.isSome := by
  have hplace := reference_moved k offset (Symbol.placed place pieces)
  have hzero := reference_moved 0 (offset + k) (Symbol.placed other pieces)
  rw [Nat.add_zero, Symbol.map_moved_placed hother, hplace] at hzero
  obtain ⟨hfirst, hsecond⟩ := Prod.mk.inj hzero
  rw [RawReference.moved_zero] at hfirst
  refine ⟨hfirst.symm, ?_⟩
  have hsome := congrArg Option.isSome hsecond
  simpa using hsome.symm

/-- A reference sign, the symbols of its reference, and a symbol at which reading goes on. -/
theorem ofSymbols_atSign {sign s : Symbol} (hsign : sign.kind = .atSign)
    (hs : s.kind.resumes = true) {inner : List Symbol}
    (hinner : ∀ x ∈ inner, x.kind.resumes = false) (source : Text) (symbols : List Symbol)
    (hover : ∀ rest ∈ (reference sign.start inner).2, rest = []) :
    ofSymbols source (sign :: (inner ++ s :: symbols)) =
      (ofSymbols source (s :: symbols)).cons
        (.ofRead (source.slice sign.start s.start) (reference sign.start inner).1
          (reference sign.start inner).2.isSome) := by
  have hread := reference_append hs sign.start inner symbols
  cases hreference : reference sign.start inner with
  | mk r found =>
    rw [hreference] at hread hover
    cases found with
    | some rest =>
      obtain rfl : rest = [] := hover rest rfl
      exact ofSymbols_reference hsign hread
    | none =>
      have hskip : ∀ x ∈ inner, (!x.kind.resumes) = true := fun x hx => by simp [hinner x hx]
      have hrest : (inner ++ s :: symbols).dropWhile (fun t => !t.kind.resumes) = s :: symbols := by
        rw [List.dropWhile_append_of_pos hskip]
        simp [hs]
      have hbroken := ofSymbols_broken hsign source hread
      rw [hrest] at hbroken
      exact hbroken

/-- The outline of a segment and what follows it. -/
theorem ofSymbols_segment {pieces : List Lexeme} (hsegment : Lexeme.Segment pieces)
    (before after : Text) {place : Cursor} (hplace : place.offset = before.length)
    {more : List Lexeme} (hmore : Lexeme.Resumes more) :
    ofSymbols (before ++ Lexeme.rawText pieces ++ after) (Symbol.locate place (pieces ++ more)) =
      (ofSymbols (before ++ Lexeme.rawText pieces ++ after)
        (Symbol.locate (place.past (Lexeme.rawText pieces)) more)).cons
          (Part.ofSegment place.offset pieces) := by
  cases hsegment with
  | literal run hrun _ _ =>
    rw [List.singleton_append, Symbol.locate]
    simp only [Lexeme.symbol?, Lexeme.raw]
    rw [ofSymbols_text rfl]
    simp [Part.ofSegment, Lexeme.raw]
  | reference word inner hname hwhole =>
    obtain ⟨tail, hshape, hresumes⟩ := Lexeme.ofReference_shape word inner
    have hnext : (place.past ['@']).offset = place.offset + 1 := Cursor.offset_past place ['@']
    have hover : ∀ rest ∈ (reference place.offset (Symbol.placed (place.past ['@']) tail)).2,
        rest = [] := by
      intro rest hrest
      have hread : reference place.offset (Symbol.placed (place.past ['@'])
          (Lexeme.ofReference word inner).1.tail) =
            ((reference place.offset (Symbol.placed (place.past ['@']) tail)).1, some rest) := by
        rw [hshape]
        exact Prod.ext rfl hrest
      exact (Grammar.reference_of_read hname hnext hread).1
    have hlocate := Symbol.locate_append (place.past ['@']) tail more
    rw [← Cursor.past_append] at hlocate
    obtain ⟨s, symbols, hstream, hkind, hstart⟩ := Symbol.locate_of_resumes hmore
      (place.past (['@'] ++ Lexeme.rawText tail))
    have hsign : Symbol.locate place (.atSign :: tail ++ more) =
        { kind := .atSign, value := ['@'], start := place.offset, stop := (place.past ['@']).offset
          line := place.line, column := place.column } ::
            Symbol.locate (place.past ['@']) (tail ++ more) := rfl
    obtain ⟨hfirst, hsecond⟩ := reference_placed_moved { offset := place.offset + 1 }
      (place.past ['@']) (k := 0) hnext place.offset tail
    rw [Nat.add_zero, RawReference.moved_zero] at hfirst
    rw [Nat.add_zero] at hsecond
    have htext : Lexeme.rawText (.atSign :: tail) = ['@'] ++ Lexeme.rawText tail := rfl
    have hslice : (before ++ (['@'] ++ Lexeme.rawText tail) ++ after).slice place.offset s.start =
        ['@'] ++ Lexeme.rawText tail := by
      rw [hstart, Cursor.offset_past, hplace, slice_between]
    rw [hshape, htext, hsign, hlocate, hstream, ofSymbols_atSign rfl hkind (hresumes _) _ _ hover,
      hslice, hfirst, hsecond]
    rfl

theorem moved_ofSegment {pieces : List Lexeme} (hsegment : Lexeme.Segment pieces)
    (offset k : Nat) :
    (Part.ofSegment offset pieces).moved k = Part.ofSegment (offset + k) pieces := by
  cases hsegment with
  | literal run hrun _ _ => rfl
  | reference word inner hname hwhole =>
    obtain ⟨tail, hshape, -⟩ := Lexeme.ofReference_shape word inner
    obtain ⟨hfirst, hsecond⟩ := reference_placed_moved { offset := offset + 1 }
      { offset := offset + k + 1 } (k := k) (by simp only; omega) offset tail
    rw [hshape, Part.ofSegment, Part.ofSegment, List.tail_cons, hfirst, hsecond]
    · simp only [Part.ofRead]
      split <;> rfl
    · simp
    · simp

end Outline

end TagText
