import TagText.Proofs.Lexing.Gaps
import TagText.Proofs.Outline.Parts

/-!
Where symbols stand. The symbols of a text follow one another from its front to its end. Each shows
the characters between its two offsets, and between two of them only that is left out which is
skipped inside an argument list.
-/

namespace TagText

/-- What the inside of a quoted argument says: from left to right, each backslash is dropped and the
    character behind it is taken as it is. -/
inductive Lexeme.Spells (quote : Char) : Text → Text → Prop
  | nil : Spells quote [] []
  | escape (c : Char) {body value : Text} : Spells quote body value →
    Spells quote ('\\' :: c :: body) (c :: value)
  | plain {c : Char} {body value : Text} : c ≠ quote → c ≠ '\\' → Spells quote body value →
    Spells quote (c :: body) (c :: value)

namespace Symbol

open Lexeme Grammar

/-- A symbol shows what stands between its offsets: a quoted one what is said between two equal
    quotes, every other one the characters themselves. -/
inductive Shows (text : Text) (s : Symbol) : Prop
  | plain : s.kind ≠ .quoted → s.value = text.slice s.start s.stop → Shows text s
  | quoted {quote : Char} {body : Text} : s.kind = .quoted → isQuote quote = true →
    text.slice s.start s.stop = quote :: body ++ [quote] → Spells quote body s.value → Shows text s

/-- Symbols behind which the argument list of a modifier is open: behind its opening parenthesis
    stand arguments and commas only. -/
def InList (front : List Symbol) : Prop :=
  ∃ before dot name paren inner, front = before ++ dot :: name :: paren :: inner ∧
    dot.kind = .dot ∧ name.kind = .name ∧ paren.kind = .openParen ∧
    ∀ s ∈ inner, s.kind.isArgument = true ∨ s.kind = .comma

/-- What can stand behind some symbols without being part of one: in an open argument list white
    space, and a quote that nothing closes if the region ends behind it. -/
inductive Gap (front : List Symbol) (atEnd : Prop) : Text → Prop
  | nil : Gap front atEnd []
  | blank {gap : Text} : InList front → Blank gap → Gap front atEnd gap
  | unterminated {gap rest : Text} {quote : Char} : InList front → Blank gap →
    isQuote quote = true → Unterminated quote rest → atEnd → Gap front atEnd (gap ++ quote :: rest)

/-- The symbols of a text of which the references end at a limit. -/
structure Tiles (text : Text) (limit : Nat) (symbols : List Symbol) : Prop where
  ends : ∃ front last, symbols = front ++ [last] ∧ last.kind = .endOfText ∧
    last.start = text.length ∧ last.stop = text.length ∧ ∀ s ∈ front, s.kind ≠ .endOfText
  starts : ∀ s ∈ symbols.head?, s.start = 0
  shows : ∀ s ∈ symbols, s.start ≤ s.stop ∧ s.Shows text
  gaps : ∀ before x y after, symbols = before ++ x :: y :: after →
    x.stop ≤ y.start ∧ Gap (before ++ [x]) (y.start = limit) (text.slice x.stop y.start)

end Symbol

namespace Lexeme

open Grammar

theorem spells_unescape {quote : Char} {body : Text} (hbody : QuotedBody quote body) :
    Spells quote body (unescape body) := by
  induction hbody with
  | nil => exact .nil
  | escape c _ ih =>
    rw [unescape, if_pos rfl]
    exact .escape c ih
  | @plain c body hquote hescape _ ih =>
    have hvalue : unescape (c :: body) = c :: unescape body := by
      cases body <;> simp [unescape, hescape]
    rw [hvalue]
    exact .plain hquote hescape ih

theorem symbol?_eq_none_iff {piece : Lexeme} : piece.symbol? = none ↔ piece.isSilent = true := by
  cases piece <;> simp [symbol?, isSilent]

/-- A piece gives its characters as a symbol, unless it is quoted. -/
theorem cases_of_symbol? {piece : Lexeme} {kind : SymbolKind} {value : Text}
    (hsymbol : piece.symbol? = some (kind, value)) :
    kind ≠ .endOfText ∧ (kind ≠ .quoted ∧ value = piece.raw ∨
      ∃ quote body, piece = quoted quote body ∧ kind = .quoted ∧ value = unescape body) := by
  cases piece <;> cases hsymbol <;> simp [raw]

end Lexeme

namespace Symbol

open Lexeme

variable {place : Cursor} {pieces : List Lexeme} {before after : List Symbol} {x y : Symbol}

theorem locate_eq_placed (place : Cursor) (pieces : List Lexeme) :
    locate place pieces = placed place pieces ++ locate (place.past (rawText pieces)) [] := by
  rw [← locate_append, List.append_nil]

/-- A symbol that is not the last one stands for a piece. -/
theorem exists_of_locate (hlocate : locate place pieces = before ++ x :: after)
    (hafter : after ≠ []) :
    ∃ front piece back, pieces = front ++ piece :: back ∧
      piece.symbol? = some (x.kind, x.value) ∧ x.start = place.offset + (rawText front).length ∧
      x.stop = x.start + piece.raw.length ∧
      after = locate (place.past (rawText (front ++ [piece]))) back := by
  induction pieces generalizing place before with
  | nil =>
    rcases before with _ | ⟨_, _ | _⟩ <;> cases hlocate
    exact absurd rfl hafter
  | cons first pieces ih =>
    rw [locate] at hlocate
    cases hsymbol : first.symbol? with
    | none =>
      simp only [hsymbol] at hlocate
      obtain ⟨front, piece, back, rfl, hpiece, hstart, hstop, hrest⟩ := ih hlocate
      refine ⟨first :: front, piece, back, rfl, hpiece, ?_, hstop, ?_⟩
      · rw [hstart, Cursor.offset_past, rawText_cons, List.length_append, Nat.add_assoc]
      · rw [hrest, List.cons_append, rawText_cons, Cursor.past_append]
    | some found =>
      obtain ⟨kind, value⟩ := found
      simp only [hsymbol] at hlocate
      rcases List.cons_eq_append_iff.mp hlocate with ⟨rfl, hx⟩ | ⟨more, rfl, hmore⟩
      · obtain ⟨rfl, rfl⟩ := List.cons.inj hx
        exact ⟨[], first, pieces, rfl, hsymbol, rfl, Cursor.offset_past _ _, by simp⟩
      · obtain ⟨front, piece, back, rfl, hpiece, hstart, hstop, hrest⟩ := ih hmore
        refine ⟨first :: front, piece, back, rfl, hpiece, ?_, hstop, ?_⟩
        · rw [hstart, Cursor.offset_past, rawText_cons, List.length_append, Nat.add_assoc]
        · rw [hrest, List.cons_append, rawText_cons, Cursor.past_append]

/-- In front of a stream's first symbol stand pieces that give none. -/
theorem exists_gap_of_locate (hlocate : locate place pieces = x :: after) :
    ∃ gap back, pieces = gap ++ back ∧ (∀ piece ∈ gap, piece.isSilent = true) ∧
      x.start = place.offset + (rawText gap).length := by
  induction pieces generalizing place with
  | nil =>
    cases hlocate
    exact ⟨[], [], rfl, nofun, rfl⟩
  | cons first pieces ih =>
    rw [locate] at hlocate
    cases hsymbol : first.symbol? with
    | none =>
      simp only [hsymbol] at hlocate
      obtain ⟨gap, back, rfl, hgap, hstart⟩ := ih hlocate
      refine ⟨first :: gap, back, rfl,
        List.forall_mem_cons.mpr ⟨symbol?_eq_none_iff.mp hsymbol, hgap⟩, ?_⟩
      rw [hstart, Cursor.offset_past, rawText_cons, List.length_append, Nat.add_assoc]
    | some found =>
      simp only [hsymbol] at hlocate
      obtain ⟨rfl, -⟩ := List.cons.inj hlocate
      exact ⟨[], first :: pieces, rfl, nofun, rfl⟩

theorem isArgument_or_comma_of_inside {inner : List Lexeme}
    (hinner : ∀ piece ∈ inner, piece.Inside) (place : Cursor) :
    ∀ s ∈ placed place inner, s.kind.isArgument = true ∨ s.kind = .comma := by
  induction inner generalizing place with
  | nil => exact nofun
  | cons piece inner ih =>
    obtain ⟨hpiece, hmore⟩ := List.forall_mem_cons.mp hinner
    rw [placed]
    cases hpiece with
    | comma => exact List.forall_mem_cons.mpr ⟨Or.inr rfl, ih hmore _⟩
    | bare => exact List.forall_mem_cons.mpr ⟨Or.inl rfl, ih hmore _⟩
    | quoted => exact List.forall_mem_cons.mpr ⟨Or.inl rfl, ih hmore _⟩
    | blank => exact ih hmore _

/-- An argument list that is open behind some pieces is open behind their symbols. -/
theorem inList_of_opened {front : List Lexeme} (hopened : Opened front) (place : Cursor) :
    InList (placed place front) := by
  obtain ⟨before, word, inner, rfl, hinner⟩ := hopened
  rw [placed_append]
  exact ⟨_, _, _, _, _, rfl, rfl, rfl, rfl, isArgument_or_comma_of_inside hinner _⟩

/-- A symbol of some pieces stands for one of them. -/
theorem exists_of_mem_placed (hx : x ∈ placed place pieces) :
    ∃ front piece back, pieces = front ++ piece :: back ∧
      piece.symbol? = some (x.kind, x.value) ∧ x.start = place.offset + (rawText front).length ∧
      x.stop = x.start + piece.raw.length := by
  obtain ⟨before, after, hsplit⟩ := List.append_of_mem hx
  have hlocate := locate_eq_placed place pieces
  rw [hsplit, List.append_assoc, List.cons_append] at hlocate
  obtain ⟨front, piece, back, hpieces, hpiece, hstart, hstop, -⟩ :=
    exists_of_locate hlocate (by simp [locate])
  exact ⟨front, piece, back, hpieces, hpiece, hstart, hstop⟩

section

variable {tail : List Lexeme} (hordered : Ordered tail false pieces)
  (htail : ∀ other ∈ tail, other.isSilent = false)

include hordered in
/-- A symbol shows the characters of its piece. -/
theorem shows_of_mem_placed (hquoted : ∀ quote body, quoted quote body ∉ tail)
    (hx : x ∈ placed {} pieces) : x.start ≤ x.stop ∧ x.Shows (rawText pieces) := by
  obtain ⟨front, piece, back, rfl, hpiece, hstart, hstop⟩ := exists_of_mem_placed hx
  have hslice : (rawText (front ++ piece :: back)).slice x.start x.stop = piece.raw := by
    rw [hstop, hstart, rawText_append, rawText_cons, ← List.append_assoc, Nat.zero_add]
    exact Outline.slice_between _ _ _
  refine ⟨hstop ▸ Nat.le_add_right _ _, ?_⟩
  obtain ⟨-, ⟨hkind, hvalue⟩ | ⟨quote, body, rfl, hkind, hvalue⟩⟩ := cases_of_symbol? hpiece
  · exact .plain hkind (hvalue.trans hslice.symm)
  · obtain ⟨hquote, hbody⟩ := hordered.of_mem_quoted (by simp) (hquoted quote body)
    exact .quoted hkind hquote hslice (hvalue ▸ spells_unescape hbody)

include hordered htail

theorem start_of_locate (hlocate : locate {} pieces = x :: after) : x.start = 0 := by
  obtain ⟨gap, back, rfl, hgap, hstart⟩ := exists_gap_of_locate hlocate
  rcases gap with _ | ⟨piece, gap⟩
  · exact hstart
  · obtain ⟨-, ⟨_ | _, word, inner, hnil, -⟩ | ⟨hlist, -⟩⟩ :=
      @Ordered.of_silent _ [] _ _ _ hordered (hgap piece List.mem_cons_self) htail
    · cases hnil
    · cases hnil
    · cases hlist

/-- Between two symbols stands what is skipped inside an argument list. -/
theorem gap_of_locate (hlocate : locate {} pieces = before ++ x :: y :: after) :
    x.stop ≤ y.start ∧ Gap (before ++ [x])
      (y.start = (rawText pieces).length - (rawText tail).length)
      ((rawText pieces).slice x.stop y.start) := by
  obtain ⟨front, piece, rest, rfl, -, hstart, hstop, hrest⟩ := exists_of_locate hlocate (by simp)
  obtain ⟨gap, back, rfl, hgap, hnext⟩ := exists_gap_of_locate hrest.symm
  have hsplit : front ++ piece :: (gap ++ back) = front ++ [piece] ++ gap ++ back := by simp
  have hfront : x.stop = (rawText (front ++ [piece])).length := by
    rw [hstop, hstart, rawText_append, List.length_append]
    simp
  have hy : y.start = (rawText (front ++ [piece])).length + (rawText gap).length := by
    rw [hnext, Cursor.offset_past]
    simp
  have hbefore : before ++ [x] = placed {} (front ++ [piece]) := by
    have happend := locate_append {} (front ++ [piece]) (gap ++ back)
    rw [← hrest, List.append_assoc, List.singleton_append, hlocate] at happend
    exact List.append_cancel_right ((List.append_assoc ..).trans happend)
  rw [hsplit] at hordered ⊢
  have hslice : (rawText (front ++ [piece] ++ gap ++ back)).slice x.stop y.start =
      rawText gap := by
    rw [rawText_append, rawText_append, hy, hfront]
    exact Outline.slice_between _ _ _
  rw [hslice, hbefore]
  refine ⟨by omega, ?_⟩
  by_cases hnil : gap = []
  · subst hnil
    exact .nil
  · obtain ⟨silent, more, hcons⟩ := List.exists_cons_of_ne_nil hnil
    rw [List.append_assoc, hcons, List.cons_append] at hordered
    obtain ⟨hlist, hopened⟩ := hordered.of_silent (hgap silent (by simp [hcons])) htail
    rw [← List.cons_append, ← hcons] at hlist
    have hin := inList_of_opened (hopened.resolve_right (by simp)) {}
    rcases hlist.rawText_of_silent hgap htail with
      hblank | ⟨space, quote, rest, hraw, hspace, hquote, hopen, rfl⟩
    · exact .blank hin hblank
    · rw [hraw]
      refine .unterminated hin hspace hquote hopen ?_
      rw [rawText_append, rawText_append, List.length_append, List.length_append, hy]
      omega

/-- The symbols of pieces in order tile the text of the pieces. -/
theorem tiles_of_ordered (hquoted : ∀ quote body, quoted quote body ∉ tail) :
    Tiles (rawText pieces) ((rawText pieces).length - (rawText tail).length)
      (locate {} pieces) where
  ends := by
    refine ⟨placed {} pieces, _, locate_eq_placed {} pieces, rfl, ?_, ?_, fun s hs => ?_⟩
    · simp
    · simp
    · obtain ⟨-, piece, -, -, hpiece, -⟩ := exists_of_mem_placed hs
      exact (cases_of_symbol? hpiece).1
  starts s hs := by
    obtain ⟨after, hlocate⟩ := List.head?_eq_some_iff.mp hs
    exact start_of_locate hordered htail hlocate
  shows s hs := by
    rw [locate_eq_placed] at hs
    rcases List.mem_append.mp hs with hs | hs
    · exact shows_of_mem_placed hordered hquoted hs
    · obtain rfl := List.mem_singleton.mp hs
      exact ⟨Nat.le_refl _, .plain (by simp) (by simp [Text.slice])⟩
  gaps before x y after hlocate := gap_of_locate hordered htail hlocate

end

end Symbol

end TagText
