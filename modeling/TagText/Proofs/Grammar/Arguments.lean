import TagText.Proofs.Grammar.Basic
import TagText.Proofs.Outline.Streams

/-!
What is read as an argument list is derivable as one, and its reading goes on up to its closing
parenthesis.
-/

namespace TagText

namespace Outline

/-- What follows an argument, up to the closing parenthesis. -/
def moreArguments? : List Symbol → Option (List Text × List Symbol)
  | [] => none
  | s :: rest =>
    if s.kind = .closeParen then some ([], rest)
    else if s.kind = .comma then someArguments? rest
    else none

theorem someArguments?_cons (arg : Symbol) (rest : List Symbol) :
    someArguments? (arg :: rest) =
      if arg.kind.isArgument then
        (moreArguments? rest).map fun (args, rest) => (arg.value :: args, rest)
      else none := by
  cases rest with
  | nil => simp [someArguments?, moreArguments?]
  | cons separator rest =>
    rw [someArguments?, moreArguments?]
    split_ifs <;> rfl

end Outline

namespace Grammar

open Lexeme Outline TagText.Symbol

/-- What is read of a text as a list of arguments, or as what follows an argument, is derivable, and
    the reading goes on up to the closing parenthesis. -/
def Sound (s : Text) : Prop :=
  ∀ place args rest,
    (someArguments? (placed place (ofArguments s).1) = some (args, rest) →
      rest = [] ∧ ∃ raw, s = raw ++ (ofArguments s).2 ∧ args ≠ [] ∧ Arguments raw args) ∧
    (moreArguments? (placed place (ofArguments s).1) = some (args, rest) →
      rest = [] ∧ ∃ gap raw, s = gap ++ raw ++ (ofArguments s).2 ∧ Blank gap ∧
        MoreArguments raw args)

theorem Sound.argument {s raw value : Text} {kind : SymbolKind} {front : List Lexeme}
    (hs : Sound s) (hkind : kind.isArgument = true) (hargument : Argument raw value)
    (hpieces : ofArguments (raw ++ s) = (front ++ (ofArguments s).1, (ofArguments s).2))
    (hplaced : ∀ place, ∃ arg next, arg.kind = kind ∧ arg.value = value ∧
      placed place (front ++ (ofArguments s).1) = arg :: placed next (ofArguments s).1) :
    Sound (raw ++ s) := by
  intro place args rest
  obtain ⟨arg, next, rfl, rfl, hsymbols⟩ := hplaced place
  rw [hpieces, hsymbols]
  constructor
  · intro hread
    rw [someArguments?_cons, if_pos hkind] at hread
    obtain ⟨⟨values, more⟩, hmore, heq⟩ := Option.map_eq_some_iff.mp hread
    obtain ⟨rfl, rfl⟩ := by simpa using heq
    obtain ⟨hrest, gap, tail, htext, hgap, htail⟩ := (hs next values more).2 hmore
    refine ⟨hrest, raw ++ gap ++ tail, ?_, by simp, ?_⟩
    · rw [List.append_assoc, List.append_assoc, ← List.append_assoc gap, ← htext]
    · exact Arguments.some Blank.nil hargument hgap htail
  · intro hread
    have hnot : arg.kind ≠ .closeParen ∧ arg.kind ≠ .comma := by
      constructor <;> (intro heq; rw [heq] at hkind; cases hkind)
    simp [moreArguments?, hnot] at hread

theorem Sound.blank {s gap : Text} {front : List Lexeme} (hs : Sound s) (hgap : Blank gap)
    (hpieces : ofArguments (gap ++ s) = (front ++ (ofArguments s).1, (ofArguments s).2))
    (hplaced : ∀ place, ∃ next,
      placed place (front ++ (ofArguments s).1) = placed next (ofArguments s).1) :
    Sound (gap ++ s) := by
  intro place args rest
  obtain ⟨next, hsymbols⟩ := hplaced place
  obtain ⟨hsome, hmore⟩ := hs next args rest
  rw [hpieces, hsymbols]
  constructor
  · intro hread
    obtain ⟨hrest, raw, htext, hargs, harguments⟩ := hsome hread
    exact ⟨hrest, gap ++ raw, by rw [List.append_assoc, ← htext], hargs, harguments.prepend hgap⟩
  · intro hread
    obtain ⟨hrest, before, raw, htext, hbefore, hraw⟩ := hmore hread
    refine ⟨hrest, gap ++ before, raw, ?_, ?_, hraw⟩
    · rw [List.append_assoc, List.append_assoc, ← List.append_assoc before, ← htext]
    · exact fun c hc => (List.mem_append.mp hc).elim (hgap c) (hbefore c)

theorem placed_blanks (place : Cursor) (run : Text) (pieces : List Lexeme) :
    ∃ next, placed place (blanks run ++ pieces) = placed next pieces := by
  cases run with
  | nil => exact ⟨place, rfl⟩
  | cons c run => exact ⟨place.past (c :: run), rfl⟩

theorem sound (s : Text) : Sound s := by
  induction s using arguments_induction with
  | nil => simp [Sound, ofArguments, placed, someArguments?, moreArguments?]
  | close s =>
    intro place args rest
    rw [ofArguments_close]
    refine ⟨by simp [placed, symbol?, someArguments?], ?_⟩
    intro hread
    obtain ⟨rfl, rfl⟩ := by simpa [placed, symbol?, moreArguments?] using hread
    exact ⟨rfl, [], [')'], rfl, by simp [Blank], .close⟩
  | comma s ih =>
    intro place args rest
    rw [ofArguments_comma]
    constructor
    · intro hread
      rw [placed, symbol?, someArguments?_cons, if_neg (by simp [SymbolKind.isArgument])] at hread
      cases hread
    · intro hread
      obtain ⟨hrest, raw, htext, hargs, harguments⟩ := (ih _ args rest).1 hread
      obtain ⟨value, values, rfl⟩ := List.exists_cons_of_ne_nil hargs
      refine ⟨hrest, [], ',' :: raw, ?_, by simp [Blank], .of_arguments harguments⟩
      rw [List.nil_append, List.cons_append, ← htext]
  | blank c run s hc hrun hs ih =>
    have hpieces : ofArguments (c :: run ++ s) =
        ([blank (c :: run)] ++ (ofArguments s).1, (ofArguments s).2) := ofArguments_blank hc hrun hs
    exact ih.blank (List.forall_mem_cons.mpr ⟨hc, hrun⟩) hpieces fun place => ⟨_, rfl⟩
  | quoted quote body s hquote hbody ih =>
    have hargument := Argument.quoted hquote (QuotedBody.of_quotedBody? (hbody s))
    have hkind : SymbolKind.quoted.isArgument = true := rfl
    have hpieces : ofArguments (quote :: body ++ [quote] ++ s) =
        ([quoted quote body] ++ (ofArguments s).1, (ofArguments s).2) := by
      simpa using ofArguments_quoted hquote (hbody s)
    have hstep := ih.argument hkind hargument hpieces fun place => ⟨_, _, rfl, rfl, rfl⟩
    simpa using hstep
  | unclosed quote s hquote hbody =>
    simp [Sound, ofArguments_unclosed hquote hbody, placed, symbol?, someArguments?,
      moreArguments?]
  | bare c run s hc hrun hs ih =>
    have hkind : SymbolKind.bare.isArgument = true := rfl
    refine ih.argument hkind (Argument.bare hc hrun) (ofArguments_bare hc hrun hs) ?_
    intro place
    obtain ⟨next, hnext⟩ := placed_blanks (place.past (Text.trimRight isBlank (c :: run)))
      ((c :: run).drop (Text.trimRight isBlank (c :: run)).length) (ofArguments s).1
    rw [List.cons_append, placed]
    simp only [symbol?, raw, hnext]
    exact ⟨_, next, rfl, rfl, rfl⟩

/-- What is read as an argument list is derivable, and nothing of its symbols is left over. -/
theorem arguments_of_read {s : Text} {place : Cursor} {args : List Text} {rest : List Symbol}
    (hread : arguments? (placed place (ofArguments s).1) = some (args, rest)) :
    rest = [] ∧ ∃ raw, s = raw ++ (ofArguments s).2 ∧ Arguments raw args := by
  obtain ⟨hsome, hmore⟩ := sound s place args rest
  cases hsymbols : placed place (ofArguments s).1 with
  | nil =>
    rw [hsymbols] at hread
    cases hread
  | cons first symbols =>
    rw [hsymbols] at hread hsome hmore
    by_cases hclose : first.kind = .closeParen
    · rw [arguments?, if_pos hclose] at hread
      obtain ⟨rfl, rfl⟩ := by simpa using hread
      obtain ⟨hrest, gap, raw, htext, hgap, hraw⟩ := hmore (by rw [moreArguments?, if_pos hclose])
      cases hraw with
      | close => exact ⟨hrest, gap ++ [')'], htext, .none hgap⟩
    · rw [arguments?, if_neg hclose] at hread
      obtain ⟨hrest, raw, htext, -, harguments⟩ := hsome hread
      exact ⟨hrest, raw, htext, harguments⟩

end Grammar

end TagText
