import TagText.Proofs.Grammar.Basic
import TagText.Proofs.Lexing.Concatenation

/-!
The order in which pieces stand. What is skipped stands inside the argument list of a modifier and
nowhere else: white space between arguments, or a quote that nothing closes, which takes up all
that is left of the expression.
-/

namespace TagText.Lexeme

open Grammar

/-- Nothing behind a quote closes it. -/
def Unterminated (quote : Char) (rest : Text) : Prop :=
  ∀ body after, QuotedBody quote body → rest ≠ body ++ quote :: after

/-- Whether a piece stands outside of the argument lists of modifiers. -/
def standsOutside : Lexeme → Bool
  | text _ | openMarker | atSign | name _ | field _ | openParen | closeParen => true
  | _ => false

/-- The pieces inside the argument list of a modifier. -/
inductive Inside : Lexeme → Prop
  | comma : Inside comma
  | bare (run : Text) : Inside (bare run)
  | quoted {quote : Char} {body : Text} : isQuote quote = true → QuotedBody quote body →
    Inside (quoted quote body)
  | blank {run : Text} : Blank run → Inside (blank run)

/-- Pieces of an expression in front of a tail, from inside an argument list on or from outside. -/
inductive Ordered (tail : List Lexeme) : Bool → List Lexeme → Prop
  | done : Ordered tail false tail
  /-- The expression ends inside an argument list. -/
  | cut : Ordered tail true tail
  | outside {piece : Lexeme} {pieces : List Lexeme} : piece.standsOutside = true →
    Ordered tail false pieces → Ordered tail false (piece :: pieces)
  | list {word : Text} {pieces : List Lexeme} : Ordered tail true pieces →
    Ordered tail false (dot :: name word :: openParen :: pieces)
  | inside {piece : Lexeme} {pieces : List Lexeme} : piece.Inside → Ordered tail true pieces →
    Ordered tail true (piece :: pieces)
  | close {pieces : List Lexeme} : Ordered tail false pieces →
    Ordered tail true (closeParen :: pieces)
  | unclosed {quote : Char} {rest : Text} : isQuote quote = true → Unterminated quote rest →
    Ordered tail true (unclosed (quote :: rest) :: tail)

section

variable {tail more : List Lexeme}

theorem Ordered.blanks {run : Text} (hrun : Blank run) (hmore : Ordered tail true more) :
    Ordered tail true (blanks run ++ more) := by
  cases run with
  | nil => exact hmore
  | cons c run => exact .inside (.blank hrun) hmore

/-- What is trimmed from the end of an argument is white space. -/
theorem blank_drop_trimRight (s : Text) : Blank (s.drop (Text.trimRight isBlank s).length) := by
  have hs : s = Text.trimRight isBlank s ++ (s.reverse.takeWhile isBlank).reverse := by
    rw [Text.trimRight, ← List.reverse_append, List.takeWhile_append_dropWhile,
      List.reverse_reverse]
  have hrest : s.drop (Text.trimRight isBlank s).length =
      (s.reverse.takeWhile isBlank).reverse := by
    rw [← List.append_cancel_left_eq (Text.trimRight isBlank s), ← hs]
    exact List.prefix_iff_eq_append.mp (Text.trimRight_isPrefix isBlank s)
  rw [hrest]
  intro c hc
  exact List.all_eq_true.mp List.all_takeWhile c (List.mem_reverse.mp hc)

theorem ordered_ofArguments (s : Text) (hmore : Ordered tail false more)
    (hopen : ¬ Closed (ofArguments s).1 → more = tail) :
    Ordered tail true ((ofArguments s).1 ++ more) := by
  induction s using arguments_induction with
  | nil =>
    obtain rfl := hopen (by simp [ofArguments, Closed])
    simpa [ofArguments] using Ordered.cut
  | close s =>
    rw [ofArguments_close]
    exact .close hmore
  | comma s ih =>
    rw [ofArguments_comma] at hopen ⊢
    rw [closed_cons_iff (by simp)] at hopen
    exact .inside .comma (ih hopen)
  | blank c run s hc hrun hs ih =>
    rw [ofArguments_blank hc hrun hs] at hopen ⊢
    rw [closed_cons_iff (by simp)] at hopen
    exact .inside (.blank (List.forall_mem_cons.mpr ⟨hc, hrun⟩)) (ih hopen)
  | quoted quote body s hquote hbody ih =>
    rw [ofArguments_quoted hquote (hbody s)] at hopen ⊢
    rw [closed_cons_iff (by simp)] at hopen
    exact .inside (.quoted hquote (.of_quotedBody? (hbody s))) (ih hopen)
  | unclosed quote s hquote hbody =>
    rw [ofArguments_unclosed hquote hbody] at hopen ⊢
    obtain rfl := hopen (by simp [Closed])
    refine .unclosed hquote fun body after hinner hs => ?_
    rw [hs, hinner.quotedBody?_eq hquote] at hbody
    cases hbody
  | bare c run s hc hrun hs ih =>
    rw [ofArguments_bare hc hrun hs] at hopen ⊢
    rw [List.cons_append, closed_cons_iff (by simp), closed_blanks_append_iff] at hopen
    rw [List.cons_append, List.cons_append, List.append_assoc]
    exact .inside (.bare _) (.blanks (blank_drop_trimRight _) (ih hopen))

theorem ordered_ofChain (s : Text) (hmore : Ordered tail false more)
    (hopen : ¬ Closed (closeParen :: (ofChain s).1) → more = tail) :
    Ordered tail false ((ofChain s).1 ++ more) := by
  induction s using chain_induction with
  | none s hnone => rwa [ofChain_none hnone]
  | call word inner hname ih =>
    rw [ofChain_call hname] at hopen ⊢
    rw [closed_call_iff, not_and_or] at hopen
    have hchain := ih fun hrest => hopen (Or.inr hrest)
    simp only [List.cons_append, List.append_assoc]
    refine .list (ordered_ofArguments inner hchain fun hlist => ?_)
    rw [ofChain_rest_of_not_closed hlist]
    exact hopen (Or.inl hlist)

/-- The pieces of an expression, in front of whatever follows it. -/
theorem ordered_ofExpression (tail : List Lexeme) (s : Text) :
    Ordered tail false (ofExpression s ++ tail) := by
  induction s using segment_induction with
  | nil =>
    rw [ofExpression_nil]
    exact .done
  | segment pieces rest hsegment hends ih =>
    rw [hsegment.split hends, List.append_assoc]
    cases hsegment with
    | literal run => exact .outside rfl ih
    | reference word inner =>
      induction inner using reference_cases with
      | broken key rest hkey hrest =>
        rw [ofReference_broken word hkey hrest]
        exact .outside rfl (.outside rfl (.outside rfl (.outside rfl ih)))
      | closed key s hkey =>
        rw [ofReference_closed word hkey] at hends ⊢
        rw [List.append_assoc]
        rw [endsBefore_append_iff (by simp)] at hends
        have hchain := ordered_ofChain s ih fun hopen => by
          rw [tail_eq_nil_of_open hopen hends, ofExpression_nil, List.nil_append]
        exact .outside rfl (.outside rfl (.outside rfl (.outside rfl (.outside rfl hchain))))

end

/-- Whether a piece gives no symbol. -/
def isSilent : Lexeme → Bool
  | blank _ | unclosed _ => true
  | _ => false

/-- Pieces behind which the argument list of a modifier is open. -/
def Opened (front : List Lexeme) : Prop :=
  ∃ before word inner, front = before ++ dot :: name word :: openParen :: inner ∧
    ∀ piece ∈ inner, piece.Inside

theorem Opened.append {front : List Lexeme} (hopened : Opened front) (before : List Lexeme) :
    Opened (before ++ front) := by
  obtain ⟨more, word, inner, rfl, hinner⟩ := hopened
  exact ⟨before ++ more, word, inner, (List.append_assoc ..).symm, hinner⟩

namespace Ordered

variable {tail front back gap : List Lexeme} {piece : Lexeme} {inList : Bool}

/-- A piece without a symbol stands in an open argument list. -/
theorem of_silent (hordered : Ordered tail inList (front ++ piece :: back))
    (hpiece : piece.isSilent = true) (htail : ∀ other ∈ tail, other.isSilent = false) :
    Ordered tail true (piece :: back) ∧
      (Opened front ∨ inList = true ∧ ∀ other ∈ front, other.Inside) := by
  have hnot : ∀ front, front ++ piece :: back ≠ tail := by
    rintro front rfl
    rw [htail piece (by simp)] at hpiece
    cases hpiece
  generalize hpieces : front ++ piece :: back = pieces at hordered
  induction hordered generalizing front with
  | done | cut => exact absurd hpieces (hnot front)
  | outside hfirst _ ih =>
    rcases List.append_eq_cons_iff.mp hpieces with ⟨-, hsame⟩ | ⟨front, rfl, hrest⟩
    · cases hsame
      have hloud : piece.isSilent = false := by cases piece <;> first | rfl | cases hfirst
      rw [hloud] at hpiece
      cases hpiece
    · obtain ⟨hback, hopened⟩ := ih hrest.symm
      exact ⟨hback, Or.inl ((hopened.resolve_right (by simp)).append [_])⟩
  | @list word pieces hlist ih =>
    obtain ⟨front, rfl, hrest⟩ :
        ∃ rest, front = dot :: name word :: openParen :: rest ∧ rest ++ piece :: back = pieces := by
      rcases front with _ | ⟨x, _ | ⟨y, _ | ⟨z, front⟩⟩⟩ <;> cases hpieces
      iterate 3 cases hpiece
      exact ⟨front, rfl, rfl⟩
    obtain ⟨hback, hopened | ⟨-, hinner⟩⟩ := ih hrest
    · exact ⟨hback, Or.inl (hopened.append [_, _, _])⟩
    · exact ⟨hback, Or.inl ⟨[], word, front, rfl, hinner⟩⟩
  | close hclosed ih =>
    rcases List.append_eq_cons_iff.mp hpieces with ⟨-, hsame⟩ | ⟨front, rfl, hrest⟩
    · cases hsame
      cases hpiece
    · obtain ⟨hback, hopened⟩ := ih hrest.symm
      exact ⟨hback, Or.inl ((hopened.resolve_right (by simp)).append [_])⟩
  | @inside first pieces hfirst hlist ih =>
    rcases List.append_eq_cons_iff.mp hpieces with ⟨rfl, hsame⟩ | ⟨front, rfl, hrest⟩
    · cases hsame
      exact ⟨.inside hfirst hlist, Or.inr ⟨rfl, nofun⟩⟩
    · obtain ⟨hback, hopened | ⟨-, hinner⟩⟩ := ih hrest.symm
      · exact ⟨hback, Or.inl (hopened.append [_])⟩
      · exact ⟨hback, Or.inr ⟨rfl, List.forall_mem_cons.mpr ⟨hfirst, hinner⟩⟩⟩
  | unclosed hquote hrest =>
    rcases List.append_eq_cons_iff.mp hpieces with ⟨rfl, hsame⟩ | ⟨front, -, hmore⟩
    · cases hsame
      exact ⟨.unclosed hquote hrest, Or.inr ⟨rfl, nofun⟩⟩
    · exact absurd hmore.symm (hnot front)

/-- What a list's pieces without symbols take up: white space, or white space in front of a quote
    that nothing closes, behind which the expression is over. -/
theorem rawText_of_silent (hordered : Ordered tail true (gap ++ back))
    (hgap : ∀ piece ∈ gap, piece.isSilent = true) (htail : ∀ other ∈ tail, other.isSilent = false) :
    Blank (rawText gap) ∨ ∃ space quote rest, rawText gap = space ++ quote :: rest ∧
      Blank space ∧ isQuote quote = true ∧ Unterminated quote rest ∧ back = tail := by
  induction gap with
  | nil => exact Or.inl Blank.nil
  | cons piece gap ih =>
    obtain ⟨hpiece, hmore⟩ := List.forall_mem_cons.mp hgap
    generalize hpieces : piece :: gap ++ back = pieces at hordered
    cases hordered with
    | cut =>
      rw [htail piece (hpieces ▸ by simp)] at hpiece
      cases hpiece
    | close =>
      cases hpieces
      cases hpiece
    | inside hinside hlist =>
      obtain ⟨rfl, rfl⟩ := List.cons.inj hpieces
      cases hinside with
      | @blank run hrun =>
        have hcons : rawText (Lexeme.blank run :: gap) = run ++ rawText gap := rfl
        rcases ih hlist hmore with hblank | ⟨space, quote, rest, hraw, hspace, hquote⟩
        · left
          rw [hcons]
          exact List.forall_mem_append.mpr ⟨hrun, hblank⟩
        · right
          exact ⟨run ++ space, quote, rest, by rw [hcons, hraw, List.append_assoc],
            List.forall_mem_append.mpr ⟨hrun, hspace⟩, hquote⟩
      | _ => cases hpiece
    | @unclosed quote rest hquote hrest =>
      obtain ⟨rfl, hback⟩ := List.cons.inj hpieces
      have hnil : gap = [] := by
        rcases gap with _ | ⟨next, gap⟩
        · rfl
        · have hnext := hmore next List.mem_cons_self
          rw [htail next (hback ▸ List.mem_cons_self)] at hnext
          cases hnext
      subst hnil
      exact Or.inr ⟨[], quote, rest, by simp [raw], Blank.nil, hquote, hrest, hback⟩

/-- Quoted arguments stand between equal quotes. -/
theorem of_mem_quoted (hordered : Ordered tail inList front) {quote : Char} {body : Text}
    (hmem : quoted quote body ∈ front) (htail : quoted quote body ∉ tail) :
    isQuote quote = true ∧ QuotedBody quote body := by
  induction hordered with
  | done | cut => exact absurd hmem htail
  | outside hfirst _ ih =>
    rcases List.mem_cons.mp hmem with rfl | hmem
    · cases hfirst
    · exact ih hmem
  | list _ ih => exact ih (by simpa using hmem)
  | inside hfirst _ ih =>
    rcases List.mem_cons.mp hmem with rfl | hmem
    · cases hfirst with
      | quoted hquote hbody => exact ⟨hquote, hbody⟩
    · exact ih hmem
  | close _ ih => exact ih (by simpa using hmem)
  | unclosed => exact absurd (by simpa using hmem) htail

end Ordered

end TagText.Lexeme
