import TagText.Proofs.Lexing.Arguments

/-!
Chains of modifiers. How a chain is split is up to its own text and to whether a modifier follows;
only a chain with an argument list that is not closed reaches to the end, whatever follows.
-/

namespace TagText.Lexeme

/-- Whether nothing follows, or a reference. -/
def ReferenceOrEnd (tail : Text) : Prop := tail = [] ∨ startsReference tail = true

/-- Whether a segment with this last piece is over in front of a text: behind a parenthesis no
    modifier may follow, behind a key nothing that goes on with it or closes it, behind a literal
    run only a reference. An argument list that is not closed is over at the end only. -/
def endsBefore (last : Lexeme) (tail : Text) : Prop :=
  match last with
  | text _ => ReferenceOrEnd tail
  | closeParen => opening? '.' tail = none
  | field _ => ∀ c ∈ tail.head?, isFieldChar c = false ∧ c ≠ ')'
  | _ => tail = []

/-- Whether the last of some pieces, if there is one, is over in front of a text. -/
def EndsBefore (pieces : List Lexeme) (tail : Text) : Prop :=
  ∀ last ∈ pieces.getLast?, endsBefore last tail

theorem endsBefore_nil (last : Lexeme) : endsBefore last [] := by
  cases last <;> simp [endsBefore, ReferenceOrEnd, opening?]

theorem endsBefore_append_iff {before pieces : List Lexeme} {tail : Text} (hpieces : pieces ≠ []) :
    EndsBefore (before ++ pieces) tail ↔ EndsBefore pieces tail := by
  unfold EndsBefore
  rw [List.getLast?_append_of_ne_nil _ hpieces]

theorem ofChain_none {s : Text} (hnone : opening? '.' s = none) : ofChain s = ([], s) := by
  rw [ofChain.eq_def]
  split
  · rfl
  · simp_all

theorem ofChain_call {word : Text} (hname : isName word = true) (inner : Text) :
    ofChain ('.' :: word ++ '(' :: inner) =
      (dot :: name word :: openParen :: (ofArguments inner).1 ++ (ofChain (ofArguments inner).2).1,
        (ofChain (ofArguments inner).2).2) := by
  have hopening : opening? '.' ('.' :: word ++ '(' :: inner) = some (word, inner) :=
    opening?_eq_some_iff.mpr ⟨hname, rfl⟩
  rw [ofChain.eq_def]
  split
  · simp_all
  · simp_all

/-- A text modifier by modifier. -/
theorem chain_induction {P : Text → Prop} (none : ∀ s, opening? '.' s = none → P s)
    (call : ∀ word inner, isName word = true → P (ofArguments inner).2 →
      P ('.' :: word ++ '(' :: inner)) (s : Text) : P s := by
  fun_induction ofChain s with
  | case1 s hnone => exact none s hnone
  | case2 s word inner hopening arguments after harguments _ _ _ ih =>
    obtain ⟨hname, rfl⟩ := opening?_eq_some_iff.mp hopening
    exact call word inner hname (by rwa [harguments])

/-- Behind an argument list that is not closed, no chain goes on. -/
theorem ofChain_rest_of_not_closed {inner : Text} (hopen : ¬ Closed (ofArguments inner).1) :
    ofChain (ofArguments inner).2 = ([], []) := by
  rw [ofArguments_rest_of_not_closed hopen]
  exact ofChain_none rfl

/-- Behind a closed argument list, the last piece of a chain is that of the rest of the chain. -/
theorem getLast?_call {word inner : Text} (hlist : Closed (ofArguments inner).1)
    (pieces : List Lexeme) :
    (closeParen :: (dot :: name word :: openParen :: (ofArguments inner).1 ++ pieces)).getLast? =
      (closeParen :: pieces).getLast? := by
  obtain ⟨before, hbefore⟩ := List.getLast?_eq_some_iff.mp hlist
  have hshape : closeParen :: (dot :: name word :: openParen :: (ofArguments inner).1 ++ pieces) =
      (closeParen :: dot :: name word :: openParen :: before) ++ closeParen :: pieces := by
    simp [hbefore]
  rw [hshape, List.getLast?_append_of_ne_nil _ (by simp)]

theorem closed_call_iff {word inner : Text} :
    Closed (closeParen :: (dot :: name word :: openParen :: (ofArguments inner).1
        ++ (ofChain (ofArguments inner).2).1)) ↔
      Closed (ofArguments inner).1 ∧ Closed (closeParen :: (ofChain (ofArguments inner).2).1) := by
  by_cases hlist : Closed (ofArguments inner).1
  · unfold Closed at hlist ⊢
    rw [getLast?_call hlist]
    simp [hlist]
  · have hfirst : Closed (closeParen :: dot :: name word :: openParen :: (ofArguments inner).1) ↔
        Closed (openParen :: (ofArguments inner).1) := by simp [Closed]
    have hparen : openParen ≠ closeParen := by simp
    rw [ofChain_rest_of_not_closed hlist]
    simp only [List.append_nil, hfirst, closed_cons_iff hparen, hlist, false_and]

/-- Behind the parenthesis that closes a reference, a chain leaves over what no modifier starts. -/
theorem ofChain_endsBefore (s : Text) :
    EndsBefore (closeParen :: (ofChain s).1) (ofChain s).2 := by
  induction s using chain_induction with
  | none s hnone => simpa [ofChain_none hnone, EndsBefore, endsBefore] using hnone
  | call word inner hname ih =>
    rw [ofChain_call hname]
    by_cases hlist : Closed (ofArguments inner).1
    · unfold EndsBefore
      rw [getLast?_call hlist]
      exact ih
    · rw [ofChain_rest_of_not_closed hlist]
      exact fun last _ => endsBefore_nil last

/-- A chain whose lists are closed is split in the same way in front of everything that no modifier
    starts. -/
theorem ofChain_local {s : Text} (hclosed : Closed (closeParen :: (ofChain s).1)) {tail : Text}
    (htail : opening? '.' tail = none) :
    ofChain (rawText (ofChain s).1 ++ tail) = ((ofChain s).1, tail) := by
  induction s using chain_induction with
  | none s hnone => simp [ofChain_none hnone, ofChain_none htail]
  | call word inner hname ih =>
    rw [ofChain_call hname] at hclosed ⊢
    obtain ⟨hlist, hinner⟩ := closed_call_iff.mp hclosed
    have hstep := ofChain_call hname (rawText (ofArguments inner).1
      ++ (rawText (ofChain (ofArguments inner).2).1 ++ tail))
    rw [ofArguments_local hlist, ih hinner] at hstep
    simpa [raw] using hstep

/-- An open chain leaves nothing over. -/
theorem ofChain_rest_of_open {s : Text} (hopen : ¬ Closed (closeParen :: (ofChain s).1)) :
    (ofChain s).2 = [] := by
  induction s using chain_induction with
  | none s hnone => simp [ofChain_none hnone, Closed] at hopen
  | call word inner hname ih =>
    rw [ofChain_call hname] at hopen ⊢
    by_cases hlist : Closed (ofArguments inner).1
    · exact ih fun hinner => hopen (closed_call_iff.mpr ⟨hlist, hinner⟩)
    · rw [ofChain_rest_of_not_closed hlist]

/-- Whether a piece stands behind the key of a reference. -/
def inCall : Lexeme → Bool
  | text _ | openMarker | closeMarker | atSign | field _ => false
  | _ => true

theorem inCall_of_mem_blanks {run : Text} : ∀ piece ∈ blanks run, piece.inCall := by
  cases run <;> simp [blanks, inCall]

theorem inCall_of_mem_ofArguments (s : Text) : ∀ piece ∈ (ofArguments s).1, piece.inCall := by
  induction s using arguments_induction with
  | nil => simp [ofArguments]
  | close s => simp [ofArguments_close, inCall]
  | comma s ih =>
    rw [ofArguments_comma]
    exact List.forall_mem_cons.mpr ⟨rfl, ih⟩
  | blank c run s hc hrun hs ih =>
    rw [ofArguments_blank hc hrun hs]
    exact List.forall_mem_cons.mpr ⟨rfl, ih⟩
  | quoted quote body s hquote hbody ih =>
    rw [ofArguments_quoted hquote (hbody s)]
    exact List.forall_mem_cons.mpr ⟨rfl, ih⟩
  | unclosed quote s hquote hbody => simp [ofArguments_unclosed hquote hbody, inCall]
  | bare c run s hc hrun hs ih =>
    rw [ofArguments_bare hc hrun hs]
    intro piece hpiece
    rcases List.mem_append.mp hpiece with hfront | hpiece
    · rcases List.mem_cons.mp hfront with rfl | hblank
      · rfl
      · exact inCall_of_mem_blanks piece hblank
    · exact ih piece hpiece

theorem inCall_of_mem_ofChain (s : Text) : ∀ piece ∈ (ofChain s).1, piece.inCall := by
  induction s using chain_induction with
  | none s hnone => simp [ofChain_none hnone]
  | call word inner hname ih =>
    rw [ofChain_call hname]
    intro piece hpiece
    rcases List.mem_append.mp hpiece with hfront | hpiece
    · have harguments := inCall_of_mem_ofArguments inner
      simp only [List.mem_cons] at hfront
      rcases hfront with rfl | rfl | rfl | hlist
      · rfl
      · rfl
      · rfl
      · exact harguments piece hlist
    · exact ih piece hpiece

/-- In front of more text an open chain is not over. -/
theorem tail_eq_nil_of_open {s tail : Text} (hopen : ¬ Closed (closeParen :: (ofChain s).1))
    (hends : EndsBefore (closeParen :: (ofChain s).1) tail) : tail = [] := by
  have hpieces : (ofChain s).1 ≠ [] := by
    intro hnil
    rw [hnil] at hopen
    exact hopen rfl
  obtain ⟨last, hlast⟩ := List.getLast?_isSome.mpr hpieces |> Option.isSome_iff_exists.mp
  have hcall := inCall_of_mem_ofChain s last (List.mem_of_getLast? hlast)
  have hlast' : (closeParen :: (ofChain s).1).getLast? = some last := by
    rw [← hlast]
    exact List.getLast?_append_of_ne_nil [closeParen] hpieces
  have hover := hends last hlast'
  cases last with
  | closeParen => exact absurd hlast' hopen
  | text | openMarker | closeMarker | atSign | field => simp [inCall] at hcall
  | _ => exact hover

end TagText.Lexeme
