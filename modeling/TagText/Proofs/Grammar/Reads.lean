import TagText.Proofs.Grammar.Arguments

/-!
What is derivable as an argument list is read as one, up to its closing parenthesis and whatever
follows it.
-/

namespace TagText.Grammar

open Lexeme Outline TagText.Symbol

/-- A text is read from an argument list on up to a tail. -/
structure Reads (read? : List Symbol → Option (List Text × List Symbol)) (s tail : Text)
    (args : List Text) : Prop where
  closed : Closed (ofArguments s).1
  rest : (ofArguments s).2 = tail
  read : ∀ place, read? (placed place (ofArguments s).1) = some (args, [])

theorem Reads.prepend_blank {read? : List Symbol → Option (List Text × List Symbol)}
    {gap s tail : Text} {args : List Text} (hreads : Reads read? s tail args) (hgap : Blank gap)
    (hs : ∀ c ∈ s.head?, isBlank c = false) : Reads read? (gap ++ s) tail args := by
  cases gap with
  | nil => exact hreads
  | cons c gap =>
    obtain ⟨hc, hgap⟩ := List.forall_mem_cons.mp hgap
    have hpieces := ofArguments_blank hc hgap hs
    constructor
    · rw [hpieces]
      exact (closed_cons_iff (by simp)).mpr hreads.closed
    · rw [hpieces]
      exact hreads.rest
    · intro place
      rw [hpieces]
      exact hreads.read _

theorem isBlank_of_endsBare {c : Char} (hc : endsBare c = true) : isBlank c = false := by
  simp only [endsBare, Bool.or_eq_true, decide_eq_true_eq] at hc
  rcases hc with rfl | rfl <;> decide

theorem trimRight_append_blank {gap : Text} (hgap : Blank gap) (s : Text) :
    Text.trimRight isBlank (s ++ gap) = Text.trimRight isBlank s := by
  have hreverse : ∀ c ∈ gap.reverse, isBlank c := by simpa [Blank] using hgap
  rw [Text.trimRight, Text.trimRight, List.reverse_append, List.dropWhile_append_of_pos hreverse]

/-- An argument does not start with white space. -/
theorem Argument.head {raw value : Text} (hargument : Argument raw value) (tail : Text) :
    ∀ c ∈ (raw ++ tail).head?, isBlank c = false := by
  cases hargument with
  | @quoted quote body hquote hbody =>
    simp only [isQuote, Bool.or_eq_true, decide_eq_true_eq] at hquote
    rcases hquote with rfl | rfl <;> simp [isBlank]
  | bare hc hrun =>
    simp only [startsBare, Bool.and_eq_true, Bool.not_eq_true'] at hc
    simpa using hc.1.2

/-- An argument in front of what is read behind one. -/
theorem Argument.reads {raw value gap s tail : Text} {args : List Text}
    (hargument : Argument raw value) (hgap : Blank gap) (hs : ∀ c ∈ s.head?, endsBare c = true)
    (hmore : Reads moreArguments? s tail args) :
    Reads someArguments? (raw ++ gap ++ s) tail (value :: args) := by
  cases hargument with
  | @quoted quote body hquote hbody =>
    have hrest := hmore.prepend_blank hgap fun c hc => isBlank_of_endsBare (hs c hc)
    have hpieces := ofArguments_quoted hquote (hbody.quotedBody?_eq hquote (gap ++ s))
    rw [show quote :: body ++ [quote] ++ gap ++ s = quote :: body ++ quote :: (gap ++ s) by simp]
    constructor
    · rw [hpieces]
      exact (closed_cons_iff (by simp)).mpr hrest.closed
    · rw [hpieces]
      exact hrest.rest
    · intro place
      rw [hpieces, placed, symbol?, someArguments?_cons, hrest.read]
      rfl
  | @bare c run hc hrun =>
    have hall : ∀ d ∈ run ++ gap, endsBare d = false := by
      intro d hd
      rcases List.mem_append.mp hd with hd | hd
      · exact hrun d hd
      · cases hends : endsBare d with
        | false => rfl
        | true => exact absurd (hgap d hd) (by simp [isBlank_of_endsBare hends])
    have hpieces := ofArguments_bare hc hall hs
    rw [← List.cons_append, trimRight_append_blank hgap] at hpieces
    constructor
    · rw [hpieces, List.cons_append]
      rw [closed_cons_iff (by simp), closed_blanks_append_iff]
      exact hmore.closed
    · rw [hpieces]
      exact hmore.rest
    · intro place
      obtain ⟨next, hnext⟩ := placed_blanks (place.past (Text.trimRight isBlank (c :: run)))
        ((c :: run ++ gap).drop (Text.trimRight isBlank (c :: run)).length) (ofArguments s).1
      rw [hpieces, List.cons_append, placed]
      simp only [symbol?, raw, hnext]
      rw [someArguments?_cons, hmore.read]
      rfl

/-- White space, an argument and white space in front of what is read behind an argument. -/
theorem Argument.reads_between {before raw after rest value tail : Text} {values : List Text}
    (hargument : Argument raw value) (hbefore : Blank before) (hafter : Blank after)
    (hmore : MoreArguments rest values) (hrest : Reads moreArguments? (rest ++ tail) tail values) :
    Reads someArguments? (before ++ raw ++ after ++ rest ++ tail) tail (value :: values) := by
  have hlist := hargument.reads hafter (hmore.head tail) hrest
  rw [List.append_assoc raw] at hlist
  have hwhole := hlist.prepend_blank hbefore (hargument.head _)
  simpa using hwhole

theorem MoreArguments.reads {raw : Text} {args : List Text} (hmore : MoreArguments raw args)
    (tail : Text) : Reads moreArguments? (raw ++ tail) tail args := by
  induction hmore with
  | close =>
    rw [List.cons_append, List.nil_append]
    constructor <;> simp [ofArguments_close, Closed, placed, symbol?, moreArguments?]
  | comma hbefore hargument hafter hrest ih =>
    have hlist := hargument.reads_between hbefore hafter hrest ih
    rw [List.cons_append]
    constructor
    · rw [ofArguments_comma]
      exact (closed_cons_iff (by simp)).mpr hlist.closed
    · rw [ofArguments_comma]
      exact hlist.rest
    · intro place
      rw [ofArguments_comma]
      exact hlist.read _

theorem arguments?_of_someArguments? {symbols : List Symbol} {found : List Text × List Symbol}
    (hread : someArguments? symbols = Option.some found) :
    arguments? symbols = Option.some found := by
  cases symbols with
  | nil => cases hread
  | cons first symbols =>
    rw [arguments?]
    split
    · rename_i hclose
      rw [someArguments?_cons, hclose] at hread
      cases hread
    · exact hread

/-- What is derivable as an argument list is read, whatever follows it. -/
theorem Arguments.reads {raw : Text} {args : List Text} (harguments : Arguments raw args)
    (tail : Text) : Reads arguments? (raw ++ tail) tail args := by
  cases harguments with
  | @none gap hgap =>
    have hclose : Reads arguments? (')' :: tail) tail [] := by
      constructor <;> simp [ofArguments_close, Closed, placed, symbol?, arguments?]
    have hwhole := hclose.prepend_blank hgap (by simp [isBlank])
    simpa using hwhole
  | some hbefore hargument hafter hmore =>
    have hwhole := hargument.reads_between hbefore hafter hmore (hmore.reads tail)
    refine ⟨hwhole.closed, hwhole.rest, fun place => ?_⟩
    exact arguments?_of_someArguments? (hwhole.read place)

end TagText.Grammar
