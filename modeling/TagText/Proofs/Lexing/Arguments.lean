import TagText.Proofs.Lexing.Openings

/-!
Argument lists piece by piece. A list that is closed is split in the same way whatever follows it;
of one that is not, nothing is left over.
-/

namespace TagText.Lexeme

theorem quotedBody?_close (quote : Char) (s : Text) :
    quotedBody? quote (quote :: s) = some ([], s) := by
  rw [quotedBody?.eq_def]
  simp

theorem quotedBody?_escape {quote : Char} (hquote : '\\' ≠ quote) (c : Char) (s : Text) :
    quotedBody? quote ('\\' :: c :: s) =
      (quotedBody? quote s).map fun (body, after) => ('\\' :: c :: body, after) := by
  rw [quotedBody?.eq_def]
  simp [hquote]

theorem quotedBody?_plain {quote c : Char} (hquote : c ≠ quote) (hescape : c ≠ '\\') (s : Text) :
    quotedBody? quote (c :: s) =
      (quotedBody? quote s).map fun (body, after) => (c :: body, after) := by
  rw [quotedBody?.eq_def]
  simp [hquote, hescape]

theorem quotedBody?_local {quote : Char} {s body after : Text}
    (hbody : quotedBody? quote s = some (body, after)) (tail : Text) :
    quotedBody? quote (body ++ quote :: tail) = some (body, tail) := by
  fun_induction quotedBody? quote s generalizing body after with
  | case1 => simp at hbody
  | case2 rest =>
    obtain ⟨rfl, rfl⟩ := by simpa using hbody
    exact quotedBody?_close quote tail
  | case3 => simp at hbody
  | case4 c rest hquote ih =>
    obtain ⟨inner, hinner, rfl⟩ := by simpa using hbody
    simp [quotedBody?_escape hquote, ih hinner]
  | case5 c rest hquote hescape ih =>
    obtain ⟨inner, hinner, rfl⟩ := by simpa using hbody
    simp [quotedBody?_plain hquote hescape, ih hinner]

/-- Whether an argument without quotes can start with a character. -/
def startsBare (c : Char) : Bool := !endsBare c && !isBlank c && !isQuote c

theorem ofArguments_close (s : Text) : ofArguments (')' :: s) = ([closeParen], s) := by
  rw [ofArguments.eq_def]
  simp

theorem ofArguments_comma (s : Text) :
    ofArguments (',' :: s) = (comma :: (ofArguments s).1, (ofArguments s).2) := by
  rw [ofArguments.eq_def]
  simp

theorem ofArguments_blank {c : Char} {run s : Text} (hc : isBlank c = true)
    (hrun : ∀ d ∈ run, isBlank d) (hs : ∀ d ∈ s.head?, isBlank d = false) :
    ofArguments (c :: run ++ s) = (blank (c :: run) :: (ofArguments s).1, (ofArguments s).2) := by
  obtain ⟨htake, hdrop⟩ := Text.span_append hrun hs
  have hclose : c ≠ ')' := by rintro rfl; simp [isBlank] at hc
  have hcomma : c ≠ ',' := by rintro rfl; simp [isBlank] at hc
  rw [List.cons_append, ofArguments.eq_def]
  simp [hclose, hcomma, hc, htake, hdrop]

theorem ofArguments_quoted {quote : Char} {body s : Text} (hquote : isQuote quote = true)
    (hbody : quotedBody? quote (body ++ quote :: s) = some (body, s)) :
    ofArguments (quote :: body ++ quote :: s) =
      (quoted quote body :: (ofArguments s).1, (ofArguments s).2) := by
  have hclose : quote ≠ ')' := by rintro rfl; simp [isQuote] at hquote
  have hcomma : quote ≠ ',' := by rintro rfl; simp [isQuote] at hquote
  have hblank : isBlank quote = false := by
    simp only [isQuote, Bool.or_eq_true, decide_eq_true_eq] at hquote
    rcases hquote with rfl | rfl <;> decide
  rw [List.cons_append, ofArguments.eq_def]
  simp only [hclose, hcomma, hblank, hquote, if_false, if_true, Bool.false_eq_true]
  split
  · simp_all
  · simp_all

theorem ofArguments_unclosed {quote : Char} {s : Text} (hquote : isQuote quote = true)
    (hbody : quotedBody? quote s = none) :
    ofArguments (quote :: s) = ([unclosed (quote :: s)], []) := by
  have hclose : quote ≠ ')' := by rintro rfl; simp [isQuote] at hquote
  have hcomma : quote ≠ ',' := by rintro rfl; simp [isQuote] at hquote
  have hblank : isBlank quote = false := by
    simp only [isQuote, Bool.or_eq_true, decide_eq_true_eq] at hquote
    rcases hquote with rfl | rfl <;> decide
  rw [ofArguments.eq_def]
  simp only [hclose, hcomma, hblank, hquote, if_false, if_true, Bool.false_eq_true]
  split
  · rfl
  · simp_all

theorem ofArguments_bare {c : Char} {run s : Text} (hc : startsBare c = true)
    (hrun : ∀ d ∈ run, endsBare d = false) (hs : ∀ d ∈ s.head?, endsBare d = true) :
    ofArguments (c :: run ++ s) =
      (bare (Text.trimRight isBlank (c :: run))
          :: blanks ((c :: run).drop (Text.trimRight isBlank (c :: run)).length)
          ++ (ofArguments s).1, (ofArguments s).2) := by
  have hkeep : ∀ d ∈ run, (!endsBare d) = true := fun d hd => by simp [hrun d hd]
  have hstop : ∀ d ∈ s.head?, (!endsBare d) = false := fun d hd => by simp [hs d hd]
  obtain ⟨htake, hdrop⟩ := Text.span_append hkeep hstop
  obtain ⟨⟨hends, hblank⟩, hquote⟩ := by simpa [startsBare] using hc
  obtain ⟨hcomma, hclose⟩ := by simpa [endsBare] using hends
  rw [List.cons_append, ofArguments.eq_def]
  simp [hclose, hcomma, hblank, hquote, htake, hdrop]

/-- The pieces of a text split argument by argument: a principle that spares the proofs below the
    recursion on lengths. -/
theorem arguments_induction {P : Text → Prop} (nil : P [])
    (close : ∀ s, P (')' :: s)) (comma : ∀ s, P s → P (',' :: s))
    (blank : ∀ c run s, isBlank c = true → (∀ d ∈ run, isBlank d) →
      (∀ d ∈ s.head?, isBlank d = false) → P s → P (c :: run ++ s))
    (quoted : ∀ quote body s, isQuote quote = true →
      (∀ tail, quotedBody? quote (body ++ quote :: tail) = some (body, tail)) → P s →
      P (quote :: body ++ quote :: s))
    (unclosed : ∀ quote s, isQuote quote = true → quotedBody? quote s = none → P (quote :: s))
    (bare : ∀ c run s, startsBare c = true → (∀ d ∈ run, endsBare d = false) →
      (∀ d ∈ s.head?, endsBare d = true) → P s → P (c :: run ++ s)) (s : Text) : P s := by
  fun_induction ofArguments s with
  | case1 => exact nil
  | case2 s => exact close s
  | case3 s _ _ _ _ ih => exact comma s ih
  | case4 c s _ _ hblank _ _ _ ih =>
    have hstep := blank c (s.takeWhile isBlank) _ hblank
      (fun d hd => List.all_eq_true.mp List.all_takeWhile d hd) Text.head?_dropWhile ih
    rwa [List.cons_append, List.takeWhile_append_dropWhile] at hstep
  | case5 c s _ _ _ hquote hbody => exact unclosed c s hquote hbody
  | case6 c s _ _ _ hquote body after hbody _ _ _ ih =>
    have hstep := quoted c body after hquote (quotedBody?_local hbody) ih
    rwa [List.cons_append, ← quotedBody?_eq hbody] at hstep
  | case7 c s hclose hcomma hblank hquote _ _ _ _ _ ih =>
    have hstart : startsBare c = true := by simp_all [startsBare, endsBare]
    have hends : ∀ d ∈ (s.dropWhile fun d => !endsBare d).head?, endsBare d = true := by
      intro d hd
      simpa using Text.head?_dropWhile d hd
    have hrun : ∀ d ∈ s.takeWhile fun d => !endsBare d, endsBare d = false := by
      intro d hd
      simpa using List.all_eq_true.mp List.all_takeWhile d hd
    have hstep := bare c _ _ hstart hrun hends ih
    rwa [List.cons_append, List.takeWhile_append_dropWhile] at hstep

/-- Whether pieces end with a closing parenthesis. -/
def Closed (pieces : List Lexeme) : Prop := pieces.getLast? = some closeParen

theorem closed_cons_iff {piece : Lexeme} {pieces : List Lexeme} (hpiece : piece ≠ closeParen) :
    Closed (piece :: pieces) ↔ Closed pieces := by
  cases pieces with
  | nil => simp [Closed, hpiece]
  | cons next more => simp [Closed]

theorem closed_blanks_append_iff {run : Text} {pieces : List Lexeme} :
    Closed (blanks run ++ pieces) ↔ Closed pieces := by
  cases run with
  | nil => simp [blanks]
  | cons c run => exact closed_cons_iff (by simp)

theorem rawText_ne_nil_of_closed {pieces : List Lexeme} (hclosed : Closed pieces) :
    rawText pieces ≠ [] := by
  obtain ⟨before, rfl⟩ := List.getLast?_eq_some_iff.mp hclosed
  simp [raw]

/-- Of an argument list that is never closed, nothing is left over. -/
theorem ofArguments_rest_of_not_closed {s : Text} (hopen : ¬ Closed (ofArguments s).1) :
    (ofArguments s).2 = [] := by
  induction s using arguments_induction with
  | nil => simp [ofArguments]
  | close s =>
    rw [ofArguments_close] at hopen
    exact absurd rfl hopen
  | comma s ih =>
    rw [ofArguments_comma] at hopen ⊢
    exact ih ((closed_cons_iff (by simp)).not.mp hopen)
  | blank c run s hc hrun hs ih =>
    rw [ofArguments_blank hc hrun hs] at hopen ⊢
    exact ih ((closed_cons_iff (by simp)).not.mp hopen)
  | quoted quote body s hquote hbody ih =>
    rw [ofArguments_quoted hquote (hbody s)] at hopen ⊢
    exact ih ((closed_cons_iff (by simp)).not.mp hopen)
  | unclosed quote s hquote hbody => rw [ofArguments_unclosed hquote hbody]
  | bare c run s hc hrun hs ih =>
    rw [ofArguments_bare hc hrun hs] at hopen ⊢
    apply ih
    rwa [List.cons_append, closed_cons_iff (by simp), closed_blanks_append_iff] at hopen

/-- What the pieces of a closed list start with is what its text starts with, whatever follows. -/
theorem head?_rawText_append {s tail : Text} (hclosed : Closed (ofArguments s).1) :
    (rawText (ofArguments s).1 ++ tail).head? = s.head? := by
  obtain ⟨c, front, hfront⟩ := List.exists_cons_of_ne_nil (rawText_ne_nil_of_closed hclosed)
  have hhead := congrArg List.head? (rawText_ofArguments s)
  rw [hfront] at hhead ⊢
  simpa using hhead

/-- A closed argument list is split in the same way whatever follows it. -/
theorem ofArguments_local {s : Text} (hclosed : Closed (ofArguments s).1) (tail : Text) :
    ofArguments (rawText (ofArguments s).1 ++ tail) = ((ofArguments s).1, tail) := by
  induction s using arguments_induction with
  | nil => simp [ofArguments, Closed] at hclosed
  | close s => simp [ofArguments_close, raw]
  | comma s ih =>
    rw [ofArguments_comma] at hclosed ⊢
    have hinner := (closed_cons_iff (by simp)).mp hclosed
    simp [raw, ofArguments_comma, ih hinner]
  | blank c run s hc hrun hs ih =>
    rw [ofArguments_blank hc hrun hs] at hclosed ⊢
    have hinner := (closed_cons_iff (by simp)).mp hclosed
    have hstep := ofArguments_blank hc hrun (s := rawText (ofArguments s).1 ++ tail)
      (by rwa [head?_rawText_append hinner])
    rw [ih hinner] at hstep
    simpa [raw] using hstep
  | quoted quote body s hquote hbody ih =>
    rw [ofArguments_quoted hquote (hbody s)] at hclosed ⊢
    have hinner := (closed_cons_iff (by simp)).mp hclosed
    have hstep := ofArguments_quoted hquote (hbody (rawText (ofArguments s).1 ++ tail))
    rw [ih hinner] at hstep
    simpa [raw] using hstep
  | unclosed quote s hquote hbody =>
    rw [ofArguments_unclosed hquote hbody] at hclosed
    simp [Closed] at hclosed
  | bare c run s hc hrun hs ih =>
    rw [ofArguments_bare hc hrun hs] at hclosed ⊢
    have hinner : Closed (ofArguments s).1 := by
      rwa [List.cons_append, closed_cons_iff (by simp), closed_blanks_append_iff] at hclosed
    have hstep := ofArguments_bare hc hrun (s := rawText (ofArguments s).1 ++ tail)
      (by rwa [head?_rawText_append hinner])
    rw [ih hinner] at hstep
    have hvalue := List.prefix_iff_eq_append.mp (Text.trimRight_isPrefix isBlank (c :: run))
    rw [List.cons_append, rawText_cons, rawText_append, rawText_blanks, raw, ← List.append_assoc,
      hvalue, List.append_assoc]
    exact hstep

end TagText.Lexeme
