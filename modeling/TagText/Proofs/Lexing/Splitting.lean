import TagText.Symbol.Lexeme

/-!
How a text splits into pieces when its end is the only limit there is. This is how the pieces of a
text are reasoned about; that a scanner with a limit finds the same ones is a matter of its own.
-/

namespace TagText.Lexeme

/-- The body of a quoted argument, and what follows its closing quote. A backslash takes the next
    character with it. -/
def quotedBody? (quote : Char) : Text → Option (Text × Text)
  | [] => none
  | c :: rest =>
    if c = quote then some ([], rest)
    else if c = '\\' then
      match rest with
      | [] => none
      | d :: rest => (quotedBody? quote rest).map fun (body, after) => (c :: d :: body, after)
    else (quotedBody? quote rest).map fun (body, after) => (c :: body, after)

/-- A closing quote lies inside the text. -/
theorem length_quotedBody?_lt {quote : Char} {s body after : Text}
    (hbody : quotedBody? quote s = some (body, after)) : after.length < s.length := by
  fun_induction quotedBody? quote s generalizing body after <;> simp at hbody
  next => simp [hbody.2]
  next ih =>
    obtain ⟨inner, hinner, -⟩ := hbody
    have := ih hinner
    simp only [List.length_cons]
    omega
  next ih =>
    obtain ⟨inner, hinner, -⟩ := hbody
    have := ih hinner
    simp only [List.length_cons]
    omega

/-- An opening takes up at least its sign and its parenthesis. -/
theorem length_opening?_lt {sign : Char} {s word rest : Text}
    (hopening : opening? sign s = some (word, rest)) : rest.length < s.length := by
  unfold opening? at hopening
  split at hopening
  · simp at hopening
  · rename_i c tail
    split at hopening
    · split at hopening
      · rename_i found after hname
        obtain ⟨-, rfl⟩ := by simpa using hopening
        unfold leadingName? at hname
        split at hname
        · simp at hname
        · rename_i d more
          split at hname
          · obtain ⟨-, hrest⟩ := by simpa using hname
            have := (List.dropWhile_sublist (l := more) isWord).length_le
            rw [hrest] at this
            simp only [List.length_cons] at this ⊢
            omega
          · simp at hname
      · simp at hopening
    · simp at hopening

/-- The pieces of an argument list behind its opening parenthesis, and what follows the closing
    one. Of a list that is never closed, nothing is left over. -/
def ofArguments (s : Text) : List Lexeme × Text :=
  match s with
  | [] => ([], [])
  | c :: s =>
    if c = ')' then ([closeParen], s)
    else if c = ',' then
      let (pieces, rest) := ofArguments s
      (comma :: pieces, rest)
    else if isBlank c then
      let (pieces, rest) := ofArguments (s.dropWhile isBlank)
      (blank (c :: s.takeWhile isBlank) :: pieces, rest)
    else if isQuote c then
      match _ : quotedBody? c s with
      | none => ([unclosed (c :: s)], [])
      | some (body, after) =>
        let (pieces, rest) := ofArguments after
        (quoted c body :: pieces, rest)
    else
      let run := c :: s.takeWhile fun d => !endsBare d
      let value := Text.trimRight isBlank run
      let (pieces, rest) := ofArguments (s.dropWhile fun d => !endsBare d)
      (bare value :: blanks (run.drop value.length) ++ pieces, rest)
termination_by s.length
decreasing_by
  · exact Nat.lt_succ_self _
  · exact Nat.lt_succ_of_le (List.dropWhile_sublist _).length_le
  · exact Nat.lt_succ_of_lt (length_quotedBody?_lt ‹_›)
  · exact Nat.lt_succ_of_le (List.dropWhile_sublist _).length_le

/-- What follows an argument list is no longer than the text it was cut from. -/
theorem length_ofArguments_le (s : Text) : (ofArguments s).2.length ≤ s.length := by
  fun_induction ofArguments s with
  | case1 => simp
  | case2 => simp
  | case3 s pieces rest heq _ ih =>
    simp only [heq, List.length_cons] at ih ⊢
    omega
  | case4 c s _ _ _ pieces rest heq ih =>
    have := (List.dropWhile_sublist (l := s) isBlank).length_le
    simp only [heq, List.length_cons] at ih ⊢
    omega
  | case5 => simp
  | case6 c s _ _ _ _ body after hbody pieces rest heq ih =>
    have := length_quotedBody?_lt hbody
    simp only [heq, List.length_cons] at ih ⊢
    omega
  | case7 c s _ _ _ _ run value pieces rest heq ih =>
    have := (List.dropWhile_sublist (l := s) fun d => !endsBare d).length_le
    simp only [heq, List.length_cons] at ih ⊢
    omega

/-- The pieces of the modifiers at the front of a text, and what follows the last of them. -/
def ofChain (s : Text) : List Lexeme × Text :=
  match _ : opening? '.' s with
  | none => ([], s)
  | some (word, inner) =>
    match _ : ofArguments inner with
    | (arguments, after) =>
      let (pieces, rest) := ofChain after
      (dot :: name word :: openParen :: arguments ++ pieces, rest)
termination_by s.length
decreasing_by
  rename_i harguments
  have hle := length_ofArguments_le inner
  rw [harguments] at hle
  exact Nat.lt_of_le_of_lt hle (length_opening?_lt ‹_›)

/-- What follows a chain of modifiers is no longer than the text it was cut from. -/
theorem length_ofChain_le (s : Text) : (ofChain s).2.length ≤ s.length := by
  fun_induction ofChain s with
  | case1 => simp
  | case2 s word inner hopening arguments after harguments pieces rest heq ih =>
    rw [heq] at ih
    have hle := length_ofArguments_le inner
    rw [harguments] at hle
    have := length_opening?_lt hopening
    simp only at ih hle ⊢
    omega

/-- The pieces of a reference behind its opening parenthesis, and what follows it. Modifiers belong
    to it only if its own parenthesis is closed. -/
def ofReference (word inner : Text) : List Lexeme × Text :=
  let head := [atSign, name word, openParen, field (inner.takeWhile isFieldChar)]
  match inner.dropWhile isFieldChar with
  | ')' :: s =>
    let (pieces, rest) := ofChain s
    (head ++ closeParen :: pieces, rest)
  | s => (head, s)

/-- What follows a reference is no longer than the text it was cut from. -/
theorem length_ofReference_le (word inner : Text) :
    (ofReference word inner).2.length ≤ inner.length := by
  have hle := (List.dropWhile_sublist (l := inner) isFieldChar).length_le
  unfold ofReference
  split
  · rename_i s heq
    have := length_ofChain_le s
    rw [heq, List.length_cons] at hle
    simp only
    omega
  · exact hle

/-- Whether a reference starts at the front of a text. -/
def startsReference (s : Text) : Bool := (opening? '@' s).isSome

/-- The literal run at the front of a text: everything up to the next reference. -/
def literalRun : Text → Text × Text
  | [] => ([], [])
  | c :: s =>
    if startsReference (c :: s) then ([], c :: s)
    else
      let (run, rest) := literalRun s
      (c :: run, rest)

/-- What follows a literal run is no longer than the text it was cut from. -/
theorem length_literalRun_le (s : Text) : (literalRun s).2.length ≤ s.length := by
  fun_induction literalRun s with
  | case1 => simp
  | case2 => simp
  | case3 c s _ run rest heq ih =>
    rw [heq] at ih
    simp only [List.length_cons] at ih ⊢
    omega

/-- The pieces of an expression. -/
def ofExpression (s : Text) : List Lexeme :=
  match s with
  | [] => []
  | c :: s =>
    match _ : opening? '@' (c :: s) with
    | some (word, inner) =>
      match _ : ofReference word inner with
      | (pieces, rest) => pieces ++ ofExpression rest
    | none =>
      match _ : literalRun s with
      | (run, rest) => text (c :: run) :: ofExpression rest
termination_by s.length
decreasing_by
  · rename_i hreference
    have hle := length_ofReference_le word inner
    rw [hreference] at hle
    exact Nat.lt_of_le_of_lt hle (length_opening?_lt ‹_›)
  · rename_i hrun
    have hle := length_literalRun_le s
    rw [hrun] at hle
    exact Nat.lt_succ_of_le hle

end TagText.Lexeme
