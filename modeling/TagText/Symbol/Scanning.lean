import TagText.Symbol.Lexeme

/-!
How a text is scanned into pieces. The scanner stands somewhere in the whole text and looks no
further than its limit, which is the first close marker while it scans a stored value, and otherwise
the end of the text. References are found wherever a sign, a name and an opening parenthesis stand
together in front of the limit; all else is literal.
-/

namespace TagText

/-- What is still to come of a text, `room` characters of it in front of the limit. -/
structure Window where
  rest : Text
  room : Nat

namespace Window

/-- A text with the limit at its end. -/
def whole (s : Text) : Window := { rest := s, room := s.length }

/-- The next character, unless the limit is reached, and the window behind it. -/
def next? (w : Window) : Option (Char × Window) :=
  match w.room, w.rest with
  | room + 1, c :: rest => some (c, { rest, room })
  | _, _ => none

theorem room_next?_lt {w after : Window} {c : Char} (hnext : w.next? = some (c, after)) :
    after.room < w.room := by
  unfold next? at hnext
  split at hnext
  · obtain ⟨-, rfl⟩ := by simpa using hnext
    simp [*]
  · simp at hnext

/-- The characters of a class at the front, and the window behind them. -/
def span (p : Char → Bool) (w : Window) : Text × Window :=
  match _ : w.next? with
  | none => ([], w)
  | some (c, after) =>
    if p c then
      let (run, last) := after.span p
      (c :: run, last)
    else ([], w)
termination_by w.room
decreasing_by exact room_next?_lt ‹_›

theorem room_span_le (p : Char → Bool) (w : Window) : (w.span p).2.room ≤ w.room := by
  fun_induction span p w with
  | case1 => exact Nat.le_refl _
  | case2 w c after hnext _ run last hspan ih =>
    rw [hspan] at ih
    exact Nat.le_trans ih (Nat.le_of_lt (room_next?_lt hnext))
  | case3 => exact Nat.le_refl _

/-- The name at the front, and the window behind it. -/
def leadingName? (w : Window) : Option (Text × Window) :=
  match w.next? with
  | none => none
  | some (c, after) =>
    if Lexeme.isNameStart c then
      let (run, last) := after.span isWord
      some (c :: run, last)
    else none

/-- A sign, a name and an opening parenthesis at the front: the name, and the window behind the
    parenthesis. -/
def opening? (sign : Char) (w : Window) : Option (Text × Window) :=
  match w.next? with
  | none => none
  | some (c, after) =>
    if c = sign then
      match after.leadingName? with
      | none => none
      | some (word, after) =>
        match after.next? with
        | some ('(', inner) => some (word, inner)
        | _ => none
    else none

theorem room_leadingName?_lt {w after : Window} {word : Text}
    (hname : w.leadingName? = some (word, after)) : after.room < w.room := by
  unfold leadingName? at hname
  split at hname
  · simp at hname
  · rename_i c behind hnext
    split at hname
    · obtain ⟨-, rfl⟩ := by simpa using hname
      exact Nat.lt_of_le_of_lt (room_span_le isWord behind) (room_next?_lt hnext)
    · simp at hname

theorem room_opening?_lt {sign : Char} {w inner : Window} {word : Text}
    (hopening : w.opening? sign = some (word, inner)) : inner.room < w.room := by
  unfold opening? at hopening
  split at hopening
  · simp at hopening
  · rename_i c after hsign
    split at hopening
    · split at hopening
      · simp at hopening
      · rename_i found behind hname
        split at hopening
        · rename_i last hparen
          obtain ⟨-, rfl⟩ := by simpa using hopening
          have hfront := Nat.lt_trans (room_leadingName?_lt hname) (room_next?_lt hsign)
          exact Nat.lt_trans (room_next?_lt hparen) hfront
        · simp at hopening
    · simp at hopening

/-- The body of a quoted argument behind its opening quote, and the window behind the closing one. A
    backslash takes the next character with it. -/
def quotedBody? (quote : Char) (w : Window) : Option (Text × Window) :=
  match _ : w.next? with
  | none => none
  | some (c, after) =>
    if c = quote then some ([], after)
    else if c = '\\' then
      match _ : after.next? with
      | none => none
      | some (d, after) =>
        (after.quotedBody? quote).map fun (body, last) => (c :: d :: body, last)
    else (after.quotedBody? quote).map fun (body, last) => (c :: body, last)
termination_by w.room
decreasing_by
  · exact Nat.lt_trans (room_next?_lt ‹_›) (room_next?_lt ‹w.next? = _›)
  · exact room_next?_lt ‹_›

/-- A closing quote lies in front of the limit. -/
theorem room_quotedBody?_lt {quote : Char} {w last : Window} {body : Text}
    (hbody : w.quotedBody? quote = some (body, last)) : last.room < w.room := by
  fun_induction quotedBody? quote w generalizing body last with
  | case1 => simp at hbody
  | case2 w after hnext =>
    obtain ⟨-, rfl⟩ := by simpa using hbody
    exact room_next?_lt hnext
  | case3 => simp at hbody
  | case4 w behind d after hnext hslash _ ih =>
    obtain ⟨inner, hinner, -⟩ := by simpa using hbody
    exact Nat.lt_trans (ih hinner) (Nat.lt_trans (room_next?_lt hnext) (room_next?_lt hslash))
  | case5 w c after hnext _ _ ih =>
    obtain ⟨inner, hinner, -⟩ := by simpa using hbody
    exact Nat.lt_trans (ih hinner) (room_next?_lt hnext)

/-- The literal run at the front: everything up to the next reference or the limit. -/
def literalRun (w : Window) : Text × Window :=
  match _ : w.next? with
  | none => ([], w)
  | some (c, after) =>
    if (w.opening? '@').isSome then ([], w)
    else
      let (run, last) := after.literalRun
      (c :: run, last)
termination_by w.room
decreasing_by exact room_next?_lt ‹_›

theorem room_literalRun_le (w : Window) : w.literalRun.2.room ≤ w.room := by
  fun_induction literalRun w with
  | case1 => exact Nat.le_refl _
  | case2 => exact Nat.le_refl _
  | case3 w c after hnext _ run last hrun ih =>
    rw [hrun] at ih
    exact Nat.le_trans ih (Nat.le_of_lt (room_next?_lt hnext))

end Window

namespace Lexeme

/-- The pieces of an argument list behind its opening parenthesis, and the window behind the closing
    one. A list that is never closed takes up everything in front of the limit. -/
def scanArguments (w : Window) : List Lexeme × Window :=
  match _ : w.next? with
  | none => ([], w)
  | some (c, after) =>
    if c = ')' then ([closeParen], after)
    else if c = ',' then
      let (pieces, last) := scanArguments after
      (comma :: pieces, last)
    else if isBlank c then
      let more := after.span isBlank
      let (pieces, last) := scanArguments more.2
      (blank (c :: more.1) :: pieces, last)
    else if isQuote c then
      match _ : after.quotedBody? c with
      | none =>
        let (run, last) := after.span fun _ => true
        ([unclosed (c :: run)], last)
      | some (body, after) =>
        let (pieces, last) := scanArguments after
        (quoted c body :: pieces, last)
    else
      let more := after.span fun d => !endsBare d
      let run := c :: more.1
      let value := Text.trimRight isBlank run
      let (pieces, last) := scanArguments more.2
      (bare value :: blanks (run.drop value.length) ++ pieces, last)
termination_by w.room
decreasing_by
  · exact Window.room_next?_lt ‹_›
  · exact Nat.lt_of_le_of_lt (Window.room_span_le ..) (Window.room_next?_lt ‹_›)
  · exact Nat.lt_trans (Window.room_quotedBody?_lt ‹_›) (Window.room_next?_lt ‹_›)
  · exact Nat.lt_of_le_of_lt (Window.room_span_le ..) (Window.room_next?_lt ‹_›)

theorem room_scanArguments_le (w : Window) : (scanArguments w).2.room ≤ w.room := by
  fun_induction scanArguments w with
  | case1 => exact Nat.le_refl _
  | case2 w after hnext => exact Nat.le_of_lt (Window.room_next?_lt hnext)
  | case3 w after pieces last heq hnext _ ih =>
    rw [heq] at ih
    exact Nat.le_trans ih (Nat.le_of_lt (Window.room_next?_lt hnext))
  | case4 w c after hnext _ _ _ more pieces last heq ih =>
    rw [heq] at ih
    have hrun : more.2.room ≤ after.room := Window.room_span_le isBlank after
    have := Window.room_next?_lt hnext
    simp only at ih ⊢
    omega
  | case5 w c after hnext _ _ _ _ hnone run last heq =>
    have hrun := Window.room_span_le (fun _ => true) after
    rw [heq] at hrun
    exact Nat.le_trans hrun (Nat.le_of_lt (Window.room_next?_lt hnext))
  | case6 w c after hnext _ _ _ _ body behind hbody pieces last heq ih =>
    rw [heq] at ih
    have := Window.room_quotedBody?_lt hbody
    have := Window.room_next?_lt hnext
    simp only at ih ⊢
    omega
  | case7 w c after hnext _ _ _ _ more run value pieces last heq ih =>
    rw [heq] at ih
    have hrun : more.2.room ≤ after.room := Window.room_span_le _ after
    have := Window.room_next?_lt hnext
    simp only at ih ⊢
    omega

/-- The pieces of the modifiers at the front, and the window behind the last of them. -/
def scanChain (w : Window) : List Lexeme × Window :=
  match _ : w.opening? '.' with
  | none => ([], w)
  | some (word, inner) =>
    let arguments := scanArguments inner
    let (pieces, last) := scanChain arguments.2
    (dot :: name word :: openParen :: arguments.1 ++ pieces, last)
termination_by w.room
decreasing_by
  exact Nat.lt_of_le_of_lt (room_scanArguments_le inner) (Window.room_opening?_lt ‹_›)

theorem room_scanChain_le (w : Window) : (scanChain w).2.room ≤ w.room := by
  fun_induction scanChain w with
  | case1 => exact Nat.le_refl _
  | case2 w word inner hopening arguments pieces last heq ih =>
    rw [heq] at ih
    have hinner : arguments.2.room ≤ inner.room := room_scanArguments_le inner
    have := Window.room_opening?_lt hopening
    simp only at ih ⊢
    omega

/-- The pieces of a reference behind its opening parenthesis, and the window behind it. Modifiers
    belong to it only if its own parenthesis is closed. -/
def scanReference (word : Text) (inner : Window) : List Lexeme × Window :=
  let (run, after) := inner.span isFieldChar
  let head := [atSign, name word, openParen, field run]
  match after.next? with
  | some (')', after) =>
    let (pieces, last) := scanChain after
    (head ++ closeParen :: pieces, last)
  | _ => (head, after)

theorem room_scanReference_le (word : Text) (inner : Window) :
    (scanReference word inner).2.room ≤ inner.room := by
  have hle := Window.room_span_le isFieldChar inner
  unfold scanReference
  simp only
  split
  · rename_i after hnext
    have hlt := Window.room_next?_lt hnext
    exact Nat.le_trans (room_scanChain_le after) (Nat.le_trans (Nat.le_of_lt hlt) hle)
  · exact hle

/-- The pieces in front of the limit, and the window there. -/
def scan (w : Window) : List Lexeme × Window :=
  match _ : w.next? with
  | none => ([], w)
  | some (c, after) =>
    match _ : w.opening? '@' with
    | some (word, inner) =>
      let reference := scanReference word inner
      let (pieces, last) := scan reference.2
      (reference.1 ++ pieces, last)
    | none =>
      let run := after.literalRun
      let (pieces, last) := scan run.2
      (text (c :: run.1) :: pieces, last)
termination_by w.room
decreasing_by
  · exact Nat.lt_of_le_of_lt (room_scanReference_le word inner) (Window.room_opening?_lt ‹_›)
  · exact Nat.lt_of_le_of_lt (Window.room_literalRun_le after) (Window.room_next?_lt ‹_›)

/-- The pieces of an expression. -/
def scanExpression (s : Text) : List Lexeme := (scan (.whole s)).1

/-- The pieces of a stored value. A dynamic value is scanned behind its open marker, up to the first
    close marker that follows; what stands behind that, and any other value, is literal. -/
def scanValue (value : Text) : List Lexeme :=
  if isActive value then
    let inner := value.drop TagText.openMarker.length
    -- The two markers do not overlap, so that the close marker lies behind the open one.
    let room := (Text.find? TagText.closeMarker inner).getD 0
    let (pieces, last) := scan { rest := inner, room }
    openMarker :: pieces ++ closeMarker :: ofLiteral (last.rest.drop TagText.closeMarker.length)
  else ofLiteral value

end Lexeme

end TagText
