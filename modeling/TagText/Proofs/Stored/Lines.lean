import TagText.Proofs.Stored.Symbols

/-!
Lines and columns. The cursor counts them character by character, over everything that a text is
made of, whether it gives a symbol or not. So they are functions of the offset: the line goes by the
line feeds in front of it, the column by the characters behind the last of them.
-/

namespace TagText

/-- The last line of a text starts at an offset, which is that of its front or stands right behind a
    line feed, and no line feed follows. -/
structure Text.LastLine (s : Text) (start : Nat) : Prop where
  le : start ≤ s.length
  behind : start = 0 ∨ ∃ feed, start = feed + 1 ∧ s[feed]? = some '\n'
  unbroken : '\n' ∉ s.drop start

namespace Text.LastLine

variable {s : Text} {start other : Nat}

theorem le_of_lastLine (hstart : s.LastLine start) (hother : s.LastLine other) : start ≤ other := by
  rcases hstart.behind with rfl | ⟨feed, rfl, hfeed⟩
  · exact Nat.zero_le other
  · -- A line feed behind the start of a line would break the line.
    by_contra hlt
    have hle : other ≤ feed := by omega
    refine hother.unbroken (List.mem_of_getElem? (i := feed - other) ?_)
    rw [List.getElem?_drop, Nat.add_sub_cancel' hle]
    exact hfeed

/-- The last line starts at one offset only. -/
theorem unique (hstart : s.LastLine start) (hother : s.LastLine other) : start = other :=
  Nat.le_antisymm (hstart.le_of_lastLine hother) (hother.le_of_lastLine hstart)

theorem nil : Text.LastLine [] 0 := ⟨Nat.le_refl 0, Or.inl rfl, by simp⟩

/-- Behind a line feed a new line starts. -/
theorem append_feed (s : Text) : Text.LastLine (s ++ ['\n']) (s.length + 1) where
  le := by simp
  behind := Or.inr ⟨s.length, rfl, by simp⟩
  unbroken := by simp

/-- Every other character goes on with the line. -/
theorem append (hstart : s.LastLine start) {char : Char} (hchar : char ≠ '\n') :
    Text.LastLine (s ++ [char]) start where
  le := by
    have hle := hstart.le
    rw [List.length_append]
    omega
  behind := by
    refine hstart.behind.imp id ?_
    rintro ⟨feed, rfl, hfeed⟩
    obtain ⟨hlt, -⟩ := List.getElem?_eq_some_iff.mp hfeed
    exact ⟨feed, rfl, (List.getElem?_append_left hlt).trans hfeed⟩
  unbroken := by
    rw [List.drop_append_of_le_length hstart.le, List.mem_append, not_or]
    exact ⟨hstart.unbroken, by simpa using hchar.symm⟩

end Text.LastLine

namespace Cursor

/-- A cursor has counted a text: it stands behind it, in the line and in the column of its end. -/
structure Counts (s : Text) (c : Cursor) : Prop where
  offset : c.offset = s.length
  line : c.line = 1 + s.count '\n'
  column : ∃ start, s.LastLine start ∧ c.column = c.offset - start + 1

variable {s : Text} {c : Cursor}

theorem counts_nil : Counts [] {} := ⟨rfl, rfl, 0, .nil, rfl⟩

/-- A step counts one more character. -/
theorem Counts.step (hcounts : c.Counts s) (char : Char) : (c.step char).Counts (s ++ [char]) := by
  obtain ⟨hoffset, hline, start, hstart, hcolumn⟩ := hcounts
  unfold Cursor.step
  split
  · rename_i hfeed
    subst hfeed
    refine ⟨by simp [hoffset], ?_, s.length + 1, .append_feed s, ?_⟩
    · simp [hline, Nat.add_assoc]
    · simp [hoffset]
  · rename_i hchar
    refine ⟨by simp [hoffset], ?_, start, hstart.append hchar, ?_⟩
    · simp [hline, hchar]
    · have hle := hstart.le
      simp only [hcolumn, hoffset]
      omega

/-- What a cursor has counted is what stands in front of its offset. -/
theorem Counts.take_append (hcounts : c.Counts s) (after : Text) :
    (s ++ after).take c.offset = s := by
  rw [hcounts.offset, List.take_left]

/-- Going past a text counts the whole text. -/
theorem Counts.past (hcounts : c.Counts s) (run : Text) : (c.past run).Counts (s ++ run) := by
  induction run generalizing s c with
  | nil => rwa [List.append_nil]
  | cons char run ih =>
    have hrest := ih (hcounts.step char)
    rwa [List.append_assoc, List.singleton_append] at hrest

end Cursor

namespace Symbol

open Lexeme

/-- The place of a symbol's first character. -/
def place (s : Symbol) : Cursor := { offset := s.start, line := s.line, column := s.column }

/-- Every symbol of some pieces stands where the cursor has counted what is in front of it. -/
theorem counts_of_mem_locate {front : Text} {start : Cursor} {pieces : List Lexeme} {s : Symbol}
    (hstart : start.Counts front) (hs : s ∈ locate start pieces) :
    s.place.Counts ((front ++ rawText pieces).take s.start) := by
  induction pieces generalizing front start with
  | nil =>
    obtain rfl := List.mem_singleton.mp hs
    rwa [hstart.take_append]
  | cons piece pieces ih =>
    have hnext := hstart.past piece.raw
    rw [rawText_cons, ← List.append_assoc]
    rw [locate] at hs
    cases hsymbol : piece.symbol? with
    | none =>
      simp only [hsymbol] at hs
      exact ih hnext hs
    | some found =>
      simp only [hsymbol] at hs
      rcases List.mem_cons.mp hs with rfl | hs
      · rwa [List.append_assoc, hstart.take_append]
      · exact ih hnext hs

/-- The symbols of a stored value are those of pieces that tile it. -/
theorem exists_pieces_ofValue (value : Text) :
    ∃ pieces, rawText pieces = value ∧ ofValue value = locate {} pieces := by
  cases hregion : Region.ofValue? value with
  | none => exact ⟨_, rawText_ofLiteral value, ofValue_literal hregion⟩
  | some region => exact ⟨_, rawText_of_region hregion, ofValue_of_region hregion⟩

/-- Line and column of a symbol, of an expression or of a stored value, are functions of its offset:
    the line is behind as many others as there are line feeds in front of the offset, and the column
    counts from where the last line of what is in front starts. -/
theorem line_and_column {text : Text} {s : Symbol}
    (hs : s ∈ ofValue text ∨ s ∈ ofExpression text) :
    s.line = 1 + (text.take s.start).count '\n' ∧
      ∃ start, Text.LastLine (text.take s.start) start ∧ s.column = s.start - start + 1 ∧
        ∀ other, Text.LastLine (text.take s.start) other → other = start := by
  have hcounts : s.place.Counts (text.take s.start) := by
    rcases hs with hs | hs
    · obtain ⟨pieces, hraw, hvalue⟩ := exists_pieces_ofValue text
      have hplace := counts_of_mem_locate Cursor.counts_nil (hvalue ▸ hs)
      rwa [List.nil_append, hraw] at hplace
    · rw [ofExpression_eq] at hs
      have hplace := counts_of_mem_locate Cursor.counts_nil hs
      rwa [List.nil_append, rawText_ofExpression] at hplace
  obtain ⟨-, hline, start, hstart, hcolumn⟩ := hcounts
  exact ⟨hline, start, hstart, hcolumn, fun other hother => hother.unique hstart⟩

/-- Line feeds in a text, inside and between arguments, behind a quote that nothing closes and
    behind the close marker: the end of the text stands in the last of seven lines. -/
theorem line_and_column_of_feeds :
    let text := "@tags()a\n@b(c).d('x\ny',\n\tz\n1 ).e( \"\n@endtags()\nf".toList
    let s : Symbol :=
      { kind := .endOfText, value := [], start := 48, stop := 48, line := 7, column := 2 }
    s ∈ ofValue text ∧
      (7 = 1 + (text.take 48).count '\n' ∧
        ∃ start, Text.LastLine (text.take 48) start ∧ 2 = 48 - start + 1) ∧
      (ofValue text).map (fun s => (s.start, s.line, s.column)) =
        [(0, 1, 1), (7, 1, 8), (9, 2, 1), (10, 2, 2), (11, 2, 3), (12, 2, 4), (13, 2, 5),
         (14, 2, 6), (15, 2, 7), (16, 2, 8), (17, 2, 9), (22, 3, 3), (25, 4, 2), (29, 5, 3),
         (30, 5, 4), (31, 5, 5), (32, 5, 6), (36, 6, 1), (46, 6, 11), (48, 7, 2)] := by
  intro text s
  have hs : s ∈ ofValue text := by decide +kernel
  obtain ⟨hline, start, hstart, hcolumn, -⟩ := line_and_column (Or.inl hs)
  refine ⟨hs, ⟨hline, start, hstart, hcolumn⟩, ?_⟩
  decide +kernel

end Symbol

end TagText
