import TagText.Text.Basic

/-!
Places in a text, as an offset and as a line and a column.
-/

namespace TagText

/-- A place in a text. Offsets count from zero, lines and columns from one. -/
structure Cursor where
  offset : Nat := 0
  line : Nat := 1
  column : Nat := 1
  deriving DecidableEq

namespace Cursor

/-- The place behind a character. A line feed is the last character of its line. -/
def step (c : Cursor) (char : Char) : Cursor :=
  if char = '\n' then { offset := c.offset + 1, line := c.line + 1, column := 1 }
  else { offset := c.offset + 1, line := c.line, column := c.column + 1 }

/-- The place behind a text. -/
def past (c : Cursor) (s : Text) : Cursor := s.foldl step c

end Cursor

end TagText
