import TagText.Text.Ranges

/-!
Two notions of white space. Inside an argument list only the four blanks of plain text are skipped;
a number or a truth value is read after every kind of white space around it has been trimmed.
-/

namespace TagText

/-- The white space of Unicode 14 with the four information separators. -/
def spaceSpans : List Span :=
  [(0x9, 0xD), (0x1C, 0x20), (0x85, 0x85), (0xA0, 0xA0), (0x1680, 0x1680), (0x2000, 0x200A),
   (0x2028, 0x2029), (0x202F, 0x202F), (0x205F, 0x205F), (0x3000, 0x3000)]

/-- Whether a character is trimmed from the ends of a number or a truth value. -/
def isSpace (c : Char) : Bool := covers spaceSpans c.toNat

/-- Whether a character is skipped between the arguments of a call: space, tab, carriage return
    and line feed. -/
def isBlank (c : Char) : Bool := c = ' ' || c = '\t' || c = '\r' || c = '\n'

end TagText
