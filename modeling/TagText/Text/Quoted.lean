import TagText.Text.Hexadecimal
import TagText.Text.Printable

/-!
How a text is displayed inside a message: between quotes, with escapes for the quote, the backslash
and everything that would not show.
-/

namespace TagText.Text

/-- A character between quotes: hidden ones by their code point, in two, four or eight digits. -/
def quotedChar (quote c : Char) : Text :=
  if c = quote || c = '\\' then ['\\', c]
  else if c = '\t' then ['\\', 't']
  else if c = '\n' then ['\\', 'n']
  else if c = '\r' then ['\\', 'r']
  else if isPrintable c then [c]
  else if c.toNat < 0x100 then '\\' :: 'x' :: hexadecimal 2 c.toNat
  else if c.toNat < 0x10000 then '\\' :: 'u' :: hexadecimal 4 c.toNat
  else '\\' :: 'U' :: hexadecimal 8 c.toNat

/-- The quote for a text: a single one, unless the text holds single ones and no double one. -/
def quoteFor (s : Text) : Char :=
  if s.contains '\x27' && !s.contains '\x22' then '\x22' else '\x27'

/-- The text between quotes. -/
def quoted (s : Text) : Text :=
  let quote := quoteFor s
  quote :: s.flatMap (quotedChar quote) ++ [quote]

end TagText.Text
