import TagText.Region
import TagText.Text.Blank
import TagText.Text.Digit
import TagText.Text.Word

/-!
The pieces that a text is made of, down to the last character: literal runs, the parts of
references, and what is skipped between arguments. A reference that is not complete ends where its
text stops fitting; the pieces up to there are kept, and it is for the reader of the pieces to
decide what becomes of them.
-/

namespace TagText

/-- A piece of a text. -/
inductive Lexeme
  /-- A literal run. -/
  | text (run : Text)
  | openMarker
  | closeMarker
  /-- The sign that starts a reference. -/
  | atSign
  /-- The name of a group or a modifier. -/
  | name (word : Text)
  /-- The key between the parentheses of a reference, which may be empty. -/
  | field (run : Text)
  | openParen
  | closeParen
  /-- The point in front of a modifier. -/
  | dot
  | comma
  /-- An argument between two quote characters, with its backslashes. -/
  | quoted (quote : Char) (body : Text)
  /-- An argument without quotes. -/
  | bare (run : Text)
  /-- White space between arguments. -/
  | blank (run : Text)
  /-- An argument with an opening quote that is never closed. -/
  | unclosed (run : Text)
  deriving DecidableEq

namespace Lexeme

/-- The characters that a piece takes up. -/
def raw : Lexeme → Text
  | text run => run
  | openMarker => TagText.openMarker
  | closeMarker => TagText.closeMarker
  | atSign => ['@']
  | name word => word
  | field run => run
  | openParen => ['(']
  | closeParen => [')']
  | dot => ['.']
  | comma => [',']
  | quoted quote body => quote :: body ++ [quote]
  | bare run => run
  | blank run => run
  | unclosed run => run

/-- A name starts with a letter or an underscore, or with a numeral that is no decimal digit. -/
def isNameStart (c : Char) : Bool := isWord c && !isDigit c

/-- The characters of a field key. -/
def isFieldChar (c : Char) : Bool := isWord c || c = '.' || c = ':' || c = '-'

/-- Whether a character opens and closes an argument. -/
def isQuote (c : Char) : Bool := c = '\x22' || c = '\x27'

/-- Whether a character ends an argument without quotes. -/
def endsBare (c : Char) : Bool := c = ',' || c = ')'

/-- The name at the front of a text, and what follows it. -/
def leadingName? (s : Text) : Option (Text × Text) :=
  match s with
  | [] => none
  | c :: rest =>
    if isNameStart c then some (c :: rest.takeWhile isWord, rest.dropWhile isWord) else none

/-- A sign, a name and an opening parenthesis, which is how references and modifiers start: the
    name, and what follows the parenthesis. -/
def opening? (sign : Char) (s : Text) : Option (Text × Text) :=
  match s with
  | [] => none
  | c :: rest =>
    if c = sign then
      match leadingName? rest with
      | some (word, '(' :: rest) => some (word, rest)
      | _ => none
    else none

/-- What a quoted body stands for: each backslash is dropped, and the character after it taken as
    it is. -/
def unescape : Text → Text
  | [] => []
  | [c] => [c]
  | c :: d :: rest => if c = '\\' then d :: unescape rest else c :: unescape (d :: rest)

/-- White space as a piece, unless there is none. -/
def blanks (run : Text) : List Lexeme := if run.isEmpty then [] else [blank run]

/-- A text as one literal piece, unless it is empty. -/
def ofLiteral (s : Text) : List Lexeme := if s.isEmpty then [] else [text s]

end Lexeme

end TagText
