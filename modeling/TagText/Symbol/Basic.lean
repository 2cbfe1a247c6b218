import TagText.Number.Decimal
import TagText.Symbol.Cursor
import TagText.Symbol.Scanning
import TagText.Text.Quoted

/-!
Symbols: the pieces of a text that matter to a reader, each with its value and its place. What is
only skipped gives no symbol, and the stream ends with a symbol of its own.
-/

namespace TagText

/-- What a symbol is. -/
inductive SymbolKind
  | text
  | openMarker
  | closeMarker
  | atSign
  | name
  | field
  | openParen
  | closeParen
  | dot
  | comma
  | quoted
  | bare
  | endOfText
  deriving DecidableEq

namespace SymbolKind

/-- All kinds. -/
def all : List SymbolKind :=
  [text, openMarker, closeMarker, atSign, name, field, openParen, closeParen, dot, comma, quoted,
   bare, endOfText]

/-- How a kind is spelled in listings. -/
def label : SymbolKind → Text
  | text => "TEXT".toList
  | openMarker => "OPEN_WRAPPER".toList
  | closeMarker => "CLOSE_WRAPPER".toList
  | atSign => "AT".toList
  | name => "IDENTIFIER".toList
  | field => "FIELD".toList
  | openParen => "LPAREN".toList
  | closeParen => "RPAREN".toList
  | dot => "DOT".toList
  | comma => "COMMA".toList
  | quoted => "STRING".toList
  | bare => "ARG".toList
  | endOfText => "EOF".toList

/-- The kind of a label. -/
def ofLabel? (label : Text) : Option SymbolKind := all.find? fun kind => kind.label == label

end SymbolKind

/-- A symbol takes up the characters from `start` up to `stop` of its text; `line` and `column`
    are those of its first character. -/
structure Symbol where
  kind : SymbolKind
  value : Text
  start : Nat
  stop : Nat
  line : Nat := 1
  column : Nat := 1
  deriving DecidableEq

namespace Lexeme

/-- The symbol that a piece gives, as its kind and its value. -/
def symbol? : Lexeme → Option (SymbolKind × Text)
  | text run => some (.text, run)
  | openMarker => some (.openMarker, TagText.openMarker)
  | closeMarker => some (.closeMarker, TagText.closeMarker)
  | atSign => some (.atSign, ['@'])
  | name word => some (.name, word)
  | field run => some (.field, run)
  | openParen => some (.openParen, ['('])
  | closeParen => some (.closeParen, [')'])
  | dot => some (.dot, ['.'])
  | comma => some (.comma, [','])
  | quoted _ body => some (.quoted, unescape body)
  | bare run => some (.bare, run)
  | blank _ => none
  | unclosed _ => none

end Lexeme

namespace Symbol

/-- The symbols of pieces that stand one after the other from a place on. -/
def locate (place : Cursor) : List Lexeme → List Symbol
  | [] =>
    [{ kind := .endOfText, value := [], start := place.offset, stop := place.offset
       line := place.line, column := place.column }]
  | piece :: pieces =>
    let next := place.past piece.raw
    match piece.symbol? with
    | none => locate next pieces
    | some (kind, value) =>
      { kind, value, start := place.offset, stop := next.offset
        line := place.line, column := place.column } :: locate next pieces

/-- The symbols of a stored value. -/
def ofValue (value : Text) : List Symbol := locate {} (Lexeme.scanValue value)

/-- The symbols of an expression. -/
def ofExpression (expression : Text) : List Symbol := locate {} (Lexeme.scanExpression expression)

/-- A symbol as listings display it. -/
def displayed (s : Symbol) : Text :=
  "Symbol(".toList ++ s.kind.label ++ ", ".toList ++ s.value.quoted ++ ", pos=".toList
    ++ decimal s.start ++ ")".toList

end Symbol

end TagText
