import TagText.Text.Basic

/-!
Stored values. A value is dynamic when it starts with the open marker and holds a close marker; what
stands between the two is its expression, what follows is kept as it is. Every other value is
literal.
-/

namespace TagText

/-- The marker that a dynamic value starts with. -/
def openMarker : Text := "@tags()".toList

/-- The marker that ends the expression of a dynamic value. -/
def closeMarker : Text := "@endtags()".toList

/-- Whether a stored value is dynamic. -/
def isActive (value : Text) : Bool := openMarker.isPrefixOf value && value.holds closeMarker

/-- The two parts of a dynamic value besides its markers. -/
structure Region where
  expression : Text
  trailing : Text
  deriving DecidableEq

namespace Region

/-- The parts of a value, if it is dynamic. The first close marker ends the expression. -/
def ofValue? (value : Text) : Option Region :=
  match openMarker.isPrefixOf? value with
  | none => none
  | some inner => (Text.cut? closeMarker inner).map fun (expression, trailing) =>
    { expression, trailing }

/-- The value with these parts. -/
def value (r : Region) : Text := openMarker ++ r.expression ++ closeMarker ++ r.trailing

end Region

/-- The expression of a dynamic value; any other value as it is. -/
def unwrap (value : Text) : Text :=
  match Region.ofValue? value with
  | some region => region.expression
  | none => value

/-- The dynamic value of an expression. Open markers in the expression are taken out, so that the
    value holds exactly one; an expression of which nothing is left gives the empty value, and a
    value that is dynamic already stays as it is. -/
def wrap (expression : Text) : Text :=
  if isActive expression then expression
  else
    let body := Text.eraseAll openMarker expression
    if body.isEmpty then [] else openMarker ++ body ++ closeMarker

end TagText
