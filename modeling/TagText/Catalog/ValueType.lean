import TagText.Text.Case

/-!
The types of the values that references stand for.
-/

namespace TagText

/-- What a field yields and a modifier takes and gives. -/
inductive ValueType
  | text
  | number
  | date
  | boolean
  | image
  | list
  deriving DecidableEq

namespace ValueType

/-- All types, in the order in which they are listed. -/
def all : List ValueType := [text, number, date, boolean, image, list]

/-- The name of a type. -/
def name : ValueType → Text
  | text => "text".toList
  | number => "number".toList
  | date => "date".toList
  | boolean => "boolean".toList
  | image => "image".toList
  | list => "list".toList

/-- The type with a name, in letters of either case. -/
def ofName? (s : Text) : Option ValueType := all.find? fun t => t.name == s.lower

end ValueType

end TagText
