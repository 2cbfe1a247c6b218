import TagText.Json.Basic
import TagText.Number.Shortest
import TagText.Text.Quoted

/-!
How values are displayed inside messages.
-/

namespace TagText.Json

mutual

/-- A value as a message displays it. Its integers have few enough digits to be written. -/
def displayed : Json → Text
  | null => "None".toList
  | bool value => if value then "True".toList else "False".toList
  | int value => decimalInt value
  | float value => value.text
  | text value => value.quoted
  | list items => '[' :: displayedItems items ++ [']']
  | object members => '\x7b' :: displayedMembers members ++ ['\x7d']

/-- The displayed items of a list. -/
def displayedItems : List Json → Text
  | [] => []
  | [item] => displayed item
  | item :: items => displayed item ++ ',' :: ' ' :: displayedItems items

/-- The displayed members of an object. -/
def displayedMembers : List (Text × Json) → Text
  | [] => []
  | [(name, value)] => name.quoted ++ ':' :: ' ' :: displayed value
  | (name, value) :: members =>
    name.quoted ++ ':' :: ' ' :: displayed value ++ ',' :: ' ' :: displayedMembers members

end

end TagText.Json
