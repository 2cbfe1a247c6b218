import TagText.Number.Binary64
import TagText.Number.Decimal
import TagText.Text.Assoc

/-!
Values of the data format in which hosts keep attributes and exchange requests. Whole numbers and
floating-point numbers are told apart.
-/

namespace TagText

/-- A value. The members of an object keep the order in which their names first came up. -/
inductive Json
  | null
  | bool (value : Bool)
  | int (value : Int)
  | float (value : Binary64)
  | text (value : Text)
  | list (items : List Json)
  | object (members : List (Text × Json))

namespace Json

/-- A text or null. -/
def ofText? : Option Text → Json
  | none => null
  | some value => text value

/-- The text that a value is. -/
def text? : Json → Option Text
  | text value => some value
  | _ => none

/-- An object with members that are named in the library. -/
def ofFields (members : List (String × Json)) : Json :=
  object (members.map fun (name, value) => (name.toList, value))

/-- The member of a name; null where there is none. -/
def member (members : Assoc Text Json) (name : String) : Json :=
  (members.get? name.toList).getD null

/-- Whether a value counts as given: all but null, false, zeros and what is empty. -/
def isGiven : Json → Bool
  | null => false
  | bool value => value
  | int value => value != 0
  | float value => !value.equalsInt 0
  | text value => !value.isEmpty
  | list items => !items.isEmpty
  | object members => !members.isEmpty

mutual

/-- Whether all integers in a value have few enough digits to be written. -/
def hasText : Json → Bool
  | int value => hasDecimal value
  | list items => itemsHaveText items
  | object members => membersHaveText members
  | _ => true

/-- Whether the items of a list have a text. -/
def itemsHaveText : List Json → Bool
  | [] => true
  | item :: items => hasText item && itemsHaveText items

/-- Whether the members of an object have a text. -/
def membersHaveText : List (Text × Json) → Bool
  | [] => true
  | (_, value) :: members => hasText value && membersHaveText members

end

end Json

end TagText
