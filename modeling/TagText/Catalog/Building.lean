import TagText.Catalog.Basic

/-!
Short forms for writing a catalog down.
-/

namespace TagText.Default

/-- A field. -/
def field (key label : String) (type : ValueType) : Field where
  key := key.toList
  label := label.toList
  type := type

/-- An alias of a field. -/
def aliasOf (name target : String) : Text × Text := (name.toList, target.toList)

/-- A place for a text. -/
def textParam (key label : String) (required : Bool) (default : Arg) (description : String) :
    Param where
  key := key.toList
  label := label.toList
  required := required
  default := default
  description := description.toList

/-- A place for a text that has to be given. -/
def requiredText (key label : String) : Param := textParam key label true .nothing ""

/-- A place for a text that is empty if not given. -/
def optionalText (key label : String) : Param := textParam key label false (.text []) ""

/-- A place for a number. -/
def numberParam (key label : String) (default : Int) : Param where
  key := key.toList
  label := label.toList
  type := .number
  default := .int default

/-- A place for a truth value that is false if not given. -/
def booleanParam (key label : String) : Param where
  key := key.toList
  label := label.toList
  type := .boolean
  default := .bool false

/-- A place for one of several choices, of which one is taken if none is given. -/
def choiceParam (key label default : String) (first : String) (others : List String) : Param where
  key := key.toList
  label := label.toList
  type := .choice
  default := .text default.toList
  choices := first.toList :: others.map String.toList
  offers_choices := fun _ => List.cons_ne_nil _ _

end TagText.Default
