import TagText.Argument.Written
import TagText.Catalog.Context
import TagText.Catalog.ValueType

/-!
What can be wrong with a reference, and how it is reported.
-/

namespace TagText

/-- The kinds of problems. -/
inductive ProblemKind
  | unknownGroup
  | unknownField
  | groupNotApplicable
  | unknownModifier
  | typeMismatch
  | missingArgument
  | invalidArgument
  deriving DecidableEq

/-- How a kind is spelled in reports. -/
def ProblemKind.label : ProblemKind → Text
  | unknownGroup => "UnknownGroup".toList
  | unknownField => "UnknownField".toList
  | groupNotApplicable => "GroupNotApplicableInContext".toList
  | unknownModifier => "UnknownModifier".toList
  | typeMismatch => "ModifierTypeMismatch".toList
  | missingArgument => "MissingRequiredArgument".toList
  | invalidArgument => "InvalidArgumentValue".toList

/-- A problem, with the names of what it concerns. -/
inductive Problem
  | unknownGroup (group : Text)
  | unknownField (field group : Text)
  /-- The field is empty, and no method of the group follows. -/
  | noField (group : Text)
  | groupNotApplicable (group : Text) (context : Context)
  | unknownModifier (modifier : Text)
  | typeMismatch (modifier : Text) (type : ValueType)
  | missingArgument (modifier param : Text)
  | invalidArgument (modifier param : Text) (value : Arg)
  deriving DecidableEq

namespace Problem

/-- The kind of a problem. -/
def kind : Problem → ProblemKind
  | unknownGroup _ => .unknownGroup
  | unknownField _ _ => .unknownField
  | noField _ => .unknownField
  | groupNotApplicable _ _ => .groupNotApplicable
  | unknownModifier _ => .unknownModifier
  | typeMismatch _ _ => .typeMismatch
  | missingArgument _ _ => .missingArgument
  | invalidArgument _ _ _ => .invalidArgument

/-- A name between single quotes, as it is. -/
def named (name : Text) : Text := '\x27' :: name ++ ['\x27']

/-- Writes the message of a problem. A value that is displayed in it has to have a text. -/
def message : Problem → Except ConversionError Text
  | unknownGroup group => .ok ("Unknown data group ".toList ++ named group)
  | unknownField field group =>
    .ok ("Unknown field ".toList ++ named field ++ " in ".toList ++ named group)
  | noField group => .ok ("No field given for ".toList ++ named group)
  | groupNotApplicable group context =>
    .ok (named group ++ " is not available in the ".toList ++ named context.shown
      ++ " context".toList)
  | unknownModifier modifier => .ok ("Unknown modifier ".toList ++ named modifier)
  | typeMismatch modifier type =>
    .ok (named modifier ++ " cannot be applied to a ".toList ++ type.name ++ " value".toList)
  | missingArgument modifier param => .ok (named modifier ++ " requires ".toList ++ named param)
  | invalidArgument modifier param value => do
    let shown ← value.displayed
    return "Invalid value ".toList ++ shown ++ " for ".toList ++ named param ++ " of ".toList
      ++ named modifier

end Problem

end TagText
