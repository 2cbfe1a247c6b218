import TagText.Text.Basic

/-!
What can be wrong with a declaration of a catalog, and how it is reported.
-/

namespace TagText

/-- A declaration that a catalog refuses, with the keys of the items at fault. -/
inductive CatalogError
  | choicesMissing (param : Text)
  | repeatedParam (modifier param : Text)
  | repeatedField (group field : Text)
  | repeatedMethod (group method : Text)
  | danglingAlias (group name target : Text)
  | repeatedGroup (group : Text)
  | repeatedModifier (modifier : Text)
  deriving DecidableEq

namespace CatalogError

/-- The key of the item that an error is reported for. -/
def key : CatalogError → Text
  | choicesMissing param => param
  | repeatedParam modifier _ => modifier
  | repeatedField group _ => group
  | repeatedMethod group _ => group
  | danglingAlias group _ _ => group
  | repeatedGroup group => group
  | repeatedModifier modifier => modifier

/-- What is wrong with the item. -/
def reason : CatalogError → Text
  | choicesMissing _ => "Enum argument declared without choices".toList
  | repeatedParam _ param => "Duplicate argument '".toList ++ param ++ "'".toList
  | repeatedField _ field => "Duplicate field '".toList ++ field ++ "'".toList
  | repeatedMethod _ method => "Duplicate method '".toList ++ method ++ "'".toList
  | danglingAlias _ name target =>
    "Alias '".toList ++ name ++ "' points to unknown field '".toList ++ target ++ "'".toList
  | repeatedGroup _ => "Duplicate data group".toList
  | repeatedModifier _ => "Duplicate modifier".toList

/-- The message: the reason, after the key in brackets if the key is not empty. -/
def message (e : CatalogError) : Text :=
  if e.key.isEmpty then e.reason else '[' :: e.key ++ ']' :: ' ' :: e.reason

end CatalogError

end TagText
