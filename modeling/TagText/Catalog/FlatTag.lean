import TagText.Catalog.Basic

/-!
The flat listing: every field and method that can be referenced in a context, ready to be inserted.
-/

namespace TagText

/-- An entry of the flat listing. A field comes with its type, a method without one. -/
structure FlatTag where
  group : Text
  key : Text
  label : Text
  path : Text
  breadcrumb : Text
  type : Option ValueType
  deriving DecidableEq

/-- The labels of a group and of an item in it, as one line. -/
def breadcrumbOf (group item : Text) : Text := group ++ " / ".toList ++ item

/-- The entry of a field. -/
def Field.flatTag (g : Group) (f : Field) : FlatTag where
  group := g.key
  key := f.key
  label := f.label
  path := '@' :: g.key ++ '(' :: f.key ++ [')']
  breadcrumb := breadcrumbOf g.label f.label
  type := some f.type

/-- The entry of a method. -/
def Modifier.flatTag (g : Group) (m : Modifier) : FlatTag where
  group := g.key
  key := m.key
  label := m.label
  path := '@' :: g.key ++ "().".toList ++ m.key ++ "()".toList
  breadcrumb := breadcrumbOf g.label m.label
  type := none

/-- The fields of a group and then its methods. -/
def Group.flatTags (g : Group) : List FlatTag :=
  g.fields.map (Field.flatTag g) ++ g.methods.map (Modifier.flatTag g)

/-- The entries of all groups that can be referenced in a context. -/
def Catalog.flatTags (c : Catalog) (context : Context) : List FlatTag :=
  (c.groupsFor context).flatMap Group.flatTags

end TagText
