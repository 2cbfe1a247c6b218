import TagText.Catalog.Group

/-!
A catalog: all data groups and all modifiers that references can be made of. Looking something up
that is not there yields nothing; it is never an error.
-/

namespace TagText

/-- Groups and modifiers in the order of their registration. No two groups share a key, and no two
    modifiers do. -/
structure Catalog where
  groups : List Group := []
  modifiers : List Modifier := []
  groups_nodup : (groups.map Group.key).Nodup := by decide
  modifiers_nodup : (modifiers.map Modifier.key).Nodup := by decide

namespace Catalog

/-- Registers groups and modifiers. -/
def ofLists (groups : List Group) (modifiers : List Modifier) : Except CatalogError Catalog :=
  match hg : repeated? (groups.map Group.key) with
  | some group => .error (.repeatedGroup group)
  | none =>
    match hm : repeated? (modifiers.map Modifier.key) with
    | some modifier => .error (.repeatedModifier modifier)
    | none =>
      .ok { groups, modifiers
            groups_nodup := repeated?_eq_none_iff.1 hg
            modifiers_nodup := Modifier.nodup_keys hm }

/-- The catalog with further groups and modifiers behind its own. -/
def extend (c : Catalog) (groups : List Group) (modifiers : List Modifier) :
    Except CatalogError Catalog :=
  ofLists (c.groups ++ groups) (c.modifiers ++ modifiers)

/-- The group of a key. -/
def group? (c : Catalog) (key : Text) : Option Group := c.groups.find? fun g => g.key == key

/-- The modifier of a key. -/
def modifier? (c : Catalog) (key : Text) : Option Modifier :=
  c.modifiers.find? fun m => m.key == key

/-- The method of a key in the group of a key. -/
def method? (c : Catalog) (group key : Text) : Option Modifier :=
  (c.group? group).bind fun g => g.method? key

/-- The field of a key in the group of a key. -/
def field? (c : Catalog) (group key : Text) : Option Field :=
  (c.group? group).bind fun g => g.field? key

/-- The fields of a group; none of an unknown one. -/
def fieldsOf (c : Catalog) (group : Text) : List Field :=
  ((c.group? group).map Group.fields).getD []

/-- The methods of a group; none of an unknown one. -/
def methodsOf (c : Catalog) (group : Text) : List Modifier :=
  ((c.group? group).map Group.methods).getD []

/-- The groups that can be referenced in a context. -/
def groupsFor (c : Catalog) (context : Context) : List Group :=
  c.groups.filter fun g => g.appliesTo context

/-- Whether a group is known and can be referenced in a context. -/
def isApplicable (c : Catalog) (group : Text) (context : Context) : Bool :=
  (c.group? group).any fun g => g.appliesTo context

/-- The modifiers that take values of a type; none when the type is not known. -/
def modifiersFor (c : Catalog) (type : Option ValueType) : List Modifier :=
  match type with
  | none => []
  | some type => c.modifiers.filter fun m => m.accepts type

/-- The names of all contexts that some group can be referenced in, each once, in the order in
    which they first come up. -/
def contexts (c : Catalog) : List Text :=
  (c.groups.flatMap Group.contexts).foldl
    (fun seen name => if seen.contains name then seen else seen ++ [name]) []

/-- A summary for logs. -/
def summary (c : Catalog) : Text :=
  "<CatalogRegistry groups=".toList ++ decimal c.groups.length ++ " modifiers=".toList
    ++ decimal c.modifiers.length ++ ">".toList

end Catalog

end TagText
