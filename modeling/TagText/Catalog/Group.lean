import TagText.Catalog.Context
import TagText.Catalog.Modifier
import TagText.Text.Assoc

/-!
Data groups: the fields that can be referenced for one kind of subject, in which contexts, under
which other keys, and which modifiers apply to the subject itself.
-/

namespace TagText

/-- A field of a group. -/
structure Field where
  key : Text
  label : Text := []
  type : ValueType := .text
  description : Text := []
  deriving DecidableEq

/-- A data group. The keys of its fields differ, and so do those of its methods and the names of
    its aliases; every alias points to one of its fields. -/
structure Group where
  key : Text
  label : Text := []
  icon : Text := []
  contexts : List Text := []
  fields : List Field := []
  methods : List Modifier := []
  aliases : Assoc Text Text := []
  fields_nodup : (fields.map Field.key).Nodup := by decide
  methods_nodup : (methods.map Modifier.key).Nodup := by decide
  aliases_nodup : aliases.names.Nodup := by decide
  aliases_resolve : ∀ entry ∈ aliases, entry.2 ∈ fields.map Field.key := by decide

namespace Group

/-- Declares a group. Of several targets for one alias the last counts. -/
def declare (key label icon : Text) (contexts : List Text) (fields : List Field)
    (methods : List Modifier) (aliases : Assoc Text Text) : Except CatalogError Group :=
  match hf : repeated? (fields.map Field.key) with
  | some field => .error (.repeatedField key field)
  | none =>
    match hm : repeated? (methods.map Modifier.key) with
    | some method => .error (.repeatedMethod key method)
    | none =>
      let table := Assoc.ofPairs aliases
      match ha : table.find? fun entry => !(fields.map Field.key).contains entry.2 with
      | some (name, target) => .error (.danglingAlias key name target)
      | none =>
        .ok { key, label, icon, contexts, fields, methods, aliases := table
              fields_nodup := repeated?_eq_none_iff.1 hf
              methods_nodup := Modifier.nodup_keys hm
              aliases_nodup := Assoc.nodup_names_ofPairs aliases
              aliases_resolve := by simpa using ha }

/-- The key that a field is listed under: the target of an alias, any other key as it is. -/
def canonicalKey (g : Group) (key : Text) : Text := (g.aliases.get? key).getD key

/-- The field of a key or an alias. -/
def field? (g : Group) (key : Text) : Option Field :=
  g.fields.find? fun f => f.key == g.canonicalKey key

/-- The method of a key. -/
def method? (g : Group) (key : Text) : Option Modifier := g.methods.find? fun m => m.key == key

/-- Whether the group can be referenced in a context. -/
def appliesTo (g : Group) : Context → Bool
  | .named name => g.contexts.contains name
  | .unnamed _ => false

end Group

end TagText
