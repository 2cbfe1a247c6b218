import TagText.Catalog.FlatTag
import TagText.Editing.Suggestions
import TagText.Json.Basic
import TagText.Validation.Diagnostic

/-!
The library's items as values that are exchanged with hosts.
-/

namespace TagText

/-- An argument as a value. -/
def Arg.toJson : Arg → Json
  | text value => .text value
  | int value => .int value
  | float value => .float value
  | bool value => .bool value
  | nothing => .null

/-- A type as its name, null if it is unknown. -/
def ValueType.toJson (type : Option ValueType) : Json := .ofText? (type.map name)

/-- The name of an argument type. -/
def ParamType.name : ParamType → Text
  | text => "text".toList
  | number => "number".toList
  | boolean => "boolean".toList
  | choice => "enum".toList

/-- The argument type of a name. -/
def ParamType.ofName? (name : Text) : Option ParamType :=
  [text, number, boolean, choice].find? fun type => type.name == name

/-- Texts as a value. -/
def Json.ofTexts (texts : List Text) : Json := .list (texts.map .text)

/-- A field as a value. -/
def Field.toJson (f : Field) : Json :=
  .ofFields [("key", .text f.key), ("label", .text f.label), ("type", .text f.type.name),
    ("description", .text f.description)]

/-- The place of an argument as a value. -/
def Param.toJson (p : Param) : Json :=
  .ofFields [("key", .text p.key), ("label", .text p.label), ("type", .text p.type.name),
    ("required", .bool p.required), ("default", p.default.toJson), ("choices", .ofTexts p.choices),
    ("description", .text p.description)]

/-- A modifier as a value. -/
def Modifier.toJson (m : Modifier) : Json :=
  .ofFields [("key", .text m.key), ("label", .text m.label),
    ("accepted_types", .ofTexts (m.accepted.map ValueType.name)),
    ("output_type", ValueType.toJson m.output), ("args", .list (m.params.map Param.toJson)),
    ("category", .text m.category), ("description", .text m.description)]

/-- What identifies a group, as named values. -/
def Group.heading (g : Group) : List (String × Json) :=
  [("key", .text g.key), ("label", .text g.label), ("icon", .text g.icon),
   ("contexts", .ofTexts g.contexts)]

/-- A group as a value, without its fields. -/
def Group.toJson (g : Group) : Json := .ofFields g.heading

/-- A group as a value, with its fields, methods and aliases. -/
def Group.toFullJson (g : Group) : Json :=
  .ofFields <| g.heading ++ [("fields", .list (g.fields.map Field.toJson)),
    ("methods", .list (g.methods.map Modifier.toJson)),
    ("aliases", .object (g.aliases.map fun (name, target) => (name, .text target)))]

/-- An entry of the flat listing as a value. -/
def FlatTag.toJson (t : FlatTag) : Json :=
  .ofFields [("group", .text t.group), ("key", .text t.key), ("label", .text t.label),
    ("full_path", .text t.path), ("breadcrumb", .text t.breadcrumb),
    ("type", .text ((t.type.map ValueType.name).getD "method".toList))]

/-- An index or a number of items as a value. -/
def Json.ofNat (n : Nat) : Json := .int n

/-- A call as a value. -/
def Call.toJson (call : Call) : Json :=
  .ofFields [("key", .text call.key), ("args", .list (call.args.map Arg.toJson)),
    ("position", .int call.position)]

/-- The parts of a reference as named values. -/
def Reference.members (r : Reference) : List (String × Json) :=
  [("type", .text "token".toList), ("group", .text r.group), ("field", .text r.field),
   ("modifiers", .list (r.calls.map Call.toJson)), ("position", .int r.position)]

/-- A reference as a value. -/
def Reference.toJson (r : Reference) : Json := .ofFields r.members

/-- A node as a value. -/
def Node.toJson : Node → Json
  | text content position =>
    .ofFields [("type", .text "text".toList), ("content", .text content),
      ("position", .int position)]
  | reference r => r.toJson

/-- A document as a value. -/
def Document.toJson (d : Document) : Json :=
  .ofFields [("children", .list (d.nodes.map Node.toJson)), ("trailing", .text d.trailing)]

/-- A diagnostic as a value, with its message. -/
def Diagnostic.toJson (d : Diagnostic) : Except ConversionError Json := do
  let message ← d.problem.message
  return .ofFields [("kind", .text d.problem.kind.label), ("message", .text message),
    ("token_index", .ofNat d.reference), ("modifier_index", (d.call.map .ofNat).getD .null),
    ("position", .int d.position)]

namespace Offers

/-- What the items on offer are, if there are any. -/
def kind? : Offers → Option Text
  | nothing => none
  | groups _ => some "groups".toList
  | fields _ => some "fields".toList
  | modifiers _ => some "modifiers".toList

/-- The items on offer as values. -/
def items : Offers → List Json
  | nothing => []
  | groups items => items.map Group.toJson
  | fields items => items.map Field.toJson
  | modifiers items => items.map Modifier.toJson

/-- The modifiers among the items on offer. -/
def listedModifiers : Offers → List Modifier
  | modifiers items => items
  | _ => []

/-- The keys of the items on offer. -/
def keys : Offers → List Text
  | nothing => []
  | groups items => items.map Group.key
  | fields items => items.map Field.key
  | modifiers items => items.map Modifier.key

end Offers

/-- Suggestions as named values. -/
def Suggestions.members (s : Suggestions) : List (String × Json) :=
  [("kind", .ofText? s.offers.kind?), ("items", .list s.offers.items), ("query", .text s.query),
   ("replace_from", .ofNat s.replaceFrom)]

end TagText
