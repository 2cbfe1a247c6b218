import TagText.Argument.Convert
import TagText.Catalog.Distinct
import TagText.Catalog.Error
import TagText.Catalog.ValueType

/-!
Modifiers: named transformations of a value, declared by the types they take and give and by the
arguments they want. They are declarations only; nothing here carries one out.
-/

namespace TagText

/-- The place for one argument of a modifier. A place for a choice offers some. -/
structure Param where
  key : Text
  label : Text := []
  type : ParamType := .text
  required : Bool := false
  default : Arg := .nothing
  choices : List Text := []
  description : Text := []
  offers_choices : type = .choice → choices ≠ [] := by decide

namespace Param

/-- Declares a place for an argument. -/
def declare (key label : Text) (type : ParamType) (required : Bool) (default : Arg)
    (choices : List Text) (description : Text) : Except CatalogError Param :=
  if h : type = .choice → choices ≠ [] then
    .ok { key, label, type, required, default, choices, description, offers_choices := h }
  else .error (.choicesMissing key)

/-- Whether a value is provided for when none is given. -/
def hasDefault (p : Param) : Bool := p.default != .nothing

/-- The label, or the key of a place without one. -/
def name (p : Param) : Text := if p.label.isEmpty then p.key else p.label

end Param

/-- A modifier. Without an output type, a value keeps the type it has. The keys of its places for
    arguments differ. -/
structure Modifier where
  key : Text
  label : Text := []
  accepted : List ValueType := ValueType.all
  output : Option ValueType := some .text
  params : List Param := []
  category : Text := "other".toList
  description : Text := []
  params_nodup : (params.map Param.key).Nodup := by decide

namespace Modifier

/-- Places for arguments have different keys if the check finds none that repeats. -/
theorem nodup_params {params : List Param} (hkeys : repeated? (params.map Param.key) = none) :
    (params.map Param.key).Nodup :=
  repeated?_eq_none_iff.1 hkeys

/-- Declares a modifier. -/
def declare (key label : Text) (accepted : List ValueType) (output : Option ValueType)
    (params : List Param) (category description : Text) : Except CatalogError Modifier :=
  match h : repeated? (params.map Param.key) with
  | some param => .error (.repeatedParam key param)
  | none =>
    .ok { key, label, accepted, output, params, category, description
          params_nodup := nodup_params h }

/-- Modifiers have different keys if the check finds none that repeats. -/
theorem nodup_keys {modifiers : List Modifier}
    (hkeys : repeated? (modifiers.map Modifier.key) = none) :
    (modifiers.map Modifier.key).Nodup :=
  repeated?_eq_none_iff.1 hkeys

/-- Whether the modifier takes values of a type. -/
def accepts (m : Modifier) (type : ValueType) : Bool := type ∈ m.accepted

/-- The type of the result, given the type of the value if it is known. -/
def resultType (m : Modifier) (input : Option ValueType) : Option ValueType :=
  match m.output with
  | some type => some type
  | none => input

end Modifier

end TagText
