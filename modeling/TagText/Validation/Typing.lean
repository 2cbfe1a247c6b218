import TagText.Catalog.Basic
import TagText.Document.Basic

/-!
The type of what a reference stands for. A field has its own type; every modifier of the chain
replaces it by the type of its result. The type is unknown as soon as something on the way is.
-/

namespace TagText

/-- The type behind a chain of modifiers, given the type in front of it if that is known. An
    unknown modifier makes it unknown for good. -/
def Catalog.threadType (c : Catalog) : Option ValueType → List Call → Option ValueType
  | type, [] => type
  | type, call :: calls =>
    match c.modifier? call.key with
    | none => none
    | some modifier => threadType c (modifier.resultType type) calls

namespace Reference

/-- The type of a reference, if it is known. On an empty field, the chain starts with a method of
    the group. -/
def runningType (c : Catalog) (r : Reference) : Option ValueType :=
  match c.group? r.group with
  | none => none
  | some group =>
    if !r.field.isEmpty then
      match group.field? r.field with
      | none => none
      | some field => c.threadType (some field.type) r.calls
    else
      match r.calls with
      | [] => none
      | call :: calls =>
        match group.method? call.key with
        | none => none
        | some method => c.threadType method.output calls

/-- The reference with the first calls of its chain only. A negative number leaves as many off at
    the end. -/
def upTo (r : Reference) (count : Int) : Reference :=
  let kept := if 0 ≤ count then count.toNat else r.calls.length - count.natAbs
  { r with calls := r.calls.take kept }

end Reference

end TagText
