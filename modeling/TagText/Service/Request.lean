import TagText.Json.Basic

/-!
Requests and replies of the service, without the way they travel. A host decodes what comes in and
sends on what goes out.
-/

namespace TagText

/-- A decoded request: the parameters of its query, and the value in its body if there is one that
    can be read. -/
structure Request where
  parameters : Assoc Text Text := []
  body : Option Json := none

/-- What comes of a request: an answer, a value with a status, unless the endpoint breaks off. -/
inductive Reply
  | answered (status : Nat) (body : Json)
  | failed

namespace Request

/-- The parameter of a name, unless it is empty. -/
def parameter? (r : Request) (name : String) : Option Text :=
  (r.parameters.get? name.toList).filter fun value => !value.isEmpty

/-- The members of the object in the body. A body without a value, or with one that does not count
    as given, has none; any other value that is no object is of no use. -/
def members? (r : Request) : Option (Assoc Text Json) :=
  match r.body.filter Json.isGiven with
  | none => some []
  | some (.object members) => some members
  | some _ => none

end Request

end TagText
