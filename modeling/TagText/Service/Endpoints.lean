import TagText.Document.Breadcrumb
import TagText.Editing.Session
import TagText.Json.Displayed
import TagText.Service.Encoding
import TagText.Service.Request

/-!
The service that editors call: it lists the catalog, inspects stored values and suggests how an
expression goes on. It never says what a reference stands for.
-/

namespace TagText

/-- What the service offers. -/
inductive Endpoint
  | health
  | groups
  | modifiers
  | flatTags
  | inspect
  | suggest
  deriving DecidableEq

/-- The service. A catalog may not be loaded. -/
structure Service where
  catalog : Option Catalog
  defaultContext : Text := "post".toList

/-- Whether a modifier can be listed, because the defaults of all its places have a text. -/
def Modifier.isListable (m : Modifier) : Bool := m.params.all fun p => p.default.hasText

namespace Service

/-- An answer with named values. -/
def respond (status : Nat) (members : List (String × Json)) : Reply :=
  .answered status (.ofFields members)

/-- A refusal with a reason. -/
def refusal (status : Nat) (reason : Text) : Reply := respond status [("error", .text reason)]

/-- An answer that lists modifiers, among other values. -/
def respondListing (modifiers : List Modifier) (members : List (String × Json)) : Reply :=
  if modifiers.all Modifier.isListable then respond 200 members else .failed

/-- The state of the service. -/
def health (s : Service) : Reply :=
  match s.catalog with
  | none =>
    respond 503 [("status", .text "unhealthy".toList),
      ("message", .text "API is online but no tag catalog is loaded".toList)]
  | some c =>
    respond 200 [("status", .text "healthy".toList), ("message", .text "API is online".toList),
      ("groups", .ofNat c.groups.length), ("modifiers", .ofNat c.modifiers.length)]

/-- The context that a query asks for. -/
def queryContext (s : Service) (r : Request) : Text :=
  (r.parameter? "context").getD s.defaultContext

/-- One group in full, or the groups for a context. -/
def listGroups (s : Service) (c : Catalog) (r : Request) : Reply :=
  match r.parameter? "group" with
  | some key =>
    match c.group? key with
    | some group => respondListing group.methods [("group", group.toFullJson)]
    | none => refusal 404 ("Data group '".toList ++ key ++ "' not found".toList)
  | none =>
    let context := s.queryContext r
    respond 200 [("context", .text context),
      ("groups", .list ((c.groupsFor (.named context)).map Group.toJson))]

/-- The modifiers that take a type, or all. -/
def listModifiers (c : Catalog) (r : Request) : Reply :=
  let modifiers :=
    match r.parameter? "type" with
    | some type => c.modifiersFor (ValueType.ofName? type)
    | none => c.modifiers
  respondListing modifiers [("modifiers", .list (modifiers.map Modifier.toJson))]

/-- The flat listing for a context. -/
def listFlatTags (s : Service) (c : Catalog) (r : Request) : Reply :=
  let context := s.queryContext r
  respond 200 [("context", .text context),
    ("tags", .list ((c.flatTags (.named context)).map FlatTag.toJson))]

/-- The context that a body asks for. A value that is no text is a context without a name. -/
def bodyContext (s : Service) (members : Assoc Text Json) : Context :=
  let value := Json.member members "context"
  if value.isGiven then
    match value with
    | .text name => .named name
    | value => .unnamed value.displayed
  else .named s.defaultContext

/-- A reference with its breadcrumb. -/
def inspected (c : Catalog) (r : Reference) : Json :=
  .ofFields (r.members ++ [("breadcrumb", .text (r.breadcrumb (some c)))])

/-- What a stored value holds, and what is wrong with it. -/
def inspection (c : Catalog) (context : Context) (value : Text) : Except ConversionError Json := do
  let { document, .. } ← Reading.ofValue c value
  let diagnostics ← document.validate c (some context)
  let reports ← diagnostics.mapM Diagnostic.toJson
  let canonical ← document.write
  let region := Region.ofValue? value
  return .ofFields [("active", .bool region.isSome),
    ("expression", .text ((region.map Region.expression).getD [])), ("document", document.toJson),
    ("tokens", .list (document.references.map (inspected c))), ("diagnostics", .list reports),
    ("canonical", .text canonical)]

/-- Inspects a stored value. Whatever cannot be read or written on the way is a failure that is
    answered for. -/
def inspectFor (s : Service) (context : Context) (value : Text) : Reply :=
  match s.catalog.map fun c => inspection c context value with
  | some (.ok body) => .answered 200 body
  | _ => refusal 500 "Failed to inspect value".toList

/-- Checks the members of a request to inspect a value and answers it. -/
def inspect (s : Service) (members : Assoc Text Json) : Reply :=
  let context := s.bodyContext members
  match Json.member members "value" with
  | .null => s.inspectFor context []
  | .text value => s.inspectFor context value
  | _ => refusal 400 "value must be a string".toList

/-- Suggests how the expression of a value goes on at a cursor, or at its end. -/
def suggestFor (s : Service) (context : Context) (value : Text) (cursor : Option Int) : Reply :=
  match s.catalog with
  | none => .failed
  | some c =>
    let session : Session := { catalog := c, context }
    match session.perform (.start value) with
    | (.ok _, opened) =>
      let expression := unwrap value
      match opened.perform (.suggest (cursor.getD expression.length)) with
      | (.ok (.suggestions suggestions), _) =>
        respondListing suggestions.offers.listedModifiers
          (suggestions.members ++ [("expression", .text expression)])
      | _ => .failed
    | (.error _, _) => .failed

/-- Checks the members of a request for suggestions and answers it. -/
def suggest (s : Service) (members : Assoc Text Json) : Reply :=
  let context := s.bodyContext members
  let value := Json.member members "value"
  let answer (value : Text) : Reply :=
    match Json.member members "cursor" with
    | .null => s.suggestFor context value none
    | .int cursor => s.suggestFor context value (some cursor)
    | _ => refusal 400 "cursor must be an integer".toList
  if value.isGiven then
    match value with
    | .text value => answer value
    | _ => refusal 400 "value must be a string".toList
  else answer []

/-- The reply of an endpoint that needs the catalog. -/
def withCatalog (s : Service) (answer : Catalog → Reply) : Reply :=
  match s.catalog with
  | none => .failed
  | some c => answer c

/-- The reply of an endpoint that wants an object in the body. -/
def withMembers (r : Request) (answer : Assoc Text Json → Reply) : Reply :=
  match r.members? with
  | none => .failed
  | some members => answer members

/-- The reply of an endpoint. -/
def reply (s : Service) (r : Request) : Endpoint → Reply
  | .health => s.health
  | .groups => s.withCatalog fun c => s.listGroups c r
  | .modifiers => s.withCatalog fun c => listModifiers c r
  | .flatTags => s.withCatalog fun c => s.listFlatTags c r
  | .inspect => withMembers r s.inspect
  | .suggest => withMembers r s.suggest

end Service

end TagText
