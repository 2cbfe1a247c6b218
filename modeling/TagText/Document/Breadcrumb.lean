import TagText.Catalog.FlatTag
import TagText.Document.Basic
import TagText.Text.Case

/-!
Breadcrumbs: one-line labels of references for people, such as "Post / Title".
-/

namespace TagText

/-- A key made readable: colons at its front go, underscores become spaces, points become slashes,
    and it starts with a capital. -/
def humanize (key : Text) : Text :=
  Text.capitalize <| (key.dropWhile (· == ':')).flatMap fun c =>
    if c = '_' then [' '] else if c = '.' then " / ".toList else [c]

/-- A label, or the key made readable where there is none. -/
def labelOr (label : Option Text) (key : Text) : Text :=
  match label with
  | none | some [] => humanize key
  | some label => label

namespace Reference

/-- The label of a reference: that of its group, and that of its field or, on an empty field, of
    its first call. What the catalog does not know goes by its key. -/
def breadcrumb (catalog : Option Catalog) (r : Reference) : Text :=
  let group := catalog.bind fun c => c.group? r.group
  let head := labelOr (group.map Group.label) r.group
  if !r.field.isEmpty then
    let field := group.bind fun g => g.field? r.field
    breadcrumbOf head (labelOr (field.map Field.label) r.field)
  else
    match r.calls with
    | [] => head
    | call :: _ =>
      let method := group.bind fun g => g.method? call.key
      breadcrumbOf head (labelOr (method.map Modifier.label) call.key)

end Reference

end TagText
