import TagText.Editing.Session
import TagText.Json.Basic
import TagText.Text.Quoted

/-!
Storage policies: where among a host's attributes a dynamic value is kept. Either it takes the
place of the literal value, or it stands beside it in an attribute of its own and wins over it
unless it is empty. A policy never changes attributes; it says what to write.
-/

namespace TagText

/-- The attributes of a host's control. -/
abbrev Attributes := Assoc Text Json

/-- Ways of keeping a dynamic value. A policy may leave the way open; it can then be written and
    read, but not said to be dynamic or not. -/
inductive StorageStyle
  | whole
  | sideChannel
  | unspecified
  deriving DecidableEq

/-- A way of keeping the dynamic value of the attribute of a name. -/
structure Policy where
  style : StorageStyle
  name : Text
  deriving DecidableEq

/-- The attribute beside a literal one. -/
def sideChannelKey (name : Text) : Text := name ++ "DynamicTag".toList

/-- Whether a value of any kind is a dynamic text. -/
def Json.isActive (value : Json) : Bool := (value.text?).any TagText.isActive

/-- The expression of a dynamic text; null becomes the empty text, all else stays as it is. -/
def Json.unwrap : Json → Json
  | null => text []
  | text value => text (TagText.unwrap value)
  | value => value

namespace Policy

/-- The attribute that the dynamic value is kept in. -/
def key (p : Policy) : Text :=
  match p.style with
  | .sideChannel => sideChannelKey p.name
  | _ => p.name

/-- The kept value; null if there is none. -/
def read (p : Policy) (attributes : Attributes) : Json := (attributes.get? p.key).getD .null

/-- The literal value; null if there is none. -/
def literal (p : Policy) (attributes : Attributes) : Json :=
  (attributes.get? p.name).getD .null

/-- Whether the kept value is dynamic: beside a literal every text that is not empty, in its place
    only one with markers. An unspecified policy cannot tell. -/
def isDynamic? (p : Policy) (attributes : Attributes) : Option Bool :=
  match p.style with
  | .whole => some (p.read attributes).isActive
  | .sideChannel => some (((p.read attributes).text?).any fun value => !value.isEmpty)
  | .unspecified => none

/-- The expression of the kept value; empty if it is not dynamic. -/
def expression? (p : Policy) (attributes : Attributes) : Option Text :=
  (p.isDynamic? attributes).map fun dynamic =>
    if dynamic then unwrap (((p.read attributes).text?).getD []) else []

/-- The value that counts. -/
def effective? (p : Policy) (attributes : Attributes) : Option Json :=
  match p.style with
  | .whole => some (p.read attributes)
  | .sideChannel =>
    (p.isDynamic? attributes).map fun dynamic =>
      if dynamic then p.read attributes else p.literal attributes
  | .unspecified => none

/-- What to write to keep a committed value. -/
def write (p : Policy) (committed : Text) : Attributes := [(p.key, .text committed)]

/-- What to write to keep no dynamic value. -/
def clear (p : Policy) : Attributes := p.write []

/-- A session on the kept value, and the outcome of opening it. A value that is no text counts as
    empty; a session without a label takes the attribute's name. -/
def openSession (p : Policy) (attributes : Attributes) (c : Catalog) (context : Context)
    (label : Option Text) : Session.Outcome :=
  let label := (label.filter fun label => !label.isEmpty).getD p.name
  let session : Session := { catalog := c, context, label := some label }
  session.perform (.start (((p.read attributes).text?).getD []))

/-- A summary for logs. -/
def summary (p : Policy) : Text :=
  let style :=
    match p.style with
    | .whole => "WholeValuePolicy"
    | .sideChannel => "SideChannelPolicy"
    | .unspecified => "StoragePolicy"
  '<' :: style.toList ++ " attribute=".toList ++ p.name.quoted ++ ['>']

end Policy

end TagText
