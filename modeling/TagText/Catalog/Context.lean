import TagText.Text.Basic

/-!
The context in which references are used, such as the template of a post or of a user.
-/

namespace TagText

/-- A context is known by its name. A host may also hand over a value that is no name; such a
    context suits no group, and only its display text matters. -/
inductive Context
  | named (name : Text)
  | unnamed (shown : Text)
  deriving DecidableEq

/-- The text of a context in messages. -/
def Context.shown : Context → Text
  | named name => name
  | unnamed shown => shown

end TagText
