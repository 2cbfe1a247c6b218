import TagText.Document.Basic

/-!
Equality of documents up to positions. Arguments are compared by what they mean.
-/

namespace TagText

/-- Whether two lists are equal entry by entry. -/
def equalLists {α : Type} (equal : α → α → Bool) : List α → List α → Bool
  | [], [] => true
  | x :: xs, y :: ys => equal x y && equalLists equal xs ys
  | _, _ => false

/-- Equality of calls up to their positions. -/
def Call.equals (a b : Call) : Bool := a.key == b.key && equalLists Arg.equals a.args b.args

/-- Equality of references up to positions. -/
def Reference.equals (a b : Reference) : Bool :=
  a.group == b.group && a.field == b.field && equalLists Call.equals a.calls b.calls

/-- Equality of nodes up to positions. -/
def Node.equals : Node → Node → Bool
  | text s _, text t _ => s == t
  | reference r, reference s => r.equals s
  | _, _ => false

/-- Equality of documents up to positions. -/
def Document.equals (a b : Document) : Bool :=
  equalLists Node.equals a.nodes b.nodes && a.trailing == b.trailing

end TagText
