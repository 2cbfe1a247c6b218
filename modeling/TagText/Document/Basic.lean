import TagText.Argument.Basic

/-!
Documents: literal texts and references in the order in which they are read, and the text that
follows a dynamic value's close marker. Positions are for information: reading sets them to offsets,
a host may set them to any number, and they do not count when documents are compared.
-/

namespace TagText

/-- A modifier applied to arguments, as in `.truncate(50)`. -/
structure Call where
  key : Text
  args : List Arg := []
  position : Int := 0
  deriving DecidableEq

/-- A reference to data with its chain of modifiers, as in `@post(title).truncate(50)`. The field
    is empty where the first modifier is a method of the group, as in `@site().math("1")`. -/
structure Reference where
  group : Text
  field : Text := []
  calls : List Call := []
  position : Int := 0
  deriving DecidableEq

/-- A part of a document. -/
inductive Node
  | text (content : Text) (position : Int)
  | reference (r : Reference)
  deriving DecidableEq

/-- A document. -/
structure Document where
  nodes : List Node := []
  trailing : Text := []
  deriving DecidableEq

/-- All arguments of a reference. -/
def Reference.args (r : Reference) : List Arg := r.calls.flatMap Call.args

namespace Node

/-- The reference that a node is. -/
def reference? : Node → Option Reference
  | text _ _ => none
  | reference r => some r

/-- Whether a node is a text without characters. -/
def isBlankText : Node → Bool
  | text [] _ => true
  | _ => false

/-- Joins texts that stand next to each other. A joined text has the position of the first. -/
def joinTexts : List Node → List Node
  | [] => []
  | reference r :: nodes => reference r :: joinTexts nodes
  | text content position :: nodes =>
    match joinTexts nodes with
    | text more _ :: rest => text (content ++ more) position :: rest
    | rest => text content position :: rest

end Node

namespace Document

/-- The references, in document order. -/
def references (d : Document) : List Reference := d.nodes.filterMap Node.reference?

/-- All arguments of a document. -/
def args (d : Document) : List Arg := d.references.flatMap Reference.args

/-- Whether there is a reference. -/
def hasReferences (d : Document) : Bool := d.nodes.any fun node => node.reference?.isSome

/-- Whether there is nothing to show: no reference, no text and nothing trailing. -/
def isEmpty (d : Document) : Bool := d.trailing.isEmpty && d.nodes.all Node.isBlankText

theorem mem_references {d : Document} {r : Reference} :
    r ∈ d.references ↔ .reference r ∈ d.nodes := by
  rw [references, List.mem_filterMap]
  constructor
  · rintro ⟨node, hnode, hr⟩
    cases node with
    | text => cases hr
    | reference other =>
      cases hr
      exact hnode
  · exact fun hr => ⟨_, hr, rfl⟩

end Document

end TagText
