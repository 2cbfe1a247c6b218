import TagText.Document.Reading
import TagText.Document.Writing

/-!
Drafts: a document that is being edited, in two forms side by side. Typing replaces the text and
reads the document from it; edits of single references change the document and write the text from
it. Where the second form cannot be had, the first has changed already, and the two fall apart.
-/

namespace TagText

/-- A draft. Its document is missing if the text it was opened with could not be read. The trailing
    text stays as it was in the value that was opened. -/
structure Draft where
  text : Text
  document : Option Document
  trailing : Text
  deriving DecidableEq

/-- Why an edit of a single reference is refused. -/
inductive EditError
  | noDocument
  | indexOutOfRange (index : Int) (count : Nat)
  /-- The index is out of range, and has too many digits to be reported. -/
  | overlongIndex
  deriving DecidableEq

/-- The refusal of an index that no reference has. -/
def EditError.ofIndex (index : Int) (count : Nat) : EditError :=
  if hasDecimal index then .indexOutOfRange index count else .overlongIndex

namespace Node

/-- Puts nodes in the place of the reference of an index, counting references only. -/
def splice? (change : Reference → List Node) : List Node → Nat → Option (List Node)
  | [], _ => none
  | text content position :: nodes, index =>
    (splice? change nodes index).map fun nodes => text content position :: nodes
  | reference r :: nodes, 0 => some (change r ++ nodes)
  | reference r :: nodes, index + 1 =>
    (splice? change nodes index).map fun nodes => reference r :: nodes

end Node

namespace Draft

/-- The draft with a new text, and whether it could be read. A text that cannot be read is kept
    beside the old document. -/
def setText (c : Catalog) (d : Draft) (text : Text) : Draft × Except ConversionError Unit :=
  match Reading.ofExpression c text with
  | .ok reading =>
    ({ d with text, document := some { reading.document with trailing := d.trailing } }, .ok ())
  | .error error => ({ d with text }, .error error)

/-- The draft with new nodes, and whether its text could be written from them; texts that have come
    to stand together are joined. Nodes that cannot be written are kept beside the old text. -/
def setNodes (d : Draft) (nodes : List Node) : Draft × Except ConversionError Unit :=
  let document : Document := { nodes := Node.joinTexts nodes, trailing := d.trailing }
  match document.writeExpression with
  | .ok text => ({ d with text, document := some document }, .ok ())
  | .error error => ({ d with document := some document }, .error error)

/-- What an edit of a single reference gives, unless it is refused: the draft with its new nodes,
    and whether its text could be written. -/
abbrev Edited := Except EditError (Draft × Except ConversionError Unit)

/-- Changes the reference of an index. -/
def change (d : Draft) (index : Int) (change : Reference → List Node) : Edited :=
  match d.document with
  | none => .error .noDocument
  | some document =>
    let spliced := if 0 ≤ index then Node.splice? change document.nodes index.toNat else none
    match spliced with
    | some nodes => .ok (d.setNodes nodes)
    | none => .error (.ofIndex index document.references.length)

/-- Puts another reference in the place of the one of an index. -/
def replace (d : Draft) (index : Int) (r : Reference) : Edited :=
  d.change index fun _ => [.reference r]

/-- Puts a reference in front of the one of an index; at the end if no index is given, or if it is
    the number of references. -/
def insert (d : Draft) (index : Option Int) (r : Reference) : Edited :=
  match d.document with
  | none => .error .noDocument
  | some document =>
    let atEnd := document.references.length
    let index := index.getD atEnd
    if index = atEnd then .ok (d.setNodes (document.nodes ++ [.reference r]))
    else d.change index fun old => [.reference r, .reference old]

/-- Takes the reference of an index out. -/
def remove (d : Draft) (index : Int) : Edited := d.change index fun _ => []

/-- Gives the reference of an index another chain of calls. -/
def setCalls (d : Draft) (index : Int) (calls : List Call) : Edited :=
  d.change index fun r => [.reference { r with calls }]

end Draft

end TagText
