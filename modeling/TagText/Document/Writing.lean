import TagText.Argument.Written
import TagText.Document.Basic
import TagText.Region

/-!
Writing documents, as expressions and as the values that are stored. A document can be written if
all of its arguments have a text.
-/

namespace TagText

/-- The written form of a call: `.key(argument,argument)`. -/
def Call.written (call : Call) : Text :=
  '.' :: call.key ++ '(' :: List.intercalate [','] (call.args.map Arg.written) ++ [')']

/-- The written form of a reference: `@group(field)` and its calls. -/
def Reference.written (r : Reference) : Text :=
  '@' :: r.group ++ '(' :: r.field ++ ')' :: r.calls.flatMap Call.written

/-- The written form of a node. -/
def Node.written : Node → Text
  | text content _ => content
  | reference r => r.written

namespace Document

/-- Whether all arguments have a text. -/
def hasText (d : Document) : Bool := d.args.all Arg.hasText

/-- The document as an expression. -/
def expression (d : Document) : Text := d.nodes.flatMap Node.written

/-- The document as a stored value. Without references and trailing text it is a literal, all
    others take the markers. -/
def stored (d : Document) : Text :=
  if d.hasReferences || !d.trailing.isEmpty then
    openMarker ++ d.expression ++ closeMarker ++ d.trailing
  else d.expression

/-- Writes the document as an expression. -/
def writeExpression (d : Document) : Except ConversionError Text :=
  if d.hasText then .ok d.expression else .error .overlongInteger

/-- Writes the document as a stored value. -/
def write (d : Document) : Except ConversionError Text :=
  if d.hasText then .ok d.stored else .error .overlongInteger

theorem hasText_iff {d : Document} :
    d.hasText = true ↔ ∀ r ∈ d.references, ∀ a ∈ r.args, a.hasText = true := by
  simp only [hasText, args, List.all_eq_true, List.mem_flatMap]
  exact ⟨fun h r hr a ha => h a ⟨r, hr, ha⟩, fun h a ⟨r, hr, ha⟩ => h r hr a ha⟩

theorem writeExpression_of_hasText {d : Document} (htext : d.hasText = true) :
    d.writeExpression = .ok d.expression := if_pos htext

theorem write_of_hasText {d : Document} (htext : d.hasText = true) : d.write = .ok d.stored :=
  if_pos htext

end Document

end TagText
