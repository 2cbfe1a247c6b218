import TagText.Document.Equality
import TagText.Document.Writing
import TagText.Proofs.Reading.Parts

/-!
Documents without positions. What a document is written as and what it is equal to does not depend
on where its parts stand.
-/

namespace TagText

/-- A call without its position. -/
def Call.unplaced (call : Call) : Call := { call with position := 0 }

/-- A reference without positions. -/
def Reference.unplaced (r : Reference) : Reference :=
  { r with calls := r.calls.map Call.unplaced, position := 0 }

/-- A node without positions. -/
def Node.unplaced : Node → Node
  | text content _ => text content 0
  | reference r => reference r.unplaced

/-- A document without positions. -/
def Document.unplaced (d : Document) : Document := { d with nodes := d.nodes.map Node.unplaced }

@[simp] theorem Call.written_unplaced (call : Call) : call.unplaced.written = call.written := rfl

@[simp] theorem Reference.written_unplaced (r : Reference) : r.unplaced.written = r.written := by
  simp [written, unplaced, List.flatMap_map]

@[simp] theorem Node.written_unplaced (node : Node) : node.unplaced.written = node.written := by
  cases node with
  | text content position => rfl
  | reference r => exact r.written_unplaced

@[simp] theorem Document.expression_unplaced (d : Document) :
    d.unplaced.expression = d.expression := by
  simp [expression, unplaced, List.flatMap_map]

theorem Node.reference?_unplaced (node : Node) :
    node.unplaced.reference? = node.reference?.map Reference.unplaced := by
  cases node <;> rfl

@[simp] theorem Document.hasReferences_unplaced (d : Document) :
    d.unplaced.hasReferences = d.hasReferences := by
  simp [hasReferences, unplaced, List.any_map, Function.comp_def, Node.reference?_unplaced]

@[simp] theorem Document.stored_unplaced (d : Document) : d.unplaced.stored = d.stored := by
  have htrailing : d.unplaced.trailing = d.trailing := rfl
  rw [stored, stored, hasReferences_unplaced, expression_unplaced, htrailing]

@[simp] theorem Call.unplaced_moved (k : Int) (call : Call) :
    (call.moved k).unplaced = call.unplaced := rfl

@[simp] theorem Reference.unplaced_moved (k : Int) (r : Reference) :
    (r.moved k).unplaced = r.unplaced := by
  simp [unplaced, moved]

@[simp] theorem Node.unplaced_moved (k : Int) (node : Node) :
    (node.moved k).unplaced = node.unplaced := by
  cases node with
  | text content position => rfl
  | reference r => exact congrArg reference (r.unplaced_moved k)

@[simp] theorem Reference.args_unplaced (r : Reference) : r.unplaced.args = r.args := by
  simp [args, unplaced, Call.unplaced, List.flatMap_map]

@[simp] theorem Document.args_unplaced (d : Document) : d.unplaced.args = d.args := by
  simp [args, references, unplaced, List.filterMap_map, Function.comp_def,
    Node.reference?_unplaced, List.flatMap, List.map_filterMap]

namespace Document

variable (k : Int) (nodes : List Node) (trailing : Text)

theorem unplaced_map_moved :
    ({ nodes := nodes.map (Node.moved k), trailing } : Document).unplaced =
      ({ nodes, trailing } : Document).unplaced := by
  simp [unplaced, Function.comp_def]

/-- What is stored of a document does not depend on where its nodes stand. -/
theorem stored_map_moved :
    ({ nodes := nodes.map (Node.moved k), trailing } : Document).stored =
      ({ nodes, trailing } : Document).stored := by
  rw [← stored_unplaced, unplaced_map_moved, stored_unplaced]

theorem hasText_map_moved :
    ({ nodes := nodes.map (Node.moved k), trailing } : Document).hasText =
      ({ nodes, trailing } : Document).hasText := by
  rw [hasText, ← args_unplaced, unplaced_map_moved, args_unplaced, hasText]

end Document

end TagText
