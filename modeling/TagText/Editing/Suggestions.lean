import TagText.Document.Reading
import TagText.Validation.Typing

/-!
Suggestions: what can be typed at a place in an expression. Behind the sign of a reference that is a
group, inside its parentheses a field, and behind a point a method of the group or a modifier that
takes what stands in front of the point.
-/

namespace TagText

/-- The items on offer. -/
inductive Offers
  | nothing
  | groups (items : List Group)
  | fields (items : List Field)
  | modifiers (items : List Modifier)

/-- Items on offer, the part of a name that they complete, and the offset at which it starts. -/
structure Suggestions where
  offers : Offers
  query : Text
  replaceFrom : Nat

namespace Suggestions

/-- The items whose key or label holds the query, whatever its letters' case: those that start with
    it first, and otherwise in their order. -/
def matching {α : Type} (key label : α → Text) (query : Text) (items : List α) : List α :=
  let query := query.lower
  let starts (item : α) : Bool :=
    query.isPrefixOf (key item).lower || query.isPrefixOf (label item).lower
  let holds (item : α) : Bool := (key item).lower.holds query || (label item).lower.holds query
  items.filter starts ++ items.filter fun item => !starts item && holds item

/-- Whether nothing more follows, except perhaps one final line feed. -/
def atEnd : Text → Bool
  | [] => true
  | [c] => c = '\n'
  | _ => false

/-- A reference whose parenthesis has just been opened: its group and the part of a field key. -/
def fieldQuery? (s : Text) : Option (Text × Text) :=
  match Lexeme.opening? '@' s with
  | none => none
  | some (group, inner) =>
    if atEnd (inner.dropWhile Lexeme.isFieldChar) then
      some (group, inner.takeWhile Lexeme.isFieldChar)
    else none

/-- A sign with the part of a name behind it. -/
def nameQuery? (sign : Char) (s : Text) : Option Text :=
  match s with
  | [] => none
  | c :: s => if c = sign && atEnd (s.dropWhile isWord) then some (s.takeWhile isWord) else none

/-- The modifiers that can follow an expression, if it ends in a reference: methods of the group
    behind a reference to the group itself, else the modifiers that take its type. -/
def continuations? (c : Catalog) (expression : Text) :
    Except ConversionError (Option (List Modifier)) := do
  let reading ← Reading.ofExpression c expression
  match reading.document.nodes.getLast? with
  | some (.reference r) =>
    if r.field.isEmpty && r.calls.isEmpty then return some (c.methodsOf r.group)
    else return some (c.modifiersFor (r.runningType c))
  | _ => return none

/-- The suggestions of groups at the end of a text; none if no reference is being started. -/
def ofGroups (c : Catalog) (context : Context) (before : Text) : Suggestions :=
  match before.search? (nameQuery? '@') with
  | some (offset, query) =>
    { offers := .groups (matching Group.key Group.label query (c.groupsFor context))
      query, replaceFrom := offset + 1 }
  | none => { offers := .nothing, query := [], replaceFrom := before.length }

/-- The suggestions at the end of a text. -/
def atEndOf (c : Catalog) (context : Context) (before : Text) :
    Except ConversionError Suggestions :=
  match before.search? fieldQuery? with
  | some (offset, group, query) =>
    .ok { offers := .fields (matching Field.key Field.label query (c.fieldsOf group))
          query, replaceFrom := offset + group.length + 2 }
  | none =>
    match before.search? (nameQuery? '.') with
    | none => .ok (ofGroups c context before)
    | some (offset, query) => do
      match ← continuations? c (before.take offset) with
      | none => return ofGroups c context before
      | some modifiers =>
        return { offers := .modifiers (matching Modifier.key Modifier.label query modifiers)
                 query, replaceFrom := offset + 1 }

/-- The suggestions at a cursor in a text. A cursor outside the text counts as the nearer end. -/
def atCursor (c : Catalog) (context : Context) (text : Text) (cursor : Int) :
    Except ConversionError Suggestions :=
  atEndOf c context (text.take cursor.toNat)

end Suggestions

end TagText
