import TagText.Catalog.Basic
import TagText.Document.Basic
import TagText.Document.Outline

/-!
Reading documents. The outline of a text does not depend on the catalog; the catalog only says under
which types the arguments are read. A text of any shape can be read; only an overlong integer where
a number is wanted is refused.
-/

namespace TagText

/-- The declaration that a call on a group's field is read under. On an empty field, the first call
    is a method of the group, if it has one of this key; all others are modifiers. -/
def Catalog.declaration? (c : Catalog) (group field : Text) (first : Bool) (key : Text) :
    Option Modifier :=
  if field.isEmpty && first then (c.method? group key).or (c.modifier? key) else c.modifier? key

/-- Argument texts read under the types of their places; those without a place stay texts. -/
def Arg.ofTexts : List Param → List Text → Except ConversionError (List Arg)
  | _, [] => .ok []
  | [], raw :: raws => do
    let args ← ofTexts [] raws
    return .text raw :: args
  | p :: params, raw :: raws => do
    let arg ← ofText p.type raw
    let args ← ofTexts params raws
    return arg :: args

namespace RawReference

/-- The calls on a group's field with their arguments read. -/
def resolveCalls (c : Catalog) (group field : Text) :
    Bool → List RawCall → Except ConversionError (List Call)
  | _, [] => .ok []
  | first, call :: calls => do
    let declared := c.declaration? group field first call.key
    let args ← Arg.ofTexts ((declared.map Modifier.params).getD []) call.args
    let rest ← resolveCalls c group field false calls
    return { key := call.key, args, position := call.position } :: rest

/-- The reference with its arguments read. -/
def resolve (c : Catalog) (r : RawReference) : Except ConversionError Reference := do
  let calls ← resolveCalls c r.group r.field true r.calls
  return { group := r.group, field := r.field, calls, position := r.position }

end RawReference

/-- The node that a part becomes. What is complete of a broken reference is read as well, and may
    be refused, although only its text is kept. -/
def Part.resolve (c : Catalog) : Part → Except ConversionError Node
  | text content position => .ok (.text content position)
  | reference r => do return .reference (← r.resolve c)
  | broken content start => do
    let _ ← start.resolve c
    return .text content start.position

/-- What reading gives: the document, and how many broken references became text in it. -/
structure Reading where
  document : Document
  brokenCount : Nat
  deriving DecidableEq

/-- The reading of an outline. Texts without characters are left out, neighbouring ones joined. -/
def Outline.resolve (c : Catalog) (outline : Outline) : Except ConversionError Reading := do
  let nodes ← outline.parts.mapM (Part.resolve c)
  let kept := nodes.filter fun node => !node.isBlankText
  return { document := { nodes := Node.joinTexts kept, trailing := outline.trailing }
           brokenCount := outline.brokenCount }

namespace Reading

/-- Reads a stream of symbols over a source. -/
def ofSymbols (c : Catalog) (source : Text) (symbols : List Symbol) :
    Except ConversionError Reading :=
  (Outline.ofSymbols source symbols).resolve c

/-- Reads an expression. -/
def ofExpression (c : Catalog) (expression : Text) : Except ConversionError Reading :=
  ofSymbols c expression (Symbol.ofExpression expression)

/-- Reads a stored value. -/
def ofValue (c : Catalog) (value : Text) : Except ConversionError Reading :=
  ofSymbols c value (Symbol.ofValue value)

end Reading

end TagText
