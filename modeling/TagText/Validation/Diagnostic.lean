import TagText.Validation.Problem
import TagText.Validation.Typing

/-!
Diagnostics: the problems of a document, each with its place. A problem never hides a later one: a
chain is walked to its end, and where the type of a value is unknown no type is checked. To validate
is to find the diagnostics and to put each of them into words, which fails where a message has to
display a value without a text.
-/

namespace TagText

/-- A problem, with the index of its reference among those of the document, the index of its call
    in the chain unless it concerns the reference itself, and the position of the one or the
    other. -/
structure Diagnostic where
  problem : Problem
  reference : Nat
  call : Option Nat
  position : Int
  deriving DecidableEq

/-- The diagnostics, if all of their messages can be written. -/
def Diagnostic.report (items : List Diagnostic) : Except ConversionError (List Diagnostic) :=
  items.mapM fun diagnostic => do
    let _ ← diagnostic.problem.message
    return diagnostic

/-- Whether a value that is given suits a place for an argument. A value without a text is none of
    the choices. -/
def Param.suits (p : Param) (value : Arg) : Bool :=
  match p.type with
  | .text => true
  | .number => value.isNumber
  | .boolean => value.isBool
  | .choice =>
    match value.plain with
    | .ok text => p.choices.contains text
    | .error _ => false

namespace Modifier

/-- The problem with the value for one place, if there is one. A value may be left out unless it
    is required and nothing is provided for it. -/
def problem? (m : Modifier) (p : Param) (value : Arg) : Option Problem :=
  if value.isMissing then
    if p.required && !p.hasDefault then some (.missingArgument m.key p.name) else none
  else if p.suits value then none
  else some (.invalidArgument m.key p.name value)

/-- The problems with the values for places, in the order of the places. Values without a place
    are not looked at. -/
def problemsWith (m : Modifier) : List Param → List Arg → List Problem
  | [], _ => []
  | p :: params, [] => (m.problem? p .nothing).toList ++ problemsWith m params []
  | p :: params, value :: values => (m.problem? p value).toList ++ problemsWith m params values

/-- The problems with the arguments of a call. -/
def argumentProblems (m : Modifier) (call : Call) : List Problem :=
  m.problemsWith m.params call.args

/-- The problem with applying a modifier to a value, if there is one. An unknown type is no
    problem. -/
def mismatch? (m : Modifier) (type : Option ValueType) : Option Problem :=
  match type with
  | none => none
  | some type => if m.accepts type then none else some (.typeMismatch m.key type)

end Modifier

namespace Catalog

/-- The problems of a chain of calls, each with the index and the position of its call. The chain
    starts at an index, with a value of a type if that is known. -/
def chainProblems (c : Catalog) (index : Nat) (type : Option ValueType) :
    List Call → List (Problem × Nat × Int)
  | [] => []
  | call :: calls =>
    match c.modifier? call.key with
    | none =>
      (.unknownModifier call.key, index, call.position) :: chainProblems c (index + 1) none calls
    | some m =>
      let problems := (m.mismatch? type).toList ++ m.argumentProblems call
      problems.map (fun problem => (problem, index, call.position))
        ++ chainProblems c (index + 1) (m.resultType type) calls

/-- The problems of a call on a group's empty field and of the chain behind it. -/
def methodProblems (c : Catalog) (m : Modifier) (call : Call) (calls : List Call) :
    List (Problem × Nat × Int) :=
  (m.argumentProblems call).map (fun problem => (problem, 0, call.position))
    ++ c.chainProblems 1 m.output calls

end Catalog

namespace Reference

/-- The problem with a group's use in a context, if there is one. Without a context there is
    none. -/
def applicability? (group : Group) (context : Option Context) : Option Problem :=
  match context with
  | none => none
  | some context =>
    if group.appliesTo context then none
    else some (.groupNotApplicable (if group.label.isEmpty then group.key else group.label) context)

/-- The problems of a reference itself, and those of its chain. -/
def problems (c : Catalog) (context : Option Context) (r : Reference) :
    List Problem × List (Problem × Nat × Int) :=
  match c.group? r.group with
  | none => ([.unknownGroup r.group], c.chainProblems 0 none r.calls)
  | some group =>
    let use := (applicability? group context).toList
    if !r.field.isEmpty then
      match group.field? r.field with
      | none => (use ++ [.unknownField r.field r.group], c.chainProblems 0 none r.calls)
      | some field => (use, c.chainProblems 0 (some field.type) r.calls)
    else
      match r.calls with
      | [] => (use ++ [.noField r.group], [])
      | call :: calls =>
        match group.method? call.key with
        | none => (use ++ [.noField r.group], c.chainProblems 0 none r.calls)
        | some method => (use, c.methodProblems method call calls)

/-- The diagnostics of a reference that has an index in its document. -/
def diagnostics (c : Catalog) (context : Option Context) (index : Nat) (r : Reference) :
    List Diagnostic :=
  let (own, chain) := r.problems c context
  own.map (fun problem => { problem, reference := index, call := none, position := r.position })
    ++ chain.map fun (problem, call, position) =>
      { problem, reference := index, call := some call, position }

/-- Validates a reference that has an index in its document. -/
def validate (c : Catalog) (context : Option Context) (index : Nat) (r : Reference) :
    Except ConversionError (List Diagnostic) :=
  Diagnostic.report (r.diagnostics c context index)

end Reference

namespace Document

/-- The diagnostics of references, numbered from an index on. -/
def diagnosticsFrom (c : Catalog) (context : Option Context) :
    Nat → List Reference → List Diagnostic
  | _, [] => []
  | index, r :: references =>
    r.diagnostics c context index ++ diagnosticsFrom c context (index + 1) references

/-- The diagnostics of a document. Without a context, any group may be referenced. -/
def diagnostics (c : Catalog) (context : Option Context) (d : Document) : List Diagnostic :=
  diagnosticsFrom c context 0 d.references

/-- Validates a document. -/
def validate (c : Catalog) (context : Option Context) (d : Document) :
    Except ConversionError (List Diagnostic) :=
  Diagnostic.report (d.diagnostics c context)

end Document

end TagText
