import TagText.Editing.Draft
import TagText.Editing.Suggestions
import TagText.Validation.Diagnostic

/-!
Editing sessions. A session is opened once on a value, edited, and either committed to a new value
or cancelled; after that it is over. Problems of the draft never stand in the way of committing it.
-/

namespace TagText

/-- Where a session stands. -/
inductive Phase
  | closed
  | editing (draft : Draft)
  | committed
  | cancelled
  deriving DecidableEq

/-- The name of a phase. -/
def Phase.label : Phase → Text
  | closed => "closed".toList
  | editing _ => "open".toList
  | committed => "committed".toList
  | cancelled => "cancelled".toList

/-- An editing session for a context. -/
structure Session where
  catalog : Catalog
  context : Context
  label : Option Text := none
  phase : Phase := .closed

/-- What can be asked of a session. -/
inductive Operation
  | start (initial : Text)
  | getText
  | getTrailing
  | getDocument
  | getReferences
  | diagnose
  | suggest (cursor : Int)
  | setText (text : Text)
  | replace (index : Int) (r : Reference)
  | insert (index : Option Int) (r : Reference)
  | remove (index : Int)
  | setCalls (index : Int) (calls : List Call)
  | commit
  | cancel
  deriving DecidableEq

/-- The verb for an operation in messages. -/
def Operation.verb : Operation → Text
  | start _ => "open".toList
  | getText => "read".toList
  | getTrailing => "read".toList
  | getDocument => "read".toList
  | getReferences => "read".toList
  | diagnose => "validate".toList
  | suggest _ => "suggest".toList
  | setText _ => "edit".toList
  | replace _ _ => "edit".toList
  | insert _ _ => "edit".toList
  | remove _ => "edit".toList
  | setCalls _ _ => "edit".toList
  | commit => "commit".toList
  | cancel => "cancel".toList

/-- What a session answers. -/
inductive Answer
  | done
  | text (value : Text)
  | document (d : Document)
  | noDocument
  | references (items : List Reference)
  | diagnostics (items : List Diagnostic)
  | suggestions (s : Suggestions)

/-- Why a session fails to carry out an operation: it is in a phase that does not allow it, the
    draft's references do not allow it, or a text cannot be read or written. -/
inductive SessionError
  | wrongPhase (verb phase : Text)
  | edit (error : EditError)
  | conversion (error : ConversionError)
  deriving DecidableEq

/-- The message of an error, if it has one of its own. -/
def SessionError.message? : SessionError → Option Text
  | wrongPhase verb phase =>
    some ("Cannot ".toList ++ verb ++ " a session in state '".toList ++ phase ++ "'".toList)
  | edit (.indexOutOfRange index count) => do
    let shown ← (writeInt index).toOption
    return "Token index ".toList ++ shown ++ " out of range (document has ".toList
      ++ decimal count ++ " tokens)".toList
  | edit .noDocument | edit .overlongIndex | conversion _ => none

namespace Session

/-- An answer or a refusal, and the session afterwards. -/
abbrev Outcome := Except SessionError Answer × Session

/-- Refuses an operation because of the session's phase. -/
def refuse (s : Session) (op : Operation) : Outcome :=
  (.error (.wrongPhase op.verb s.phase.label), s)

/-- Answers without changing anything. -/
def answer (s : Session) (a : Answer) : Outcome := (.ok a, s)

/-- Answers from the draft's document, which must not be missing. -/
def answerFrom (s : Session) (d : Draft) (view : Document → Except ConversionError Answer) :
    Outcome :=
  match d.document with
  | none => (.error (.edit .noDocument), s)
  | some document =>
    match view document with
    | .ok a => s.answer a
    | .error error => (.error (.conversion error), s)

/-- Takes over an edited draft, or refuses and changes nothing. The session goes on with the new
    document even if its text cannot be written. -/
def takeOver (s : Session) : Draft.Edited → Outcome
  | .ok (draft, .ok ()) => (.ok .done, { s with phase := .editing draft })
  | .ok (draft, .error error) => (.error (.conversion error), { s with phase := .editing draft })
  | .error error => (.error (.edit error), s)

/-- Sets the text of a draft. The session goes on with the new text even if it cannot be read. -/
def retype (s : Session) (d : Draft) (text : Text) : Outcome :=
  match d.setText s.catalog text with
  | (draft, .ok ()) => (.ok .done, { s with phase := .editing draft })
  | (draft, .error error) => (.error (.conversion error), { s with phase := .editing draft })

/-- Starts editing a value: its expression if it is dynamic, else the value itself. What follows
    the close marker is set aside. -/
def start (s : Session) (initial : Text) : Outcome :=
  match Reading.ofValue s.catalog initial with
  | .error error => (.error (.conversion error), s)
  | .ok reading =>
    let draft := { text := [], document := none, trailing := reading.document.trailing }
    s.retype draft (unwrap initial)

/-- Carries out an operation on a session that is open with a draft. -/
def performOpen (s : Session) (d : Draft) : Operation → Outcome
  | .start initial => s.refuse (.start initial)
  | .getText => s.answer (.text d.text)
  | .getTrailing => s.answer (.text d.trailing)
  | .getDocument =>
    match d.document with
    | some document => s.answer (.document document)
    | none => s.answer .noDocument
  | .getReferences => s.answerFrom d fun document => .ok (.references document.references)
  | .diagnose =>
    s.answerFrom d fun document => do
      return .diagnostics (← document.validate s.catalog (some s.context))
  | .suggest cursor =>
    match Suggestions.atCursor s.catalog s.context d.text cursor with
    | .ok suggestions => s.answer (.suggestions suggestions)
    | .error error => (.error (.conversion error), s)
  | .setText text => s.retype d text
  | .replace index r => s.takeOver (d.replace index r)
  | .insert index r => s.takeOver (d.insert index r)
  | .remove index => s.takeOver (d.remove index)
  | .setCalls index calls => s.takeOver (d.setCalls index calls)
  | .commit =>
    match s.answerFrom d fun document => return .text (← document.write) with
    | (.ok value, _) => (.ok value, { s with phase := .committed })
    | refused => refused
  | .cancel => (.ok .done, { s with phase := .cancelled })

/-- Carries out an operation. A session that is not open can only be opened, and only once. -/
def perform (s : Session) (op : Operation) : Outcome :=
  match s.phase, op with
  | .closed, .start initial => s.start initial
  | .editing draft, op => s.performOpen draft op
  | _, op => s.refuse op

/-- Carries out operations one after the other, and keeps each outcome. -/
def run (s : Session) : List Operation → List Outcome
  | [] => []
  | op :: ops =>
    let outcome := s.perform op
    outcome :: run outcome.2 ops

end Session

end TagText
