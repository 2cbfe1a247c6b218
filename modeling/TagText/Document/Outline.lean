import TagText.Symbol.Basic

/-!
Outlines: what a stream of symbols says, before the types of arguments come in. Every reference
sign of the stream starts either a complete reference or a broken one. A broken one becomes literal
text up to the next symbol at which reading can go on, so that nothing is lost.
-/

namespace TagText

/-- A modifier with the texts of its arguments. -/
structure RawCall where
  key : Text
  args : List Text
  position : Nat
  deriving DecidableEq

/-- A reference with the texts of its arguments. -/
structure RawReference where
  group : Text
  field : Text
  calls : List RawCall
  position : Nat
  deriving DecidableEq

/-- A part of an outline. A broken reference is kept with its text and with as much as was
    complete of it. -/
inductive Part
  | text (content : Text) (position : Nat)
  | reference (r : RawReference)
  | broken (content : Text) (start : RawReference)
  deriving DecidableEq

/-- The parts of a stream, and what follows its close marker. -/
structure Outline where
  parts : List Part
  trailing : Text
  deriving DecidableEq

namespace SymbolKind

/-- Whether a symbol is an argument. -/
def isArgument (kind : SymbolKind) : Bool := kind = quoted || kind = bare

/-- Whether reading can go on at a symbol after a broken reference. -/
def resumes (kind : SymbolKind) : Bool :=
  kind = text || kind = atSign || kind = openMarker || kind = closeMarker || kind = endOfText

end SymbolKind

namespace Outline

/-- One or more arguments with commas between them, up to the closing parenthesis: their texts,
    and what follows. -/
def someArguments? : List Symbol → Option (List Text × List Symbol)
  | arg :: separator :: rest =>
    if arg.kind.isArgument then
      if separator.kind = .closeParen then some ([arg.value], rest)
      else if separator.kind = .comma then
        (someArguments? rest).map fun (args, rest) => (arg.value :: args, rest)
      else none
    else none
  | _ => none

/-- The arguments behind an opening parenthesis, up to the closing one. -/
def arguments? : List Symbol → Option (List Text × List Symbol)
  | [] => none
  | s :: rest => if s.kind = .closeParen then some ([], rest) else someArguments? (s :: rest)

/-- One call at the front of a stream, and what follows it. -/
def call? : List Symbol → Option (RawCall × List Symbol)
  | dot :: name :: paren :: inner =>
    if dot.kind = .dot && name.kind = .name && paren.kind = .openParen then
      (arguments? inner).map fun (args, rest) =>
        ({ key := name.value, args, position := dot.start }, rest)
    else none
  | _ => none

/-- Arguments take up at least the first of them and the closing parenthesis. -/
theorem length_someArguments?_lt {symbols rest : List Symbol} {args : List Text}
    (hargs : someArguments? symbols = some (args, rest)) : rest.length < symbols.length := by
  fun_induction someArguments? symbols generalizing args rest <;> simp at hargs
  next =>
    obtain ⟨-, rfl⟩ := hargs
    simp only [List.length_cons]
    omega
  next ih =>
    obtain ⟨more, hmore, -⟩ := hargs
    have := ih hmore
    simp only [List.length_cons]
    omega

/-- Arguments take up at least the closing parenthesis. -/
theorem length_arguments?_lt {symbols rest : List Symbol} {args : List Text}
    (hargs : arguments? symbols = some (args, rest)) : rest.length < symbols.length := by
  unfold arguments? at hargs
  split at hargs
  · simp at hargs
  · split at hargs
    · obtain ⟨-, rfl⟩ := by simpa using hargs
      simp
    · exact length_someArguments?_lt hargs

/-- A call takes up at least its point. -/
theorem length_call?_lt {symbols rest : List Symbol} {call : RawCall}
    (hcall : call? symbols = some (call, rest)) : rest.length < symbols.length := by
  unfold call? at hcall
  split at hcall
  · split at hcall
    · simp only [Option.map_eq_some_iff, Prod.exists, Prod.mk.injEq] at hcall
      obtain ⟨args, after, hargs, -, rfl⟩ := hcall
      have := length_arguments?_lt hargs
      simp only [List.length_cons]
      omega
    · simp at hcall
  · simp at hcall

/-- Whether a modifier starts at the front of a stream. -/
def startsCall (symbols : List Symbol) : Bool := symbols.head?.any fun s => s.kind = .dot

/-- The complete calls at the front of a stream, and what follows them. Nothing follows a call that
    is started and not complete. -/
def calls (symbols : List Symbol) : List RawCall × Option (List Symbol) :=
  if startsCall symbols then
    match _ : call? symbols with
    | none => ([], none)
    | some (call, after) =>
      let (more, rest) := calls after
      (call :: more, rest)
  else ([], some symbols)
termination_by symbols.length
decreasing_by exact length_call?_lt ‹_›

/-- What follows a chain of calls is no longer than the stream it was cut from. -/
theorem length_calls_le {symbols rest : List Symbol} (hcalls : (calls symbols).2 = some rest) :
    rest.length ≤ symbols.length := by
  fun_induction calls symbols with
  | case1 => simp at hcalls
  | case2 symbols _ call after hcall more rest' heq ih =>
    have := length_call?_lt hcall
    have := ih (by rw [heq]; exact hcalls)
    omega
  | case3 => simp_all

/-- The group and the field of a reference behind its sign, and what follows its closing
    parenthesis. -/
def head? : List Symbol → Option (Text × Text × List Symbol)
  | name :: openParen :: field :: closeParen :: rest =>
    if name.kind = .name && openParen.kind = .openParen && field.kind = .field
        && closeParen.kind = .closeParen then
      some (name.value, field.value, rest)
    else none
  | _ => none

/-- A reference behind its sign, as far as it is complete, and what follows it; nothing follows a
    reference that is broken. -/
def reference (position : Nat) (symbols : List Symbol) : RawReference × Option (List Symbol) :=
  match head? symbols with
  | none => ({ group := [], field := [], calls := [], position }, none)
  | some (group, field, after) =>
    let (calls, rest) := calls after
    ({ group, field, calls, position }, rest)

/-- A complete reference takes up at least its group. -/
theorem length_reference_lt {position : Nat} {symbols rest : List Symbol} {r : RawReference}
    (hreference : reference position symbols = (r, some rest)) :
    rest.length < symbols.length := by
  unfold reference at hreference
  split at hreference
  · simp at hreference
  · rename_i group field after hhead
    have hle : rest.length ≤ after.length := length_calls_le (by simp_all)
    unfold head? at hhead
    split at hhead
    · split at hhead
      · obtain ⟨-, -, rfl⟩ := by simpa using hhead
        simp only [List.length_cons]
        omega
      · simp at hhead
    · simp at hhead

/-- The offset at which a stream starts; the end of the source when it is empty. -/
def startOf (source : Text) : List Symbol → Nat
  | [] => source.length
  | s :: _ => s.start

/-- The outline with a part in front. -/
def cons (part : Part) (outline : Outline) : Outline :=
  { outline with parts := part :: outline.parts }

/-- The outline of a stream of symbols over a source. Reading stops at a close marker, the rest of
    the source behind it being the trailing text, or at the end of the stream. -/
def ofSymbols (source : Text) (symbols : List Symbol) : Outline :=
  match symbols with
  | [] => { parts := [], trailing := [] }
  | s :: symbols =>
    match s.kind with
    | .endOfText => { parts := [], trailing := [] }
    | .closeMarker => { parts := [], trailing := source.drop s.stop }
    | .openMarker => ofSymbols source symbols
    | .text => (ofSymbols source symbols).cons (.text s.value s.start)
    | .atSign =>
      match _ : reference s.start symbols with
      | (r, some rest) => (ofSymbols source rest).cons (.reference r)
      | (r, none) =>
        let rest := symbols.dropWhile fun t => !t.kind.resumes
        (ofSymbols source rest).cons (.broken (source.slice s.start (startOf source rest)) r)
    | _ => (ofSymbols source symbols).cons (.text (source.slice s.start s.stop) s.start)
termination_by symbols.length
decreasing_by
  · exact Nat.lt_succ_self _
  · exact Nat.lt_succ_self _
  · exact Nat.lt_succ_of_lt (length_reference_lt ‹_›)
  · exact Nat.lt_succ_of_le (List.dropWhile_sublist _).length_le
  · exact Nat.lt_succ_self _

/-- How many references of an outline are broken. -/
def brokenCount (outline : Outline) : Nat :=
  outline.parts.countP fun part => part matches .broken _ _

end Outline

end TagText
