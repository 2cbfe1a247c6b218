import TagText.Document.Outline
import TagText.Proofs.Lexing.Tiling

/-!
Streams of symbols in another place. What is read of an argument list, a call or a reference does
not depend on where in a text its symbols stand, up to positions.
-/

namespace TagText

@[simp] theorem Cursor.offset_past (place : Cursor) (s : Text) :
    (place.past s).offset = place.offset + s.length := by
  induction s generalizing place with
  | nil => rfl
  | cons c s ih =>
    have hstep : (place.step c).offset = place.offset + 1 := by
      unfold Cursor.step
      split <;> rfl
    have hpast : place.past (c :: s) = (place.step c).past s := rfl
    rw [hpast, ih, hstep, List.length_cons]
    omega

theorem Cursor.past_append (place : Cursor) (s t : Text) :
    place.past (s ++ t) = (place.past s).past t := List.foldl_append

namespace Symbol

/-- The symbols of pieces that stand one after the other, without the symbol of the end. -/
def placed (place : Cursor) : List Lexeme → List Symbol
  | [] => []
  | piece :: pieces =>
    let next := place.past piece.raw
    match piece.symbol? with
    | none => placed next pieces
    | some (kind, value) =>
      { kind, value, start := place.offset, stop := next.offset
        line := place.line, column := place.column } :: placed next pieces

theorem placed_append (place : Cursor) (before after : List Lexeme) :
    placed place (before ++ after) =
      placed place before ++ placed (place.past (Lexeme.rawText before)) after := by
  induction before generalizing place with
  | nil => rfl
  | cons piece before ih =>
    rw [List.cons_append, placed, placed, Lexeme.rawText_cons, Cursor.past_append, ih]
    cases piece.symbol? <;> rfl

theorem locate_append (place : Cursor) (before after : List Lexeme) :
    locate place (before ++ after) =
      placed place before ++ locate (place.past (Lexeme.rawText before)) after := by
  induction before generalizing place with
  | nil => rfl
  | cons piece before ih =>
    rw [List.cons_append, locate, placed, Lexeme.rawText_cons, Cursor.past_append, ih]
    cases piece.symbol? <;> rfl

/-- A symbol moved on by some characters, without the line and the column that reading does not
    look at. -/
def moved (k : Nat) (s : Symbol) : Symbol :=
  { kind := s.kind, value := s.value, start := s.start + k, stop := s.stop + k }

/-- The same pieces give the same symbols in another place. -/
theorem map_moved_placed {place other : Cursor} {k : Nat} (hother : other.offset = place.offset + k)
    (pieces : List Lexeme) :
    (placed other pieces).map (moved 0) = (placed place pieces).map (moved k) := by
  induction pieces generalizing place other with
  | nil => rfl
  | cons piece pieces ih =>
    have hnext : (other.past piece.raw).offset = (place.past piece.raw).offset + k := by
      rw [Cursor.offset_past, Cursor.offset_past, hother]
      omega
    rw [placed, placed]
    cases piece.symbol? with
    | none => exact ih hnext
    | some found =>
      rw [List.map_cons, List.map_cons, ih hnext]
      simp [moved, hother, Nat.add_right_comm]

end Symbol

/-- A call moved on by some characters. -/
def RawCall.moved (k : Nat) (call : RawCall) : RawCall :=
  { call with position := call.position + k }

/-- A reference moved on by some characters, with its calls. -/
def RawReference.moved (k : Nat) (r : RawReference) : RawReference :=
  { r with calls := r.calls.map (RawCall.moved k), position := r.position + k }

namespace Outline

theorem someArguments?_moved (k : Nat) (symbols : List Symbol) :
    someArguments? (symbols.map (Symbol.moved k)) =
      (someArguments? symbols).map fun (args, rest) => (args, rest.map (Symbol.moved k)) := by
  fun_induction someArguments? symbols with
  | case1 arg separator rest harg hsep => simp [someArguments?, Symbol.moved, harg, hsep]
  | case2 arg separator rest harg hsep hcommaSep ih =>
    simp [someArguments?, Symbol.moved, harg, hcommaSep, ih, Function.comp_def]
  | case3 arg separator rest harg hsep hcommaSep =>
    simp [someArguments?, Symbol.moved, harg, hsep, hcommaSep]
  | case4 arg separator rest harg => simp [someArguments?, Symbol.moved, harg]
  | case5 symbols hshort =>
    match symbols with
    | [] => rfl
    | [x] => rfl
    | x :: y :: rest => exact absurd rfl (hshort x y rest)

theorem arguments?_moved (k : Nat) (symbols : List Symbol) :
    arguments? (symbols.map (Symbol.moved k)) =
      (arguments? symbols).map fun (args, rest) => (args, rest.map (Symbol.moved k)) := by
  have hsome := someArguments?_moved k symbols
  cases symbols with
  | nil => rfl
  | cons x symbols =>
    rw [List.map_cons] at hsome ⊢
    rw [arguments?, arguments?]
    by_cases hclose : x.kind = .closeParen
    · simp [Symbol.moved, hclose]
    · rw [if_neg hclose, if_neg (by simpa [Symbol.moved] using hclose), hsome]

theorem call?_moved (k : Nat) (symbols : List Symbol) :
    call? (symbols.map (Symbol.moved k)) =
      (call? symbols).map fun (call, rest) => (call.moved k, rest.map (Symbol.moved k)) := by
  match symbols with
  | [] | [_] | [_, _] => rfl
  | dot :: name :: paren :: inner =>
    have harguments := arguments?_moved k inner
    have hkinds : (dot.moved k).kind = dot.kind ∧ (name.moved k).kind = name.kind
        ∧ (paren.moved k).kind = paren.kind := ⟨rfl, rfl, rfl⟩
    simp only [List.map_cons, call?, harguments, hkinds]
    split
    · cases arguments? inner <;> rfl
    · rfl

theorem startsCall_moved (k : Nat) (symbols : List Symbol) :
    startsCall (symbols.map (Symbol.moved k)) = startsCall symbols := by
  cases symbols <;> rfl

theorem calls_of_not_startsCall {symbols : List Symbol} (hstarts : startsCall symbols = false) :
    calls symbols = ([], some symbols) := by
  rw [calls.eq_def, if_neg (by simp [hstarts])]

theorem calls_of_broken {symbols : List Symbol} (hstarts : startsCall symbols = true)
    (hbroken : call? symbols = none) : calls symbols = ([], none) := by
  rw [calls.eq_def, if_pos hstarts]
  split
  · rfl
  · simp_all

theorem calls_of_call {symbols after : List Symbol} {call : RawCall}
    (hstarts : startsCall symbols = true) (hcall : call? symbols = some (call, after)) :
    calls symbols = (call :: (calls after).1, (calls after).2) := by
  rw [calls.eq_def, if_pos hstarts]
  split
  · simp_all
  · simp_all

theorem calls_moved (k : Nat) (symbols : List Symbol) :
    calls (symbols.map (Symbol.moved k)) =
      ((calls symbols).1.map (RawCall.moved k),
        (calls symbols).2.map (List.map (Symbol.moved k))) := by
  fun_induction calls symbols with
  | case1 symbols hstarts hbroken =>
    apply calls_of_broken
    · rwa [startsCall_moved]
    · rw [call?_moved, hbroken]
      rfl
  | case2 symbols hstarts call after hcall more rest heq ih =>
    have hmoved : call? (symbols.map (Symbol.moved k)) =
        some (call.moved k, after.map (Symbol.moved k)) := by
      rw [call?_moved, hcall]
      rfl
    rw [calls_of_call (by rwa [startsCall_moved]) hmoved, ih, heq]
    rfl
  | case3 symbols hstarts =>
    have hnot : startsCall (symbols.map (Symbol.moved k)) = false := by
      rw [startsCall_moved]
      simpa using hstarts
    rw [calls_of_not_startsCall hnot]
    rfl

theorem head?_moved (k : Nat) (symbols : List Symbol) :
    head? (symbols.map (Symbol.moved k)) =
      (head? symbols).map fun (group, field, rest) =>
        (group, field, rest.map (Symbol.moved k)) := by
  match symbols with
  | [] | [_] | [_, _] | [_, _, _] => rfl
  | name :: openParen :: field :: closeParen :: rest =>
    have hkinds : (name.moved k).kind = name.kind ∧ (openParen.moved k).kind = openParen.kind
        ∧ (field.moved k).kind = field.kind ∧ (closeParen.moved k).kind = closeParen.kind :=
      ⟨rfl, rfl, rfl, rfl⟩
    simp only [List.map_cons, head?, hkinds]
    split <;> rfl

/-- Where a reference stands changes positions only. -/
theorem reference_moved (k position : Nat) (symbols : List Symbol) :
    reference (position + k) (symbols.map (Symbol.moved k)) =
      ((reference position symbols).1.moved k,
        (reference position symbols).2.map (List.map (Symbol.moved k))) := by
  rw [reference, reference, head?_moved]
  cases head? symbols with
  | none => rfl
  | some found =>
    obtain ⟨group, field, after⟩ := found
    simp only [Option.map_some, calls_moved]
    rfl

end Outline

end TagText
