/-!
Text is a list of characters, and every offset counts characters from its front. Here are the
cutting and searching operations that the rest of the library is written with.
-/

namespace TagText

/-- A text, character by character. -/
abbrev Text := List Char

namespace Text

/-- The characters from offset `start` up to offset `stop`; none when `stop` does not lie behind
    `start`, and as many as there are when it lies behind the end. -/
def slice (s : Text) (start stop : Nat) : Text := (s.drop start).take (stop - start)

/-- The text without the characters of a class at its front. -/
def trimLeft (p : Char → Bool) (s : Text) : Text := s.dropWhile p

/-- The text without the characters of a class at its end. -/
def trimRight (p : Char → Bool) (s : Text) : Text := (s.reverse.dropWhile p).reverse

/-- The text without the characters of a class at both ends. -/
def trim (p : Char → Bool) (s : Text) : Text := trimRight p (trimLeft p s)

/-- What stands before and after the first occurrence of a mark. -/
def cut? (mark : Text) : Text → Option (Text × Text)
  | [] => (mark.isPrefixOf? []).map fun after => ([], after)
  | c :: s =>
    match mark.isPrefixOf? (c :: s) with
    | some after => some ([], after)
    | none => (cut? mark s).map fun (before, after) => (c :: before, after)

/-- Whether a mark occurs in a text. -/
def holds (s mark : Text) : Bool := (cut? mark s).isSome

/-- One pass from left to right that takes every occurrence of a non-empty mark out. What the
    pass joins is not looked at again. -/
def erase (mark s : Text) : Text :=
  match s with
  | [] => []
  | c :: s =>
    if mark.isPrefixOf (c :: s) then erase mark (s.drop (mark.length - 1)) else c :: erase mark s
termination_by s.length
decreasing_by all_goals simp only [List.length_cons, List.length_drop]; omega

/-- Takes a mark out, pass after pass, until a pass finds none. -/
def eraseAll (mark s : Text) : Text :=
  let once := erase mark s
  if once.length < s.length then eraseAll mark once else s
termination_by s.length

/-- The first suffix, from the left, that a reader accepts, with the offset where it starts. -/
def search? {α : Type} (read? : Text → Option α) : Text → Option (Nat × α)
  | [] => (read? []).map fun found => (0, found)
  | c :: s =>
    match read? (c :: s) with
    | some found => some (0, found)
    | none => (search? read? s).map fun (offset, found) => (offset + 1, found)

/-- The offset of the first occurrence of a mark. -/
def find? (mark s : Text) : Option Nat := (search? mark.isPrefixOf? s).map Prod.fst

end Text

end TagText
