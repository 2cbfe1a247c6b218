import TagText.Text.Basic
import TagText.Text.CaseTable

/-!
Small letters and capitalised words. A capital sigma becomes the final small sigma at the end of a
word and the ordinary one elsewhere, so a letter's small form depends on what stands around it.
-/

namespace TagText

/-- The code point a table of shifts maps a code point to; itself when no shift applies. -/
def CaseShift.target : List CaseShift → Nat → Nat
  | [], code => code
  | s :: shifts, code => if s.applies code then (code + s.shift).toNat else target shifts code

/-- A character's image: as listed when it is special, else shifted. -/
def mapCase (specials : List (Nat × List Nat)) (shifts : List CaseShift) (c : Char) : Text :=
  match specials.lookup c.toNat with
  | some codes => codes.map Char.ofNat
  | none => [Char.ofNat (CaseShift.target shifts c.toNat)]

/-- The small form of a character by itself. -/
def lowerChar (c : Char) : Text := mapCase lowerSpecials lowerShifts c

/-- The form of a character that starts a title. -/
def titleChar (c : Char) : Text := mapCase titleSpecials titleShifts c

/-- Whether the nearest character that is not passed over has case. -/
def touchesCased (s : Text) : Bool :=
  match s.dropWhile fun c => covers caseIgnorableSpans c.toNat with
  | [] => false
  | c :: _ => covers casedSpans c.toNat

/-- The small form of a text that follows `before`, which is given backwards. -/
def lowerAfter (before : Text) : Text → Text
  | [] => []
  | c :: after =>
    let small :=
      if c = 'Σ' then [if touchesCased before && !touchesCased after then 'ς' else 'σ']
      else lowerChar c
    small ++ lowerAfter (c :: before) after

namespace Text

/-- The text in small letters. -/
def lower (s : Text) : Text := lowerAfter [] s

/-- The text with its first character as in a title and all others small. -/
def capitalize : Text → Text
  | [] => []
  | c :: s => titleChar c ++ lowerAfter [c] s

end Text

end TagText
