import TagText.Number.Rounding
import TagText.Text.Digit

/-!
Written numbers: an optional sign, digits of any script, and for decimals a point, an exponent or
both.
-/

namespace TagText

/-- A written number. A decimal is its digits, without the point, times ten to the scale. -/
inductive Numeral
  | integer (negative : Bool) (digits : List Nat)
  | decimal (negative : Bool) (digits : List Nat) (scale : Int)
  deriving DecidableEq

namespace Numeral

/-- The number that digits spell. -/
def ofDigits (digits : List Nat) : Nat := digits.foldl (fun n d => 10 * n + d) 0

/-- The digits at the front of a text. -/
def leadingDigits : Text → List Nat × Text
  | [] => ([], [])
  | c :: s =>
    match digitValue? c with
    | none => ([], c :: s)
    | some d =>
      let (ds, rest) := leadingDigits s
      (d :: ds, rest)

/-- Whether a text starts with a minus, and what follows its sign if it has one. -/
def sign : Text → Bool × Text
  | '-' :: s => (true, s)
  | '+' :: s => (false, s)
  | s => (false, s)

/-- The exponent that makes up a whole text; an empty text is the exponent zero. -/
def exponent? : Text → Option Int
  | [] => some 0
  | c :: s =>
    if c = 'e' || c = 'E' then
      let (negative, s) := sign s
      match leadingDigits s with
      | (d :: ds, []) =>
        let n : Int := ofDigits (d :: ds)
        some (if negative then -n else n)
      | _ => none
    else none

/-- Reads a whole text as a number. -/
def ofText? (s : Text) : Option Numeral :=
  let (negative, s) := sign s
  let (whole, rest) := leadingDigits s
  match rest with
  | [] => if whole.isEmpty then none else some (.integer negative whole)
  | '.' :: rest =>
    let (fraction, rest) := leadingDigits rest
    if whole.isEmpty && fraction.isEmpty then none
    else (exponent? rest).map fun e =>
      .decimal negative (whole ++ fraction) (e - fraction.length)
  | rest =>
    if whole.isEmpty then none
    else (exponent? rest).map fun e => .decimal negative whole e

/-- The value of an integer's sign and digits. -/
def toInt (negative : Bool) (digits : List Nat) : Int :=
  if negative then -(ofDigits digits : Int) else ofDigits digits

end Numeral

end TagText
