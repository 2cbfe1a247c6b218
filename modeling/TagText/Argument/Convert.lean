import TagText.Argument.Basic
import TagText.Number.Decimal
import TagText.Number.Numeral
import TagText.Text.Blank
import TagText.Text.Case

/-!
How the text of an argument is read under the type declared for its place. A text that does not
fit the type is kept as it is. The only failure is an integer with too many digits.
-/

namespace TagText

/-- The types that a place for an argument can be declared with. -/
inductive ParamType
  | text
  | number
  | boolean
  | choice
  deriving DecidableEq

namespace Arg

/-- A text as a number: an integer if it is written as one, a floating-point number if it is
    written with a point or an exponent. -/
def ofNumberText (raw : Text) : Except ConversionError Arg :=
  match Numeral.ofText? (raw.trim isSpace) with
  | some (.integer negative digits) =>
    if digits.length ≤ maxIntegerDigits then .ok (int (Numeral.toInt negative digits))
    else .error .overlongInteger
  | some (.decimal negative digits scale) =>
    .ok (float (Binary64.ofDecimal negative (Numeral.ofDigits digits) scale))
  | none => .ok (text raw)

/-- The truth value that a text spells, in letters of either case or as a digit. -/
def truth? (raw : Text) : Option Bool :=
  let word := (raw.trim isSpace).lower
  if word = "true".toList || word = "1".toList then some true
  else if word = "false".toList || word = "0".toList then some false
  else none

/-- A text as an argument of a declared type. -/
def ofText (type : ParamType) (raw : Text) : Except ConversionError Arg :=
  match type with
  | .number => ofNumberText raw
  | .boolean =>
    match truth? raw with
    | some b => .ok (bool b)
    | none => .ok (text raw)
  | .text | .choice => .ok (text raw)

end Arg

end TagText
