import TagText.Argument.Basic
import TagText.Text.Quoted

/-!
The three texts of an argument: as it is written inside a call, as it is compared with a list of
choices, and as a message displays it. An integer with too many digits has none of them.
-/

namespace TagText.Arg

/-- A character between double quotes: the quote and the backslash take a backslash in front. -/
def escapeChar (c : Char) : Text := if c = '\\' || c = '\x22' then ['\\', c] else [c]

/-- A text between double quotes. -/
def quote (s : Text) : Text := '\x22' :: s.flatMap escapeChar ++ ['\x22']

/-- Whether an argument has a text. -/
def hasText : Arg → Bool
  | int n => hasDecimal n
  | _ => true

@[simp] theorem hasText_int (n : Int) : hasText (int n) = hasDecimal n := rfl

/-- What is written for an argument inside a call if it has a text: truth values and numbers bare,
    all else between double quotes. -/
def written : Arg → Text
  | text s => quote s
  | int n => decimalInt n
  | float x => x.text
  | bool b => if b then "true".toList else "false".toList
  | nothing => quote []

/-- Writes an argument inside a call. -/
def write (a : Arg) : Except ConversionError Text :=
  if a.hasText then .ok a.written else .error .overlongInteger

/-- Writes an argument as plain text. -/
def plain : Arg → Except ConversionError Text
  | text s => .ok s
  | int n => writeInt n
  | float x => .ok x.text
  | bool b => .ok (if b then "True".toList else "False".toList)
  | nothing => .ok "None".toList

/-- Writes an argument as a message displays it: a text between quotes, all else plain. -/
def displayed : Arg → Except ConversionError Text
  | text s => .ok s.quoted
  | a => a.plain

end TagText.Arg
