import TagText.Number.Shortest

/-!
The values that a modifier is applied to besides the one it modifies. What a value is depends on
the declared type of its place; text is what every place can hold.
-/

namespace TagText

/-- An argument: a text, a whole number, a floating-point number, a truth value, or nothing. -/
inductive Arg
  | text (value : Text)
  | int (value : Int)
  | float (value : Binary64)
  | bool (value : Bool)
  | nothing
  deriving DecidableEq

namespace Arg

/-- Whether an argument counts as left out: nothing, or an empty text. -/
def isMissing : Arg → Bool
  | text [] => true
  | nothing => true
  | _ => false

/-- Whether an argument is a number. Truth values are none. -/
def isNumber : Arg → Bool
  | int _ => true
  | float _ => true
  | _ => false

/-- Whether an argument is a truth value. -/
def isBool : Arg → Bool
  | bool _ => true
  | _ => false

/-- Equality of numbers of either kind; truth values count as one and zero. Texts are no numbers. -/
def equalNumbers : Arg → Arg → Bool
  | int m, int n => m == n
  | int m, float y => y.equalsInt m
  | float x, int n => x.equalsInt n
  | float x, float y => x.equals y
  | _, _ => false

/-- A truth value as a whole number; any other argument as it is. -/
def asNumber : Arg → Arg
  | bool b => int (if b then 1 else 0)
  | a => a

/-- Whether two arguments mean the same: equal texts, numbers of equal value whatever their kind,
    or both nothing. -/
def equals : Arg → Arg → Bool
  | text s, text t => s == t
  | nothing, nothing => true
  | a, b => equalNumbers a.asNumber b.asNumber

end Arg

end TagText
