import TagText.Text.Basic

/-!
Whole numbers in decimal digits, without leading zeros. Between numbers and texts only so many
digits are converted, in either direction.
-/

namespace TagText

/-- The decimal digits of a natural number. -/
def decimal (n : Nat) : Text :=
  if n < 10 then [Nat.digitChar n] else decimal (n / 10) ++ [Nat.digitChar (n % 10)]

/-- The decimal text of an integer: a minus for a negative one, nothing for the others. -/
def decimalInt (n : Int) : Text :=
  if n < 0 then '-' :: decimal n.natAbs else decimal n.natAbs

/-- The most digits with which an integer is read or written, leading zeros included. -/
def maxIntegerDigits : Nat := 4300

/-- Why a number cannot be read from its text or written as one: it is an integer with more digits
    than are converted. -/
inductive ConversionError
  | overlongInteger
  deriving DecidableEq

/-- Whether an integer has few enough digits to be written. -/
def hasDecimal (n : Int) : Bool := n.natAbs < Nat.pow 10 maxIntegerDigits

/-- Writes an integer in decimal digits. -/
def writeInt (n : Int) : Except ConversionError Text :=
  if hasDecimal n then .ok (decimalInt n) else .error .overlongInteger

end TagText
