import TagText.Text.Basic

/-!
Numbers in hexadecimal digits.
-/

namespace TagText

/-- A number in lower-case hexadecimal digits, filled up with zeros to a width. -/
def hexadecimal (width n : Nat) : Text :=
  let digits := Nat.toDigits 16 n
  List.replicate (width - digits.length) '0' ++ digits

end TagText
