import TagText.Number.Binary64

/-!
The floating-point number nearest to a decimal fraction. All arithmetic is exact; the only rounding
is the last step, to the even neighbour when the fraction lies halfway.
-/

namespace TagText.Binary64

/-- The integer nearest to a quotient, the even one when two are equally near. -/
def roundEven (num den : Nat) : Nat :=
  let q := num / den
  let r := num % den
  if 2 * r < den then q
  else if den < 2 * r then q + 1
  else q + q % 2

/-- The exponent at which a positive quotient has a significand of 53 bits, but none below that of
    the smallest magnitude. -/
def scaleOf (num den : Nat) : Int :=
  let spread : Int := (num.log2 : Int) - den.log2
  let reaches :=
    if 0 ≤ spread then den * Nat.pow 2 spread.toNat ≤ num
    else den ≤ num * Nat.pow 2 (-spread).toNat
  max (-1074) (if reaches then spread - 52 else spread - 53)

/-- The rank of the magnitude nearest to a positive quotient, as if ranks went on for ever. -/
def nearestRank (num den : Nat) : Nat :=
  let q := scaleOf num den
  let m :=
    if 0 ≤ q then roundEven num (den * Nat.pow 2 q.toNat)
    else roundEven (num * Nat.pow 2 (-q).toNat) den
  (q + 1074).toNat * binade + m

/-- The number of a sign and a rank; infinite when the rank lies behind the last magnitude. -/
def ofRank (negative : Bool) (rank : Nat) : Binary64 :=
  if h : rank < 2047 * binade then finite negative ⟨rank, h⟩ else infinite negative

/-- The number nearest to digits times ten to the scale. A scale beyond all magnitudes is decided
    without computing the power: above, the result is infinite, below, it is zero. -/
def ofDecimal (negative : Bool) (digits : Nat) (scale : Int) : Binary64 :=
  if digits = 0 then ofRank negative 0
  else if 310 < scale then infinite negative
  else if scale + digits.log2 < -330 then ofRank negative 0
  else if 0 ≤ scale then ofRank negative (nearestRank (digits * Nat.pow 10 scale.toNat) 1)
  else ofRank negative (nearestRank digits (Nat.pow 10 (-scale).toNat))

end TagText.Binary64
