import TagText.Number.Rounding
import TagText.Number.Decimal

/-!
The shortest decimal text that reads back as the same floating-point number, and of several such
texts the one nearest to it.
-/

namespace TagText.Binary64

/-- The greatest exponent of ten that is not above a positive quotient, among a few candidates
    around the estimate that the bit lengths give. -/
def leadingExponent (num den : Nat) : Int :=
  let spread : Int := (num.log2 : Int) - den.log2
  let estimate := (spread - 1) * 30103 / 100000
  let reaches (e : Int) : Bool :=
    if 0 ≤ e then den * Nat.pow 10 e.toNat ≤ num else den ≤ num * Nat.pow 10 (-e).toNat
  if reaches (estimate + 2) then estimate + 2
  else if reaches (estimate + 1) then estimate + 1
  else if reaches estimate then estimate
  else estimate - 1

/-- A quotient in units of a power of ten. -/
def inUnits (num den : Nat) (unit : Int) : Nat × Nat :=
  if 0 ≤ unit then (num, den * Nat.pow 10 unit.toNat)
  else (num * Nat.pow 10 (-unit).toNat, den)

/-- Of the two multiples of a power of ten around a magnitude, the one that reads back as it; the
    nearer one if both do, and the even one if they are equally near. -/
def onGrid? (rank : Nat) (unit : Int) : Option Nat :=
  let (num, den) := ratio rank
  let (n, d) := inUnits num den unit
  let below := n / d
  let reads (digits : Nat) : Bool :=
    match ofDecimal false digits unit with
    | finite _ r => r.val == rank
    | _ => false
  match reads below, reads (below + 1) with
  | true, true => some (roundEven n d)
  | true, false => some below
  | false, true => some (below + 1)
  | false, false => none

/-- The digits and the scale of the first grid that has a hit, from the given number of digits on.
    The exact expansion stands behind the last grid; it always reads back. -/
def onGrids (rank : Nat) (leading : Int) : Nat → Nat → Nat × Int
  | 0, _ =>
    let q := exponent rank
    if 0 ≤ q then (significand rank * Nat.pow 2 q.toNat, 0)
    else (significand rank * Nat.pow 5 (-q).toNat, q)
  | more + 1, count =>
    let unit := leading + 1 - count
    match onGrid? rank unit with
    | some digits => (digits, unit)
    | none => onGrids rank leading more (count + 1)

/-- The shortest decimal for a magnitude, as digits and scale. -/
def shortest (rank : Nat) : Nat × Int :=
  if rank = 0 then (0, 0)
  else
    let (num, den) := ratio rank
    onGrids rank (leadingExponent num den) 17 1

/-- A run of zeros. -/
def zeros (count : Int) : Text := List.replicate count.toNat '0'

/-- An exponent with its sign and at least two digits. -/
def exponentText (e : Int) : Text :=
  let digits := decimal e.natAbs
  (if e < 0 then '-' else '+') :: (List.replicate (2 - digits.length) '0' ++ digits)

/-- Digits with a decimal point: in full when the first digit counts at least ten-thousandths and
    stands at most sixteen places before the point, always with a digit behind the point; else as
    one digit, a fraction if there is more, and an exponent. -/
def layout (digits : Text) (scale : Int) : Text :=
  let point : Int := digits.length + scale
  if -4 ≤ point - 1 && point - 1 < 16 then
    if point ≤ 0 then '0' :: '.' :: zeros (-point) ++ digits
    else if scale < 0 then digits.take point.toNat ++ '.' :: digits.drop point.toNat
    else digits ++ zeros scale ++ ['.', '0']
  else
    let fraction := digits.drop 1
    digits.take 1 ++ (if fraction.isEmpty then [] else '.' :: fraction)
      ++ 'e' :: exponentText (point - 1)

/-- The text of a magnitude. -/
def magnitudeText (rank : Nat) : Text :=
  let (digits, scale) := shortest rank
  if digits = 0 then ['0', '.', '0']
  else
    let all := decimal digits
    let kept := Text.trimRight (· == '0') all
    layout kept (scale + all.length - kept.length)

/-- The text of a number. -/
def text : Binary64 → Text
  | finite negative rank => (if negative then ['-'] else []) ++ magnitudeText rank.val
  | infinite negative => (if negative then ['-'] else []) ++ ['i', 'n', 'f']
  | nan => ['n', 'a', 'n']

end TagText.Binary64
