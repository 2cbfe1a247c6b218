/-!
The binary floating-point numbers of 64 bits. The finite magnitudes are numbered from zero upwards,
so a magnitude is its rank, neighbours differ by one, and every rank is a number.
-/

namespace TagText

/-- How many magnitudes share an exponent of two: as many as 52 bits can tell apart. -/
abbrev binade : Nat := 4503599627370496

/-- A floating-point number: a signed finite magnitude, given by its rank, a signed infinity, or
    no number. -/
inductive Binary64
  | finite (negative : Bool) (rank : Fin (2047 * binade))
  | infinite (negative : Bool)
  | nan
  deriving DecidableEq

namespace Binary64

/-- The 53 bits of a magnitude. In the lowest binade the leading bit is missing. -/
def significand (rank : Nat) : Nat :=
  if rank < binade then rank else rank % binade + binade

/-- The exponent of two that the significand is scaled by. -/
def exponent (rank : Nat) : Int :=
  if rank < binade then -1074 else (rank / binade : Nat) - 1075

/-- The magnitude of a rank as a quotient. -/
def ratio (rank : Nat) : Nat × Nat :=
  let q := exponent rank
  if 0 ≤ q then (significand rank * Nat.pow 2 q.toNat, 1)
  else (significand rank, Nat.pow 2 (-q).toNat)

/-- Whether a number is neither infinite nor missing. -/
def isFinite : Binary64 → Bool
  | finite _ _ => true
  | _ => false

/-- Numerical equality: the two zeros are equal, and no number is equal to nothing. -/
def equals : Binary64 → Binary64 → Bool
  | finite s a, finite t b => a == b && (s == t || a.val == 0)
  | infinite s, infinite t => s == t
  | _, _ => false

/-- Whether a number is exactly an integer. -/
def equalsInt : Binary64 → Int → Bool
  | finite negative rank, n =>
    let (num, den) := ratio rank.val
    num == n.natAbs * den && (n == 0 || negative == decide (n < 0))
  | _, _ => false

end Binary64

end TagText
