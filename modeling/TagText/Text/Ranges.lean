/-!
Sets of code points as ascending lists of spans, the form in which the tables of this library are
written.
-/

namespace TagText

/-- A first and a last code point. -/
abbrev Span := Nat × Nat

/-- Whether a code point lies in one of the spans. They ascend, so a code point below the first
    span lies in none. -/
def covers : List Span → Nat → Bool
  | [], _ => false
  | (first, last) :: spans, code =>
    if code < first then false
    else if code ≤ last then true
    else covers spans code

end TagText
