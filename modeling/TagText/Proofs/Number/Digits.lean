import Mathlib.Data.List.Induction
import Mathlib.Tactic.IntervalCases
import Mathlib.Tactic.Ring
import TagText.Number.Decimal
import TagText.Number.Numeral

/-!
Decimal texts read back: the digits of a number spell it, and a text of digits is read up to the
first character that is none.
-/

namespace TagText

/-- The decimal digits of a natural number. -/
def digitsOf (n : Nat) : List Nat := if n < 10 then [n] else digitsOf (n / 10) ++ [n % 10]

/-- A list of decimal digits. -/
def AreDigits (digits : List Nat) : Prop := ∀ d ∈ digits, d < 10

/-- Digits as a text. -/
def digitText (digits : List Nat) : Text := digits.map Nat.digitChar

theorem AreDigits.append {digits more : List Nat} (hdigits : AreDigits digits)
    (hmore : AreDigits more) : AreDigits (digits ++ more) :=
  fun d hd => (List.mem_append.mp hd).elim (hdigits d) (hmore d)

theorem areDigits_zero : AreDigits [0] := by simp [AreDigits]

theorem areDigits_replicate {digit : Nat} (hdigit : digit < 10) (n : Nat) :
    AreDigits (List.replicate n digit) := by
  intro d hd
  rwa [List.eq_of_mem_replicate hd]

@[simp] theorem digitText_append (digits more : List Nat) :
    digitText (digits ++ more) = digitText digits ++ digitText more :=
  List.map_append

@[simp] theorem length_digitText (digits : List Nat) : (digitText digits).length = digits.length :=
  List.length_map _

theorem digitText_replicate_zero (n : Nat) :
    digitText (List.replicate n 0) = List.replicate n '0' :=
  List.map_replicate

/-- Whether a character stands in the text of a finite number. -/
def isNumeric (c : Char) : Bool := "0123456789.e+-".toList.contains c

/-- What holds of the characters of finite numbers holds of a character that is one of them. -/
theorem of_isNumeric {p : Char → Bool} (hp : "0123456789.e+-".toList.all p = true) {c : Char}
    (hc : isNumeric c = true) : p c = true :=
  List.all_eq_true.mp hp c (List.contains_iff_mem.mp hc)

theorem isNumeric_of_mem_digitText {digits : List Nat} (hdigits : AreDigits digits) :
    ∀ c ∈ digitText digits, isNumeric c = true := by
  intro c hc
  obtain ⟨d, hd, rfl⟩ := List.mem_map.mp hc
  have hlt := hdigits d hd
  interval_cases d <;> decide

theorem digitsOf_ne_nil (n : Nat) : digitsOf n ≠ [] := by
  rw [digitsOf]
  split <;> simp

theorem areDigits_digitsOf (n : Nat) : AreDigits (digitsOf n) := by
  induction n using digitsOf.induct with
  | case1 n hn =>
    rw [digitsOf, if_pos hn]
    simpa [AreDigits] using hn
  | case2 n hn ih =>
    rw [digitsOf, if_neg hn]
    refine ih.append ?_
    simpa [AreDigits] using Nat.mod_lt n (by decide : 0 < 10)

theorem decimal_eq (n : Nat) : decimal n = digitText (digitsOf n) := by
  induction n using digitsOf.induct with
  | case1 n hn =>
    rw [decimal, digitsOf, if_pos hn, if_pos hn]
    rfl
  | case2 n hn ih =>
    rw [decimal, digitsOf, if_neg hn, if_neg hn, ih, digitText_append]
    rfl

/-- A number below a power of ten has no more digits than that. -/
theorem length_digitsOf_le {n k : Nat} (hk : k ≠ 0) (hn : n < 10 ^ k) :
    (digitsOf n).length ≤ k := by
  induction n using digitsOf.induct generalizing k with
  | case1 n hsmall =>
    rw [digitsOf, if_pos hsmall, List.length_singleton]
    omega
  | case2 n hsmall ih =>
    obtain ⟨k, rfl⟩ := Nat.exists_eq_succ_of_ne_zero hk
    have hpower : k ≠ 0 := by
      rintro rfl
      omega
    have hquotient : n / 10 < 10 ^ k := by
      rw [Nat.div_lt_iff_lt_mul (by decide)]
      simpa [Nat.pow_succ] using hn
    have hlength := ih hpower hquotient
    rw [digitsOf, if_neg hsmall, List.length_append, List.length_singleton]
    omega

namespace Numeral

theorem foldl_digits (start : Nat) (digits : List Nat) :
    digits.foldl (fun n d => 10 * n + d) start = start * 10 ^ digits.length + ofDigits digits := by
  unfold ofDigits
  induction digits generalizing start with
  | nil => simp
  | cons d digits ih =>
    rw [List.foldl_cons, List.foldl_cons, ih, ih (10 * 0 + d), List.length_cons]
    ring

theorem ofDigits_append (digits more : List Nat) :
    ofDigits (digits ++ more) = ofDigits digits * 10 ^ more.length + ofDigits more := by
  rw [ofDigits, List.foldl_append, foldl_digits]
  rfl

theorem ofDigits_replicate_zero (n : Nat) : ofDigits (List.replicate n 0) = 0 := by
  induction n with
  | zero => rfl
  | succ n ih =>
    rw [List.replicate_succ', ofDigits_append, ih]
    rfl

theorem ofDigits_lt {digits : List Nat} (hdigits : AreDigits digits) :
    ofDigits digits < 10 ^ digits.length := by
  induction digits using List.reverseRecOn with
  | nil => decide
  | append_singleton digits d ih =>
    have hrest := ih fun e he => hdigits e (by simp [he])
    have hd := hdigits d (by simp)
    have hlast : ofDigits [d] = d := by simp [ofDigits]
    rw [ofDigits_append, hlast, List.length_append, List.length_singleton, Nat.pow_succ]
    omega

theorem ofDigits_digitsOf (n : Nat) : ofDigits (digitsOf n) = n := by
  induction n using digitsOf.induct with
  | case1 n hn =>
    rw [digitsOf, if_pos hn]
    simp [ofDigits]
  | case2 n hn ih =>
    have hlast : ofDigits [n % 10] = n % 10 := by simp [ofDigits]
    rw [digitsOf, if_neg hn, ofDigits_append, ih, hlast, List.length_singleton]
    omega

theorem digitValue?_digitChar {d : Nat} (hd : d < 10) : digitValue? (Nat.digitChar d) = some d := by
  interval_cases d <;> rfl

theorem lt_of_digitAmong {zeros : List Nat} {code d : Nat} (hd : digitAmong zeros code = some d) :
    d < 10 := by
  induction zeros with
  | nil => cases hd
  | cons first zeros ih =>
    rw [digitAmong] at hd
    split_ifs at hd
    · cases hd
      omega
    · exact ih hd

theorem areDigits_leadingDigits (s : Text) : AreDigits (leadingDigits s).1 := by
  fun_induction leadingDigits s with
  | case1 => simp [AreDigits]
  | case2 => simp [AreDigits]
  | case3 c s d hd digits rest hrest ih =>
    rw [hrest] at ih
    exact List.forall_mem_cons.mpr ⟨lt_of_digitAmong hd, ih⟩

/-- A text of digits is read up to where it ends. -/
theorem not_digit_of_nil : ∀ c ∈ ([] : Text).head?, digitValue? c = none := by simp

theorem leadingDigits_digitText {digits : List Nat} (hdigits : AreDigits digits) {tail : Text}
    (htail : ∀ c ∈ tail.head?, digitValue? c = none) :
    leadingDigits (digitText digits ++ tail) = (digits, tail) := by
  induction digits with
  | nil =>
    cases tail with
    | nil => rfl
    | cons c tail => simp [digitText, leadingDigits, htail c rfl]
  | cons d digits ih =>
    obtain ⟨hd, hdigits⟩ := List.forall_mem_cons.mp hdigits
    have hrest := ih hdigits
    simp only [digitText] at hrest ⊢
    simp [leadingDigits, digitValue?_digitChar hd, hrest]

end Numeral

end TagText
