import TagText.Proofs.Reading.Prefixes
import TagText.Proofs.Stored.Agreement

/-!
How long what is read can be. Nothing on the way from an expression to the digits of a number makes
a text longer: an argument counts as at most what stands between its delimiters, trimming and the
sign take characters away, and each digit is one character. So an expression with an overlong
integer is itself longer than the most digits that are accepted.
-/

namespace TagText

open Lexeme TagText.Symbol

theorem Text.length_trim_le (p : Char → Bool) (s : Text) : (s.trim p).length ≤ s.length :=
  (trimRight_isPrefix p _).length_le.trans (List.dropWhile_sublist p).length_le

/-- Dropping backslashes makes nothing longer. -/
theorem Lexeme.length_unescape_le (s : Text) : (unescape s).length ≤ s.length := by
  fun_induction unescape s with
  | case1 => exact le_rfl
  | case2 c => exact le_rfl
  | case3 d rest ih => exact Nat.succ_le_succ (ih.trans (Nat.le_succ _))
  | case4 c d rest hescape ih => exact Nat.succ_le_succ ih

namespace Grammar

variable {raw value : Text} {values : List Text}

theorem Argument.length_le (hargument : Argument raw value) : value.length ≤ raw.length := by
  cases hargument with
  | @quoted quote body hquote hbody =>
    have hle := length_unescape_le body
    simp only [List.length_append, List.length_cons]
    omega
  | bare => exact (Text.trimRight_isPrefix isBlank _).length_le

theorem MoreArguments.length_le (hmore : MoreArguments raw values) (hvalue : value ∈ values) :
    value.length ≤ raw.length := by
  induction hmore with
  | close => cases hvalue
  | comma hbefore hargument hafter hrest ih =>
    have hle := hargument.length_le
    simp only [List.length_append, List.length_cons]
    rcases List.mem_cons.mp hvalue with rfl | hvalue
    · omega
    · have hvalue := ih hvalue
      omega

theorem Arguments.length_le (harguments : Arguments raw values) (hvalue : value ∈ values) :
    value.length ≤ raw.length := by
  cases harguments with
  | none => cases hvalue
  | some hbefore hargument hafter hmore =>
    have hle := hargument.length_le
    simp only [List.length_append]
    rcases List.mem_cons.mp hvalue with rfl | hvalue
    · omega
    · have hvalue := hmore.length_le hvalue
      omega

theorem Calls.length_le {offset : Nat} {calls : List RawCall} (hcalls : Calls offset raw calls)
    {call : RawCall} (hcall : call ∈ calls) (hvalue : value ∈ call.args) :
    value.length ≤ raw.length := by
  induction hcalls with
  | nil => cases hcall
  | call hname harguments hrest ih =>
    simp only [List.length_append, List.length_cons]
    rcases List.mem_cons.mp hcall with rfl | hcall
    · have hvalue := harguments.length_le hvalue
      omega
    · have hvalue := ih hcall
      omega

end Grammar

/-- The texts of the arguments of a reference. -/
def RawReference.args (r : RawReference) : List Text := r.calls.flatMap RawCall.args

theorem RawReference.IsNumber.mem_args {c : Catalog} {r : RawReference} {s : Text}
    (hnumber : r.IsNumber c s) : s ∈ r.args := by
  obtain ⟨i, j, call, hcall, hs, -⟩ := hnumber
  exact List.mem_flatMap.mpr ⟨call, List.mem_of_getElem? hcall, List.mem_of_getElem? hs⟩

@[simp]
theorem RawReference.args_moved (k : Nat) (r : RawReference) : (r.moved k).args = r.args := by
  simp [args, moved, RawCall.moved, List.flatMap_map]

@[simp]
theorem Part.started?_moved (k : Nat) (part : Part) :
    (part.moved k).started? = part.started?.map (RawReference.moved k) := by
  cases part <;> rfl

@[simp]
theorem Part.started?_ofRead (content : Text) (r : RawReference) (complete : Bool) :
    (ofRead content r complete).started? = some r := by
  cases complete <;> rfl

/-- The arguments of what is complete of a reference are not longer than the reference. -/
theorem Outline.length_le_of_mem_reference {offset : Nat} {place : Cursor} {word inner arg : Text}
    (harg : arg ∈ (reference offset (placed place (ofReference word inner).1.tail)).1.args) :
    arg.length ≤ inner.length := by
  obtain ⟨call, hcall, hmem⟩ := List.mem_flatMap.mp harg
  induction inner using reference_cases with
  | broken key rest hkey hrest =>
    rw [ofReference_broken word hkey hrest] at hcall
    cases hcall
  | closed key chain hkey =>
    rw [ofReference_closed word hkey] at hcall
    obtain ⟨next, -, hread⟩ := Grammar.reference_placed place offset word key (ofChain chain).1
    have hwhole := hread []
    rw [List.append_nil, List.append_nil] at hwhole
    rw [hwhole] at hcall
    obtain ⟨raw, tail, rfl, hcalls⟩ := Grammar.exists_calls chain next
    have hle := hcalls.length_le hcall hmem
    simp only [List.length_append, List.length_cons]
    omega

theorem Lexeme.Segment.length_le_of_started {pieces : List Lexeme} (hsegment : Segment pieces)
    {offset : Nat} {r : RawReference} (hr : r ∈ (Part.ofSegment offset pieces).started?)
    {arg : Text} (harg : arg ∈ r.args) : arg.length ≤ (rawText pieces).length := by
  cases hsegment with
  | literal => cases hr
  | reference word inner hname hwhole =>
    obtain ⟨tail, hshape, -⟩ := ofReference_shape word inner
    rw [hshape, Part.ofSegment, Part.started?_ofRead, ← hshape] at hr
    · obtain rfl := Option.some.inj hr
      have hle := Outline.length_le_of_mem_reference harg
      rw [rawText_of_whole hwhole]
      simp only [List.length_append, List.length_cons]
      omega
    · simp

/-- The arguments in an expression, those of broken references included, are not longer than the
    expression. -/
theorem length_le_of_mem_partsOf {s arg : Text} {part : Part} {r : RawReference}
    (hpart : part ∈ partsOf s) (hr : r ∈ part.started?) (harg : arg ∈ r.args) :
    arg.length ≤ s.length := by
  induction s using segment_induction generalizing part r with
  | nil =>
    rw [partsOf_nil] at hpart
    cases hpart
  | segment pieces rest hsegment hends ih =>
    rw [partsOf_segment hsegment hends] at hpart
    rw [List.length_append]
    rcases List.mem_cons.mp hpart with rfl | hpart
    · have hle := hsegment.length_le_of_started hr harg
      omega
    · obtain ⟨found, hfound, rfl⟩ := List.mem_map.mp hpart
      rw [Part.started?_moved] at hr
      obtain ⟨start, hstart, rfl⟩ := Option.map_eq_some_iff.mp hr
      have hle := ih hfound hstart (by simpa using harg)
      omega

namespace Numeral

theorem length_leadingDigits_le (s : Text) : (leadingDigits s).1.length ≤ s.length := by
  fun_induction leadingDigits s with
  | case1 => exact le_rfl
  | case2 => exact Nat.zero_le _
  | case3 c s d hd ds rest heq ih =>
    rw [heq] at ih
    exact Nat.succ_le_succ ih

theorem length_sign_le (s : Text) : (sign s).2.length ≤ s.length := by
  unfold sign
  split <;> simp

/-- An integer has at most as many digits as its text has characters. -/
theorem length_le_of_integer {s : Text} {negative : Bool} {digits : List Nat}
    (hread : ofText? s = some (.integer negative digits)) : digits.length ≤ s.length := by
  suffices hdigits : digits = (leadingDigits (sign s).2).1 by
    rw [hdigits]
    exact (length_leadingDigits_le _).trans (length_sign_le s)
  rw [ofText?_eq, unsigned?] at hread
  split at hread
  rename_i whole rest heq
  rw [heq]
  split at hread
  · split at hread
    · cases hread
    · cases hread
      rfl
  · split at hread
    split at hread
    · cases hread
    · simp at hread
  · split at hread
    · cases hread
    · simp at hread

end Numeral

/-- A text with an overlong integer is overlong itself. -/
theorem Arg.IsOverlong.lt_length {s : Text} (hoverlong : IsOverlong s) :
    maxIntegerDigits < s.length := by
  obtain ⟨negative, digits, hread, hlong⟩ := hoverlong
  have hdigits := Numeral.length_le_of_integer hread
  have htrim := Text.length_trim_le isSpace s
  omega

/-- An expression that holds an overlong integer has more characters than an integer may have
    digits. -/
theorem HoldsOverlong.lt_length {c : Catalog} {s : Text} (hoverlong : HoldsOverlong c s) :
    maxIntegerDigits < s.length := by
  obtain ⟨part, hpart, r, hr, arg, hnumber, hlong⟩ := hoverlong
  exact hlong.lt_length.trans_le (length_le_of_mem_partsOf hpart hr hnumber.mem_args)

/-- The expression of a stored value is not longer than the value. -/
theorem length_unwrap_le (value : Text) : (unwrap value).length ≤ value.length := by
  cases hregion : Region.ofValue? value with
  | none => rw [unwrap_literal hregion]
  | some region =>
    rw [unwrap_of_region hregion, (Region.ofValue?_eq_some_iff.mp hregion).1]
    simp only [Region.value, List.length_append]
    omega

end TagText
