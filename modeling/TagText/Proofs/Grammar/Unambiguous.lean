import TagText.Proofs.Grammar.References

/-!
The grammar leaves no choice: of two derivations from the front of one text that have the same
number of modifiers, neither goes on longer than the other.
-/

namespace TagText.Grammar

open Lexeme

theorem Arguments.unique {s t x y : Text} {args others : List Text} (hs : Arguments s args)
    (ht : Arguments t others) (htext : s ++ x = t ++ y) : s = t ∧ x = y ∧ args = others := by
  have hleft := hs.reads x
  have hright := ht.reads y
  rw [htext] at hleft
  obtain rfl : x = y := hleft.rest.symm.trans hright.rest
  refine ⟨List.append_cancel_right htext, rfl, ?_⟩
  have hread := (hleft.read {}).symm.trans (hright.read {})
  simpa using hread

theorem opening_unique {sign : Char} {word other x y : Text} (hword : isName word = true)
    (hother : isName other = true)
    (htext : sign :: word ++ '(' :: x = sign :: other ++ '(' :: y) : word = other ∧ x = y := by
  have hleft : opening? sign (sign :: word ++ '(' :: x) = some (word, x) :=
    opening?_eq_some_iff.mpr ⟨hword, rfl⟩
  have hright : opening? sign (sign :: other ++ '(' :: y) = some (other, y) :=
    opening?_eq_some_iff.mpr ⟨hother, rfl⟩
  rw [htext, hright] at hleft
  obtain ⟨rfl, rfl⟩ := by simpa using hleft
  exact ⟨rfl, rfl⟩

theorem Calls.unique {offset : Nat} {s t x y : Text} {calls others : List RawCall}
    (hs : Calls offset s calls) (ht : Calls offset t others)
    (hlength : calls.length = others.length) (htext : s ++ x = t ++ y) :
    s = t ∧ x = y ∧ calls = others := by
  induction hs generalizing t others with
  | nil =>
    cases ht with
    | nil => exact ⟨rfl, htext, rfl⟩
    | call => cases hlength
  | @call offset key inner rest args calls hkey hinner _ ih =>
    cases ht with
    | nil => cases hlength
    | @call _ other inner' rest' args' calls' hother hinner' hrest' =>
      simp only [List.append_assoc, List.cons_append] at htext
      obtain ⟨rfl, hlists⟩ := opening_unique hkey hother htext
      obtain ⟨rfl, hchains, rfl⟩ := hinner.unique hinner' hlists
      obtain ⟨rfl, rfl, rfl⟩ := ih hrest' (by simpa using hlength) hchains
      exact ⟨rfl, rfl, rfl⟩

/-- Two references from the front of one text with as many modifiers are the same. -/
theorem Reference.unique {offset : Nat} {s t x y : Text} {raw other : RawReference}
    (hs : Reference offset s raw) (ht : Reference offset t other)
    (hlength : raw.calls.length = other.calls.length) (htext : s ++ x = t ++ y) :
    s = t ∧ x = y ∧ raw = other := by
  cases hs with
  | @intro group field chain calls hgroup hfield hchain =>
    cases ht with
    | @intro group' field' chain' calls' hgroup' hfield' hchain' =>
      simp only [List.append_assoc, List.cons_append] at htext
      obtain ⟨rfl, hinner⟩ := opening_unique hgroup hgroup' htext
      obtain ⟨htake, hdrop⟩ := span_key hfield (chain ++ x)
      obtain ⟨htake', hdrop'⟩ := span_key hfield' (chain' ++ y)
      rw [hinner] at htake hdrop
      obtain rfl : field = field' := htake.symm.trans htake'
      have hrest : chain ++ x = chain' ++ y := by simpa using hdrop.symm.trans hdrop'
      obtain ⟨rfl, rfl, rfl⟩ := hchain.unique hchain' hlength hrest
      exact ⟨rfl, rfl, rfl⟩

end TagText.Grammar
