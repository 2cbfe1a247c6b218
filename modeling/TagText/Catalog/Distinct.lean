import TagText.Text.Basic

/-!
Lists of keys in which no key comes twice. The check yields the first key that repeats an earlier
one.
-/

namespace TagText

/-- The first key that is among those seen or repeats an earlier one. -/
def repeatedAfter (seen : List Text) : List Text → Option Text
  | [] => none
  | key :: keys => if key ∈ seen then some key else repeatedAfter (key :: seen) keys

/-- The first key that repeats an earlier one. -/
def repeated? (keys : List Text) : Option Text := repeatedAfter [] keys

/-- Nothing is repeated exactly when all keys differ from each other and from those seen. -/
theorem repeatedAfter_eq_none_iff {seen keys : List Text} :
    repeatedAfter seen keys = none ↔ keys.Nodup ∧ ∀ key ∈ keys, key ∉ seen := by
  induction keys generalizing seen with
  | nil => simp [repeatedAfter]
  | cons key keys ih =>
    rw [repeatedAfter, List.nodup_cons]
    split
    · rename_i hseen
      constructor
      · simp
      · rintro ⟨-, hfresh⟩
        exact absurd hseen (hfresh key (by simp))
    · rename_i hseen
      rw [ih]
      constructor
      · rintro ⟨hnodup, hfresh⟩
        refine ⟨⟨fun hmem => ?_, hnodup⟩, ?_⟩
        · exact hfresh key hmem (by simp)
        · intro other hother
          rcases List.mem_cons.1 hother with rfl | hmem
          · exact hseen
          · exact fun hin => hfresh other hmem (by simp [hin])
      · rintro ⟨⟨hnotin, hnodup⟩, hfresh⟩
        refine ⟨hnodup, fun other hother => ?_⟩
        intro hin
        rcases List.mem_cons.1 hin with rfl | hmem
        · exact hnotin hother
        · exact hfresh other (by simp [hother]) hmem

/-- Nothing is repeated exactly when all keys differ. -/
theorem repeated?_eq_none_iff {keys : List Text} : repeated? keys = none ↔ keys.Nodup := by
  simp [repeated?, repeatedAfter_eq_none_iff]

end TagText
