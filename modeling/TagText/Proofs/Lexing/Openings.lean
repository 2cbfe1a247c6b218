import TagText.Proofs.Lexing.Tiling

/-!
Openings: a sign, a name and an opening parenthesis. What stands in a text behind the parenthesis
does not matter to them, and no opening reaches over the sign of a reference.
-/

namespace TagText

/-- A run of characters of a class ends where a character of another class stands. -/
theorem Text.span_append {p : Char → Bool} {run tail : Text} (hrun : ∀ c ∈ run, p c)
    (htail : ∀ c ∈ tail.head?, p c = false) :
    (run ++ tail).takeWhile p = run ∧ (run ++ tail).dropWhile p = tail := by
  rw [List.takeWhile_append_of_pos hrun, List.dropWhile_append_of_pos hrun]
  cases tail with
  | nil => simp
  | cons c tail =>
    have hc : p c = false := htail c rfl
    simp [hc]

/-- The first character behind a dropped run is of another class. -/
theorem Text.head?_dropWhile {p : Char → Bool} {s : Text} :
    ∀ c ∈ (s.dropWhile p).head?, p c = false := by
  intro c hc
  have hnot := List.head?_dropWhile_not p s
  rw [Option.mem_def] at hc
  simpa [hc] using hnot

namespace Lexeme

/-- Whether a text is a name. -/
def isName : Text → Bool
  | [] => false
  | c :: s => isNameStart c && s.all isWord

theorem isWord_of_isNameStart {c : Char} (hstart : isNameStart c = true) : isWord c = true := by
  unfold isNameStart at hstart
  simp_all

theorem isWord_of_mem_name {word : Text} (hname : isName word = true) : ∀ c ∈ word, isWord c := by
  cases word with
  | nil => simp
  | cons c s =>
    obtain ⟨hstart, hall⟩ := by simpa [isName] using hname
    intro d hd
    rcases List.mem_cons.mp hd with rfl | hd
    · exact isWord_of_isNameStart hstart
    · exact hall d hd

theorem leadingName?_eq_some_iff {s word rest : Text} :
    leadingName? s = some (word, rest) ↔
      isName word = true ∧ s = word ++ rest ∧ ∀ c ∈ rest.head?, isWord c = false := by
  constructor
  · intro hname
    have heq := leadingName?_eq hname
    unfold leadingName? at hname
    split at hname
    · simp at hname
    · rename_i c s
      split at hname
      · rename_i hstart
        obtain ⟨rfl, rfl⟩ := by simpa using hname
        refine ⟨?_, heq, Text.head?_dropWhile⟩
        have hall : (s.takeWhile isWord).all isWord = true := List.all_takeWhile
        simp [isName, hstart, hall]
      · simp at hname
  · rintro ⟨hname, rfl, hrest⟩
    cases word with
    | nil => simp [isName] at hname
    | cons c word =>
      obtain ⟨hstart, hall⟩ := by simpa [isName] using hname
      obtain ⟨htake, hdrop⟩ := Text.span_append hall hrest
      simp [leadingName?, hstart, htake, hdrop]

theorem opening?_eq_some_iff {sign : Char} {s word inner : Text} :
    opening? sign s = some (word, inner) ↔
      isName word = true ∧ s = sign :: word ++ '(' :: inner := by
  constructor
  · intro hopening
    refine ⟨?_, opening?_eq hopening⟩
    unfold opening? at hopening
    split at hopening
    · simp at hopening
    · split at hopening
      · split at hopening
        · rename_i hname
          obtain ⟨rfl, rfl⟩ := by simpa using hopening
          exact (leadingName?_eq_some_iff.mp hname).1
        · simp at hopening
      · simp at hopening
  · rintro ⟨hname, rfl⟩
    have hparen : isWord '(' = false := by decide
    have hlead : leadingName? (word ++ '(' :: inner) = some (word, '(' :: inner) :=
      leadingName?_eq_some_iff.mpr ⟨hname, rfl, by simpa using hparen⟩
    simp [opening?, hlead]

theorem opening?_append {sign : Char} {s word inner : Text}
    (hopening : opening? sign s = some (word, inner)) (tail : Text) :
    opening? sign (s ++ tail) = some (word, inner ++ tail) := by
  obtain ⟨hname, rfl⟩ := opening?_eq_some_iff.mp hopening
  exact opening?_eq_some_iff.mpr ⟨hname, by simp⟩

theorem opening?_eq_none_of_append {sign : Char} {s tail : Text}
    (hnone : opening? sign (s ++ tail) = none) : opening? sign s = none := by
  cases hopening : opening? sign s with
  | none => rfl
  | some found =>
    have hsome := opening?_append hopening tail
    rw [hnone] at hsome
    cases hsome

/-- Whether a text is empty or starts with the sign of references. -/
def atSignOrEnd (s : Text) : Prop := ∀ c ∈ s.head?, c = '@'

/-- An opening that a text has only together with what follows it reaches behind the text, which is
    then the front of the sign, the name and the parenthesis. -/
theorem exists_opening_eq_append {sign : Char} {s tail word inner : Text}
    (hnone : opening? sign s = none) (hopening : opening? sign (s ++ tail) = some (word, inner)) :
    ∃ cut, cut ≠ [] ∧ sign :: word ++ ['('] = s ++ cut ∧ tail = cut ++ inner := by
  obtain ⟨hname, heq⟩ := opening?_eq_some_iff.mp hopening
  have hsplit : s ++ tail = (sign :: word ++ ['(']) ++ inner := by simpa using heq
  have hcontains : ∀ rest, s ≠ (sign :: word ++ ['(']) ++ rest := by
    intro rest hrest
    have hsome : opening? sign s = some (word, rest) :=
      opening?_eq_some_iff.mpr ⟨hname, by simpa using hrest⟩
    rw [hnone] at hsome
    cases hsome
  rcases List.append_eq_append_iff.mp hsplit with ⟨cut, hcut, htail⟩ | ⟨rest, hrest, -⟩
  · refine ⟨cut, ?_, hcut, htail⟩
    rintro rfl
    exact hcontains [] (by simpa using hcut.symm)
  · exact absurd hrest (hcontains rest)

/-- The sign of references is neither in a name nor the parenthesis behind it. -/
theorem not_mem_opening {word : Text} (hname : isName word = true) : '@' ∉ word ++ ['('] := by
  intro hmem
  rcases List.mem_append.mp hmem with hword | hparen
  · exact absurd (isWord_of_mem_name hname '@' hword) (by decide)
  · exact absurd (List.mem_singleton.mp hparen) (by decide)

/-- The sign of references belongs to no name, so an opening that has begun in front of it is
    complete in front of it. -/
theorem opening?_append_atSignOrEnd {sign : Char} {s tail : Text} (hs : s ≠ [])
    (htail : atSignOrEnd tail) (hnone : opening? sign s = none) :
    opening? sign (s ++ tail) = none := by
  cases hopening : opening? sign (s ++ tail) with
  | none => rfl
  | some found =>
    exfalso
    obtain ⟨word, inner⟩ := found
    have hname := (opening?_eq_some_iff.mp hopening).1
    obtain ⟨cut, hcut, hreaches, htailEq⟩ := exists_opening_eq_append hnone hopening
    obtain ⟨c, cut, rfl⟩ := List.exists_cons_of_ne_nil hcut
    have hc : c = '@' := htail c (by simp [htailEq])
    obtain ⟨first, more, rfl⟩ := List.exists_cons_of_ne_nil hs
    obtain ⟨-, hrest⟩ : sign = first ∧ word ++ ['('] = more ++ c :: cut := by
      simpa using hreaches
    exact not_mem_opening hname (by simp [hrest, hc])

theorem startsReference_iff {s : Text} :
    startsReference s = true ↔ ∃ word inner, opening? '@' s = some (word, inner) := by
  unfold startsReference
  rw [Option.isSome_iff_exists]
  exact Prod.exists

theorem startsReference_append {s : Text} (hstarts : startsReference s = true) (tail : Text) :
    startsReference (s ++ tail) = true := by
  obtain ⟨word, inner, hopening⟩ := startsReference_iff.mp hstarts
  exact startsReference_iff.mpr ⟨word, inner ++ tail, opening?_append hopening tail⟩

theorem atSignOrEnd_of_startsReference {s : Text} (hstarts : startsReference s = true) :
    atSignOrEnd s := by
  obtain ⟨word, inner, hopening⟩ := startsReference_iff.mp hstarts
  obtain ⟨-, rfl⟩ := opening?_eq_some_iff.mp hopening
  simp [atSignOrEnd]

/-- A modifier does not start with the sign of references. -/
theorem opening?_dot_of_atSignOrEnd {s : Text} (hs : atSignOrEnd s) : opening? '.' s = none := by
  cases s with
  | nil => rfl
  | cons c s =>
    have hc : c = '@' := hs c rfl
    simp [opening?, hc]

end Lexeme

end TagText
