import TagText.Editing.Suggestions
import TagText.Proofs.Lexing.Openings

/-!
The beginnings of names that stand at the end of a text: a sign and a part of a name, or a sign, a
name, an opening parenthesis and a part of a key. None of them holds its sign a second time, so a
text ends in each of them in at most one way. One final line feed may follow.
-/

namespace TagText

namespace Text

variable {α : Type} {read? : Text → Option α} {sign : Char}

/-- A reader of which every text starts with a sign and does not hold it again. -/
def SignsOnce (read? : Text → Option α) (sign : Char) : Prop :=
  ∀ s found, read? s = some found → ∃ rest, s = sign :: rest ∧ sign ∉ rest

/-- Of such a reader, the search finds the one suffix that it accepts. -/
theorem search?_eq_some_iff (hsign : SignsOnce read? sign) {s : Text} {offset : Nat} {found : α} :
    s.search? read? = some (offset, found) ↔
      ∃ front tail, s = front ++ tail ∧ front.length = offset ∧ read? tail = some found := by
  induction s generalizing offset with
  | nil =>
    rw [search?, Option.map_eq_some_iff]
    constructor
    · rintro ⟨other, hread, heq⟩
      cases heq
      exact ⟨[], [], rfl, rfl, hread⟩
    · rintro ⟨front, tail, hs, rfl, hread⟩
      obtain ⟨rfl, rfl⟩ := List.append_eq_nil_iff.mp hs.symm
      exact ⟨found, hread, rfl⟩
  | cons c s ih =>
    rw [search?]
    cases hhere : read? (c :: s) with
    | some other =>
      obtain ⟨rest, heq, hnot⟩ := hsign _ _ hhere
      obtain ⟨rfl, rfl⟩ := List.cons.inj heq
      constructor
      · intro hfound
        cases hfound
        exact ⟨[], c :: s, rfl, rfl, hhere⟩
      · rintro ⟨front, tail, hs, rfl, hread⟩
        cases front with
        | nil =>
          obtain rfl : c :: s = tail := hs
          rw [hhere] at hread
          cases hread
          rfl
        | cons d front =>
          obtain ⟨more, rfl, -⟩ := hsign _ _ hread
          obtain ⟨-, rfl⟩ := List.cons.inj hs
          exact absurd (List.mem_append_right front List.mem_cons_self) hnot
    | none =>
      simp only [Option.map_eq_some_iff, Prod.exists, Prod.mk.injEq]
      constructor
      · rintro ⟨place, other, hfound, rfl, rfl⟩
        obtain ⟨front, tail, rfl, rfl, hread⟩ := ih.mp hfound
        exact ⟨c :: front, tail, rfl, rfl, hread⟩
      · rintro ⟨front, tail, hs, rfl, hread⟩
        cases front with
        | nil =>
          obtain rfl : c :: s = tail := hs
          rw [hhere] at hread
          cases hread
        | cons d front =>
          obtain ⟨rfl, rfl⟩ := List.cons.inj hs
          exact ⟨front.length, found, ih.mpr ⟨front, tail, rfl, rfl, hread⟩, rfl, rfl⟩

/-- Where two signs are each the last of their kind, and neither stands behind the other, they are
    one. -/
theorem eq_of_last {x y : Char} {front other rest more : Text} (hx : x ∉ more) (hy : y ∉ rest)
    (heq : front ++ x :: rest = other ++ y :: more) : front = other ∧ x = y ∧ rest = more := by
  rcases List.append_eq_append_iff.mp heq with ⟨cut, rfl, hcut⟩ | ⟨cut, rfl, hcut⟩
  · cases cut with
    | nil =>
      obtain ⟨rfl, rfl⟩ := List.cons.inj hcut
      exact ⟨(List.append_nil front).symm, rfl, rfl⟩
    | cons z cut =>
      obtain ⟨-, rfl⟩ := List.cons.inj hcut
      exact absurd (List.mem_append_right cut List.mem_cons_self) hy
  · cases cut with
    | nil =>
      obtain ⟨rfl, rfl⟩ := List.cons.inj hcut
      exact ⟨List.append_nil other, rfl, rfl⟩
    | cons z cut =>
      obtain ⟨-, rfl⟩ := List.cons.inj hcut
      exact absurd (List.mem_append_right cut List.mem_cons_self) hx

end Text

namespace Suggestions

open Lexeme

variable {sign : Char} {s group query : Text}

theorem atEnd_iff {gap : Text} : atEnd gap = true ↔ gap = [] ∨ gap = ['\n'] := by
  match gap with
  | [] => simp [atEnd]
  | [c] => simp [atEnd]
  | c :: d :: gap => simp [atEnd]

/-- A run of characters that reaches to the end, or to a final line feed. -/
theorem atEnd_dropWhile_iff {p : Char → Bool} (hp : p '\n' = false) {run : Text} :
    atEnd (s.dropWhile p) = true ∧ s.takeWhile p = run ↔
      (∀ c ∈ run, p c = true) ∧ ∃ gap, atEnd gap = true ∧ s = run ++ gap := by
  constructor
  · rintro ⟨hend, rfl⟩
    refine ⟨fun c hc => List.mem_takeWhile_imp hc, _, hend, ?_⟩
    exact List.takeWhile_append_dropWhile.symm
  · rintro ⟨hrun, gap, hend, rfl⟩
    have hgap : ∀ c ∈ gap.head?, p c = false := by
      rcases atEnd_iff.mp hend with rfl | rfl <;> simp [hp]
    obtain ⟨htake, hdrop⟩ := Text.span_append hrun hgap
    rw [htake, hdrop]
    exact ⟨hend, rfl⟩

/-- A text ends in a sign and a part of a name, except perhaps for a final line feed. -/
structure EndsInName (sign : Char) (front query gap s : Text) : Prop where
  word : ∀ c ∈ query, isWord c
  ending : atEnd gap = true
  split : s = front ++ sign :: query ++ gap

/-- A text ends in a reference as far as a part of its key, except perhaps for a final line feed. -/
structure EndsInField (front group query gap s : Text) : Prop where
  name : isName group = true
  key : ∀ c ∈ query, isFieldChar c
  ending : atEnd gap = true
  split : s = front ++ '@' :: group ++ '(' :: query ++ gap

theorem nameQuery?_eq_some_iff :
    nameQuery? sign s = some query ↔ ∃ gap, EndsInName sign [] query gap s := by
  cases s with
  | nil => exact iff_of_false nofun (by rintro ⟨gap, -, -, hs⟩; cases hs)
  | cons d s =>
    have hspan := @atEnd_dropWhile_iff s isWord (by decide) query
    simp only [nameQuery?, Option.ite_none_right_eq_some, Bool.and_eq_true, decide_eq_true_eq,
      Option.some.injEq, and_assoc, hspan]
    constructor
    · rintro ⟨rfl, hquery, gap, hgap, rfl⟩
      exact ⟨gap, hquery, hgap, rfl⟩
    · rintro ⟨gap, hquery, hgap, hs⟩
      obtain ⟨rfl, rfl⟩ := List.cons.inj hs
      exact ⟨rfl, hquery, gap, hgap, rfl⟩

theorem fieldQuery?_eq_some_iff :
    fieldQuery? s = some (group, query) ↔ ∃ gap, EndsInField [] group query gap s := by
  unfold fieldQuery?
  constructor
  · intro hquery
    split at hquery
    · cases hquery
    · rename_i word inner hopening
      simp only [Option.ite_none_right_eq_some, Option.some.injEq, Prod.mk.injEq] at hquery
      obtain ⟨hend, rfl, hrun⟩ := hquery
      obtain ⟨hname, rfl⟩ := opening?_eq_some_iff.mp hopening
      obtain ⟨hkey, gap, hgap, rfl⟩ := (atEnd_dropWhile_iff (by decide)).mp ⟨hend, hrun⟩
      exact ⟨gap, hname, hkey, hgap, by simp⟩
  · rintro ⟨gap, hname, hkey, hgap, rfl⟩
    have hopening : opening? '@' ([] ++ '@' :: group ++ '(' :: query ++ gap) =
        some (group, query ++ gap) := opening?_eq_some_iff.mpr ⟨hname, by simp⟩
    obtain ⟨hend, hrun⟩ := (atEnd_dropWhile_iff (by decide)).mpr ⟨hkey, gap, hgap, rfl⟩
    simp only [hopening, hend, hrun, if_true]

/-- A character that is of no class does not stand in a run of that class. -/
theorem not_mem_run {p : Char → Bool} {run gap : Text} (hrun : ∀ c ∈ run, p c = true)
    (hgap : atEnd gap = true) {other : Char} (hother : p other = false) (hfeed : other ≠ '\n') :
    other ∉ run ++ gap := by
  intro hmem
  rcases List.mem_append.mp hmem with hmem | hmem
  · rw [hrun other hmem] at hother
    cases hother
  · rcases atEnd_iff.mp hgap with rfl | rfl
    · cases hmem
    · exact hfeed (List.mem_singleton.mp hmem)

theorem EndsInName.not_mem {front gap : Text} (hends : EndsInName sign front query gap s)
    {other : Char} (hother : isWord other = false) (hfeed : other ≠ '\n') :
    other ∉ query ++ gap :=
  not_mem_run hends.word hends.ending hother hfeed

theorem EndsInField.not_mem {front gap : Text} (hends : EndsInField front group query gap s)
    {other : Char} (hother : isFieldChar other = false) (hparen : other ≠ '(')
    (hfeed : other ≠ '\n') : other ∉ group ++ '(' :: (query ++ gap) := by
  intro hmem
  rcases List.mem_append.mp hmem with hmem | hmem
  · have hword := isWord_of_mem_name hends.name other hmem
    simp [isFieldChar, hword] at hother
  · rcases List.mem_cons.mp hmem with hsame | hmem
    · exact hparen hsame
    · exact not_mem_run hends.key hends.ending hother hfeed hmem

/-- Behind the sign of a reference there is no name of a modifier. -/
theorem EndsInName.not_dot {front gap : Text} (hends : EndsInName '@' front query gap s)
    {other word ending : Text} : ¬ EndsInName '.' other word ending s := by
  intro hdot
  have heq := hends.split.symm.trans hdot.split
  rw [List.append_assoc, List.append_assoc] at heq
  have hsigns := Text.eq_of_last (hdot.not_mem (by decide) (by decide))
    (hends.not_mem (by decide) (by decide)) heq
  exact absurd hsigns.2.1 (by decide)

/-- Behind the sign of a reference there is no parenthesis. -/
theorem EndsInName.not_endsInField {front gap : Text} (hends : EndsInName '@' front query gap s)
    {other word key ending : Text} : ¬ EndsInField other word key ending s := by
  intro hfield
  have heq := hends.split.symm.trans hfield.split
  simp only [List.append_assoc, List.cons_append] at heq
  have hsign := hfield.not_mem (show isFieldChar '@' = false by decide) (by decide) (by decide)
  obtain ⟨-, -, hsame⟩ := Text.eq_of_last hsign (hends.not_mem (by decide) (by decide)) heq
  have hparen : '(' ∉ query ++ gap := hends.not_mem (by decide) (by decide)
  rw [hsame] at hparen
  exact hparen (List.mem_append_right word List.mem_cons_self)

theorem search?_nameQuery?_eq_some_iff (hsign : isWord sign = false) (hfeed : sign ≠ '\n')
    {offset : Nat} : s.search? (nameQuery? sign) = some (offset, query) ↔
      ∃ front gap, EndsInName sign front query gap s ∧ front.length = offset := by
  have honce : Text.SignsOnce (nameQuery? sign) sign := by
    intro s query hquery
    obtain ⟨gap, hends⟩ := nameQuery?_eq_some_iff.mp hquery
    exact ⟨query ++ gap, hends.split, hends.not_mem hsign hfeed⟩
  rw [Text.search?_eq_some_iff honce]
  simp only [nameQuery?_eq_some_iff]
  constructor
  · rintro ⟨front, tail, rfl, rfl, gap, hword, hgap, rfl⟩
    exact ⟨front, gap, ⟨hword, hgap, by simp⟩, rfl⟩
  · rintro ⟨front, gap, ⟨hword, hgap, rfl⟩, rfl⟩
    exact ⟨front, _, List.append_assoc _ _ _, rfl, gap, hword, hgap, rfl⟩

theorem search?_fieldQuery?_eq_some_iff {offset : Nat} :
    s.search? fieldQuery? = some (offset, group, query) ↔
      ∃ front gap, EndsInField front group query gap s ∧ front.length = offset := by
  have honce : Text.SignsOnce fieldQuery? '@' := by
    rintro s ⟨group, query⟩ hquery
    obtain ⟨gap, hends⟩ := fieldQuery?_eq_some_iff.mp hquery
    exact ⟨group ++ '(' :: (query ++ gap), by simp [hends.split],
      hends.not_mem (by decide) (by decide) (by decide)⟩
  rw [Text.search?_eq_some_iff honce]
  simp only [fieldQuery?_eq_some_iff]
  constructor
  · rintro ⟨front, tail, rfl, rfl, gap, hname, hkey, hgap, rfl⟩
    exact ⟨front, gap, ⟨hname, hkey, hgap, by simp⟩, rfl⟩
  · rintro ⟨front, gap, ⟨hname, hkey, hgap, rfl⟩, rfl⟩
    refine ⟨front, '@' :: group ++ '(' :: query ++ gap, by simp, rfl, gap, hname, hkey, hgap, ?_⟩
    rfl

end Suggestions

end TagText
