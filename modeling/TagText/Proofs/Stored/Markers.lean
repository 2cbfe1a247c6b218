import Mathlib.Data.List.Basic
import TagText.Argument.Written
import TagText.Region

/-!
Where the close marker can lie. It starts with a sign that it does not hold again and ends with a
parenthesis that it does not hold before, so it does not lie across most borders.
-/

namespace TagText

namespace Text

theorem isPrefixOf?_eq_none_iff {mark s : Text} :
    mark.isPrefixOf? s = none ↔ ¬ mark <+: s := by
  rw [← Option.not_isSome_iff_eq_none, Option.isSome_iff_exists, not_iff_not]
  constructor
  · rintro ⟨after, hafter⟩
    exact ⟨after, List.append_eq_of_isPrefixOf?_eq_some hafter⟩
  · rintro ⟨after, hafter⟩
    exact ⟨after, List.isPrefixOf?_eq_some_iff_append_eq.mpr hafter⟩

theorem cut?_eq {mark s before after : Text} (hcut : cut? mark s = some (before, after)) :
    s = before ++ mark ++ after := by
  fun_induction cut? mark s generalizing before with
  | case1 =>
    obtain ⟨rest, hrest, heq⟩ := Option.map_eq_some_iff.mp hcut
    cases heq
    simpa using (List.append_eq_of_isPrefixOf?_eq_some hrest).symm
  | case2 c s rest hrest =>
    obtain ⟨rfl, rfl⟩ := by simpa using hcut
    simpa using (List.append_eq_of_isPrefixOf?_eq_some hrest).symm
  | case3 c s hnone ih =>
    obtain ⟨front, hfront, rfl⟩ := by simpa using hcut
    simp [ih hfront]

/-- A mark is cut at its first occurrence. -/
theorem length_le_of_cut? {mark s before after other rest : Text}
    (hcut : cut? mark s = some (before, after)) (hs : s = other ++ mark ++ rest) :
    before.length ≤ other.length := by
  fun_induction cut? mark s generalizing before other with
  | case1 =>
    obtain ⟨_, _, heq⟩ := Option.map_eq_some_iff.mp hcut
    cases heq
    exact Nat.zero_le _
  | case2 c s found hfound =>
    obtain ⟨rfl, rfl⟩ := by simpa using hcut
    exact Nat.zero_le _
  | case3 c s hnone ih =>
    obtain ⟨front, hfront, rfl⟩ := by simpa using hcut
    cases other with
    | nil => exact absurd ⟨rest, hs.symm⟩ (isPrefixOf?_eq_none_iff.mp hnone)
    | cons d other =>
      rw [List.cons_append, List.cons_append, List.cons.injEq] at hs
      exact Nat.succ_le_succ (ih hfront hs.2)

theorem cut?_eq_none_iff {mark s : Text} : cut? mark s = none ↔ ¬ mark <:+: s := by
  induction s with
  | nil =>
    rw [cut?, Option.map_eq_none_iff, isPrefixOf?_eq_none_iff, List.prefix_nil, List.infix_nil]
  | cons c s ih =>
    rw [cut?, List.infix_cons_iff, not_or, ← ih, ← isPrefixOf?_eq_none_iff]
    cases mark.isPrefixOf? (c :: s) <;> simp

theorem holds_iff {mark s : Text} : holds s mark = true ↔ mark <:+: s := by
  rw [holds, ← Bool.not_eq_false, Option.isSome_eq_false_iff, Option.isNone_iff_eq_none,
    cut?_eq_none_iff, not_not]

theorem prefix_append_cons {mark x y : Text} {c : Char} (hmark : mark <+: x ++ c :: y) :
    mark <+: x ∨ x ++ [c] <+: mark := by
  have hfront : x ++ [c] <+: x ++ c :: y := ⟨y, by simp⟩
  rcases List.prefix_or_prefix_of_prefix hmark hfront with hle | hle
  · rcases List.prefix_concat_iff.mp hle with heq | hle
    · exact Or.inr (heq ▸ List.prefix_rfl)
    · exact Or.inl hle
  · exact Or.inr hle

/-- A mark does not lie across a character that it does not hold. -/
theorem infix_of_not_mem {mark x y : Text} {c : Char} (hc : c ∉ mark)
    (hmark : mark <:+: x ++ c :: y) :
    mark <:+: x ∨ mark <:+: y := by
  induction x with
  | nil =>
    rw [List.nil_append, List.infix_cons_iff] at hmark
    rcases hmark with hfront | hrest
    · cases mark with
      | nil => exact Or.inl List.nil_infix
      | cons d mark =>
        obtain ⟨rfl, -⟩ := List.cons_prefix_cons.mp hfront
        exact absurd List.mem_cons_self hc
    · exact Or.inr hrest
  | cons d x ih =>
    rw [List.cons_append, List.infix_cons_iff] at hmark
    rcases hmark with hfront | hrest
    · rw [← List.cons_append] at hfront
      rcases prefix_append_cons hfront with hle | hle
      · exact Or.inl hle.isInfix
      · exact absurd (hle.subset (by simp)) hc
    · rcases ih hrest with hinner | hinner
      · exact Or.inl (List.infix_cons hinner)
      · exact Or.inr hinner

/-- A mark starts at its first character. -/
theorem infix_of_head_not_mem {mark x y : Text} {d : Char} (hd : d ∉ x)
    (hmark : d :: mark <:+: x ++ y) : d :: mark <:+: y := by
  induction x with
  | nil => exact hmark
  | cons c x ih =>
    rw [List.mem_cons, not_or] at hd
    rw [List.cons_append, List.infix_cons_iff] at hmark
    rcases hmark with hfront | hrest
    · exact absurd (List.cons_prefix_cons.mp hfront).1 hd.1
    · exact ih hd.2 hrest

/-- A mark that does not hold its first character again does not lie across one. -/
theorem infix_of_head {mark x y : Text} {d : Char} (hd : d ∉ mark)
    (hmark : d :: mark <:+: x ++ d :: y) : d :: mark <:+: x ∨ d :: mark <:+: d :: y := by
  induction x with
  | nil => exact Or.inr hmark
  | cons c x ih =>
    rw [List.cons_append, List.infix_cons_iff, ← List.cons_append] at hmark
    rcases hmark with hfront | hrest
    · rcases prefix_append_cons hfront with hle | hle
      · exact Or.inl hle.isInfix
      · rw [List.cons_append, List.cons_prefix_cons] at hle
        exact absurd (hle.2.subset (by simp)) hd
    · exact (ih hrest).imp_left List.infix_cons

/-- A mark that does not hold its last character before does not lie across one. -/
theorem infix_of_last {mark x y : Text} {d : Char} (hne : mark ≠ []) (hd : d ∉ mark)
    (hmark : mark ++ [d] <:+: x ++ d :: y) : mark ++ [d] <:+: x ++ [d] ∨ mark ++ [d] <:+: y := by
  induction x with
  | nil =>
    rw [List.nil_append, List.infix_cons_iff] at hmark
    rcases hmark with hfront | hrest
    · obtain ⟨c, mark, rfl⟩ := List.exists_cons_of_ne_nil hne
      exact absurd ((List.cons_prefix_cons.mp hfront).1 ▸ List.mem_cons_self) hd
    · exact Or.inr hrest
  | cons c x ih =>
    rw [List.cons_append, List.infix_cons_iff, ← List.cons_append] at hmark
    rcases hmark with hfront | hrest
    · refine Or.inl ?_
      rcases prefix_append_cons hfront with hle | hle
      · exact (hle.trans (List.prefix_append _ _)).isInfix
      · rcases List.prefix_concat_iff.mp hle with heq | hle
        · exact ⟨[], [], by simpa using heq.symm⟩
        · exact absurd (hle.subset (by simp)) hd
    · exact (ih hrest).imp_left List.infix_cons

/-- Two occurrences of a mark that does not hold its first character again are one, or do not
    overlap. -/
theorem eq_or_between {mark front rest other after : Text} {d : Char} (hd : d ∉ mark)
    (htext : front ++ d :: mark ++ rest = other ++ d :: mark ++ after)
    (hle : front.length ≤ other.length) :
    other = front ∧ after = rest ∨
      ∃ between, other = front ++ d :: mark ++ between ∧ rest = between ++ d :: mark ++ after := by
  have hfront : front <+: other ++ d :: mark ++ after := ⟨d :: mark ++ rest, by simp [← htext]⟩
  have hother : other <+: other ++ d :: mark ++ after := ⟨d :: mark ++ after, by simp⟩
  obtain ⟨x, rfl⟩ := List.prefix_of_prefix_length_le hfront hother hle
  have hinner : d :: mark ++ rest = x ++ d :: (mark ++ after) := by simpa using htext
  have hmark : d :: mark <+: x ++ d :: (mark ++ after) := ⟨rest, hinner⟩
  rcases prefix_append_cons hmark with ⟨between, rfl⟩ | hinside
  · refine Or.inr ⟨between, by simp, ?_⟩
    simpa using hinner
  · cases x with
    | nil =>
      refine Or.inl ⟨by simp, ?_⟩
      simpa using hinner.symm
    | cons c x =>
      rw [List.cons_append, List.cons_prefix_cons] at hinside
      exact absurd (hinside.2.subset (by simp)) hd

theorem cut?_append {mark before after : Text} {d : Char} (hd : d ∉ mark)
    (hbefore : ¬ d :: mark <:+: before) :
    cut? (d :: mark) (before ++ d :: mark ++ after) = some (before, after) := by
  cases hcut : cut? (d :: mark) (before ++ d :: mark ++ after) with
  | none => exact absurd ⟨before, after, rfl⟩ (cut?_eq_none_iff.mp hcut)
  | some found =>
    obtain ⟨front, rest⟩ := found
    have hle := length_le_of_cut? hcut rfl
    rcases eq_or_between hd (cut?_eq hcut).symm hle with ⟨rfl, rfl⟩ | ⟨between, rfl, -⟩
    · rfl
    · exact absurd ⟨front, between, rfl⟩ hbefore

end Text

namespace Arg

/-- Characters that take no backslash. -/
def Unescaped (mark : Text) : Prop := ∀ c ∈ mark, escapeChar c = [c]

theorem escapeChar_eq (c : Char) : escapeChar c = ['\\', c] ∨ escapeChar c = [c] := by
  rw [escapeChar]
  split
  · exact Or.inl rfl
  · exact Or.inr rfl

theorem flatMap_escapeChar {mark : Text} (hmark : Unescaped mark) :
    mark.flatMap escapeChar = mark := by
  induction mark with
  | nil => rfl
  | cons c mark ih =>
    obtain ⟨hc, hmark⟩ := List.forall_mem_cons.mp hmark
    rw [List.flatMap_cons, hc, ih hmark, List.singleton_append]

theorem prefix_of_escaped {mark s : Text} (hmark : Unescaped mark)
    (hfront : mark <+: s.flatMap escapeChar) : mark <+: s := by
  induction mark generalizing s with
  | nil => exact List.nil_prefix
  | cons d mark ih =>
    obtain ⟨hd, hmark⟩ := List.forall_mem_cons.mp hmark
    cases s with
    | nil => exact hfront
    | cons c s =>
      rw [List.flatMap_cons] at hfront
      rcases escapeChar_eq c with hc | hc <;> rw [hc, List.cons_append] at hfront
      · obtain ⟨rfl, -⟩ := List.cons_prefix_cons.mp hfront
        simp [escapeChar] at hd
      · obtain ⟨rfl, hrest⟩ := List.cons_prefix_cons.mp hfront
        exact List.cons_prefix_cons.mpr ⟨rfl, ih hmark hrest⟩

/-- Backslashes neither make nor break a mark that takes none. -/
theorem infix_escaped_iff {mark s : Text} (hmark : Unescaped mark) :
    mark <:+: s.flatMap escapeChar ↔ mark <:+: s := by
  constructor
  · intro hinner
    induction s with
    | nil => exact hinner
    | cons c s ih =>
      have hfront : ¬ mark <+: c :: s → ¬ mark <+: (c :: s).flatMap escapeChar :=
        mt (prefix_of_escaped hmark)
      by_cases hprefix : mark <+: c :: s
      · exact hprefix.isInfix
      · have hprefix := hfront hprefix
        refine List.infix_cons (ih ?_)
        rw [List.flatMap_cons] at hinner hprefix
        rcases escapeChar_eq c with hc | hc <;> rw [hc] at hinner hprefix
        · rcases List.infix_cons_iff.mp hinner with hinner | hinner
          · exact absurd hinner hprefix
          · rcases List.infix_cons_iff.mp hinner with hinner | hinner
            · cases mark with
              | nil => exact List.nil_infix
              | cons d mark =>
                obtain ⟨rfl, -⟩ := List.cons_prefix_cons.mp hinner
                have hd := hmark d List.mem_cons_self
                rw [hc] at hd
                cases hd
            · exact hinner
        · rcases List.infix_cons_iff.mp hinner with hinner | hinner
          · exact absurd hinner hprefix
          · exact hinner
  · rintro ⟨before, after, rfl⟩
    rw [List.flatMap_append, List.flatMap_append, flatMap_escapeChar hmark]
    exact ⟨_, _, rfl⟩

end Arg

end TagText
