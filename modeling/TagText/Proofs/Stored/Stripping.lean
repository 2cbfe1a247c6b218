import Mathlib.Logic.Relation
import TagText.Proofs.Stored.Markers

/-!
Taking a mark out of a text until none is left. Each occurrence that is taken out can join two parts
of another one, so a text may need many passes. A mark that does not hold its first character again
cannot overlap itself, and then the order in which the occurrences go makes no difference.
-/

namespace TagText

namespace Text

open Relation (ReflGen ReflTransGen)

/-- Takes one occurrence of a mark out. -/
inductive Drops (mark : Text) : Text → Text → Prop
  | intro (front rest : Text) : Drops mark (front ++ mark ++ rest) (front ++ rest)

/-- What is left of a text when one occurrence of a mark after the other has been taken out, in any
    order, until there is none. -/
structure Stripped (mark s bare : Text) : Prop where
  drops : ReflTransGen (Drops mark) s bare
  free : ¬ mark <:+: bare

variable {mark s t bare : Text} {d : Char}

theorem Drops.holds_mark (hdrops : Drops mark s t) : mark <:+: s := by
  obtain ⟨front, rest⟩ := hdrops
  exact ⟨front, rest, rfl⟩

theorem Drops.append_left (hdrops : Drops mark s t) (front : Text) :
    Drops mark (front ++ s) (front ++ t) := by
  obtain ⟨before, rest⟩ := hdrops
  simpa using @Drops.intro mark (front ++ before) rest

/-- Two occurrences can be taken out in either order. -/
theorem Drops.diamond (hd : d ∉ mark) {x y : Text} (hx : Drops (d :: mark) s x)
    (hy : Drops (d :: mark) s y) :
    ∃ z, ReflGen (Drops (d :: mark)) x z ∧ ReflGen (Drops (d :: mark)) y z := by
  generalize hs : s = text at hy
  obtain ⟨front, rest⟩ := hx
  obtain ⟨other, after⟩ := hy
  rcases Nat.le_total front.length other.length with hle | hle
  · rcases eq_or_between hd hs hle with ⟨rfl, rfl⟩ | ⟨between, rfl, rfl⟩
    · exact ⟨_, .refl, .refl⟩
    · refine ⟨front ++ between ++ after, .single ?_, .single ?_⟩
      · simpa using @Drops.intro (d :: mark) (front ++ between) after
      · simpa using @Drops.intro (d :: mark) front (between ++ after)
  · rcases eq_or_between hd hs.symm hle with ⟨rfl, rfl⟩ | ⟨between, rfl, rfl⟩
    · exact ⟨_, .refl, .refl⟩
    · refine ⟨other ++ between ++ rest, .single ?_, .single ?_⟩
      · simpa using @Drops.intro (d :: mark) other (between ++ rest)
      · simpa using @Drops.intro (d :: mark) (other ++ between) rest

theorem Stripped.of_free (hfree : ¬ mark <:+: s) : Stripped mark s s := ⟨.refl, hfree⟩

/-- What is left does not depend on the order in which the occurrences are taken out. -/
theorem Stripped.unique (hd : d ∉ mark) {x y : Text} (hx : Stripped (d :: mark) s x)
    (hy : Stripped (d :: mark) s y) : x = y := by
  have hlast : ∀ {z}, ¬ d :: mark <:+: z → ∀ w, ¬ Drops (d :: mark) z w :=
    fun hfree _ hdrops => hfree hdrops.holds_mark
  have hjoin : Relation.Join (ReflTransGen (Drops (d :: mark))) x y := by
    refine Relation.church_rosser (fun _ _ _ hfirst hsecond => ?_) hx.drops hy.drops
    obtain ⟨z, hz, hother⟩ := hfirst.diamond hd hsecond
    exact ⟨z, hz, hother.to_reflTransGen⟩
  obtain ⟨z, hxz, hyz⟩ := hjoin
  have hzx := (Relation.reflTransGen_iff_eq (hlast hx.free)).mp hxz
  have hzy := (Relation.reflTransGen_iff_eq (hlast hy.free)).mp hyz
  exact hzx.symm.trans hzy

theorem isPrefixOf_iff_exists {c : Char} :
    (d :: mark).isPrefixOf (c :: s) = true ↔ ∃ rest, c :: s = d :: mark ++ rest ∧
      s.drop ((d :: mark).length - 1) = rest := by
  rw [List.isPrefixOf_iff_prefix]
  constructor
  · rintro ⟨rest, hrest⟩
    obtain ⟨rfl, rfl⟩ := List.cons.inj hrest
    exact ⟨rest, rfl, by simp⟩
  · rintro ⟨rest, hrest, -⟩
    exact ⟨rest, hrest.symm⟩

/-- A pass takes occurrences out, one after the other. -/
theorem drops_erase (d : Char) (mark s : Text) :
    ReflTransGen (Drops (d :: mark)) s (erase (d :: mark) s) := by
  fun_induction erase (d :: mark) s with
  | case1 => exact .refl
  | case2 c s hprefix ih =>
    obtain ⟨rest, heq, hrest⟩ := isPrefixOf_iff_exists.mp hprefix
    rw [hrest] at ih ⊢
    rw [heq]
    exact .head (.intro [] rest) ih
  | case3 c s hprefix ih => exact ih.lift _ fun _ _ hdrops => hdrops.append_left [c]

theorem length_erase_le (d : Char) (mark s : Text) :
    (erase (d :: mark) s).length ≤ s.length := by
  fun_induction erase (d :: mark) s with
  | case1 => exact Nat.le_refl _
  | case2 c s hprefix ih =>
    have hdrop := (List.drop_sublist ((d :: mark).length - 1) s).length_le
    exact Nat.le_trans ih (Nat.le_succ_of_le hdrop)
  | case3 c s hprefix ih => exact Nat.succ_le_succ ih

/-- A pass over a text with an occurrence takes at least one out. -/
theorem length_erase_add_le (hmark : d :: mark <:+: s) :
    (erase (d :: mark) s).length + (d :: mark).length ≤ s.length := by
  fun_induction erase (d :: mark) s with
  | case1 => exact absurd hmark (by simp)
  | case2 c s hprefix ih =>
    obtain ⟨rest, heq, hrest⟩ := isPrefixOf_iff_exists.mp hprefix
    have hle := length_erase_le d mark rest
    rw [hrest, heq, List.length_append]
    omega
  | case3 c s hprefix ih =>
    rw [List.isPrefixOf_iff_prefix] at hprefix
    have hinner := (List.infix_cons_iff.mp hmark).resolve_left hprefix
    have hle := ih hinner
    simp only [List.length_cons] at hle ⊢
    omega

theorem erase_of_free (hfree : ¬ d :: mark <:+: s) : erase (d :: mark) s = s := by
  have hlast : ∀ t, ¬ Drops (d :: mark) s t := fun _ hdrops => hfree hdrops.holds_mark
  exact (Relation.reflTransGen_iff_eq hlast).mp (drops_erase d mark s)

/-- The passes over a text: as long as the mark occurs, one more pass is made. -/
inductive Passes (mark : Text) : Text → Nat → Text → Prop
  | done {s : Text} : ¬ mark <:+: s → Passes mark s 0 s
  | pass {s bare : Text} {count : Nat} : mark <:+: s → Passes mark (erase mark s) count bare →
    Passes mark s (count + 1) bare

/-- There are no more passes than the text has room for occurrences of the mark. -/
theorem Passes.mul_length_le {count : Nat} (hpasses : Passes (d :: mark) s count bare) :
    count * (d :: mark).length + bare.length ≤ s.length := by
  induction hpasses with
  | done => omega
  | pass hmark _ ih =>
    have hle := length_erase_add_le hmark
    rw [Nat.succ_mul]
    omega

theorem Passes.stripped {count : Nat} (hpasses : Passes (d :: mark) s count bare) :
    Stripped (d :: mark) s bare := by
  induction hpasses with
  | done hfree => exact .of_free hfree
  | pass _ _ ih => exact ⟨(drops_erase d mark _).trans ih.drops, ih.free⟩

/-- The passes over a text come to an end. -/
theorem exists_passes (d : Char) (mark s : Text) :
    ∃ count, Passes (d :: mark) s count (eraseAll (d :: mark) s) := by
  fun_induction eraseAll (d :: mark) s with
  | case1 s once hless ih =>
    obtain ⟨count, hpasses⟩ := ih
    refine ⟨count + 1, .pass ?_ hpasses⟩
    by_contra hfree
    exact absurd hless (by simp [once, erase_of_free hfree])
  | case2 s once hless =>
    refine ⟨0, .done fun hmark => hless ?_⟩
    have hle : once.length + (d :: mark).length ≤ s.length := length_erase_add_le hmark
    rw [List.length_cons] at hle
    omega

theorem stripped_eraseAll (d : Char) (mark s : Text) :
    Stripped (d :: mark) s (eraseAll (d :: mark) s) := by
  obtain ⟨count, hpasses⟩ := exists_passes d mark s
  exact hpasses.stripped

theorem stripped_iff (hd : d ∉ mark) :
    Stripped (d :: mark) s bare ↔ bare = eraseAll (d :: mark) s := by
  refine ⟨fun hbare => hbare.unique hd (stripped_eraseAll d mark s), ?_⟩
  rintro rfl
  exact stripped_eraseAll d mark s

end Text

end TagText
