import TagText.Proofs.Stored.Agreement
import TagText.Proofs.Stored.Stripping

/-!
Wrapping an expression. What the passes leave of it holds no open marker, so that the one in front
is the only one in the wrapped value; but the passes can join a close marker that was not there
before, and then the wrapped value ends its expression early.
-/

namespace TagText

open Text (Stripped Passes)

theorem at_not_mem_openMarker : '@' ∉ "tags()".toList := by decide

/-- What the passes leave of an expression is all that any order of taking open markers out can
    leave. -/
theorem stripped_openMarker_iff {x bare : Text} :
    Stripped openMarker x bare ↔ bare = Text.eraseAll openMarker x :=
  Text.stripped_iff at_not_mem_openMarker

theorem wrap_of_isActive {x : Text} (hactive : isActive x = true) : wrap x = x := by
  rw [wrap, if_pos hactive]

/-- A literal expression is wrapped without its open markers, unless nothing is left of it. -/
theorem wrap_of_stripped {x bare : Text} (hliteral : isActive x = false)
    (hbare : Stripped openMarker x bare) :
    wrap x = if bare.isEmpty then [] else openMarker ++ bare ++ closeMarker := by
  rw [wrap, if_neg (by simp [hliteral]), stripped_openMarker_iff.mp hbare]

theorem wrap_of_free {x : Text} (hopen : ¬ openMarker <:+: x) (hclose : ¬ closeMarker <:+: x) :
    wrap x = if x.isEmpty then [] else openMarker ++ x ++ closeMarker :=
  wrap_of_stripped (not_isActive_iff.mpr (Region.ofValue?_eq_none hclose)) (.of_free hopen)

theorem isActive_enclosed (s : Text) : isActive (openMarker ++ s ++ closeMarker) = true := by
  have hactive := Region.isActive_value { expression := s, trailing := [] }
  rwa [Region.value, List.append_nil] at hactive

theorem unwrap_enclosed {s : Text} (hs : ¬ closeMarker <:+: s) :
    unwrap (openMarker ++ s ++ closeMarker) = s := by
  have hunwrap := Region.unwrap_value { expression := s, trailing := [] } hs
  rwa [Region.value, List.append_nil] at hunwrap

/-- Between the markers, an expression ends at its own first close marker if it has one. -/
theorem unwrap_enclosed_of_cut {s front rest : Text}
    (hcut : Text.cut? closeMarker s = some (front, rest)) :
    unwrap (openMarker ++ s ++ closeMarker) = front := by
  have hfree : ¬ closeMarker <:+: front := Text.not_infix_of_cut? hcut
  have hvalue : openMarker ++ s ++ closeMarker =
      Region.value { expression := front, trailing := rest ++ closeMarker } := by
    simp [Text.cut?_eq hcut, Region.value]
  rw [hvalue]
  exact Region.unwrap_value _ hfree

/-- The open marker of a wrapped expression is the only one. None lies across the joint with the
    close marker, because both start with the same sign and hold it nowhere else. -/
theorem eq_nil_of_enclosed {bare front rest : Text} (hbare : ¬ openMarker <:+: bare)
    (hvalue : openMarker ++ bare ++ closeMarker = front ++ openMarker ++ rest) : front = [] := by
  have htext : [] ++ openMarker ++ (bare ++ closeMarker) = front ++ openMarker ++ rest := by
    simpa using hvalue
  rcases Text.eq_or_between at_not_mem_openMarker htext (Nat.zero_le _) with
    ⟨hfront, -⟩ | ⟨between, -, hinner⟩
  · exact hfront
  · have hmark : openMarker <:+: bare ++ closeMarker := ⟨between, rest, hinner.symm⟩
    rcases Text.infix_of_head at_not_mem_openMarker hmark with hbody | hclose
    · exact absurd hbody hbare
    · exact absurd hclose (by decide)

variable {x bare : Text}

theorem wrap_eq_nil_iff : wrap x = [] ↔ isActive x = false ∧ Stripped openMarker x [] := by
  cases hactive : isActive x with
  | true =>
    rw [wrap_of_isActive hactive]
    refine iff_of_false ?_ (by simp)
    rintro rfl
    exact Bool.false_ne_true hactive
  | false =>
    rw [wrap_of_stripped hactive (stripped_openMarker_iff.mpr rfl), stripped_openMarker_iff]
    split
    · rename_i hempty
      exact iff_of_true rfl ⟨rfl, (List.isEmpty_iff.mp hempty).symm⟩
    · rename_i hne
      have henclosed : openMarker ++ Text.eraseAll openMarker x ++ closeMarker ≠ [] :=
        List.append_ne_nil_of_right_ne_nil _ (List.cons_ne_nil _ _)
      refine iff_of_false henclosed fun hnothing => hne ?_
      rw [← hnothing.2, List.isEmpty_nil]

/-- What a literal expression is wrapped to, if it is not empty, stands between the markers and
    holds no other open marker. -/
theorem exists_enclosed_of_wrap (hliteral : isActive x = false) (hne : wrap x ≠ []) :
    ∃ bare, Stripped openMarker x bare ∧ wrap x = openMarker ++ bare ++ closeMarker := by
  have hbare : Stripped openMarker x (Text.eraseAll openMarker x) := stripped_openMarker_iff.mpr rfl
  have hwrap := wrap_of_stripped hliteral hbare
  refine ⟨_, hbare, ?_⟩
  split at hwrap
  · exact absurd hwrap hne
  · exact hwrap

theorem wrap_eq_nil_or_isActive (x : Text) : wrap x = [] ∨ isActive (wrap x) = true := by
  by_cases hempty : wrap x = []
  · exact Or.inl hempty
  · refine Or.inr ?_
    cases hactive : isActive x with
    | true => rwa [wrap_of_isActive hactive]
    | false =>
      obtain ⟨bare, -, hwrap⟩ := exists_enclosed_of_wrap hactive hempty
      rw [hwrap]
      exact isActive_enclosed bare

theorem wrap_wrap (x : Text) : wrap (wrap x) = wrap x := by
  rcases wrap_eq_nil_or_isActive x with hempty | hactive
  · rw [hempty]
    exact wrap_eq_nil_iff.mpr ⟨by decide, .of_free (by decide)⟩
  · exact wrap_of_isActive hactive

/-- Wrapping any text takes only as many passes over it as it has room for open markers. The result
    is empty or dynamic, and stays the same when it is wrapped again. A literal text of which
    something is left is wrapped between the two markers, and the open marker occurs in the result
    nowhere but in front, overlapping occurrences included. The result is empty exactly for a
    literal text of which nothing is left. -/
theorem wrap_shape (x : Text) :
    (∃ count bare, Passes openMarker x count bare ∧
      count * openMarker.length + bare.length ≤ x.length ∧
      (isActive x = false →
        wrap x = if bare.isEmpty then [] else openMarker ++ bare ++ closeMarker)) ∧
    (wrap x = [] ∨ isActive (wrap x) = true) ∧
    wrap (wrap x) = wrap x ∧
    (isActive x = false → wrap x ≠ [] → openMarker <+: wrap x ∧ closeMarker <:+ wrap x ∧
      ∀ front rest, wrap x = front ++ openMarker ++ rest → front = []) ∧
    (wrap x = [] ↔ isActive x = false ∧ Stripped openMarker x []) := by
  refine ⟨?_, wrap_eq_nil_or_isActive x, wrap_wrap x, fun hliteral hne => ?_, wrap_eq_nil_iff⟩
  · obtain ⟨count, hpasses⟩ := Text.exists_passes '@' "tags()".toList x
    exact ⟨count, _, hpasses, hpasses.mul_length_le,
      fun hliteral => wrap_of_stripped hliteral hpasses.stripped⟩
  · obtain ⟨bare, hbare, hwrap⟩ := exists_enclosed_of_wrap hliteral hne
    rw [hwrap]
    exact ⟨⟨bare ++ closeMarker, by simp⟩, List.suffix_append _ _,
      fun _ _ hvalue => eq_nil_of_enclosed hbare.free hvalue⟩

/-- An open marker inside another one, of which the first pass leaves one that the second takes
    out. -/
theorem wrap_shape_nested :
    let x := "@tag@tags()s()@post(title)".toList
    isActive x = false ∧ wrap x = "@tags()@post(title)@endtags()".toList ∧
      ∀ front rest, wrap x = front ++ openMarker ++ rest → front = [] := by
  intro x
  have hliteral : isActive x = false := by decide
  have hwrap : wrap x = "@tags()@post(title)@endtags()".toList := by decide +kernel
  obtain ⟨-, -, -, honce, -⟩ := wrap_shape x
  have hne : wrap x ≠ [] := by
    rw [hwrap]
    decide
  exact ⟨hliteral, hwrap, (honce hliteral hne).2.2⟩

/-- An expression in which no close marker has been joined comes back without its open markers. -/
theorem unwrap_wrap_of_free (hliteral : isActive x = false) (hbare : Stripped openMarker x bare)
    (hfree : ¬ closeMarker <:+: bare) : unwrap (wrap x) = bare := by
  rw [wrap_of_stripped hliteral hbare]
  split
  · rename_i hempty
    exact (List.isEmpty_iff.mp hempty).symm
  · exact unwrap_enclosed hfree

/-- A close marker that has been joined is where the expression ends that comes back. Wrapping that
    gives a shorter value. -/
theorem unwrap_wrap_of_cut {front rest : Text} (hliteral : isActive x = false)
    (hbare : Stripped openMarker x bare) (hcut : Text.cut? closeMarker bare = some (front, rest)) :
    unwrap (wrap x) = front ∧ (wrap front).length < (wrap x).length := by
  have hbody := Text.cut?_eq hcut
  have hlonger : front.length < bare.length := by
    rw [hbody, closeMarker_eq]
    simp only [List.length_append, List.length_cons]
    omega
  have hwrap : wrap x = openMarker ++ bare ++ closeMarker := by
    rw [wrap_of_stripped hliteral hbare, if_neg]
    rw [List.isEmpty_iff]
    rintro rfl
    exact Nat.not_lt_zero _ hlonger
  have hopen : ¬ openMarker <:+: front := by
    refine mt (fun hmark => ?_) hbare.free
    rw [hbody, List.append_assoc]
    exact List.infix_append_of_infix_left hmark
  refine ⟨by rw [hwrap, unwrap_enclosed_of_cut hcut], ?_⟩
  rw [hwrap, wrap_of_free hopen (Text.not_infix_of_cut? hcut)]
  split <;> simp only [List.length_append, List.length_nil] <;> omega

/-- An expression without a close marker, wrapped and unwrapped, comes back without its open markers
    exactly when taking them out has joined no close marker; and exactly then the wrapped value is
    the same again when it is unwrapped and wrapped. What is left of the expression does not depend
    on the order in which its open markers are taken out. -/
theorem wrap_unwrap_wrap_iff (hx : ¬ closeMarker <:+: x) :
    ∃ bare, (∀ other, Stripped openMarker x other ↔ other = bare) ∧
      (unwrap (wrap x) = bare ↔ ¬ closeMarker <:+: bare) ∧
      (wrap (unwrap (wrap x)) = wrap x ↔ ¬ closeMarker <:+: bare) := by
  refine ⟨Text.eraseAll openMarker x, fun other => stripped_openMarker_iff, ?_⟩
  have hliteral : isActive x = false := not_isActive_iff.mpr (Region.ofValue?_eq_none hx)
  generalize hbare : Text.eraseAll openMarker x = bare
  have hstripped : Stripped openMarker x bare := stripped_openMarker_iff.mpr hbare.symm
  cases hcut : Text.cut? closeMarker bare with
  | none =>
    have hfree : ¬ closeMarker <:+: bare := Text.cut?_eq_none_iff.mp hcut
    have hunwrap := unwrap_wrap_of_free hliteral hstripped hfree
    refine ⟨iff_of_true hunwrap hfree, iff_of_true ?_ hfree⟩
    rw [hunwrap, wrap_of_free hstripped.free hfree, wrap_of_stripped hliteral hstripped]
  | some found =>
    obtain ⟨front, rest⟩ := found
    have hjoined : closeMarker <:+: bare := ⟨front, rest, (Text.cut?_eq hcut).symm⟩
    obtain ⟨hunwrap, hshorter⟩ := unwrap_wrap_of_cut hliteral hstripped hcut
    rw [hunwrap]
    refine ⟨iff_of_false ?_ (not_not_intro hjoined), iff_of_false ?_ (not_not_intro hjoined)⟩
    · rintro rfl
      exact Text.not_infix_of_cut? hcut hjoined
    · exact fun heq => Nat.ne_of_lt hshorter (congrArg List.length heq)

/-- Taking an open marker out joins a close marker, and what stands behind it is lost. -/
theorem wrap_unwrap_wrap_ne_of_joined :
    let x := "a@end@tags()tags()b".toList
    let bare := "a@endtags()b".toList
    ¬ closeMarker <:+: x ∧ Stripped openMarker x bare ∧ unwrap (wrap x) ≠ bare ∧
      wrap (unwrap (wrap x)) ≠ wrap x := by
  intro x bare
  have hx : ¬ closeMarker <:+: x := by decide
  have hstripped : Stripped openMarker x bare :=
    ⟨.single (.intro "a@end".toList "tags()b".toList), by decide⟩
  obtain ⟨found, hfound, hunwrap, hwrap⟩ := wrap_unwrap_wrap_iff hx
  obtain rfl : bare = found := (hfound bare).mp hstripped
  have hjoined : closeMarker <:+: bare := by decide
  exact ⟨hx, hstripped, fun heq => hunwrap.mp heq hjoined, fun heq => hwrap.mp heq hjoined⟩

end TagText
