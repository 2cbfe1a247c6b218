import TagText.Proofs.Catalog.Lookup

/-!
Catalogs that hold all that another one holds. What was found under a key in the smaller catalog is
found there in the larger one; only under keys that stood for nothing can something new be found.
Extending a catalog gives such a larger one.
-/

namespace TagText.Catalog

/-- A catalog in which every group and every modifier of another one is found under its key. -/
structure Includes (wide c : Catalog) : Prop where
  group? : ∀ {key : Text} {g : Group}, c.group? key = some g → wide.group? key = some g
  modifier? : ∀ {key : Text} {m : Modifier}, c.modifier? key = some m →
    wide.modifier? key = some m

/-- A catalog holds what was registered, in this order. -/
theorem lists_of_ofLists {groups : List Group} {modifiers : List Modifier} {c : Catalog}
    (hregistered : ofLists groups modifiers = .ok c) :
    c.groups = groups ∧ c.modifiers = modifiers := by
  unfold ofLists at hregistered
  split at hregistered
  · cases hregistered
  · split at hregistered
    · cases hregistered
    · cases hregistered
      exact ⟨rfl, rfl⟩

variable {c wide : Catalog} {groups : List Group} {modifiers : List Modifier}

theorem includes_of_extend (hextend : c.extend groups modifiers = .ok wide) :
    wide.Includes c := by
  obtain ⟨hgroups, hmodifiers⟩ := lists_of_ofLists hextend
  constructor
  · intro key g hg
    obtain ⟨hmem, hkey⟩ := group?_eq_some_iff.mp hg
    refine group?_eq_some_iff.mpr ⟨?_, hkey⟩
    rw [hgroups]
    exact List.mem_append_left groups hmem
  · intro key m hm
    obtain ⟨hmem, hkey⟩ := modifier?_eq_some_iff.mp hm
    refine modifier?_eq_some_iff.mpr ⟨?_, hkey⟩
    rw [hmodifiers]
    exact List.mem_append_left modifiers hmem

namespace Includes

/-- The methods of a group that is known stay its methods. -/
theorem method?_eq (hwide : wide.Includes c) {group : Text} {g : Group}
    (hg : c.group? group = some g) (key : Text) :
    wide.method? group key = c.method? group key := by
  rw [method?, method?, hg, hwide.group? hg]

end Includes

end TagText.Catalog
