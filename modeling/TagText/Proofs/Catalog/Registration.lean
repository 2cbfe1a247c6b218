import TagText.Proofs.Catalog.Inclusion

/-!
Which groups and modifiers can be registered together. Their keys have to differ; the first key that
comes again is the reason for a refusal. What is registered stands in the catalog in the same order,
and looking a key up finds the one item that has it. Extending a catalog twice is extending it once
by what both extensions hold.
-/

namespace TagText

/-- The first key of a list that repeats an earlier one. -/
def FirstRepeated (keys : List Text) (key : Text) : Prop :=
  ∃ before after, keys = before ++ key :: after ∧ before.Nodup ∧ key ∈ before

/-- The check stops at the first key that is among those seen or repeats one of those in front. -/
theorem repeatedAfter_eq_some_iff {seen keys : List Text} {key : Text} :
    repeatedAfter seen keys = some key ↔ ∃ before after, keys = before ++ key :: after ∧
      before.Nodup ∧ (∀ other ∈ before, other ∉ seen) ∧ (key ∈ seen ∨ key ∈ before) := by
  induction keys generalizing seen with
  | nil => simp [repeatedAfter]
  | cons first keys ih =>
    rw [repeatedAfter]
    split
    · rename_i hseen
      rw [Option.some.injEq]
      constructor
      · rintro rfl
        exact ⟨[], keys, rfl, .nil, by simp, Or.inl hseen⟩
      · rintro ⟨before, after, hkeys, -, hfresh, -⟩
        cases before with
        | nil => exact (List.cons.inj hkeys).1
        | cons other before =>
          obtain ⟨rfl, -⟩ := List.cons.inj hkeys
          exact absurd hseen (hfresh _ List.mem_cons_self)
    · rename_i hseen
      rw [ih]
      constructor
      · rintro ⟨before, after, rfl, hnodup, hfresh, hkey⟩
        refine ⟨first :: before, after, rfl, ?_, ?_, ?_⟩
        · exact List.nodup_cons.mpr ⟨fun hmem => hfresh _ hmem List.mem_cons_self, hnodup⟩
        · refine List.forall_mem_cons.mpr ⟨hseen, fun other hother hmem => ?_⟩
          exact hfresh other hother (List.mem_cons_of_mem first hmem)
        · rw [List.mem_cons] at hkey ⊢
          tauto
      · rintro ⟨before, after, hkeys, hnodup, hfresh, hkey⟩
        cases before with
        | nil =>
          obtain ⟨rfl, -⟩ := List.cons.inj hkeys
          exact absurd (hkey.resolve_right List.not_mem_nil) hseen
        | cons other before =>
          obtain ⟨rfl, rfl⟩ := List.cons.inj hkeys
          obtain ⟨hnot, hnodup⟩ := List.nodup_cons.mp hnodup
          refine ⟨before, after, rfl, hnodup, fun other hother => ?_, ?_⟩
          · rw [List.mem_cons, not_or]
            exact ⟨fun heq => hnot (heq ▸ hother), hfresh other (List.mem_cons_of_mem _ hother)⟩
          · rw [List.mem_cons] at hkey ⊢
            tauto

theorem repeated?_eq_some_iff {keys : List Text} {key : Text} :
    repeated? keys = some key ↔ FirstRepeated keys key := by
  simp [repeated?, repeatedAfter_eq_some_iff, FirstRepeated]

/-- Among items with different keys, what is found under a key are all the items that have it. -/
theorem toList_find?_key {α : Type} {key : α → Text} {items : List α}
    (hnodup : (items.map key).Nodup) (word : Text) :
    (items.find? fun item => key item == word).toList =
      items.filter fun item => key item == word := by
  induction items with
  | nil => rfl
  | cons item items ih =>
    rw [List.map_cons, List.nodup_cons] at hnodup
    obtain ⟨hfresh, hnodup⟩ := hnodup
    by_cases hitem : key item = word
    · have hothers : (items.filter fun other => key other == word) = [] := by
        refine List.filter_eq_nil_iff.mpr fun other hother hsame => hfresh ?_
        rw [hitem, ← eq_of_beq hsame]
        exact List.mem_map_of_mem hother
      simp [hitem, hothers]
    · simp [hitem, ih hnodup]

namespace Catalog

variable {c wide : Catalog} {groups more : List Group} {modifiers others : List Modifier}
  {e : CatalogError}

/-- Why groups and modifiers are not registered together: a key of the groups comes again or, where
    none does, one of the modifiers. -/
inductive Rejects (groups : List Group) (modifiers : List Modifier) : CatalogError → Prop
  | group {key : Text} : FirstRepeated (groups.map Group.key) key →
    Rejects groups modifiers (.repeatedGroup key)
  | modifier {key : Text} : (groups.map Group.key).Nodup →
    FirstRepeated (modifiers.map Modifier.key) key →
    Rejects groups modifiers (.repeatedModifier key)

theorem ofLists_eq_ok_iff :
    ofLists groups modifiers = .ok c ↔ c.groups = groups ∧ c.modifiers = modifiers := by
  refine ⟨lists_of_ofLists, ?_⟩
  rintro ⟨rfl, rfl⟩
  have hgroups := repeated?_eq_none_iff.mpr c.groups_nodup
  have hmodifiers := repeated?_eq_none_iff.mpr c.modifiers_nodup
  unfold ofLists
  split
  · rename_i hkey
    rw [hgroups] at hkey
    cases hkey
  · split
    · rename_i hkey
      rw [hmodifiers] at hkey
      cases hkey
    · rfl

theorem ofLists_eq_error_iff :
    ofLists groups modifiers = .error e ↔ Rejects groups modifiers e := by
  have hrepeated : ofLists groups modifiers = .error e ↔
      ((repeated? (groups.map Group.key)).map CatalogError.repeatedGroup).or
        ((repeated? (modifiers.map Modifier.key)).map CatalogError.repeatedModifier) = some e := by
    unfold ofLists
    split
    · simp [*]
    · split <;> simp [*]
  simp only [hrepeated, Option.or_eq_some_iff, Option.map_eq_some_iff, Option.map_eq_none_iff,
    repeated?_eq_some_iff, repeated?_eq_none_iff]
  constructor
  · rintro (⟨key, hkey, rfl⟩ | ⟨hnodup, key, hkey, rfl⟩)
    · exact .group hkey
    · exact .modifier hnodup hkey
  · rintro (hkey | ⟨hnodup, hkey⟩)
    · exact Or.inl ⟨_, hkey, rfl⟩
    · exact Or.inr ⟨hnodup, _, hkey, rfl⟩

theorem exists_ofLists_iff : (∃ c, ofLists groups modifiers = .ok c) ↔
    (groups.map Group.key).Nodup ∧ (modifiers.map Modifier.key).Nodup := by
  constructor
  · rintro ⟨c, hc⟩
    obtain ⟨rfl, rfl⟩ := ofLists_eq_ok_iff.mp hc
    exact ⟨c.groups_nodup, c.modifiers_nodup⟩
  · rintro ⟨hgroups, hmodifiers⟩
    exact ⟨⟨groups, modifiers, hgroups, hmodifiers⟩, ofLists_eq_ok_iff.mpr ⟨rfl, rfl⟩⟩

theorem extend_eq_ok_iff : c.extend groups modifiers = .ok wide ↔
    wide.groups = c.groups ++ groups ∧ wide.modifiers = c.modifiers ++ modifiers :=
  ofLists_eq_ok_iff

/-- Extending twice is extending once by what both extensions hold. -/
theorem extend_extend_iff :
    (∃ middle, c.extend groups modifiers = .ok middle ∧ middle.extend more others = .ok wide) ↔
      c.extend (groups ++ more) (modifiers ++ others) = .ok wide := by
  simp only [extend_eq_ok_iff]
  constructor
  · rintro ⟨middle, ⟨hgroups, hmodifiers⟩, hmore, hothers⟩
    rw [hmore, hothers, hgroups, hmodifiers, List.append_assoc, List.append_assoc]
    exact ⟨rfl, rfl⟩
  · rintro ⟨hgroups, hmodifiers⟩
    rw [← List.append_assoc] at hgroups hmodifiers
    have hgroupKeys := wide.groups_nodup
    have hmodifierKeys := wide.modifiers_nodup
    rw [hgroups, List.map_append] at hgroupKeys
    rw [hmodifiers, List.map_append] at hmodifierKeys
    exact ⟨⟨_, _, hgroupKeys.of_append_left, hmodifierKeys.of_append_left⟩, ⟨rfl, rfl⟩, hgroups,
      hmodifiers⟩

/-- Registering and extending: Groups and modifiers can be registered together exactly when no two
    groups have the same key and no two modifiers do; the reason for a refusal is the first key of a
    group that comes again or, where there is none, the first one of a modifier. The catalog lists
    what was registered, in its order, and what it finds under a key are all the items that have it.
    Extending a catalog is registering its items followed by others. It can be extended twice
    exactly when it can be extended once by what both extensions hold, and both give the same
    catalog. -/
theorem ofLists_and_extend :
    (∀ groups modifiers,
      ((∃ c, ofLists groups modifiers = .ok c) ↔
        (groups.map Group.key).Nodup ∧ (modifiers.map Modifier.key).Nodup) ∧
      (∀ e, ofLists groups modifiers = .error e ↔ Rejects groups modifiers e) ∧
      ∀ c, ofLists groups modifiers = .ok c →
        c.groups = groups ∧ c.modifiers = modifiers ∧
        ∀ key, (c.group? key).toList = groups.filter (·.key == key) ∧
          (c.modifier? key).toList = modifiers.filter (·.key == key)) ∧
    ∀ (c : Catalog) groups modifiers,
      c.extend groups modifiers = ofLists (c.groups ++ groups) (c.modifiers ++ modifiers) ∧
      ∀ more others wide,
        (∃ middle, c.extend groups modifiers = .ok middle ∧ middle.extend more others = .ok wide) ↔
          c.extend (groups ++ more) (modifiers ++ others) = .ok wide := by
  constructor
  · refine fun groups modifiers => ⟨exists_ofLists_iff, fun e => ofLists_eq_error_iff, ?_⟩
    intro c hregistered
    obtain ⟨rfl, rfl⟩ := ofLists_eq_ok_iff.mp hregistered
    refine ⟨rfl, rfl, fun key => ⟨?_, ?_⟩⟩
    · exact toList_find?_key c.groups_nodup key
    · exact toList_find?_key c.modifiers_nodup key
  · exact fun c groups modifiers => ⟨rfl, fun more others wide => extend_extend_iff⟩

/-- Two extensions, one of groups and one of modifiers; and a third in which keys of both kinds come
    again, of which that of the group is reported. -/
theorem ofLists_and_extend_of_modifiers :
    let post : Group := { key := "post".toList }
    let site : Group := { key := "site".toList }
    let upper : Modifier := { key := "upper".toList }
    let lower : Modifier := { key := "lower".toList }
    let c : Catalog := { groups := [post], modifiers := [upper] }
    let wide : Catalog := { groups := [post, site], modifiers := [upper, lower] }
    (∃ middle, c.extend [site] [] = .ok middle ∧ middle.extend [] [lower] = .ok wide) ∧
      ofLists [post, site] [upper, lower] = .ok wide ∧
      (wide.group? site.key).toList = [site] ∧ (wide.modifier? site.key).toList = [] ∧
      wide.extend [{ key := "user".toList }, site, post] [upper] =
        .error (.repeatedGroup site.key) := by
  intro post site upper lower c wide
  obtain ⟨hregister, hextend⟩ := ofLists_and_extend
  obtain ⟨-, hmore⟩ := hextend c [site] []
  obtain ⟨hregistered, -⟩ := hextend wide [{ key := "user".toList }, site, post] [upper]
  have hwide : ofLists [post, site] [upper, lower] = .ok wide := rfl
  obtain ⟨-, -, hfinds⟩ := (hregister _ _).2.2 wide hwide
  refine ⟨(hmore [] [lower] wide).mpr hwide, hwide, (hfinds site.key).1, (hfinds site.key).2, ?_⟩
  rw [hregistered]
  refine ((hregister _ _).2.1 _).mpr (.group ?_)
  exact ⟨["post".toList, "site".toList, "user".toList], ["post".toList], rfl, by decide, by decide⟩

end Catalog

end TagText
