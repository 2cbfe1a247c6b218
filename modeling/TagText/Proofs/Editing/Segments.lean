import TagText.Proofs.Editing.Nodes

/-!
Nodes as references with a text in front of each and one behind the last. The texts are empty where
no text stands, so that there is always one more of them than there are references; apart from the
positions of the texts, nodes that a text can have next to each other are determined by the two
lists.
-/

namespace TagText

namespace Node

/-- The references among nodes. -/
def references (nodes : List Node) : List Reference := nodes.filterMap reference?

/-- The texts in front of the references and behind the last one. -/
def texts : List Node → List Text
  | [] => [[]]
  | text s _ :: nodes => (texts nodes).modifyHead (s ++ ·)
  | reference _ :: nodes => [] :: texts nodes

/-- Puts the text of an index and the one behind it together. -/
def joinAt : Nat → List Text → List Text
  | 0, s :: t :: rest => (s ++ t) :: rest
  | i + 1, s :: rest => s :: joinAt i rest
  | _, texts => texts

variable {nodes : List Node}

@[simp]
theorem references_nil : references [] = [] := rfl

@[simp]
theorem references_text (s : Text) (position : Int) (nodes : List Node) :
    references (text s position :: nodes) = references nodes := rfl

@[simp]
theorem references_reference (r : Reference) (nodes : List Node) :
    references (reference r :: nodes) = r :: references nodes := rfl

@[simp]
theorem references_append (before after : List Node) :
    references (before ++ after) = references before ++ references after :=
  List.filterMap_append

@[simp]
theorem references_map_reference (rs : List Reference) : references (rs.map reference) = rs := by
  induction rs with
  | nil => rfl
  | cons r rs ih => exact congrArg (r :: ·) ih

theorem mem_references {r : Reference} : r ∈ references nodes ↔ reference r ∈ nodes := by
  induction nodes with
  | nil => simp
  | cons node nodes ih => cases node <;> simp [ih]

theorem length_texts (nodes : List Node) :
    (texts nodes).length = (references nodes).length + 1 := by
  induction nodes with
  | nil => rfl
  | cons node nodes ih => cases node <;> simp [texts, ih]

theorem texts_ne_nil (nodes : List Node) : texts nodes ≠ [] :=
  List.ne_nil_of_length_eq_add_one (length_texts nodes)

theorem exists_texts_eq_cons (nodes : List Node) : ∃ s rest, texts nodes = s :: rest :=
  List.exists_cons_of_ne_nil (texts_ne_nil nodes)

/-- A reference keeps the texts in front of it and behind it apart. -/
theorem texts_append_reference (before after : List Node) (r : Reference) :
    texts (before ++ reference r :: after) = texts before ++ texts after := by
  induction before with
  | nil => rfl
  | cons node before ih =>
    cases node with
    | reference other => simp [texts, ih]
    | text s position =>
      obtain ⟨t, rest, ht⟩ := exists_texts_eq_cons before
      rw [List.cons_append, texts, texts, ih, ht]
      rfl

theorem joinAt_modifyHead (s : Text) (i : Nat) (texts : List Text) :
    joinAt i (texts.modifyHead (s ++ ·)) = (joinAt i texts).modifyHead (s ++ ·) := by
  match i, texts with
  | 0, [] | 0, [_] | _ + 1, [] | _ + 1, _ :: _ => rfl
  | 0, t :: u :: rest => simp [joinAt]

/-- Without a reference between them, the text at the end and the one at the start become one. -/
theorem texts_append (before after : List Node) :
    texts (before ++ after) = joinAt (references before).length (texts before ++ texts after) := by
  induction before with
  | nil =>
    obtain ⟨t, rest, ht⟩ := exists_texts_eq_cons after
    simp [texts, ht, joinAt]
  | cons node before ih =>
    cases node with
    | reference r => simp [texts, ih, joinAt]
    | text s position =>
      obtain ⟨t, rest, ht⟩ := exists_texts_eq_cons before
      rw [List.cons_append, texts, texts, ih, ← joinAt_modifyHead, ht]
      rfl

theorem flatten_joinAt (i : Nat) (texts : List Text) :
    (joinAt i texts).flatten = texts.flatten := by
  fun_induction joinAt i texts with
  | case1 s t rest => simp
  | case2 i s rest ih => simp [ih]
  | case3 => rfl

theorem flatten_texts_append (before after : List Node) :
    (texts (before ++ after)).flatten = (texts before).flatten ++ (texts after).flatten := by
  rw [texts_append, flatten_joinAt, List.flatten_append]

/-- References put no characters between texts. -/
theorem flatten_texts_map_reference (rs : List Reference) :
    (texts (rs.map reference)).flatten = [] := by
  induction rs with
  | nil => rfl
  | cons r rs ih => simpa [texts] using ih

/-- Joining texts that stand together changes neither list. -/
theorem segments_joinTexts (nodes : List Node) :
    texts (joinTexts nodes) = texts nodes ∧ references (joinTexts nodes) = references nodes := by
  induction nodes with
  | nil => exact ⟨rfl, rfl⟩
  | cons node nodes ih =>
    obtain ⟨htexts, hreferences⟩ := ih
    cases node with
    | reference r => simp [joinTexts, texts, htexts, hreferences]
    | text s position =>
      rcases joinTexts_cases s position nodes with ⟨-, hjoin⟩ | ⟨more, place, rest, hjoined, hjoin⟩
      · simp [hjoin, texts, htexts, hreferences]
      · rw [hjoined] at htexts hreferences
        simp [hjoin, texts, ← htexts, ← hreferences, Function.comp_def]

theorem joinTexts_of_normal (hnormal : Normal nodes) : joinTexts nodes = nodes := by
  induction nodes with
  | nil => rfl
  | cons node nodes ih =>
    have hrest := ih (normal_tail hnormal)
    cases node with
    | reference r => rw [joinTexts, hrest]
    | text s position =>
      have hstarts : startsText (joinTexts nodes) = false := by
        rw [hrest]
        exact hnormal.2.1
      rw [joinTexts_text hstarts, hrest]

/-- A reference can be put anywhere, and taken out in front of a reference or at the end. -/
theorem normal_append_reference_iff {before after : List Node} {r : Reference} :
    Normal (before ++ reference r :: after) ↔ Normal before ∧ Normal after := by
  induction before with
  | nil => exact ⟨fun hnormal => ⟨trivial, hnormal⟩, fun hnormal => hnormal.2⟩
  | cons node before ih =>
    cases node with
    | reference other => exact ih
    | text s position =>
      have hstarts : startsText (before ++ reference r :: after) = startsText before := by
        rcases before with _ | ⟨_ | _, _⟩ <;> rfl
      simp only [List.cons_append, Normal, hstarts, ih, and_assoc]

theorem texts_of_startsText_eq_false (hstarts : startsText nodes = false) :
    ∃ rest, texts nodes = [] :: rest := by
  match nodes with
  | [] | reference _ :: _ => exact ⟨_, rfl⟩

theorem Normal.texts_text {s : Text} {position : Int}
    (hnormal : Normal (text s position :: nodes)) :
    ∃ rest, texts nodes = [] :: rest ∧ texts (text s position :: nodes) = s :: rest := by
  obtain ⟨rest, hrest⟩ := texts_of_startsText_eq_false hnormal.2.1
  exact ⟨rest, hrest, by simp [texts, hrest]⟩

/-- The two lists determine the nodes, up to the positions of the texts. -/
theorem related_of_segments {again : List Node} (hnormal : Normal nodes) (hagain : Normal again)
    (htexts : texts nodes = texts again) (hreferences : references nodes = references again) :
    List.Forall₂ (Related Eq) nodes again := by
  induction nodes generalizing again with
  | nil =>
    match again with
    | [] => exact .nil
    | reference r :: again => cases hreferences
    | text s position :: again =>
      obtain ⟨rest, -, hs⟩ := hagain.texts_text
      exact absurd (List.cons.inj (htexts.trans hs)).1.symm hagain.1
  | cons node nodes ih =>
    match node, again with
    | reference r, [] => cases hreferences
    | reference r, reference other :: again =>
      obtain ⟨rfl, hrest⟩ := List.cons.inj hreferences
      exact .cons (.reference rfl) (ih hnormal hagain (List.cons.inj htexts).2 hrest)
    | reference r, text s position :: again =>
      obtain ⟨rest, -, hs⟩ := hagain.texts_text
      exact absurd (List.cons.inj (htexts.trans hs)).1.symm hagain.1
    | text s position, [] | text s position, reference _ :: _ =>
      obtain ⟨rest, -, hs⟩ := hnormal.texts_text
      exact absurd (List.cons.inj (hs.symm.trans htexts)).1 hnormal.1
    | text s position, text t place :: again =>
      obtain ⟨rest, hnodes, hs⟩ := hnormal.texts_text
      obtain ⟨more, hmore, ht⟩ := hagain.texts_text
      obtain ⟨rfl, rfl⟩ := List.cons.inj (hs.symm.trans (htexts.trans ht))
      exact .cons .text (ih hnormal.2.2 hagain.2.2 (hnodes.trans hmore.symm) hreferences)

/-- The node of each reference, with what stands in front of it and behind it. -/
theorem exists_of_lt {i : Nat} (hlt : i < (references nodes).length) :
    ∃ before r after, nodes = before ++ reference r :: after ∧ (references before).length = i := by
  induction nodes generalizing i with
  | nil => cases hlt
  | cons node nodes ih =>
    cases node with
    | text s position =>
      obtain ⟨before, r, after, rfl, hbefore⟩ := ih hlt
      exact ⟨text s position :: before, r, after, rfl, hbefore⟩
    | reference r =>
      cases i with
      | zero => exact ⟨[], r, nodes, rfl, rfl⟩
      | succ i =>
        obtain ⟨before, other, after, rfl, hbefore⟩ := ih (Nat.lt_of_succ_lt_succ hlt)
        exact ⟨reference r :: before, other, after, rfl, congrArg Nat.succ hbefore⟩

/-- A splice changes the reference of its index and nothing besides. -/
theorem splice?_append (change : Reference → List Node) (before after : List Node)
    (r : Reference) : splice? change (before ++ reference r :: after) (references before).length =
      some (before ++ change r ++ after) := by
  induction before with
  | nil => rfl
  | cons node before ih => cases node <;> simp [splice?, ih]

theorem splice?_eq_none (change : Reference → List Node) {index : Nat}
    (hle : (references nodes).length ≤ index) : splice? change nodes index = none := by
  fun_induction splice? change nodes index with
  | case1 => rfl
  | case2 s position nodes index ih => simp [ih hle]
  | case3 r nodes => cases hle
  | case4 r nodes index ih => simp [ih (Nat.le_of_succ_le_succ hle)]

end Node

theorem Document.references_eq (document : Document) :
    document.references = Node.references document.nodes := rfl

end TagText
