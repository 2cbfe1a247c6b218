import Mathlib.Data.List.Chain
import TagText.Proofs.Reading.Expressions

/-!
Nothing of an expression is lost, doubled or moved: its nodes start where the one before them ends,
texts as they stand, and what a reference takes up is that reference by itself.
-/

namespace TagText

open Lexeme

/-- The position of a node. -/
def Node.position : Node → Int
  | text _ position => position
  | reference r => r.position

/-- Where the nodes of a document start, and where a text of some length ends. -/
def Document.boundaries (d : Document) (length : Nat) : List Int :=
  d.nodes.map Node.position ++ [(length : Int)]

/-- What takes up the characters of an expression from one offset up to another: a text as it
    stands, or a reference that is all there is to read in them, with each of its modifiers at a
    point. -/
def Node.Fills (c : Catalog) (s : Text) (start stop : Nat) : Node → Prop
  | text content _ => content = s.slice start stop
  | reference r =>
    Reading.ofExpression c (s.slice start stop) =
        .ok { document := { nodes := [reference (r.moved (-start))] }, brokenCount := 0 } ∧
      ∀ call ∈ r.calls, ∃ place : Nat, call.position = place ∧ start ≤ place ∧ place < stop ∧
        s[place]? = some '.'

/-- The calls of a chain stand at its points. -/
theorem Grammar.Calls.exists_of_mem {offset : Nat} {chain : Text} {calls : List RawCall}
    (hcalls : Grammar.Calls offset chain calls) {call : RawCall} (hcall : call ∈ calls) :
    ∃ front rest, chain = front ++ ('.' :: call.key ++ '(' :: rest) ∧
      call.position = offset + front.length := by
  induction hcalls with
  | nil => cases hcall
  | @call offset key inner rest args calls _ _ _ ih =>
    rcases List.mem_cons.mp hcall with rfl | hmem
    · exact ⟨[], inner ++ rest, rfl, rfl⟩
    · obtain ⟨front, more, rfl, hposition⟩ := ih hmem
      refine ⟨'.' :: key ++ '(' :: (inner ++ front), more, by simp, ?_⟩
      simp only [hposition, List.length_append, List.length_cons]
      omega

theorem RawReference.resolve_position {c : Catalog} {raw : RawReference} {r : Reference}
    (hr : raw.resolve c = .ok r) : r.position = raw.position := by
  obtain ⟨calls, -, heq⟩ := bind_eq_ok_iff.mp hr
  cases heq
  rfl

theorem RawReference.exists_of_mem_resolveCalls {c : Catalog} {group field : Text} {first : Bool}
    {raws : List RawCall} {calls : List Call}
    (hcalls : resolveCalls c group field first raws = .ok calls) {call : Call}
    (hcall : call ∈ calls) : ∃ raw ∈ raws, call.key = raw.key ∧ call.position = raw.position := by
  induction raws generalizing first calls with
  | nil => cases hcalls; cases hcall
  | cons raw raws ih =>
    obtain ⟨args, -, hcalls⟩ := bind_eq_ok_iff.mp hcalls
    obtain ⟨rest, hrest, heq⟩ := bind_eq_ok_iff.mp hcalls
    cases heq
    rcases List.mem_cons.mp hcall with rfl | hmem
    · exact ⟨raw, List.mem_cons_self, rfl, rfl⟩
    · obtain ⟨found, hfound, hsame⟩ := ih hrest hmem
      exact ⟨found, List.mem_cons_of_mem _ hfound, hsame⟩

/-- The modifiers of a reference stand inside it, each at a point. -/
theorem Grammar.Reference.exists_of_mem_calls {c : Catalog} {offset : Nat} {s : Text}
    {raw : RawReference} {r : TagText.Reference} (hderived : Grammar.Reference offset s raw)
    (hr : raw.resolve c = .ok r) {call : Call} (hcall : call ∈ r.calls) :
    ∃ front rest, s = front ++ ('.' :: call.key ++ '(' :: rest) ∧
      call.position = (offset + front.length : Nat) := by
  obtain ⟨calls, hcalls, heq⟩ := bind_eq_ok_iff.mp hr
  cases heq
  obtain ⟨found, hfound, hkey, hposition⟩ := RawReference.exists_of_mem_resolveCalls hcalls hcall
  cases hderived with
  | @intro group field chain calls _ _ hchain =>
    obtain ⟨front, rest, rfl, hplace⟩ := hchain.exists_of_mem hfound
    refine ⟨'@' :: group ++ '(' :: (field ++ ')' :: front), rest, by simp [hkey], ?_⟩
    simp only [hposition, hplace, List.length_append, List.length_cons]
    omega

theorem Reference.moved_moved (r : Reference) (k m : Int) :
    (r.moved k).moved m = r.moved (k + m) := by
  simp [moved, Call.moved, Function.comp_def, Int.add_assoc]

theorem Reference.moved_zero (r : Reference) : r.moved 0 = r := by
  have hcall : Call.moved 0 = id := by
    funext call
    simp [Call.moved]
  simp [moved, hcall]

/-- A derivation does not depend on the offset. -/
theorem Grammar.Reference.exists_moved {offset : Nat} {s : Text} {raw : RawReference}
    (hderived : Grammar.Reference offset s raw) :
    ∃ start, Grammar.Reference 0 s start ∧ start.moved offset = raw := by
  obtain ⟨pieces, hsegment, rfl, -, -⟩ := hderived.reads
  have hmoved := Outline.moved_ofSegment hsegment 0 offset
  rw [Nat.zero_add, (Part.ofSegment_eq_reference_iff hsegment).mpr hderived] at hmoved
  cases hstart : Part.ofSegment 0 pieces with
  | reference start =>
    rw [hstart] at hmoved
    refine ⟨start, (Part.ofSegment_eq_reference_iff hsegment).mp hstart, ?_⟩
    simpa [Part.moved] using hmoved
  | _ => rw [hstart] at hmoved; cases hmoved

/-- A reference by itself is read as it is read in its place. -/
theorem Grammar.Reference.ofExpression_eq {c : Catalog} {offset : Nat} {s : Text}
    {raw : RawReference} {r : TagText.Reference} (hderived : Grammar.Reference offset s raw)
    (hr : raw.resolve c = .ok r) :
    Reading.ofExpression c s =
      .ok { document := { nodes := [.reference (r.moved (-offset))] }, brokenCount := 0 } := by
  obtain ⟨start, hstart, rfl⟩ := hderived.exists_moved
  rw [RawReference.resolve_moved] at hr
  cases hfound : start.resolve c with
  | error e => rw [hfound] at hr; cases hr
  | ok found =>
    rw [hfound] at hr
    cases hr
    rw [Reference.moved_moved, Int.add_right_neg, Reference.moved_zero]
    refine Reading.ofExpression_eq_ok_iff_cut.mpr ⟨rfl, ?_⟩
    have hnone : opening? '.' [] = none := rfl
    have hcut := Cut.reference hstart hfound hnone .nil
    rwa [List.append_nil] at hcut

theorem Document.head?_boundaries {c : Catalog} {offset broken : Nat} {s : Text}
    {nodes : List Node} (hcut : Cut c offset s nodes broken) (trailing : Text) :
    (boundaries { nodes, trailing } (offset + s.length)).head? = some (offset : Int) := by
  cases hcut with
  | nil => simp [boundaries]
  | text => simp [boundaries, Node.position]
  | reference hderived hr =>
    have hposition := RawReference.resolve_position hr
    cases hderived
    simpa [boundaries, Node.position] using hposition

/-- The nodes of a cut start one behind the other. -/
theorem Document.isChain_boundaries {c : Catalog} {offset broken : Nat} {s : Text}
    {nodes : List Node} (hcut : Cut c offset s nodes broken) (trailing : Text) :
    (boundaries { nodes, trailing } (offset + s.length)).IsChain (· < ·) := by
  have hstep : ∀ {node : Node} {nodes : List Node} {offset broken : Nat} {s rest : Text},
      node.position = offset → s ≠ [] → Cut c (offset + s.length) rest nodes broken →
      (boundaries { nodes, trailing } (offset + s.length + rest.length)).IsChain (· < ·) →
      (boundaries { nodes := node :: nodes, trailing } (offset + (s ++ rest).length)).IsChain
        (· < ·) := by
    intro node nodes offset broken s rest hnode hs hrest hchain
    have hpositive := List.length_pos_of_ne_nil hs
    have hhead := head?_boundaries hrest trailing
    rw [List.length_append, ← Nat.add_assoc]
    refine List.isChain_cons.mpr ⟨fun next hnext => ?_, hchain⟩
    obtain rfl := Option.some.inj (hnext.symm.trans hhead)
    rw [hnode]
    omega
  induction hcut with
  | nil => simp [boundaries]
  | text hloose _ _ hcut ih => exact hstep rfl hloose.1 hcut ih
  | reference hderived hr _ hcut ih =>
    have hposition := RawReference.resolve_position hr
    cases hderived
    exact hstep hposition (by simp) hcut ih

/-- Each node of a cut fills the characters up to the next one. -/
theorem Node.fills_of_cut {c : Catalog} {offset broken : Nat} {s : Text} {nodes : List Node}
    (hcut : Cut c offset s nodes broken) (trailing : Text) {before : Text}
    (hbefore : before.length = offset) {i : Nat} {node : Node} (hnode : nodes[i]? = some node) :
    ∃ start stop : Nat,
      (Document.boundaries { nodes, trailing } (offset + s.length))[i]? = some (start : Int) ∧
      (Document.boundaries { nodes, trailing } (offset + s.length))[i + 1]? = some (stop : Int) ∧
      node.Fills c (before ++ s) start stop := by
  induction hcut generalizing before i with
  | nil => simp at hnode
  | @text offset broken s rest nodes hloose _ _ hcut ih =>
    rw [List.length_append, ← Nat.add_assoc]
    cases i with
    | zero =>
      obtain rfl := by simpa using hnode
      refine ⟨offset, offset + s.length, rfl, ?_, ?_⟩
      · rw [← Document.head?_boundaries hcut trailing, List.head?_eq_getElem?]
        rfl
      · rw [Fills, ← List.append_assoc, ← hbefore, Outline.slice_between]
    | succ i =>
      have hlength : (before ++ s).length = offset + s.length := by simp [hbefore]
      have hrest := ih hlength hnode
      rwa [List.append_assoc] at hrest
  | @reference offset broken s rest nodes raw r hderived hr _ hcut ih =>
    rw [List.length_append, ← Nat.add_assoc]
    cases i with
    | zero =>
      obtain rfl := by simpa using hnode
      have hposition := RawReference.resolve_position hr
      refine ⟨offset, offset + s.length, ?_, ?_, ?_, ?_⟩
      · have hstart : raw.position = offset := by cases hderived; rfl
        rw [← hstart, ← hposition]
        rfl
      · rw [← Document.head?_boundaries hcut trailing, List.head?_eq_getElem?]
        rfl
      · rw [← List.append_assoc, ← hbefore, Outline.slice_between, hbefore]
        exact hderived.ofExpression_eq hr
      · intro call hcall
        obtain ⟨front, more, rfl, hposition⟩ := hderived.exists_of_mem_calls hr hcall
        refine ⟨offset + front.length, hposition, Nat.le_add_right _ _, ?_, ?_⟩
        · simp
        · rw [← hbefore, ← List.length_append]
          simp
    | succ i =>
      have hlength : (before ++ s).length = offset + s.length := by simp [hbefore]
      have hrest := ih hlength hnode
      rwa [List.append_assoc] at hrest

/-- The nodes of an expression are read off its characters from the first to the last, in order and
    without gaps. -/
theorem Reading.fills_of_ofExpression {c : Catalog} {s : Text} {reading : Reading}
    (hread : ofExpression c s = .ok reading) :
    (reading.document.boundaries s.length).head? = some 0 ∧
      (reading.document.boundaries s.length).Pairwise (· < ·) ∧
      ∀ i node, reading.document.nodes[i]? = some node → ∃ start stop : Nat,
        (reading.document.boundaries s.length)[i]? = some (start : Int) ∧
        (reading.document.boundaries s.length)[i + 1]? = some (stop : Int) ∧
        node.Fills c s start stop := by
  obtain ⟨-, hcut⟩ := ofExpression_eq_ok_iff_cut.mp hread
  have hhead := Document.head?_boundaries hcut reading.document.trailing
  have hchain := Document.isChain_boundaries hcut reading.document.trailing
  rw [Nat.zero_add] at hhead hchain
  refine ⟨hhead, hchain.pairwise, fun i node hnode => ?_⟩
  have hempty : ([] : Text).length = 0 := rfl
  have hfills := Node.fills_of_cut hcut reading.document.trailing hempty hnode
  rwa [Nat.zero_add] at hfills

/-- A reference between texts takes up its own characters, however its arguments are spaced. -/
theorem Reading.fills_of_ofExpression_spaced :
    let call : Call := { key := "c".toList, args := [.text "x".toList], position := 8 }
    let r : Reference :=
      { group := "a".toList, field := "b".toList, calls := [call], position := 3 }
    let d : Document := { nodes := [.text "Hi ".toList 0, .reference r, .text "!".toList 17] }
    ofExpression {} "Hi @a(b).c( 'x' )!".toList = .ok { document := d, brokenCount := 0 } ∧
      d.boundaries 18 = [0, 3, 17, 18] ∧
      Node.Fills {} "Hi @a(b).c( 'x' )!".toList 3 17 (.reference r) := by
  intro call r d
  have hread : ofExpression {} "Hi @a(b).c( 'x' )!".toList =
      .ok { document := d, brokenCount := 0 } := by decide +kernel
  obtain ⟨-, -, hfills⟩ := fills_of_ofExpression hread
  obtain ⟨start, stop, hstart, hstop, hnode⟩ := hfills 1 (.reference r) rfl
  have hbounds : d.boundaries 18 = [0, 3, 17, 18] := by decide
  have hplace : ∀ i : Nat, (d.boundaries 18)[i]? = [(0 : Int), 3, 17, 18][i]? := by
    simp [hbounds]
  have hstart : (start : Int) = 3 := Option.some.inj (hstart.symm.trans (hplace 1))
  have hstop : (stop : Int) = 17 := Option.some.inj (hstop.symm.trans (hplace 2))
  obtain rfl : start = 3 := by omega
  obtain rfl : stop = 17 := by omega
  exact ⟨hread, hbounds, hnode⟩

/-- A word is what a text goes on with at a position. -/
def Text.StandsAt (s : Text) (position : Int) (word : Text) : Prop :=
  ∃ place : Nat, position = place ∧ word <+: s.drop place

/-- What a call starts with. -/
def Call.opening (call : Call) : Text := '.' :: call.key ++ ['(']

/-- What a reference starts with. -/
def Reference.opening (r : Reference) : Text := '@' :: r.group ++ ['(']

/-- A reference and its calls start in a text where their positions say. -/
structure Reference.StandsIn (s : Text) (r : Reference) : Prop where
  own : s.StandsAt r.position r.opening
  calls : ∀ call ∈ r.calls, s.StandsAt call.position call.opening

theorem Text.standsAt_append (front word rest : Text) :
    (front ++ (word ++ rest)).StandsAt front.length word :=
  ⟨front.length, rfl, rest, by simp⟩

/-- What is read of a reference starts where the reference does. -/
theorem Grammar.Reference.standsIn {c : Catalog} {offset : Nat} {s : Text} {raw : RawReference}
    {r : TagText.Reference} (hderived : Grammar.Reference offset s raw)
    (hr : raw.resolve c = .ok r) {before : Text} (hbefore : before.length = offset) (after : Text) :
    r.StandsIn (before ++ s ++ after) := by
  subst hbefore
  refine ⟨?_, fun call hcall => ?_⟩
  · obtain ⟨calls, -, heq⟩ := bind_eq_ok_iff.mp hr
    cases heq
    cases hderived with
    | @intro group field chain =>
      have hstands := Text.standsAt_append before ('@' :: group ++ ['('])
        (field ++ ')' :: chain ++ after)
      simpa [TagText.Reference.opening] using hstands
  · obtain ⟨front, rest, rfl, hposition⟩ := hderived.exists_of_mem_calls hr hcall
    have hstands := Text.standsAt_append (before ++ front) call.opening (rest ++ after)
    rw [hposition, ← List.length_append]
    simpa [Call.opening] using hstands

theorem Cut.standsIn {c : Catalog} {offset broken : Nat} {s : Text} {nodes : List Node}
    (hcut : Cut c offset s nodes broken) {before : Text} (hbefore : before.length = offset)
    {r : Reference} (hr : .reference r ∈ nodes) : r.StandsIn (before ++ s) := by
  induction hcut generalizing before with
  | nil => cases hr
  | @text offset broken s rest nodes hloose _ _ hcut ih =>
    have hmem : .reference r ∈ nodes := by simpa using hr
    rw [← List.append_assoc]
    exact ih (by simp [hbefore]) hmem
  | @reference offset broken s rest nodes raw again hderived hagain _ hcut ih =>
    rw [← List.append_assoc]
    rcases List.mem_cons.mp hr with heq | hmem
    · obtain rfl := Node.reference.inj heq
      exact hderived.standsIn hagain hbefore rest
    · exact ih (by simp [hbefore]) hmem

/-- The references of an expression and their calls start where their positions say. -/
theorem Reading.standsIn_of_ofExpression {c : Catalog} {s : Text} {reading : Reading}
    (hread : ofExpression c s = .ok reading) {r : Reference}
    (hr : .reference r ∈ reading.document.nodes) : r.StandsIn s :=
  (ofExpression_eq_ok_iff_cut.mp hread).2.standsIn List.length_nil hr

end TagText
