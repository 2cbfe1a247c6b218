import TagText.Proofs.Argument.Spelling
import TagText.Proofs.Document.Unplaced
import TagText.Proofs.Grammar.References

/-!
The written form of a reference is derivable, with its arguments as they are spelled. Whatever
characters an argument holds, it cannot end its quotes or start something of its own.
-/

namespace TagText

/-- Calls as they are read in their written form, from an offset on. -/
def Call.spelled : Nat → List Call → List RawCall
  | _, [] => []
  | offset, call :: calls =>
    { key := call.key, args := call.args.map Arg.spelled, position := offset } ::
      spelled (offset + call.written.length) calls

/-- A reference as it is read in its written form, at an offset. -/
def Reference.spelled (offset : Nat) (r : Reference) : RawReference where
  group := r.group
  field := r.field
  calls := Call.spelled (offset + r.group.length + r.field.length + 3) r.calls
  position := offset

/-- A reference with a group and modifiers that are names and a field that is a key. -/
structure Reference.WellNamed (r : Reference) : Prop where
  group : Lexeme.isName r.group = true
  field : ∀ c ∈ r.field, Lexeme.isFieldChar c = true
  keys : ∀ call ∈ r.calls, Lexeme.isName call.key = true

namespace Grammar

open Lexeme

theorem startsBare_of_isNumeric {c : Char} (hc : isNumeric c = true) : startsBare c = true :=
  of_isNumeric (by decide) hc

/-- Characters that can start a bare argument make one up, and nothing of it is trimmed. -/
theorem Argument.of_startsBare {s : Text} (hne : s ≠ []) (hall : s.all startsBare = true) :
    Argument s s := by
  have hs := List.all_eq_true.mp hall
  obtain ⟨c, run, rfl⟩ := List.exists_cons_of_ne_nil hne
  have hplain : ∀ d ∈ c :: run, endsBare d = false ∧ isBlank d = false := by
    intro d hd
    have hstarts := hs d hd
    simp only [startsBare, Bool.and_eq_true, Bool.not_eq_true'] at hstarts
    exact hstarts.1
  have htrim : Text.trimRight isBlank (c :: run) = c :: run := by
    cases hreverse : (c :: run).reverse with
    | nil => simp at hreverse
    | cons d rest =>
      have hd := (hplain d (List.mem_reverse.mp (by simp [hreverse]))).2
      rw [Text.trimRight, hreverse, List.dropWhile_cons_of_neg (by simp [hd]), ← hreverse,
        List.reverse_reverse]
  have hargument := Argument.bare (hs c List.mem_cons_self) fun d hd =>
    (hplain d (List.mem_cons_of_mem c hd)).1
  rwa [htrim] at hargument

theorem QuotedBody.escaped (s : Text) : QuotedBody '\x22' (s.flatMap Arg.escapeChar) := by
  induction s with
  | nil => exact .nil
  | cons c s ih =>
    rw [List.flatMap_cons, Arg.escapeChar]
    split
    · exact .escape c ih
    · rename_i hc
      simp only [Bool.or_eq_true, decide_eq_true_eq, not_or] at hc
      exact .plain hc.2 hc.1 ih

theorem unescape_plain {c : Char} (hc : c ≠ '\\') (s : Text) :
    unescape (c :: s) = c :: unescape s := by
  cases s with
  | nil => rfl
  | cons d s => rw [unescape, if_neg hc]

theorem unescape_escaped (s : Text) : unescape (s.flatMap Arg.escapeChar) = s := by
  induction s with
  | nil => rfl
  | cons c s ih =>
    rw [List.flatMap_cons, Arg.escapeChar]
    split
    · simp [unescape, ih]
    · rename_i hc
      simp only [Bool.or_eq_true, decide_eq_true_eq, not_or] at hc
      rw [List.singleton_append, unescape_plain hc.1, ih]

/-- The written form of an argument is one argument, which counts as its spelling. -/
theorem Argument.written (a : Arg) : Argument a.written a.spelled := by
  have hquote : ∀ s, Argument (Arg.quote s) s := by
    intro s
    have hargument := Argument.quoted (by decide) (QuotedBody.escaped s)
    rwa [unescape_escaped] at hargument
  cases a with
  | text s => exact hquote s
  | nothing => exact hquote []
  | bool b => cases b <;> exact Argument.of_startsBare (by decide) (by decide)
  | int n =>
    have hne : decimalInt n ≠ [] := by
      rw [decimalInt, decimal_eq]
      split <;> simp [digitText, digitsOf_ne_nil]
    exact Argument.of_startsBare hne (List.all_eq_true.mpr fun c hc =>
      startsBare_of_isNumeric (isNumeric_of_mem_decimalInt n c hc))
  | float x =>
    cases x with
    | finite negative rank =>
      have hmagnitude := Binary64.laysOut_magnitudeText rank.val
      obtain ⟨first, rest, -, hfirst, hstart⟩ := hmagnitude.start
      have hne : (Binary64.finite negative rank).text ≠ [] := by
        simp [Binary64.text, hstart, digitText, hfirst]
      exact Argument.of_startsBare hne (List.all_eq_true.mpr fun c hc =>
        startsBare_of_isNumeric (isNumeric_of_mem_text (x := .finite negative rank) rfl c hc))
    | infinite negative => cases negative <;> exact Argument.of_startsBare (by decide) (by decide)
    | nan => exact Argument.of_startsBare (by decide) (by decide)

theorem MoreArguments.written (args : List Arg) :
    MoreArguments ((args.flatMap fun a => ',' :: a.written) ++ [')']) (args.map Arg.spelled) := by
  induction args with
  | nil => exact .close
  | cons a args ih =>
    have hmore := MoreArguments.comma Blank.nil (Argument.written a) Blank.nil ih
    simpa using hmore

theorem intercalate_comma (first : Text) (rest : List Text) :
    List.intercalate [','] (first :: rest) = first ++ rest.flatMap (',' :: ·) := by
  induction rest generalizing first with
  | nil => simp [List.intercalate]
  | cons next rest ih =>
    have hrest := ih next
    simp only [List.intercalate, List.intersperse_cons_cons, List.flatten_cons] at hrest ⊢
    simp [hrest]

/-- Written arguments are an argument list. -/
theorem Arguments.written (args : List Arg) :
    Arguments (List.intercalate [','] (args.map Arg.written) ++ [')']) (args.map Arg.spelled) := by
  cases args with
  | nil => exact .none Blank.nil
  | cons a args =>
    have hlist := Arguments.some Blank.nil (Argument.written a) Blank.nil
      (MoreArguments.written args)
    rw [List.map_cons, intercalate_comma, List.flatMap_map]
    simpa using hlist

theorem Calls.written {calls : List Call} (hkeys : ∀ call ∈ calls, isName call.key = true)
    (offset : Nat) : Calls offset (calls.flatMap Call.written) (Call.spelled offset calls) := by
  induction calls generalizing offset with
  | nil => exact .nil
  | cons call calls ih =>
    obtain ⟨hkey, hkeys⟩ := List.forall_mem_cons.mp hkeys
    have hlength : offset + call.written.length =
        offset + call.key.length +
          (List.intercalate [','] (call.args.map Arg.written) ++ [')']).length + 2 := by
      simp only [Call.written, List.length_append, List.length_cons]
      omega
    have hrest := ih hkeys (offset + call.written.length)
    rw [hlength] at hrest
    have hcall := Calls.call hkey (Arguments.written call.args) hrest
    rw [← hlength] at hcall
    rw [Call.spelled]
    simpa [Call.written] using hcall

/-- A well named reference is derivable from its written form. -/
theorem Reference.written {r : TagText.Reference} (hnamed : r.WellNamed) (offset : Nat) :
    Reference offset r.written (r.spelled offset) := by
  have hchain := Calls.written hnamed.keys (offset + r.group.length + r.field.length + 3)
  have hreference := Reference.intro hnamed.group hnamed.field hchain
  simpa [TagText.Reference.written, TagText.Reference.spelled] using hreference

end Grammar

end TagText
