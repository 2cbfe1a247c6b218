import TagText.Document.Outline
import TagText.Proofs.Lexing.Arguments

/-!
The grammar of references. A text is related to what it says, with the texts of the arguments as
they count and with the places of the modifiers; how the text is split and read plays no part here.
-/

namespace TagText.Grammar

open Lexeme

/-- White space between arguments. -/
def Blank (gap : Text) : Prop := ∀ c ∈ gap, isBlank c = true

theorem Blank.nil : Blank [] := by simp [Blank]

/-- The inside of a quoted argument. A backslash takes the next character with it. -/
inductive QuotedBody (quote : Char) : Text → Prop
  | nil : QuotedBody quote []
  | escape (c : Char) {s : Text} : QuotedBody quote s → QuotedBody quote ('\\' :: c :: s)
  | plain {c : Char} {s : Text} : c ≠ quote → c ≠ '\\' → QuotedBody quote s →
    QuotedBody quote (c :: s)

/-- An argument, and the text that it counts as. -/
inductive Argument : Text → Text → Prop
  | quoted {quote : Char} {body : Text} : isQuote quote = true → QuotedBody quote body →
    Argument (quote :: body ++ [quote]) (unescape body)
  | bare {c : Char} {run : Text} : startsBare c = true → (∀ d ∈ run, endsBare d = false) →
    Argument (c :: run) (Text.trimRight isBlank (c :: run))

/-- What follows an argument, up to the closing parenthesis. -/
inductive MoreArguments : Text → List Text → Prop
  | close : MoreArguments [')'] []
  | comma {before raw after rest value : Text} {values : List Text} : Blank before →
    Argument raw value → Blank after → MoreArguments rest values →
    MoreArguments (',' :: (before ++ raw ++ after ++ rest)) (value :: values)

/-- An argument list behind its opening parenthesis, up to the closing one. -/
inductive Arguments : Text → List Text → Prop
  | none {gap : Text} : Blank gap → Arguments (gap ++ [')']) []
  | some {before raw after rest value : Text} {values : List Text} : Blank before →
    Argument raw value → Blank after → MoreArguments rest values →
    Arguments (before ++ raw ++ after ++ rest) (value :: values)

/-- A chain of modifiers that starts at an offset. -/
inductive Calls : Nat → Text → List RawCall → Prop
  | nil {offset : Nat} : Calls offset [] []
  | call {offset : Nat} {key inner rest : Text} {args : List Text} {calls : List RawCall} :
    isName key = true → Arguments inner args →
    Calls (offset + key.length + inner.length + 2) rest calls →
    Calls offset ('.' :: key ++ '(' :: (inner ++ rest))
      ({ key, args, position := offset } :: calls)

/-- A reference that starts at an offset. -/
inductive Reference : Nat → Text → RawReference → Prop
  | intro {offset : Nat} {group field chain : Text} {calls : List RawCall} :
    isName group = true → (∀ c ∈ field, isFieldChar c = true) →
    Calls (offset + group.length + field.length + 3) chain calls →
    Reference offset ('@' :: group ++ '(' :: (field ++ ')' :: chain))
      { group, field, calls, position := offset }

theorem Arguments.prepend {gap raw : Text} {values : List Text} (hgap : Blank gap)
    (harguments : Arguments raw values) : Arguments (gap ++ raw) values := by
  cases harguments with
  | none hblank =>
    rw [← List.append_assoc]
    exact .none fun c hc => (List.mem_append.mp hc).elim (hgap c) (hblank c)
  | some hbefore hargument hafter hmore =>
    rw [← List.append_assoc, ← List.append_assoc, ← List.append_assoc]
    exact .some (fun c hc => (List.mem_append.mp hc).elim (hgap c) (hbefore c)) hargument hafter
      hmore

theorem MoreArguments.of_arguments {raw value : Text} {values : List Text}
    (harguments : Arguments raw (value :: values)) :
    MoreArguments (',' :: raw) (value :: values) := by
  cases harguments with
  | some hbefore hargument hafter hmore => exact .comma hbefore hargument hafter hmore

/-- What follows an argument starts with a comma or a closing parenthesis. -/
theorem MoreArguments.head {rest : Text} {values : List Text} (hmore : MoreArguments rest values)
    (tail : Text) : ∀ c ∈ (rest ++ tail).head?, endsBare c = true := by
  cases hmore <;> simp [endsBare]

theorem QuotedBody.of_quotedBody? {quote : Char} {s body after : Text}
    (hbody : quotedBody? quote s = some (body, after)) : QuotedBody quote body := by
  fun_induction quotedBody? quote s generalizing body after with
  | case1 => simp at hbody
  | case2 rest =>
    obtain ⟨rfl, rfl⟩ := by simpa using hbody
    exact .nil
  | case3 => simp at hbody
  | case4 c rest hquote ih =>
    obtain ⟨inner, hinner, rfl⟩ := by simpa using hbody
    exact .escape c (ih hinner)
  | case5 c rest hquote hescape ih =>
    obtain ⟨inner, hinner, rfl⟩ := by simpa using hbody
    exact .plain hquote hescape (ih hinner)

theorem QuotedBody.quotedBody?_eq {quote : Char} (hquote : isQuote quote = true) {body : Text}
    (hbody : QuotedBody quote body) (tail : Text) :
    quotedBody? quote (body ++ quote :: tail) = some (body, tail) := by
  have hescape : '\\' ≠ quote := by
    rintro rfl
    simp [isQuote] at hquote
  induction hbody with
  | nil => exact quotedBody?_close quote tail
  | escape c _ ih => simp [quotedBody?_escape hescape, ih]
  | plain hc hplain _ ih => simp [quotedBody?_plain hc hplain, ih]

end TagText.Grammar
