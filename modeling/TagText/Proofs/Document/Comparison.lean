import TagText.Proofs.Argument.Spelling
import TagText.Proofs.Document.Unplaced

/-!
Comparing documents. Positions do not count, and every argument equals itself unless it is a number
that is none.
-/

namespace TagText

section

variable {α : Type} {equal : α → α → Bool}

theorem equalLists_iff {xs ys : List α} :
    equalLists equal xs ys = true ↔ List.Forall₂ (fun x y => equal x y = true) xs ys := by
  induction xs generalizing ys with
  | nil => cases ys <;> simp [equalLists]
  | cons x xs ih => cases ys <;> simp [equalLists, ih]

theorem equalLists_map {f : α → α} (hf : ∀ x y, equal (f x) (f y) = equal x y) (xs ys : List α) :
    equalLists equal (xs.map f) (ys.map f) = equalLists equal xs ys := by
  induction xs generalizing ys with
  | nil => cases ys <;> rfl
  | cons x xs ih =>
    cases ys with
    | nil => rfl
    | cons y ys => rw [List.map_cons, List.map_cons, equalLists, equalLists, hf, ih]

theorem equalLists_self {xs : List α} (hself : ∀ x ∈ xs, equal x x = true) :
    equalLists equal xs xs = true := by
  induction xs with
  | nil => rfl
  | cons x xs ih =>
    obtain ⟨hx, hxs⟩ := List.forall_mem_cons.mp hself
    rw [equalLists, hx, ih hxs, Bool.and_self]

end

@[simp] theorem Reference.equals_unplaced (r s : Reference) :
    r.unplaced.equals s.unplaced = r.equals s := by
  have hcall : ∀ a b : Call, a.unplaced.equals b.unplaced = a.equals b := fun _ _ => rfl
  have hcalls := equalLists_map hcall r.calls s.calls
  simp only [equals, unplaced, hcalls]

@[simp] theorem Reference.equals_moved (r s : Reference) (k : Int) :
    (s.moved k).equals r = s.equals r := by
  rw [← equals_unplaced, unplaced_moved, equals_unplaced]

theorem Reference.length_calls_of_equals {r s : Reference} (hequal : r.equals s = true) :
    r.calls.length = s.calls.length := by
  simp only [equals, Bool.and_eq_true] at hequal
  exact (equalLists_iff.mp hequal.2).length_eq

theorem Arg.equals_self {a : Arg} (ha : a ≠ .float .nan) : a.equals a = true := by
  cases a with
  | float x =>
    cases x with
    | nan => exact absurd rfl ha
    | _ => simp [equals, asNumber, equalNumbers, Binary64.equals]
  | _ => simp [equals, asNumber, equalNumbers]

theorem Arg.ne_nan_of_isFinite {a : Arg} (ha : a.isFinite = true) : a ≠ .float .nan := by
  rintro rfl
  cases ha

theorem Reference.equals_self {r : Reference} (hargs : ∀ a ∈ r.args, a ≠ .float .nan) :
    r.equals r = true := by
  have hcalls : equalLists Call.equals r.calls r.calls = true := by
    refine equalLists_self fun call hcall => ?_
    have hcall : equalLists Arg.equals call.args call.args = true :=
      equalLists_self fun a ha => Arg.equals_self (hargs a (List.mem_flatMap.mpr ⟨call, hcall, ha⟩))
    simp [Call.equals, hcall]
  simp [equals, hcalls]

/-- A list of nodes equals itself unless it holds a number that is none. -/
theorem Node.equalLists_self {nodes : List Node}
    (hargs : ∀ r, reference r ∈ nodes → ∀ a ∈ r.args, a ≠ .float .nan) :
    equalLists equals nodes nodes = true := by
  refine TagText.equalLists_self fun node hnode => ?_
  cases node with
  | text s position => simp [equals]
  | reference r => exact Reference.equals_self (hargs r hnode)

end TagText
