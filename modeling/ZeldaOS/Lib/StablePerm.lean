import Mathlib.Data.List.Basic

/-!
# Stable rearrangements

A rearrangement of a list is stable for a relation `le` if it keeps the order of the elements of one
level, that is of elements each of which is at most the other. For a transitive relation two
adjacent elements may change places when the first is not at most the second (`StablePerm.swap`),
and stable rearrangements compose, so a sort that only makes such exchanges is stable.
-/

namespace ZeldaOS

section
variable {α : Type*} (le : α → α → Prop) [DecidableRel le]

/-- The elements of the level of `z`, in their order. -/
def level (z : α) (xs : List α) : List α := xs.filter fun x => le x z ∧ le z x

/-- `ys` is a rearrangement of `xs` that keeps the order within each level. -/
structure StablePerm (xs ys : List α) : Prop where
  perm : xs.Perm ys
  level_eq : ∀ z, level le z ys = level le z xs

end

namespace StablePerm

variable {α : Type*} {le : α → α → Prop} [DecidableRel le] {x y : α} {xs ys zs : List α}

/-- A list is a stable permutation of itself. -/
theorem refl (xs : List α) : StablePerm le xs xs := ⟨.refl xs, fun _ => rfl⟩

/-- Stable permutations compose. -/
theorem trans (h : StablePerm le xs ys) (h' : StablePerm le ys zs) : StablePerm le xs zs :=
  ⟨h.perm.trans h'.perm, fun z => (h'.level_eq z).trans (h.level_eq z)⟩

/-- A part of a list may be permuted in place, -/
theorem append (h : StablePerm le xs ys) (ws zs : List α) :
    StablePerm le (ws ++ xs ++ zs) (ws ++ ys ++ zs) := by
  refine ⟨(h.perm.append_left ws).append_right zs, fun z => ?_⟩
  have hlevel := h.level_eq z
  rw [level, level] at hlevel
  simp only [level, List.filter_append, hlevel]

/-- such as all but the first element. -/
theorem cons (x : α) (h : StablePerm le xs ys) : StablePerm le (x :: xs) (x :: ys) := by
  simpa using h.append [x] []

/-- **The exchange.** -/
theorem swap (htrans : ∀ x y z, le x y → le y z → le x z) (hxy : ¬ le x y) (xs : List α) :
    StablePerm le (x :: y :: xs) (y :: x :: xs) := by
  refine ⟨.swap y x xs, fun z => ?_⟩
  rw [level, level]
  by_cases hx : le x z ∧ le z x
  · -- `y` is on another level
    have hy : ¬ (le y z ∧ le z y) := fun hy => hxy (htrans x z y hx.1 hy.2)
    simp [hx, hy]
  · simp [List.filter_cons, hx]

end StablePerm

end ZeldaOS
