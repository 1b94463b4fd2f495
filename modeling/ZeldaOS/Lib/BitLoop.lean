import Mathlib.Data.List.Basic

/-!
# Loops over the bits of a word

A loop that visits the bits of a word one by one, tests them with the mask `1 << i` and sets or
clears the bit it visits, computes a bitwise function of the word: the rounds do not disturb each
other (`getLsbD_foldl_range`). A word is a set of bit positions; `BitSubset` is the order of these
sets.
-/

namespace ZeldaOS

variable {w n i j : Nat} {x y : BitVec w}

/-- Every bit of `x` is a bit of `y`. -/
def BitSubset (x y : BitVec w) : Prop := ∀ i, x.getLsbD i = true → y.getLsbD i = true

theorem bitSubset_iff_forall_lt :
    BitSubset x y ↔ ∀ i < w, x.getLsbD i = true → y.getLsbD i = true := by
  refine ⟨fun h i _ => h i, fun h i hi => ?_⟩
  exact h i (BitVec.lt_of_getLsbD hi) hi

/-- The bits of the mask `1 << i`. -/
theorem getLsbD_mask (hi : i < w) (j : Nat) : (1#w <<< i).getLsbD j = decide (j = i) := by
  rw [← BitVec.twoPow_eq, BitVec.getLsbD_twoPow]
  simp [hi, eq_comm]

/-- A mask tests the bit at its position. -/
theorem and_mask_eq_zero_iff (hi : i < w) : x &&& 1#w <<< i = 0#w ↔ x.getLsbD i = false := by
  constructor
  · intro h
    have hbit := congrArg (·.getLsbD i) h
    simpa [getLsbD_mask hi] using hbit
  · intro h
    refine BitVec.eq_of_getLsbD_eq fun j hj => ?_
    rw [BitVec.getLsbD_and, getLsbD_mask hi, BitVec.getLsbD_zero]
    by_cases hji : j = i
    · rw [hji, h, Bool.false_and]
    · simp [hji]

/-- Or-ing a mask sets the bit at its position. -/
theorem getLsbD_or_mask (hi : i < w) (j : Nat) :
    (x ||| 1#w <<< i).getLsbD j = if j = i then true else x.getLsbD j := by
  rw [BitVec.getLsbD_or, getLsbD_mask hi]
  by_cases hji : j = i <;> simp [hji]

/-- And-ing the complement of a mask clears the bit at its position. -/
theorem getLsbD_and_not_mask (hi : i < w) (hj : j < w) :
    (x &&& ~~~(1#w <<< i)).getLsbD j = if j = i then false else x.getLsbD j := by
  rw [BitVec.getLsbD_and, BitVec.getLsbD_not, getLsbD_mask hi]
  by_cases hji : j = i <;> simp [hji, hj]

/-- **The bit-loop rule.** A loop whose round `i` replaces the bit `i` by `g i` of it, and keeps the
others, replaces every bit below the number of its rounds. -/
theorem getLsbD_foldl_range {f : BitVec w → Nat → BitVec w} {g : Nat → Bool → Bool}
    (hf : ∀ x i j, i < w → j < w →
      (f x i).getLsbD j = if j = i then g i (x.getLsbD i) else x.getLsbD j)
    (hn : n ≤ w) (x : BitVec w) (hj : j < w) :
    ((List.range n).foldl f x).getLsbD j = if j < n then g j (x.getLsbD j) else x.getLsbD j := by
  induction n with
  | zero => simp
  | succ n ih =>
    have ih := ih (by omega)
    rw [List.range_succ, List.foldl_append, List.foldl_cons, List.foldl_nil, hf _ _ _ hn hj]
    by_cases hjn : j = n
    · subst hjn
      -- round `n` meets the bit as it was
      rw [if_pos rfl, ih, if_neg (Nat.lt_irrefl j), if_pos (Nat.lt_succ_self j)]
    · rw [if_neg hjn, ih]
      refine if_congr ?_ rfl rfl
      omega

end ZeldaOS
