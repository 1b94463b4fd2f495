import Mathlib.Data.Nat.Bitwise

/-!
# Bit-fields of a word

A C structure of bit-fields packed into one word is that word: the field of width `n` at bit `lo` is
read by `bitField` and assigned by `setBitField`. Both are stated with `/`, `%` and `*`, so that at
literal positions `omega` decides what one assignment does to every field; a chain of assignments is
followed field by field (`bitField_setBitField`, `bitField_setBitField_of_disjoint`). The shift of a
bit-field is taken in the field's own width (`shlBitField`): this is how gcc types a bit-field
expression wider than `int`, and it drops the bits that the shift moves past the width.
-/

namespace ZeldaOS

/-- The field of width `n` at bit `lo` of the word `w`. -/
def bitField (w lo n : Nat) : Nat := w / 2 ^ lo % 2 ^ n

/-- The word `w` with the field of width `n` at bit `lo` assigned to `v`. -/
def setBitField (w lo n v : Nat) : Nat :=
  w / 2 ^ (lo + n) * 2 ^ (lo + n) + v % 2 ^ n * 2 ^ lo + w % 2 ^ lo

/-- The value `v` of a field of width `n`, shifted left by `k` in the field's width. -/
def shlBitField (n v k : Nat) : Nat := v * 2 ^ k % 2 ^ n

/-- A field is below the power of two of its width. -/
theorem bitField_lt (w lo n : Nat) : bitField w lo n < 2 ^ n := Nat.mod_lt _ (Nat.two_pow_pos n)

theorem testBit_bitField (w lo n i : Nat) :
    (bitField w lo n).testBit i = (decide (i < n) && w.testBit (i + lo)) := by
  rw [bitField, Nat.testBit_mod_two_pow, Nat.testBit_div_two_pow]

theorem testBit_setBitField (w lo n v i : Nat) : (setBitField w lo n v).testBit i =
    if lo ≤ i ∧ i < lo + n then v.testBit (i - lo) else w.testBit i := by
  have hfield : v % 2 ^ n * 2 ^ lo + w % 2 ^ lo < 2 ^ (lo + n) := by
    have hv : v % 2 ^ n < 2 ^ n := Nat.mod_lt _ (Nat.two_pow_pos n)
    have hw : w % 2 ^ lo < 2 ^ lo := Nat.mod_lt _ (Nat.two_pow_pos lo)
    calc v % 2 ^ n * 2 ^ lo + w % 2 ^ lo < v % 2 ^ n * 2 ^ lo + 2 ^ lo := by omega
      _ = (v % 2 ^ n + 1) * 2 ^ lo := (Nat.succ_mul _ _).symm
      _ ≤ 2 ^ n * 2 ^ lo := Nat.mul_le_mul_right _ hv
      _ = 2 ^ (lo + n) := by rw [Nat.pow_add, Nat.mul_comm]
  rw [setBitField, Nat.add_assoc, Nat.mul_comm, Nat.testBit_two_pow_mul_add _ hfield,
    Nat.mul_comm (v % 2 ^ n), Nat.testBit_two_pow_mul_add _ (Nat.mod_lt _ (Nat.two_pow_pos lo))]
  simp only [Nat.testBit_mod_two_pow, Nat.testBit_div_two_pow]
  by_cases hbelow : i < lo
  · simp [hbelow, Nat.not_le.2 hbelow, show i < lo + n by omega]
  by_cases habove : i < lo + n
  · simp [hbelow, habove, show lo ≤ i by omega, show i - lo < n by omega]
  · simp [habove, show i - (lo + n) + (lo + n) = i by omega]

/-- A field after its assignment. -/
theorem bitField_setBitField (w lo n v : Nat) :
    bitField (setBitField w lo n v) lo n = v % 2 ^ n := by
  refine Nat.eq_of_testBit_eq fun i => ?_
  rw [testBit_bitField, testBit_setBitField, Nat.testBit_mod_two_pow]
  by_cases hi : i < n
  · rw [if_pos (by omega), Nat.add_sub_cancel]
  · simp [hi]

/-- A field after the assignment of another. -/
theorem bitField_setBitField_of_disjoint {w lo n v lo' n' : Nat}
    (h : lo + n ≤ lo' ∨ lo' + n' ≤ lo) :
    bitField (setBitField w lo n v) lo' n' = bitField w lo' n' := by
  refine Nat.eq_of_testBit_eq fun i => ?_
  rw [testBit_bitField, testBit_bitField, testBit_setBitField]
  by_cases hi : i < n'
  · rw [if_neg (by omega)]
  · simp [hi]

/-- A field of the low bits of a word. -/
theorem bitField_mod_two_pow {w lo n k : Nat} (h : lo + n ≤ k) :
    bitField (w % 2 ^ k) lo n = bitField w lo n := by
  refine Nat.eq_of_testBit_eq fun i => ?_
  rw [testBit_bitField, testBit_bitField, Nat.testBit_mod_two_pow]
  by_cases hi : i < n
  · rw [decide_eq_true (show i + lo < k by omega), Bool.true_and]
  · simp [hi]

/-- Two 64-bit words that differ in one bit at most. -/
def AgreeBut (bit a b : Nat) : Prop := ∀ i < 64, i ≠ bit → a.testBit i = b.testBit i

theorem AgreeBut.refl (bit a : Nat) : AgreeBut bit a a := fun _ _ _ => rfl

theorem AgreeBut.trans {bit a b c : Nat} (hab : AgreeBut bit a b) (hbc : AgreeBut bit b c) :
    AgreeBut bit a c := fun i hi hne => (hab i hi hne).trans (hbc i hi hne)

/-- The bits of `x` kept by the mask of the `k` low bits. -/
theorem and_mask_eq_mod (x k : Nat) : x &&& (2 ^ k - 1) = x % 2 ^ k :=
  Nat.and_two_pow_sub_one_eq_mod x k

/-- Or-ing an offset into an aligned address adds it. -/
theorem or_offset_eq_add {a b k : Nat} (ha : a % 2 ^ k = 0) (hb : b < 2 ^ k) : a ||| b = a + b := by
  obtain ⟨c, rfl⟩ := Nat.dvd_of_mod_eq_zero ha
  exact (Nat.two_pow_add_eq_or_of_lt hb c).symm

end ZeldaOS
