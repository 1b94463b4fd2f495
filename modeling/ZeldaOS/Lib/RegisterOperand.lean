import Mathlib.Logic.Function.Basic
import ZeldaOS.Lib.Bits

/-!
# Register operands of x86-64

What it means to read or write an operand of 1, 2, 4 or 8 bytes in a general register. The registers
are a function from their numbers to their contents. A write of 1 or 2 bytes leaves the rest of the
register as it was, and a write of 4 bytes clears the upper half. The numbers 4 to 7 of a byte
operand denote bits 8 to 15 of the registers 0 to 3 (AH, CH, DH and BH) unless the instruction has a
REX prefix.

`update_eq_writeOperand_iff` says when a program that puts a whole word into the register of the
number has written the operand.
-/

namespace ZeldaOS

/-- A byte operand of the number `n` is bits 8 to 15 of the register `n - 4`. -/
def isHighByte (hasRex : Bool) (n : Nat) : Bool := !hasRex && decide (4 ≤ n) && decide (n < 8)

/-- The operand of `size` bytes with the number `n`. -/
def readOperand (size : Nat) (hasRex : Bool) (gpr : Nat → Nat) (n : Nat) : Nat :=
  if size = 1 ∧ isHighByte hasRex n = true then bitField (gpr (n - 4)) 8 8 else gpr n % 256 ^ size

/-- The registers behind a write of `v` to the operand of `size` bytes with the number `n`. -/
def writeOperand (size : Nat) (hasRex : Bool) (gpr : Nat → Nat) (n v : Nat) : Nat → Nat :=
  if size = 1 ∧ isHighByte hasRex n = true then
    Function.update gpr (n - 4) (setBitField (gpr (n - 4)) 8 8 v)
  else if size ≤ 2 then Function.update gpr n (gpr n / 256 ^ size * 256 ^ size + v % 256 ^ size)
  else Function.update gpr n (v % 256 ^ size)

/-- The part of a register that a write of `size` bytes keeps. -/
def keptBits (size w : Nat) : Nat := if size ≤ 2 then w / 256 ^ size * 256 ^ size else 0

section
variable {size k n w v : Nat} {hasRex : Bool} {gpr : Nat → Nat}

theorem writeOperand_of_high (h : size = 1 ∧ isHighByte hasRex n = true) :
    writeOperand size hasRex gpr n v =
      Function.update gpr (n - 4) (setBitField (gpr (n - 4)) 8 8 v) := if_pos h

theorem writeOperand_of_not_high (h : ¬ (size = 1 ∧ isHighByte hasRex n = true)) :
    writeOperand size hasRex gpr n v =
      Function.update gpr n (keptBits size (gpr n) + v % 256 ^ size) := by
  rw [writeOperand, if_neg h, keptBits]
  split
  · rfl
  · rw [Nat.zero_add]

/-- The number of a high byte is not the one of its register. -/
theorem ne_of_isHighByte (h : isHighByte hasRex n = true) : n ≠ n - 4 := by
  simp only [isHighByte, Bool.and_eq_true, decide_eq_true_eq] at h
  omega

theorem update_eq_update_iff {a b : Nat} :
    Function.update gpr n a = Function.update gpr n b ↔ a = b :=
  ⟨fun h => by simpa using congrFun h n, fun h => by rw [h]⟩

/-- A high byte is written by a program that writes a word to the register of its number, exactly
when neither changes anything. -/
theorem update_eq_update_high_iff (h : isHighByte hasRex n = true) :
    Function.update gpr n w = Function.update gpr (n - 4) (setBitField (gpr (n - 4)) 8 8 v) ↔
      w = gpr n ∧ bitField (gpr (n - 4)) 8 8 = v % 256 := by
  have hne := ne_of_isHighByte h
  have hfield : setBitField (gpr (n - 4)) 8 8 v = gpr (n - 4) ↔
      bitField (gpr (n - 4)) 8 8 = v % 256 := by
    rw [setBitField, bitField]
    omega
  rw [← hfield]
  constructor
  · intro heq
    refine ⟨?_, ?_⟩
    · simpa [Function.update_of_ne hne] using congrFun heq n
    · simpa [Function.update_of_ne hne.symm] using (congrFun heq (n - 4)).symm
  · rintro ⟨rfl, hsame⟩
    rw [hsame, Function.update_eq_self, Function.update_eq_self]

/-- **A word for an operand.** A program that puts the word `v` into the register `n` has written
the low `k` bytes of `v` to the operand of `size ≥ k` bytes with that number exactly when the bits
of `v` above them are those that the write keeps, or, for a high byte, when nothing had to
change. -/
theorem update_eq_writeOperand_iff (hasRex : Bool) (gpr : Nat → Nat) (n v : Nat) (hk : k ≤ size) :
    Function.update gpr n v = writeOperand size hasRex gpr n (v % 256 ^ k) ↔
      if size = 1 ∧ isHighByte hasRex n = true then
        v = gpr n ∧ bitField (gpr (n - 4)) 8 8 = v % 256 ^ k % 256
      else v / 256 ^ k * 256 ^ k = keptBits size (gpr n) := by
  split
  · next hhigh => rw [writeOperand_of_high hhigh, update_eq_update_high_iff hhigh.2]
  · next hhigh =>
    have hle : 256 ^ k ≤ 256 ^ size := Nat.pow_le_pow_right (by decide) hk
    have hlt : v % 256 ^ k < 256 ^ size :=
      (Nat.mod_lt _ (Nat.pow_pos (by decide))).trans_le hle
    have hdiv := Nat.div_add_mod v (256 ^ k)
    rw [Nat.mul_comm] at hdiv
    rw [writeOperand_of_not_high hhigh, update_eq_update_iff, Nat.mod_eq_of_lt hlt]
    omega

end

end ZeldaOS
