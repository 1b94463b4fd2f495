import Mathlib.Data.Nat.Digits.Lemmas

/-!
# Numerals

The numeral of a number in a base, as a list of characters of any type: its digits from the most
significant one on, and the digit 0 for zero. A numeral of another number has no leading zero
(`numeral_head`), and the value of a numeral is its number (`parseNumeral_numeral`).
-/

namespace ZeldaOS

section
variable {β : Type*}

/-- The numeral of `n`. -/
def numeral (base : Nat) (digit : Nat → β) (n : Nat) : List β :=
  if n = 0 then [digit 0] else (Nat.digits base n).reverse.map digit

/-- The value of a numeral, none if a character is not a digit. -/
def parseNumeral (base : Nat) (value : β → Option Nat) (chars : List β) : Option Nat :=
  chars.foldlM (fun n c => (value c).map (base * n + ·)) 0

variable {base n : Nat} {digit : Nat → β} {value : β → Option Nat}

/-- A numeral has no leading zero. -/
theorem numeral_head (digit : Nat → β) (hbase : 1 < base) (hn : n ≠ 0) :
    ∃ d rest, numeral base digit n = digit d :: rest ∧ 0 < d ∧ d < base := by
  have hne : Nat.digits base n ≠ [] := Nat.digits_ne_nil_iff_ne_zero.2 hn
  refine ⟨(Nat.digits base n).getLast hne, ((Nat.digits base n).dropLast.reverse).map digit, ?_,
    Nat.pos_of_ne_zero (Nat.getLast_digit_ne_zero base hn),
    Nat.digits_lt_base hbase (List.getLast_mem hne)⟩
  rw [numeral, if_neg hn]
  conv_lhs => rw [← List.dropLast_append_getLast hne]
  rw [List.reverse_append, List.reverse_singleton, List.singleton_append, List.map_cons]

theorem foldlM_parse_digits (hvalue : ∀ d < base, value (digit d) = some d) {ds : List Nat}
    (hds : ∀ d ∈ ds, d < base) :
    (ds.reverse.map digit).foldlM (fun n c => (value c).map (base * n + ·)) 0 =
      some (Nat.ofDigits base ds) := by
  induction ds with
  | nil => rfl
  | cons d ds ih =>
    rw [List.reverse_cons, List.map_append, List.foldlM_append,
      ih fun d hd => hds d (List.mem_cons_of_mem _ hd)]
    simp only [Option.bind_eq_bind, Option.bind_some, List.map_cons, List.map_nil, List.foldlM_cons,
      List.foldlM_nil, hvalue d (hds d List.mem_cons_self), Option.map_some]
    rw [Nat.ofDigits_cons, Nat.add_comm]
    rfl

/-- **The value of a numeral** is its number. -/
theorem parseNumeral_numeral (hbase : 1 < base) (hvalue : ∀ d < base, value (digit d) = some d)
    (n : Nat) : parseNumeral base value (numeral base digit n) = some n := by
  rw [parseNumeral, numeral]
  split
  · next hn =>
    simp [hn, hvalue 0 (by omega)]
  · rw [foldlM_parse_digits hvalue fun d hd => Nat.digits_lt_base hbase hd, Nat.ofDigits_digits]

end

end ZeldaOS
