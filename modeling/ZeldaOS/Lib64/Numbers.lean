import ZeldaOS.Lib.Numeral
import ZeldaOS.Lib64.FormatCorrect

/-!
# Printed numbers

The numbers that the formatters print, against the numerals of the values they stand for. A stack of
128 digits is large enough for every 64-bit number (`resolveStack_eq`), so `%q`, `%x` and `%X` print
the numeral of their argument. So does `%d`, with one exception: the negation of the smallest
`int32_t` is that number again, and its extension to 64 bits is printed behind the sign
(`resolveSigned_min`).
-/

namespace ZeldaOS

/-! ## Numerals in bytes -/

/-- A decimal digit. -/
def decimalDigit (d : Nat) : UInt8 := UInt8.ofNat (0x30 + d)

/-- A hexadecimal digit, with the letter for ten. -/
def hexDigit (letter : Char) (d : Nat) : UInt8 :=
  UInt8.ofNat (if d < 10 then 0x30 + d else letter.toNat + (d - 10))

/-- The decimal numeral of an integer. -/
def decimal (v : Int) : List UInt8 :=
  (if v < 0 then literal ['-'] else []) ++ numeral 10 decimalDigit v.natAbs

/-- The hexadecimal numeral of a number. -/
def hexadecimal (letter : Char) (n : Nat) : List UInt8 := numeral 16 (hexDigit letter) n

/-- The value of a decimal digit. -/
def decimalValue (c : UInt8) : Option Nat :=
  if 0x30 ≤ c ∧ c ≤ 0x39 then some (c.toNat - 0x30) else none

/-- The value of a hexadecimal digit, of either case. -/
def hexValue (c : UInt8) : Option Nat :=
  if 0x30 ≤ c ∧ c ≤ 0x39 then some (c.toNat - 0x30)
  else if 0x61 ≤ c ∧ c ≤ 0x66 then some (c.toNat - 0x61 + 10)
  else if 0x41 ≤ c ∧ c ≤ 0x46 then some (c.toNat - 0x41 + 10)
  else none

/-- The integer that a decimal numeral with an optional sign stands for. -/
def parseDecimal : List UInt8 → Option Int
  | [] => none
  | c :: cs =>
    if c = 0x2d then (parseNumeral 10 decimalValue cs).map fun n : Nat => -(n : Int)
    else (parseNumeral 10 decimalValue (c :: cs)).map Int.ofNat

/-- A decimal digit is read back, -/
theorem decimalValue_digit : ∀ d < 10, decimalValue (decimalDigit d) = some d := by decide

/-- and so is a hexadecimal one in small letters, -/
theorem hexValue_lower : ∀ d < 16, hexValue (hexDigit 'a' d) = some d := by decide

/-- or in capital letters. -/
theorem hexValue_upper : ∀ d < 16, hexValue (hexDigit 'A' d) = some d := by decide

/-- The first character of a numeral is a digit. -/
theorem numeral_ne_minus (n : Nat) : ∃ c cs, numeral 10 decimalDigit n = c :: cs ∧ c ≠ 0x2d := by
  have hdigit : ∀ d < 10, decimalDigit d ≠ 0x2d := by decide
  by_cases hn : n = 0
  · exact ⟨decimalDigit 0, [], by rw [numeral, if_pos hn], hdigit 0 (by decide)⟩
  · obtain ⟨d, rest, heq, -, hlt⟩ := numeral_head decimalDigit (by decide : 1 < 10) hn
    exact ⟨decimalDigit d, rest, heq, hdigit d hlt⟩

/-- **Parsing a decimal numeral** gives its value back. -/
theorem parseDecimal_decimal (v : Int) : parseDecimal (decimal v) = some v := by
  have hparse := parseNumeral_numeral (by decide) decimalValue_digit v.natAbs
  by_cases hv : v < 0
  · have hcons : decimal v = 0x2d :: numeral 10 decimalDigit v.natAbs := by
      rw [decimal, if_pos hv]
      rfl
    rw [hcons, parseDecimal, if_pos rfl, hparse, Option.map_some]
    exact congrArg some (by omega)
  · obtain ⟨c, cs, heq, hc⟩ := numeral_ne_minus v.natAbs
    rw [decimal, if_neg hv, List.nil_append, heq, parseDecimal, if_neg hc, ← heq, hparse,
      Option.map_some]
    exact congrArg some (Int.natAbs_of_nonneg (by omega))

/-! ## The stack of digits -/

section
variable {base n k : Nat} {digit : Nat → UInt8}

/-- **The stack** holds all digits if it is large enough. -/
theorem resolveStack_eq (hbase : 1 < base) (hn : n < base ^ k) :
    resolveStack base digit k n = (Nat.digits base n).map digit := by
  induction k generalizing n with
  | zero =>
    obtain rfl : n = 0 := by simpa using hn
    simp [resolveStack]
  | succ k ih =>
    rw [resolveStack]
    split
    · next h => simp [h]
    · next h =>
      have hdiv : n / base < base ^ k := Nat.div_lt_of_lt_mul (by rwa [Nat.pow_succ'] at hn)
      rw [ih hdiv, Nat.digits_def' (b := base) hbase (n := n) (by omega), List.map_cons]

/-- A stack holds digits below the base only. -/
theorem resolveStack_congr {digit' : Nat → UInt8} (hbase : 0 < base)
    (h : ∀ d < base, digit d = digit' d) :
    resolveStack base digit k n = resolveStack base digit' k n := by
  induction k generalizing n with
  | zero => rfl
  | succ k ih => rw [resolveStack, resolveStack, h _ (Nat.mod_lt _ hbase), ih]

/-- The digits that come off the stack are the numeral. -/
theorem resolveDigits_eq (hbase : 1 < base) (hzero : digit 0 = 0x30) (hn : n < base ^ 128) :
    resolveDigits base digit n = numeral base digit n := by
  rw [resolveDigits, resolveStack_eq hbase hn, numeral]
  by_cases hn₀ : n = 0
  · rw [if_pos hn₀, hn₀, Nat.digits_zero, hzero]
    rfl
  · have hne : (Nat.digits base n).map digit ≠ [] :=
      mt List.map_eq_nil_iff.1 (Nat.digits_ne_nil_iff_ne_zero.2 hn₀)
    rw [if_neg hn₀, List.map_reverse]
    cases hstack : (Nat.digits base n).map digit with
    | nil => exact absurd hstack hne
    | cons d ds => rfl

end

/-- `resolve_qword` gives the decimal numeral. -/
theorem resolveQword_eq {n : Nat} (hn : n < 2 ^ 64) : resolveQword n = numeral 10 decimalDigit n :=
  resolveDigits_eq (by decide) (by decide) (Nat.lt_trans hn (by decide))

/-- A table that holds the digits of `letter` gives its numerals. -/
theorem resolveHexQword_eq {letter : Char} {isLowercase : Bool} {n : Nat}
    (htable : ∀ d < 16, hexTable isLowercase d = hexDigit letter d) (hn : n < 2 ^ 64) :
    resolveHexQword n isLowercase = hexadecimal letter n := by
  have hdigits : resolveDigits 16 (hexTable isLowercase) n =
      resolveDigits 16 (hexDigit letter) n := by
    rw [resolveDigits, resolveDigits, resolveStack_congr (by decide) htable]
  rw [resolveHexQword, hdigits]
  exact resolveDigits_eq (by decide) rfl (Nat.lt_trans hn (by decide))

/-- The table of small letters, -/
theorem hexTable_lower : ∀ d < 16, hexTable true d = hexDigit 'a' d := by decide +kernel

/-- and the table of capital letters. -/
theorem hexTable_upper : ∀ d < 16, hexTable false d = hexDigit 'A' d := by decide +kernel

/-! ## Signed numbers -/

section
variable {bits arg : Nat}

/-- The signed value of 32 bits, -/
theorem bmod_32 (x : Int) : Int.bmod x (2 ^ 32) =
    if x % 2 ^ 32 < 2 ^ 31 then x % 2 ^ 32 else x % 2 ^ 32 - 2 ^ 32 := Int.bmod_def x (2 ^ 32)

/-- and of 64 bits. -/
theorem bmod_64 (x : Int) : Int.bmod x (2 ^ 64) =
    if x % 2 ^ 64 < 2 ^ 63 then x % 2 ^ 64 else x % 2 ^ 64 - 2 ^ 64 := Int.bmod_def x (2 ^ 64)

/-- A signed number is printed as its numeral if its negation gives its absolute value. -/
theorem resolveSigned_eq {v : Int} (hv : Int.bmod arg (2 ^ bits) = v) (h₁ : -2 ^ 63 ≤ v)
    (h₂ : v < 2 ^ 63) (hneg : v < 0 → toUInt64 (Int.bmod (-v) (2 ^ bits)) = v.natAbs) :
    resolveSigned bits arg = decimal v := by
  simp only [resolveSigned, hv, decimal]
  by_cases hlt : v < 0
  · rw [if_pos hlt, if_pos hlt, hneg hlt, resolveQword_eq (by omega)]
  · have habs : toUInt64 v = v.natAbs := by
      rw [toUInt64_eq (by omega) (by omega)]
      omega
    rw [if_neg hlt, if_neg hlt, habs, resolveQword_eq (by omega), List.nil_append]

/-- **`%q`** prints every `int64_t` as its numeral. -/
theorem resolveSigned_64 (arg : Nat) : resolveSigned 64 arg = decimal (Int.bmod arg (2 ^ 64)) := by
  have hv := bmod_64 arg
  refine resolveSigned_eq rfl (by split at hv <;> omega) (by split at hv <;> omega) fun hlt => ?_
  rw [toUInt64, bmod_64 (-_)]
  split <;> split at hv <;> omega

/-- **`%d`** prints every `int32_t` but the smallest as its numeral. -/
theorem resolveSigned_32 (h : arg % 2 ^ 32 ≠ 2 ^ 31) :
    resolveSigned 32 arg = decimal (Int.bmod arg (2 ^ 32)) := by
  have hv := bmod_32 arg
  refine resolveSigned_eq rfl (by split at hv <;> omega) (by split at hv <;> omega) fun hlt => ?_
  rw [toUInt64, bmod_32 (-_)]
  split <;> split at hv <;> omega

/-- The smallest `int32_t` is printed as another number. -/
theorem resolveSigned_min (h : arg % 2 ^ 32 = 2 ^ 31) :
    Int.bmod arg (2 ^ 32) = -2 ^ 31 ∧ resolveSigned 32 arg = decimal (2 ^ 31 - 2 ^ 64) := by
  have hv : Int.bmod arg (2 ^ 32) = -2 ^ 31 := by
    rw [bmod_32, if_neg (by omega)]
    omega
  refine ⟨hv, ?_⟩
  have hneg : toUInt64 (Int.bmod (-(-2 ^ 31)) (2 ^ 32)) = 2 ^ 64 - 2 ^ 31 := by decide
  simp only [resolveSigned, hv, hneg]
  rw [if_pos (by decide), resolveQword_eq (by decide), decimal, if_pos (by decide)]
  rfl

end

/-! ## The directives -/

/-- In a round that finds `%` and the byte `b` under the cursor, the formatter takes the argument
`arg` and puts out `text`, whatever it has put out before. -/
def Produces {σ : Type*} (F : Formatter σ) (b : UInt8) (arg : Nat) (text : List UInt8) : Prop :=
  ∀ fmt args s old, F.load s fmt = 0x25 → F.load s (fmt + 1) = b →
    F.body ⟨fmt, arg :: args, s, old⟩ =
      some ⟨fmt + 2, args, F.putAll s text, old ++ [fmt, fmt + 1]⟩

/-- The formatter prints the numbers that an argument stands for as their numerals. -/
structure NumbersRight {σ : Type*} (F : Formatter σ) (arg : Nat) : Prop where
  d : Produces F 0x64 arg (decimal (int32 arg))
  q : Produces F 0x71 arg (decimal (Int.bmod arg (2 ^ 64)))
  x : Produces F 0x78 arg (hexadecimal 'a' arg)
  X : Produces F 0x58 arg (hexadecimal 'A' arg)

section
variable {σ : Type*} {F : Formatter σ} {b : UInt8} {arg : Nat} {text text' : List UInt8}

/-- What a formatter puts out is determined where it can be seen in the state. -/
theorem Produces.unique {s : σ} {out : σ → List UInt8} (hpercent : F.load s 0 = 0x25)
    (hb : F.load s 1 = b) (hout : ∀ bytes, out (F.putAll s bytes) = bytes)
    (h : Produces F b arg text) (h' : Produces F b arg text') : text = text' := by
  have heq := (h 0 [] s [] hpercent hb).symm.trans (h' 0 [] s [] hpercent hb)
  have hput : F.putAll s text = F.putAll s text' :=
    congrArg Formatting.sink (Option.some.inj heq)
  rw [← hout text, hput, hout]

/-- A directive that reads no string puts out what it stands for. -/
theorem Formatter.Rounds.produces (hF : F.Rounds) (dir : Directive) (hdir : dir ≠ .s)
    (hprint : ∀ m, dir.print m arg = some text) : Produces F dir.byte arg text := by
  intro fmt args s old hpercent hb
  have hof : Directive.ofByte (F.load s (fmt + 1)) = some dir := by
    rw [hb]
    cases dir <;> rfl
  have hreads : dir.reads arg text = [] := by
    cases dir with
    | s => exact absurd rfl hdir
    | c | d | q | x | X => rfl
  -- no address is read, so any memory will do
  refine hF.known (m := Memory.zero) (R := fun _ => False) hpercent hof (hprint _)
    (fun _ _ a ha => ha.elim) fun a ha => ?_
  rw [hreads] at ha
  cases ha

/-- `%d` puts out the low 32 bits as the code resolves them. -/
theorem Formatter.Rounds.produces_d (hF : F.Rounds) (arg : Nat) :
    Produces F 0x64 arg (resolveSigned 32 arg) :=
  hF.produces .d (by decide) fun _ => rfl

/-- `%q` puts out the decimal numeral. -/
theorem Formatter.Rounds.produces_q (hF : F.Rounds) (arg : Nat) :
    Produces F 0x71 arg (decimal (Int.bmod arg (2 ^ 64))) := by
  rw [← resolveSigned_64]
  exact hF.produces .q (by decide) fun _ => rfl

/-- `%x` puts out the hexadecimal numeral in small letters. -/
theorem Formatter.Rounds.produces_x (hF : F.Rounds) (harg : arg < 2 ^ 64) :
    Produces F 0x78 arg (hexadecimal 'a' arg) := by
  rw [← resolveHexQword_eq hexTable_lower harg]
  exact hF.produces .x (by decide) fun _ => rfl

/-- `%X` puts out the hexadecimal numeral in capital letters. -/
theorem Formatter.Rounds.produces_X (hF : F.Rounds) (harg : arg < 2 ^ 64) :
    Produces F 0x58 arg (hexadecimal 'A' arg) := by
  rw [← resolveHexQword_eq hexTable_upper harg]
  exact hF.produces .X (by decide) fun _ => rfl

/-- **When a formatter prints numbers right**, if what is put out can be seen in a state before
`%d`. -/
theorem Formatter.Rounds.numbersRight_iff (hF : F.Rounds) (s : σ) (out : σ → List UInt8)
    (hpercent : F.load s 0 = 0x25) (hd : F.load s 1 = 0x64)
    (hout : ∀ bytes, out (F.putAll s bytes) = bytes) (harg : arg < 2 ^ 64) :
    NumbersRight F arg ↔ arg % 2 ^ 32 ≠ 2 ^ 31 := by
  constructor
  · intro h hmin
    obtain ⟨hv, htext⟩ := resolveSigned_min hmin
    have heq := (h.d.unique hpercent hd hout (hF.produces_d arg)).trans htext
    -- the two numerals have different values
    have hparse := congrArg parseDecimal heq
    rw [parseDecimal_decimal, parseDecimal_decimal, int32, hv] at hparse
    exact absurd hparse (by decide)
  · intro h
    refine ⟨?_, hF.produces_q arg, hF.produces_x harg, hF.produces_X harg⟩
    rw [int32, ← resolveSigned_32 h]
    exact hF.produces_d arg

end

/-- A memory with the format `%d`. -/
def percentDMemory : Memory := fun a => ([0x25, 0x64][a]?).getD 0

/-- **Printed numbers.** For every 64-bit argument `printk_mp_raw` and `sprintf_raw` print with
`%q`, `%x` and `%X` the numeral of its value, and with `%d` that of its low half as an `int32_t`
exactly if the low half is not the smallest one. Parsing a numeral gives its value back. -/
theorem numbers_right_iff {arg : Nat} (harg : arg < 2 ^ 64) (buff : Nat) :
    (NumbersRight printkFormatter arg ↔ arg % 2 ^ 32 ≠ 2 ^ 31) ∧
    (NumbersRight (sprintfFormatter buff) arg ↔ arg % 2 ^ 32 ≠ 2 ^ 31) ∧
    (Produces printkFormatter 0x71 arg (decimal (Int.bmod arg (2 ^ 64))) ∧
      Produces printkFormatter 0x78 arg (hexadecimal 'a' arg) ∧
      Produces printkFormatter 0x58 arg (hexadecimal 'A' arg)) ∧
    (Produces (sprintfFormatter buff) 0x71 arg (decimal (Int.bmod arg (2 ^ 64))) ∧
      Produces (sprintfFormatter buff) 0x78 arg (hexadecimal 'a' arg) ∧
      Produces (sprintfFormatter buff) 0x58 arg (hexadecimal 'A' arg)) ∧
    (∀ v, parseDecimal (decimal v) = some v) ∧
    ∀ n, parseNumeral 16 hexValue (hexadecimal 'a' n) = some n ∧
      parseNumeral 16 hexValue (hexadecimal 'A' n) = some n := by
  have hprintk := printkRounds
  have hsprintf := sprintfRounds buff
  refine ⟨?_, ?_, ⟨hprintk.produces_q arg, hprintk.produces_x harg, hprintk.produces_X harg⟩,
    ⟨hsprintf.produces_q arg, hsprintf.produces_x harg, hsprintf.produces_X harg⟩,
    parseDecimal_decimal, fun n => ⟨parseNumeral_numeral (by decide) hexValue_lower n,
      parseNumeral_numeral (by decide) hexValue_upper n⟩⟩
  · refine hprintk.numbersRight_iff ⟨percentDMemory, []⟩ SerialSink.out rfl rfl
      (fun bytes => ?_) harg
    rw [printkFormatter_putAll]
    rfl
  · exact hsprintf.numbersRight_iff ⟨percentDMemory, 0, []⟩ BufferSink.stored rfl rfl
      (fun bytes => (sprintfFormatter_putAll percentDMemory buff bytes).2) harg

/-- The number -1 is printed right. -/
theorem numbers_right_iff_sample : NumbersRight printkFormatter (2 ^ 64 - 1) ∧
    NumbersRight (sprintfFormatter 0x1000) (2 ^ 64 - 1) := by
  obtain ⟨hprintk, hsprintf, -⟩ := numbers_right_iff (by decide : 2 ^ 64 - 1 < 2 ^ 64) 0x1000
  exact ⟨hprintk.2 (by decide), hsprintf.2 (by decide)⟩

/-- The text `-18446744071562067968`. -/
def misprintedText : List UInt8 :=
  literal ['-', '1', '8', '4', '4', '6', '7', '4', '4', '0', '7', '1', '5', '6', '2', '0', '6', '7',
    '9', '6', '8']

/-- For -2147483648 both formatters print `-18446744071562067968`. -/
theorem smallest_int_misprinted :
    int32 0x80000000 = -2147483648 ∧
    Produces printkFormatter 0x64 0x80000000 misprintedText ∧
    Produces (sprintfFormatter 0x1000) 0x64 0x80000000 misprintedText := by
  have htext : resolveSigned 32 0x80000000 = misprintedText := by decide +kernel
  rw [← htext]
  exact ⟨by decide, printkRounds.produces_d _, (sprintfRounds 0x1000).produces_d _⟩

end ZeldaOS
