import Mathlib.Data.List.Perm.Basic
import ZeldaOS.VmMonitor.InstructionSet

/-!
# What a decoded instruction depends on

The decoder fetches four bytes at the opcode, but masks three of them out, and the resolvers read
the ModRM byte and the immediate and nothing else. So what it decodes depends on the bytes of the
instruction alone (`resolve_congr`). The prefixes set flags that do not influence each other, so
their order does not matter (`foldl_takePrefix_perm`).
-/

namespace ZeldaOS

section
variable {s s' pre pre' : List UInt8} {n : Nat}

/-! ## Bytes behind the instruction -/

/-- The word of `n` bytes depends on `n` bytes. -/
theorem streamWord_congr : ∀ {n : Nat} {s s' : List UInt8},
    (∀ j < n, s'.getD j 0 = s.getD j 0) → streamWord s' n = streamWord s n
  | 0, _, _, _ => rfl
  | n + 1, s, s', h => by
    have hhead : s'.headD 0 = s.headD 0 := by
      have h₀ := h 0 (Nat.succ_pos n)
      cases s <;> cases s' <;> exact h₀
    have htail : ∀ j < n, s'.tail.getD j 0 = s.tail.getD j 0 := by
      intro j hj
      have hj := h (j + 1) (by omega)
      cases s <;> cases s' <;> exact hj
    rw [streamWord, streamWord, hhead, streamWord_congr htail]

/-- A resolver reads the ModRM byte and the immediate. -/
theorem resolve_congr (op : MovOpcode) (c : InstructionContext)
    (h : ∀ j < 1 + decodedImmediate op c.operandSizeOverrided, s'.getD j 0 = s.getD j 0) :
    (opcodeDefOf op).resolve s' c = (opcodeDefOf op).resolve s c := by
  have hhead : s'.headD 0 = s.headD 0 := by
    have h₀ := h 0 (by omega)
    cases s <;> cases s' <;> exact h₀
  have himm : ∀ n ≤ decodedImmediate op c.operandSizeOverrided,
      streamWord s'.tail n = streamWord s.tail n := by
    intro n hn
    refine streamWord_congr fun j hj => ?_
    have hj := h (j + 1) (by omega)
    cases s <;> cases s' <;> exact hj
  have hmod : resolveModerm s' c = resolveModerm s c := by
    simp only [resolveModerm, hhead]
  cases op with
  | opC6 => simp only [opcodeDefOf, opcodeC6Resolver, hmod, himm 1 (Nat.le_refl 1)]
  | opC7 =>
    simp only [opcodeDefOf, opcodeC7Resolver, hmod]
    -- the operand size decides how many bytes the immediate has
    by_cases hsize : c.operandSizeOverrided = true
    · rw [if_pos hsize, if_pos hsize, himm 2 (by simp [decodedImmediate, hsize])]
    · rw [if_neg hsize, if_neg hsize, himm 4 (by simp [decodedImmediate, hsize])]
  | _ =>
    simp only [opcodeDefOf, opcode8aResolver, opcode8bResolver, opcodeB6Resolver, opcodeB7Resolver,
      resolveAccess, hmod]

/-- A stream that agrees with bytes other than 0 starts with them. -/
theorem exists_append_of_getD : ∀ {l s : List UInt8}, (∀ b ∈ l, b ≠ 0) →
    (∀ j < l.length, s.getD j 0 = l.getD j 0) → ∃ rest, s = l ++ rest
  | [], s, _, _ => ⟨s, rfl⟩
  | b :: l, [], hl, h => by
    have hb : (0 : UInt8) = b := h 0 (Nat.succ_pos _)
    exact absurd hb.symm (hl b List.mem_cons_self)
  | b :: l, b' :: s, hl, h => by
    obtain rfl : b' = b := h 0 (Nat.succ_pos _)
    obtain ⟨rest, rfl⟩ :=
      exists_append_of_getD (s := s) (fun x hx => hl x (List.mem_cons_of_mem _ hx))
      fun j hj => h (j + 1) (by rw [List.length_cons]; omega)
    exact ⟨rest, rfl⟩

/-- A prefix is not 0, -/
theorem ne_zero_of_prefixField {b : UInt8} (h : (prefixField b).isSome = true) : b ≠ 0 := by
  rintro rfl
  cases h

/-- nor is a REX prefix, -/
theorem rexPrefixByte_ne_zero : ∀ r : Fin 16, rexPrefixByte r ≠ 0 := by
  decide

/-- nor an opcode. -/
theorem MovOpcode.byte_ne_zero (op : MovOpcode) : op.byte ≠ 0 := by
  cases op <;> decide

/-- **Only the instruction is read.** A stream that agrees with a decoded instruction on its bytes
is decoded to the same context. -/
theorem decode_of_agree {c : InstructionContext} (h : decodeX8664Instruction s = some c)
    (hs : ∀ j < c.instructionLength, s'.getD j 0 = s.getD j 0) :
    decodeX8664Instruction s' = some c := by
  obtain ⟨pre, rex, op, hpre, rest, rfl⟩ := decoderForm_of_decode h
  have hrange := (opcode_byte_spec op).2.1
  rw [decode_append rex hpre (prefixField_head rex op rest) hrange, resolveOpcode_mov,
    Option.some.injEq] at h
  -- the bytes up to the opcode, none of which is 0
  let front := pre ++ (rex.toList.map rexPrefixByte ++ [op.byte])
  have hsplit : ∀ r, pre ++ (rex.toList.map rexPrefixByte ++ op.byte :: r) = front ++ r := by
    simp [front]
  have hlength : front.length = pre.length + rex.toList.length + 1 := by
    simp [front]
    omega
  have hnonzero : ∀ b ∈ front, b ≠ 0 := by
    intro b hb
    simp only [front, List.mem_append, List.mem_map, List.mem_singleton] at hb
    rcases hb with hb | ⟨r, -, rfl⟩ | rfl
    · exact ne_zero_of_prefixField (hpre b hb)
    · exact rexPrefixByte_ne_zero r
    · exact op.byte_ne_zero
  have hlen : c.instructionLength = front.length + (1 + decodedImmediate op
      (pre.foldl takePrefix {}).operandSizeOverrided) := by
    rw [← h, (resolve_spec op _ _).2.2.2, hlength]
    dsimp only
    omega
  rw [hsplit] at hs
  obtain ⟨rest', rfl⟩ := exists_append_of_getD hnonzero fun j hj => by
    rw [hs j (by omega), List.getD_append _ _ _ _ hj]
  rw [← hsplit, decode_append rex hpre (prefixField_head rex op rest') hrange,
    resolveOpcode_mov, ← h, resolve_congr]
  intro j hj
  have hj := hs (front.length + j) (by dsimp only at hj; omega)
  rwa [List.getD_append_right _ _ _ _ (by omega), List.getD_append_right _ _ _ _ (by omega),
    Nat.add_sub_cancel_left] at hj

/-! ## The order of the prefixes -/

/-- Set a field and count a byte. -/
def countPrefix (set : InstructionContext → InstructionContext) (c : InstructionContext) :
    InstructionContext :=
  { set c with instructionLength := c.instructionLength + 1 }

/-- Two prefixes set their flags in either order. -/
theorem countPrefix_comm : ∀ p ∈ prefixFields, ∀ q ∈ prefixFields, ∀ c : InstructionContext,
    countPrefix q.2 (countPrefix p.2 c) = countPrefix p.2 (countPrefix q.2 c) := by
  intro p hp q hq c
  simp only [prefixFields, List.mem_cons, List.not_mem_nil, or_false] at hp hq
  rcases hp with rfl | rfl | rfl | rfl | rfl | rfl | rfl | rfl | rfl | rfl | rfl | rfl | rfl | rfl
  all_goals
    rcases hq with rfl | rfl | rfl | rfl | rfl | rfl | rfl | rfl | rfl | rfl | rfl | rfl | rfl | rfl
    all_goals rfl

/-- A prefix counts one of the fields. -/
theorem takePrefix_eq {b : UInt8} (h : prefixField b ≠ none) : ∃ p ∈ prefixFields,
    ∀ c, takePrefix c b = countPrefix p.2 c := by
  obtain ⟨set, hset⟩ := Option.ne_none_iff_exists'.1 h
  obtain ⟨p, hp, rfl⟩ := Option.map_eq_some_iff.1 hset
  have hmem := List.mem_of_find?_eq_some hp
  refine ⟨p, hmem, fun c => ?_⟩
  rw [takePrefix, hset, countPrefix]
  dsimp only
  rw [(prefixFields_spec p hmem c).1]

/-- Two prefixes count in either order. -/
theorem takePrefix_comm (c : InstructionContext) (a b : UInt8) :
    takePrefix (takePrefix c a) b = takePrefix (takePrefix c b) a := by
  by_cases ha : prefixField a = none
  · simp only [takePrefix, ha]
  by_cases hb : prefixField b = none
  · simp only [takePrefix, hb]
  obtain ⟨p, hp, hA⟩ := takePrefix_eq ha
  obtain ⟨q, hq, hB⟩ := takePrefix_eq hb
  rw [hB, hA, hA, hB, countPrefix_comm p hp q hq]

/-- **The order of prefixes does not matter.** -/
theorem foldl_takePrefix_perm (h : pre'.Perm pre) (c : InstructionContext) :
    pre'.foldl takePrefix c = pre.foldl takePrefix c := by
  have : RightCommutative takePrefix := ⟨takePrefix_comm⟩
  exact h.foldl_eq c

/-- A permutation of the prefixes is decoded alike. -/
theorem decode_perm (hpre : ∀ b ∈ pre, (prefixField b).isSome = true) (hperm : pre'.Perm pre)
    (rest : List UInt8) :
    decodeX8664Instruction (pre' ++ rest) = decodeX8664Instruction (pre ++ rest) := by
  rw [decodeX8664Instruction, decodeX8664Instruction,
    resolvePrefixes_prefixes rest fun b hb => hpre b (hperm.mem_iff.1 hb),
    resolvePrefixes_prefixes rest hpre, foldl_takePrefix_perm hperm]

end

/-- **Decoding is local and does not depend on the order of the prefixes.** Whenever a stream is
decoded, every stream with the same bytes up to the instruction's length is decoded to the same
context, and so is every stream that arises by a permutation of prefixes at the start. -/
theorem decoding_local {s : List UInt8} {c : InstructionContext}
    (h : decodeX8664Instruction s = some c) :
    (∀ s' : List UInt8, (∀ j < c.instructionLength, s'.getD j 0 = s.getD j 0) →
      decodeX8664Instruction s' = some c) ∧
    ∀ pre pre' rest : List UInt8, s = pre ++ rest → (∀ b ∈ pre, (prefixField b).isSome = true) →
      pre'.Perm pre → decodeX8664Instruction (pre' ++ rest) = some c := by
  refine ⟨fun s' hs => decode_of_agree h hs, ?_⟩
  rintro pre pre' rest rfl hpre hperm
  rw [decode_perm hpre hperm, h]

/-- The instruction 66 F0 C7 03 34 12, followed by other bytes or with its prefixes exchanged. -/
theorem decoding_local_sample : ∃ c,
    decodeX8664Instruction [0x66, 0xf0, 0xc7, 0x03, 0x34, 0x12] = some c ∧ c.instructionLength = 6 ∧
    decodeX8664Instruction [0x66, 0xf0, 0xc7, 0x03, 0x34, 0x12, 0xff, 0xff] = some c ∧
    decodeX8664Instruction [0xf0, 0x66, 0xc7, 0x03, 0x34, 0x12] = some c := by
  have hlen : (decodeX8664Instruction [0x66, 0xf0, 0xc7, 0x03, 0x34, 0x12]).map
      (·.instructionLength) = some 6 := by decide +kernel
  obtain ⟨c, hc, hlen⟩ := Option.map_eq_some_iff.1 hlen
  obtain ⟨hlocal, hperm⟩ := decoding_local hc
  refine ⟨c, hc, hlen, hlocal _ ?_,
    hperm [0x66, 0xf0] [0xf0, 0x66] [0xc7, 0x03, 0x34, 0x12] rfl (by decide +kernel)
      (List.Perm.swap ..)⟩
  rw [hlen]
  decide

end ZeldaOS
