import ZeldaOS.VmMonitor.EmulationCorrect

/-!
# Operand sizes and immediates

When the decoder finds the size of an operand, and the value and the length of an immediate, that
the x86-64 rules give a one-byte opcode with a plain memory operand (`PlainMov`).

The resolvers test the operand-size prefix before REX.W, so the two together give an access of two
bytes instead of eight; and the 32-bit immediate of C7 is taken as an unsigned number, so that with
REX.W a negative one is stored without its sign. The decoder is right about everything else
(`operandRight_iff`).
-/

namespace ZeldaOS

/-- Legacy prefixes, a REX prefix or none, a one-byte opcode and a ModRM byte with mode 0 and a
plain register for the address. -/
structure PlainMov where
  legacy : List UInt8
  legacy_mem : ∀ b ∈ legacy, b ∈ legacyBytes
  /-- The low four bits of a REX prefix. -/
  rex : Option (Fin 16)
  opcode : MovOpcode
  escape_eq : opcode.escape = []
  reg : Fin 8
  rm : Fin 8
  rm_plain : rm ≠ 4 ∧ rm ≠ 5

namespace PlainMov

variable (i : PlainMov)

/-- The ModRM byte. -/
def modrm : UInt8 := UInt8.ofNat (8 * i.reg + i.rm)

/-- A stream that starts with the prefixes, the opcode and the ModRM byte. -/
def stream (rest : List UInt8) : List UInt8 :=
  i.legacy ++ (i.rex.toList.map rexPrefixByte ++ i.opcode.byte :: i.modrm :: rest)

/-- A prefix for 16-bit operands is present. -/
def operandSize16 : Bool := 0x66 ∈ i.legacy

/-- REX.W. -/
def rexW : Bool := i.rex.any fun r => r.val.testBit 3

/-- The size of the memory operand. -/
def size : Nat := i.opcode.memorySize i.operandSize16 i.rexW

/-- The bytes of the immediate of C7. -/
def immediateLength : Nat := if i.size = 2 then 2 else 4

end PlainMov

/-- The decoder finds the operand size and, for C7, the immediate and the length of the instruction
with it. -/
def OperandRight (i : PlainMov) (rest : List UInt8) : Prop :=
  ∃ c, decodeX8664Instruction (i.stream rest) = some c ∧ c.accessSize = i.size ∧
    (i.opcode = .opC7 →
      c.immediate % 256 ^ i.size = immediateValue i.size (streamWord rest i.immediateLength) ∧
      c.instructionLength = i.legacy.length + i.rex.toList.length + 2 + i.immediateLength)

/-- A number of `n` bytes. -/
theorem streamWord_lt : ∀ (n : Nat) (s : List UInt8), streamWord s n < 256 ^ n
  | 0, _ => Nat.one_pos
  | n + 1, s => by
    have hb := (s.headD 0).toNat_lt
    have hrest := streamWord_lt n s.tail
    rw [streamWord, Nat.pow_succ]
    omega

/-- The access size that the resolvers choose: the operand-size prefix takes precedence. -/
def decodedSize (op : MovOpcode) (operandSize16 rexW : Bool) : Nat :=
  match op with
  | .op88 | .op8a | .opC6 | .opB6 => 1
  | .opB7 => 2
  | .op89 | .op8b | .opC7 => if operandSize16 then 2 else if rexW then 8 else 4

/-- The size of the access that the decoder finds. -/
theorem resolve_accessSize (op : MovOpcode) (s : List UInt8) (c : InstructionContext) :
    ((opcodeDefOf op).resolve s c).accessSize =
      decodedSize op c.operandSizeOverrided (rexWBit c.rexPrefix) := by
  cases op with
  | opC7 =>
    cases hsize : c.operandSizeOverrided <;> cases hrex : rexWBit c.rexPrefix <;>
      simp [opcodeDefOf, opcodeC7Resolver, decodedSize, hsize, hrex]
  | _ => rfl

/-- The immediate of opcode 0xc7. -/
theorem resolve_immediate (s : List UInt8) (c : InstructionContext) :
    (opcodeC7Resolver s c).immediate =
    streamWord s.tail (if c.operandSizeOverrided then 2 else 4) := by
  cases hsize : c.operandSizeOverrided <;> cases hrex : rexWBit c.rexPrefix <;>
    simp [opcodeC7Resolver, hsize, hrex]

/-- **What the decoder makes of the stream.** -/
theorem decode_plainMov (i : PlainMov) (rest : List UInt8) :
    ∃ c, decodeX8664Instruction (i.stream rest) = some c ∧
      c.accessSize = decodedSize i.opcode i.operandSize16 i.rexW ∧
      c.instructionLength = i.legacy.length + i.rex.toList.length + 2 +
        decodedImmediate i.opcode i.operandSize16 ∧
      (i.opcode = .opC7 → c.immediate = streamWord rest (if i.operandSize16 then 2 else 4)) := by
  have hpre : ∀ b ∈ i.legacy, (prefixField b).isSome = true := fun b hb =>
    prefixField_of_legacy (i.legacy_mem b hb)
  obtain ⟨-, hrange, -⟩ := opcode_byte_spec i.opcode
  obtain ⟨-, -, hflag⟩ := foldl_takePrefix hpre {}
  have hflag' : (i.legacy.foldl takePrefix {}).operandSizeOverrided = i.operandSize16 :=
    hflag.trans (Bool.false_or _)
  have hrexW : rexWBit (rexByte i.rex) = i.rexW := rexByte_testBit i.rex 3
  rw [PlainMov.stream, decode_append i.rex hpre (prefixField_head ..) hrange, resolveOpcode_mov]
  refine ⟨_, rfl, ?_, ?_, fun hop => ?_⟩
  · rw [resolve_accessSize]
    dsimp only
    rw [hflag', hrexW]
  · rw [(resolve_spec _ _ _).2.2.2]
    dsimp only
    rw [hflag']
  · rw [hop]
    exact (resolve_immediate _ _).trans (by rw [hflag']; rfl)

/-- An immediate without its sign is right in eight bytes exactly when it is not negative. -/
theorem immediateValue_eight {imm : Nat} (h : imm < 256 ^ 4) :
    imm % 256 ^ 8 = immediateValue 8 imm ↔ imm < 2 ^ 31 := by
  rw [Nat.mod_eq_of_lt (by omega), immediateValue]
  split <;> omega

/-- **When operand size and immediate are right.** For every stream of the form, they are right
exactly when no operand-size prefix stands with REX.W in front of an opcode with operands of several
sizes, and the immediate of a C7 with REX.W is not negative. -/
theorem operandRight_iff (i : PlainMov) (rest : List UInt8) :
    OperandRight i rest ↔
      (i.opcode = .op89 ∨ i.opcode = .op8b ∨ i.opcode = .opC7 →
        ¬ (i.operandSize16 = true ∧ i.rexW = true)) ∧
      (i.opcode = .opC7 → i.rexW = true → streamWord rest 4 < 2 ^ 31) := by
  obtain ⟨c, hc, hsize, hlen, himm⟩ := decode_plainMov i rest
  have hright : OperandRight i rest ↔ c.accessSize = i.size ∧ (i.opcode = .opC7 →
      c.immediate % 256 ^ i.size = immediateValue i.size (streamWord rest i.immediateLength) ∧
      c.instructionLength = i.legacy.length + i.rex.toList.length + 2 + i.immediateLength) := by
    constructor
    · rintro ⟨c', hc', h⟩
      rw [hc] at hc'
      cases hc'
      exact h
    · exact fun h => ⟨c, hc, h⟩
  rw [hright, hsize, hlen]
  have hshort := streamWord_lt 2 rest
  have hlong := streamWord_lt 4 rest
  cases hop : i.opcode with
  | opB6 | opB7 =>
    have := i.escape_eq
    rw [hop] at this
    cases this
  | op88 | op8a | opC6 =>
    simp [PlainMov.size, hop, MovOpcode.memorySize, decodedSize]
  | op89 | op8b =>
    cases h16 : i.operandSize16 <;> cases hw : i.rexW <;>
      simp [PlainMov.size, hop, MovOpcode.memorySize, decodedSize, operandSize, h16, hw]
  | opC7 =>
    have hsign := immediateValue_eight hlong
    rw [himm hop]
    -- the two prefixes decide size and length; what is left is the value
    cases h16 : i.operandSize16 <;> cases hw : i.rexW <;>
      simp only [PlainMov.size, PlainMov.immediateLength, hop, MovOpcode.memorySize, decodedSize,
        decodedImmediate, operandSize, h16, hw, if_true, if_false, Bool.false_eq_true]
    · simpa [immediateValue] using hlong
    · simpa using hsign
    · simpa [immediateValue] using hshort
    · simp

/-- The prefix 0x66 is a legacy prefix. -/
theorem operandSize_legacy : ∀ b ∈ [(0x66 : UInt8)], b ∈ legacyBytes := by
  simp [legacyBytes]

/-- There may be none. -/
theorem no_legacy : ∀ b ∈ ([] : List UInt8), b ∈ legacyBytes := by
  simp

/-- The register `rbx` needs neither a SIB byte nor a displacement. -/
theorem rbx_plain : rbxNumber ≠ 4 ∧ rbxNumber ≠ 5 := by
  decide

/-- The instruction `mov [rbx], rax` with a prefix for 16-bit operands, 66 48 89 03. -/
def movRbxRax : PlainMov where
  legacy := [0x66]
  legacy_mem := operandSize_legacy
  rex := some rexWOnly
  opcode := .op89
  escape_eq := rfl
  reg := raxNumber
  rm := rbxNumber
  rm_plain := rbx_plain

/-- The instruction `mov qword [rbx], imm32`, 48 c7 03. -/
def movRbxImm : PlainMov where
  legacy := []
  legacy_mem := no_legacy
  rex := some rexWOnly
  opcode := .opC7
  escape_eq := rfl
  reg := raxNumber
  rm := rbxNumber
  rm_plain := rbx_plain

/-- **A store of two bytes instead of eight, and a lost sign.** The access size of 66 48 89 03 is 2,
and the immediate of `mov qword [rbx], -1`, which is 48 c7 03 ff ff ff ff, is 0xffffffff. -/
theorem operandSize_wrong :
    (decodeX8664Instruction (movRbxRax.stream [])).map (·.accessSize) = some 2 ∧
    ¬ OperandRight movRbxRax [] ∧
    (decodeX8664Instruction (movRbxImm.stream [0xff, 0xff, 0xff, 0xff])).map
      (fun c => (c.accessSize, c.immediate)) = some (8, 0xffffffff) ∧
    ¬ OperandRight movRbxImm [0xff, 0xff, 0xff, 0xff] := by
  have hsize : (decodeX8664Instruction (movRbxRax.stream [])).map (·.accessSize) = some 2 := by
    decide +kernel
  have himm : (decodeX8664Instruction (movRbxImm.stream [0xff, 0xff, 0xff, 0xff])).map
      (fun c => (c.accessSize, c.immediate)) = some (8, 0xffffffff) := by decide +kernel
  refine ⟨hsize, ?_, himm, ?_⟩
  · rintro ⟨c, hc, hright, -⟩
    rw [hc, Option.map_some, Option.some.injEq, hright] at hsize
    exact absurd hsize (by decide)
  · rintro ⟨c, hc, -, hright⟩
    rw [hc, Option.map_some, Option.some.injEq, Prod.mk.injEq] at himm
    have hvalue := (hright rfl).1
    rw [himm.2] at hvalue
    exact absurd hvalue (by decide)

end ZeldaOS
