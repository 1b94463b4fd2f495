import Mathlib.Data.UInt

/-!
# The instruction decoder

Model of `vm_monitor/vmx_instruction_decoding.c`. The monitor decodes the instruction that touched
emulated memory: the prefixes, an opcode of the table `predefined_opcodes`, and the ModRM byte that
names the operands. An instruction stream is the list of its bytes; past the end of the list the
bytes are 0.

The loop over the prefixes also takes the escape byte 0x0f of two-byte opcodes, and 0x38 and 0x3a.
-/

namespace ZeldaOS

/-- `OPERAND_HINT_MR`, `OPERAND_HINT_RM` and `OPERAND_HINT_IM`: which operand is in memory. -/
inductive OperandHint
  | none
  | mr
  | rm
  | im
deriving DecidableEq, Repr

/-- `struct instruction_context`, without the two branch hints, which are never set. -/
structure InstructionContext where
  instructionLength : Nat := 0
  isLockPrefixed : Bool := false
  isRepnezPrefixed : Bool := false
  isRepPrefixed : Bool := false
  isCsOverrided : Bool := false
  isSsOverrided : Bool := false
  isDsOverrided : Bool := false
  isEsOverrided : Bool := false
  isFsOverrided : Bool := false
  isGsOverrided : Bool := false
  operandSizeOverrided : Bool := false
  addressSizeOverrided : Bool := false
  opcodeEscape0 : Bool := false
  opcodeEscape1 : Bool := false
  rexPrefix : UInt8 := 0
  opcode : Nat := 0
  opcodeLength : Nat := 0
  moderm : UInt8 := 0
  operandHint : OperandHint := .none
  regIndex : Nat := 0
  rmIndex : Nat := 0
  accessSize : Nat := 0
  immediate : Nat := 0
deriving DecidableEq, Repr

/-! ## Fields of the REX and ModRM bytes -/

/-- `REX_W_BIT`. -/
def rexWBit (rex : UInt8) : Bool := rex.toNat.testBit 3

/-- `REX_R_BIT`. -/
def rexRBit (rex : UInt8) : Bool := rex.toNat.testBit 2

/-- `REX_B_BIT`. -/
def rexBBit (rex : UInt8) : Bool := rex.toNat.testBit 0

/-- `MODERM_REG`. -/
def modermReg (moderm : UInt8) : Nat := (moderm.toNat >>> 3) &&& 0x7

/-- `MODERM_RM`. -/
def modermRm (moderm : UInt8) : Nat := moderm.toNat &&& 0x7

/-- `REG_INDEX`. -/
def regIndexOf (c : InstructionContext) : Nat :=
  modermReg c.moderm ||| if rexRBit c.rexPrefix then 1 <<< 3 else 0

/-- `REG_MEM_INDEX`. -/
def regMemIndexOf (c : InstructionContext) : Nat :=
  modermRm c.moderm ||| if rexBBit c.rexPrefix then 1 <<< 3 else 0

/-! ## Opcodes -/

/-- The word of `n` bytes at the start of the stream. -/
def streamWord (s : List UInt8) : Nat → Nat
  | 0 => 0
  | n + 1 => (s.headD 0).toNat + 256 * streamWord s.tail n

/-- The part that the resolvers share: take the ModRM byte and the registers it names. -/
def resolveModerm (s : List UInt8) (c : InstructionContext) : InstructionContext :=
  let c := { c with moderm := s.headD 0 }
  { c with rmIndex := regMemIndexOf c, regIndex := regIndexOf c }

/-- The resolvers of opcodes without an immediate, for a given access size. -/
def resolveAccess (accessSize : InstructionContext → Nat) (s : List UInt8)
    (c : InstructionContext) :
    InstructionContext :=
  { resolveModerm s c with
    instructionLength := c.instructionLength + 1
    accessSize := accessSize c }

/-- The size of an access by the operand-size prefix and REX.W. -/
def operandAccessSize (c : InstructionContext) : Nat :=
  if c.operandSizeOverrided then 2 else if rexWBit c.rexPrefix then 8 else 4

/-- `opcode_8a_resolver`. -/
def opcode8aResolver : List UInt8 → InstructionContext → InstructionContext :=
  resolveAccess fun _ => 1

/-- `opcode_8b_resolver`. -/
def opcode8bResolver : List UInt8 → InstructionContext → InstructionContext :=
  resolveAccess operandAccessSize

/-- `opcode_b6_resolver`. -/
def opcodeB6Resolver : List UInt8 → InstructionContext → InstructionContext :=
  resolveAccess fun _ => 1

/-- `opcode_b7_resolver`. -/
def opcodeB7Resolver : List UInt8 → InstructionContext → InstructionContext :=
  resolveAccess fun _ => 2

/-- `opcode_c6_resolver`. -/
def opcodeC6Resolver (s : List UInt8) (c : InstructionContext) : InstructionContext :=
  { resolveModerm s c with
    immediate := streamWord s.tail 1
    instructionLength := c.instructionLength + 2
    accessSize := 1 }

/-- `opcode_c7_resolver`: the operand-size prefix is tested before REX.W. -/
def opcodeC7Resolver (s : List UInt8) (c : InstructionContext) : InstructionContext :=
  let r := resolveModerm s c
  if c.operandSizeOverrided then
    { r with
      accessSize := 2
      immediate := streamWord s.tail 2
      instructionLength := c.instructionLength + 3 }
  else if rexWBit c.rexPrefix then
    { r with
      accessSize := 8
      immediate := streamWord s.tail 4
      instructionLength := c.instructionLength + 5 }
  else
    { r with
      accessSize := 4
      immediate := streamWord s.tail 4
      instructionLength := c.instructionLength + 5 }

/-- `OPCODE_MASK_BYTE`, `OPCODE_MASK_WORD` and `OPCODE_MASK_TRIBYTES`. -/
inductive OpcodeMask
  | byte
  | word
  | triBytes
deriving DecidableEq, Repr

/-- The number of bytes of the opcode. -/
def OpcodeMask.length : OpcodeMask → Nat
  | .byte => 1
  | .word => 2
  | .triBytes => 3

/-- The mask itself. -/
def OpcodeMask.value (mask : OpcodeMask) : Nat := 256 ^ mask.length - 1

/-- `struct opcode_def`. -/
structure OpcodeDef where
  code : Nat
  mask : OpcodeMask
  operandHint : OperandHint
  resolve : List UInt8 → InstructionContext → InstructionContext

/-- `predefined_opcodes`. -/
def predefinedOpcodes : List OpcodeDef :=
  [ ⟨0xb6, .byte, .mr, opcodeB6Resolver⟩,
    ⟨0xb7, .byte, .mr, opcodeB7Resolver⟩,
    ⟨0xc6, .byte, .im, opcodeC6Resolver⟩,
    ⟨0xc7, .byte, .im, opcodeC7Resolver⟩,
    ⟨0x8a, .byte, .mr, opcode8aResolver⟩,
    ⟨0x8b, .byte, .mr, opcode8bResolver⟩,
    ⟨0x88, .byte, .rm, opcode8aResolver⟩,
    ⟨0x89, .byte, .rm, opcode8bResolver⟩ ]

/-! ## Decoding -/

/-- The cases of the loop over the prefixes: the byte and the field it sets. -/
def prefixFields : List (UInt8 × (InstructionContext → InstructionContext)) :=
  [ (0x0f, fun c => { c with opcodeEscape0 := true }),
    (0x38, fun c => { c with opcodeEscape1 := true }),
    (0x3a, fun c => { c with opcodeEscape1 := true }),
    (0xf0, fun c => { c with isLockPrefixed := true }),
    (0xf2, fun c => { c with isRepnezPrefixed := true }),
    (0xf3, fun c => { c with isRepPrefixed := true }),
    (0x2e, fun c => { c with isCsOverrided := true }),
    (0x36, fun c => { c with isSsOverrided := true }),
    (0x3e, fun c => { c with isDsOverrided := true }),
    (0x26, fun c => { c with isEsOverrided := true }),
    (0x64, fun c => { c with isFsOverrided := true }),
    (0x65, fun c => { c with isGsOverrided := true }),
    (0x66, fun c => { c with operandSizeOverrided := true }),
    (0x67, fun c => { c with addressSizeOverrided := true }) ]

/-- The field that a prefix sets, if the byte is one. -/
def prefixField (b : UInt8) : Option (InstructionContext → InstructionContext) :=
  (prefixFields.find? fun p => p.1 == b).map Prod.snd

/-- The loop over the prefixes. It stops at a byte 0 or at the first byte that is no prefix. -/
def resolvePrefixes : List UInt8 → InstructionContext → List UInt8 × InstructionContext
  | [], c => ([], c)
  | b :: s, c =>
    if b = 0 then (b :: s, c)
    else
      match prefixField b with
      | none => (b :: s, c)
      | some set =>
        resolvePrefixes s { set c with instructionLength := (set c).instructionLength + 1 }

/-- The test for a REX prefix. -/
def resolveRex (s : List UInt8) (c : InstructionContext) : List UInt8 × InstructionContext :=
  let b := s.headD 0
  if 0x40 ≤ b ∧ b ≤ 0x4f then
    (s.tail, { c with rexPrefix := b, instructionLength := c.instructionLength + 1 })
  else (s, c)

/-- The loop over the table of opcodes, and the assertion that one was found. -/
def resolveOpcode (s : List UInt8) (c : InstructionContext) : Option InstructionContext :=
  let w := streamWord s 4
  match predefinedOpcodes.find? fun d => d.mask.value &&& d.code == d.mask.value &&& w with
  | none => none
  | some d =>
    let c := d.resolve (s.drop d.mask.length)
      { c with
        opcode := w &&& d.mask.value
        opcodeLength := d.mask.length
        instructionLength := c.instructionLength + d.mask.length
        operandHint := d.operandHint }
    if c.opcode = 0 then none else some c

/-- `decode_x86_64_instruction`. -/
def decodeX8664Instruction (s : List UInt8) : Option InstructionContext :=
  let afterPrefixes := resolvePrefixes s {}
  let afterRex := resolveRex afterPrefixes.1 afterPrefixes.2
  resolveOpcode afterRex.1 afterRex.2

end ZeldaOS
