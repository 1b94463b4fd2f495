import Mathlib.Data.UInt

/-!
# MOV and MOVZX instructions of x86-64

The memory forms of MOV (88, 89, 8A, 8B, C6 /0, C7 /0) and MOVZX (0F B6, 0F B7) in 64-bit mode: how
they are encoded (`MovInstruction.bytes`) and what address they access
(`MovInstruction.effectiveAddress`). A `MovInstruction` carries the rules of the encoding as fields,
so that every value of the type is an instruction: a SIB byte stands exactly when the `rm` field is
4, and the lengths of displacement and immediate follow from the other fields.

The effective address is the offset of the operand. The base of its segment, which is 0 in 64-bit
mode unless FS or GS is selected, is not part of it.
-/

namespace ZeldaOS

/-- The opcodes, by their last byte. -/
inductive MovOpcode
  | op88
  | op89
  | op8a
  | op8b
  | opC6
  | opC7
  | opB6
  | opB7
deriving DecidableEq, Repr

/-- The size of an operand in bytes. REX.W takes precedence over the operand-size prefix. -/
def operandSize (operandSize16 rexW : Bool) : Nat :=
  if rexW then 8 else if operandSize16 then 2 else 4

/-- The value of a 32-bit immediate that is stored in `size` bytes: sign extended if they are
eight. -/
def immediateValue (size imm : Nat) : Nat :=
  if size = 8 ∧ 2 ^ 31 ≤ imm then imm + (2 ^ 64 - 2 ^ 32) else imm

namespace MovOpcode

/-- The size of the memory operand. -/
def memorySize (op : MovOpcode) (operandSize16 rexW : Bool) : Nat :=
  match op with
  | .op88 | .op8a | .opC6 | .opB6 => 1
  | .opB7 => 2
  | .op89 | .op8b | .opC7 => operandSize operandSize16 rexW

/-- The size of the register operand. -/
def registerSize (op : MovOpcode) (operandSize16 rexW : Bool) : Nat :=
  match op with
  | .op88 | .op8a => 1
  | _ => operandSize operandSize16 rexW

/-- The opcodes that load a register. -/
def isLoad : MovOpcode → Bool
  | .op8a | .op8b | .opB6 | .opB7 => true
  | _ => false

/-- The opcodes that store a register. -/
def isStore : MovOpcode → Bool
  | .op88 | .op89 => true
  | _ => false

/-- The escape byte of the two-byte opcodes. -/
def escape : MovOpcode → List UInt8
  | .opB6 | .opB7 => [0x0f]
  | _ => []

/-- The last byte of the opcode. -/
def byte : MovOpcode → UInt8
  | .op88 => 0x88
  | .op89 => 0x89
  | .op8a => 0x8a
  | .op8b => 0x8b
  | .opC6 => 0xc6
  | .opC7 => 0xc7
  | .opB6 => 0xb6
  | .opB7 => 0xb7

/-- The bytes of the immediate. REX.W takes precedence over the operand-size prefix. -/
def immediateLength (op : MovOpcode) (operandSize16 rexW : Bool) : Nat :=
  match op with
  | .opC6 => 1
  | .opC7 => if rexW then 4 else if operandSize16 then 2 else 4
  | _ => 0

end MovOpcode

/-- The legacy prefixes: LOCK, REPNE, REP, the segment overrides CS, SS, DS, ES, FS and GS, the
operand size and the address size. -/
def legacyBytes : List UInt8 := [0xf0, 0xf2, 0xf3, 0x2e, 0x36, 0x3e, 0x26, 0x64, 0x65, 0x66, 0x67]

/-- The REX prefix with the given low bits. -/
def rexPrefixByte (r : Fin 16) : UInt8 := UInt8.ofNat (0x40 + r)

/-- The base field of a SIB byte. -/
def sibBase (sib : UInt8) : Nat := sib.toNat % 8

/-- The index field of a SIB byte. -/
def sibIndex (sib : UInt8) : Nat := sib.toNat / 8 % 8

/-- The scale field of a SIB byte. -/
def sibScale (sib : UInt8) : Nat := sib.toNat / 64

/-- The bytes of the displacement. -/
def displacementLength (mod : Fin 3) (rm : Fin 8) (sib : Option UInt8) : Nat :=
  match mod with
  | 0 => if rm = 5 ∨ sib.map sibBase = some 5 then 4 else 0
  | 1 => 1
  | 2 => 4

/-- A MOV or MOVZX instruction with a memory operand. -/
structure MovInstruction where
  legacy : List UInt8
  legacy_mem : ∀ b ∈ legacy, b ∈ legacyBytes
  /-- The low four bits of a REX prefix. -/
  rex : Option (Fin 16)
  opcode : MovOpcode
  mod : Fin 3
  reg : Fin 8
  rm : Fin 8
  sib : Option UInt8
  sib_isSome : sib.isSome = true ↔ rm = 4
  disp : List UInt8
  disp_length : disp.length = displacementLength mod rm sib
  imm : List UInt8
  imm_length : imm.length =
    opcode.immediateLength (0x66 ∈ legacy) (rex.any fun r => r.val.testBit 3)
  reg_eq_zero : opcode = .opC6 ∨ opcode = .opC7 → reg = 0

namespace MovInstruction

variable (i : MovInstruction)

/-- A bit of the REX prefix: W is bit 3, R bit 2, X bit 1 and B bit 0. -/
def rexBit (n : Nat) : Bool := i.rex.any fun r => r.val.testBit n

/-- The size of the memory operand. -/
def memorySize : Nat := i.opcode.memorySize (0x66 ∈ i.legacy) (i.rexBit 3)

/-- The size of the register operand. -/
def registerSize : Nat := i.opcode.registerSize (0x66 ∈ i.legacy) (i.rexBit 3)

/-- The REX prefix. -/
def rexBytes : List UInt8 := i.rex.toList.map rexPrefixByte

/-- The ModRM byte. -/
def modrm : UInt8 := UInt8.ofNat (64 * i.mod + 8 * i.reg + i.rm)

/-- What follows the ModRM byte. -/
def operandBytes : List UInt8 := i.sib.toList ++ i.disp ++ i.imm

/-- The bytes of the instruction. -/
def bytes : List UInt8 :=
  i.legacy ++ i.rexBytes ++ i.opcode.escape ++ i.opcode.byte :: i.modrm :: i.operandBytes

/-- The length of the instruction. -/
def length : Nat := i.bytes.length

/-- The displacement, sign extended. -/
def displacement : Int :=
  Int.bmod (i.disp.foldr (fun b n => b.toNat + 256 * n) 0 : Nat) (256 ^ i.disp.length)

/-- A register number extended by a bit of the REX prefix. -/
def extend (n bit : Nat) : Nat := n + if i.rexBit bit then 8 else 0

/-- The number of the register operand. -/
def registerNumber : Nat := i.extend i.reg 2

/-- The part of the address that a SIB byte gives: base 5 without a displacement byte stands for no
base, and index 4 for no index. -/
def sibAddress (gpr : Nat → Nat) (sib : UInt8) : Nat :=
  let base := if i.mod = 0 ∧ sibBase sib = 5 then 0 else gpr (i.extend (sibBase sib) 0)
  let index := i.extend (sibIndex sib) 1
  base + if index = 4 then 0 else gpr index * 2 ^ sibScale sib

/-- The part of the address without the displacement. -/
def baseAddress (gpr : Nat → Nat) (rip : Nat) : Nat :=
  match i.sib with
  | some sib => i.sibAddress gpr sib
  | none => if i.mod = 0 ∧ i.rm = 5 then rip + i.length else gpr (i.extend i.rm 0)

/-- The width of an address. -/
def addressBits : Nat := if 0x67 ∈ i.legacy then 32 else 64

/-- The effective address of the memory operand, from the general registers and the address of the
instruction. -/
def effectiveAddress (gpr : Nat → Nat) (rip : Nat) : Nat :=
  ((i.baseAddress gpr rip + i.displacement) % 2 ^ i.addressBits).toNat

theorem length_eq : i.length = i.legacy.length + i.rexBytes.length + i.opcode.escape.length + 2 +
    (i.sib.toList.length + i.disp.length + i.imm.length) := by
  simp only [length, bytes, operandBytes, List.length_append, List.length_cons]
  omega

theorem registerNumber_lt : i.registerNumber < 16 := by
  rw [registerNumber, extend]
  split <;> omega

/-- A load fills no more of a register than its operand. -/
theorem memorySize_le_registerSize : i.memorySize ≤ i.registerSize := by
  rw [memorySize, registerSize]
  cases i.opcode <;> simp only [MovOpcode.memorySize, MovOpcode.registerSize, operandSize] <;>
    (repeat' split) <;> omega

theorem modrm_toNat : i.modrm.toNat = 64 * i.mod + 8 * i.reg + i.rm := by
  rw [modrm, UInt8.toNat_ofNat', Nat.mod_eq_of_lt (by omega)]

/-- Nothing but the immediate follows the ModRM byte exactly when the operand is a plain register
other than those whose codes stand for a SIB byte and for RIP. -/
theorem no_displacement_iff :
    i.sib.toList.length + i.disp.length = 0 ↔ i.mod = 0 ∧ i.rm ≠ 4 ∧ i.rm ≠ 5 := by
  have hsib := i.sib_isSome
  have hdisp := i.disp_length
  cases hs : i.sib with
  | some sib =>
    rw [hs] at hsib
    have hrm : i.rm = 4 := hsib.1 rfl
    simp [hrm]
  | none =>
    rw [hs] at hsib hdisp
    have hrm : i.rm ≠ 4 := fun h => by simpa using hsib.2 h
    rw [hdisp]
    unfold displacementLength
    split
    · next hmod => simp [hmod, hrm]
    · next hmod => simp [hmod]
    · next hmod => simp [hmod]

/-- Such an operand is at the address in its register. -/
theorem effectiveAddress_of_plain (gpr : Nat → Nat) (rip : Nat) (hmod : i.mod = 0) (h4 : i.rm ≠ 4)
    (h5 : i.rm ≠ 5) : i.effectiveAddress gpr rip = gpr (i.extend i.rm 0) % 2 ^ i.addressBits := by
  have hlen := i.no_displacement_iff.2 ⟨hmod, h4, h5⟩
  have hdisp : i.disp = [] := List.length_eq_zero_iff.1 (by omega)
  have hsib : i.sib = none := by
    cases hs : i.sib with
    | none => rfl
    | some sib => rw [hs] at hlen; simp at hlen
  have hzero : i.displacement = 0 := by
    rw [displacement, hdisp]
    rfl
  rw [effectiveAddress, baseAddress, hsib, hzero, Int.add_zero]
  simp only [h5, and_false, if_false]
  exact Int.toNat_natCast _

end MovInstruction

/-! ## Accesses through RBX -/

/-- The number of RAX in a ModRM byte. -/
def raxNumber : Fin 8 := 0

/-- The number of RBX in a ModRM byte. -/
def rbxNumber : Fin 8 := 3

/-- A REX prefix of which only W is set. -/
def rexWOnly : Fin 16 := 8

theorem no_sib : (none : Option UInt8).isSome = true ↔ (3 : Fin 8) = 4 := by decide

/-- The instruction `mov eax, [rbx + disp]`. -/
def movRbx (mod : Fin 3) (disp : List UInt8) (hdisp : disp.length = displacementLength mod 3 none) :
    MovInstruction where
  legacy := []
  legacy_mem := fun _ h => absurd h List.not_mem_nil
  rex := none
  opcode := .op8b
  mod := mod
  reg := 0
  rm := 3
  sib := none
  sib_isSome := no_sib
  disp := disp
  disp_length := hdisp
  imm := []
  imm_length := rfl
  reg_eq_zero := fun _ => rfl

/-- The instruction `mov eax, [rbx]`. -/
def movRbxPlain : MovInstruction := movRbx 0 [] rfl

/-- The instruction `mov eax, [rbx + 8]`. -/
def movRbxPlus8 : MovInstruction := movRbx 1 [8] rfl

theorem op8a_not_immediate : MovOpcode.op8a = .opC6 ∨ MovOpcode.op8a = .opC7 → (4 : Fin 8) = 0 := by
  rintro (h | h) <;> cases h

/-- The instruction `mov ah, [rbx]`. -/
def movAhRbx : MovInstruction where
  legacy := []
  legacy_mem := fun _ h => absurd h List.not_mem_nil
  rex := none
  opcode := .op8a
  mod := 0
  reg := 4
  rm := 3
  sib := none
  sib_isSome := no_sib
  disp := []
  disp_length := rfl
  imm := []
  imm_length := rfl
  reg_eq_zero := op8a_not_immediate

end ZeldaOS
