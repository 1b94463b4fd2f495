import Mathlib.Data.List.Find
import ZeldaOS.Lib.Bits
import ZeldaOS.Lib.MovInstruction
import ZeldaOS.VmMonitor.EptCorrect
import ZeldaOS.VmMonitor.EptMisconfig

/-!
# Emulated instructions

When the emulation of a MOV or MOVZX instruction accesses the address the instruction means, and
resumes the guest behind it.

The decoder is followed from left to right: the loop over the prefixes takes the legacy prefixes and
the escape byte (`resolvePrefixes_append`), then comes the REX prefix (`resolveRex_rex`), then the
opcode (`resolveOpcode_mov`). It never looks at the SIB byte or the displacement, and takes the
address from the register that the ModRM byte names (`decode_mov`). So it is right exactly about the
instructions without them, apart from two uses of prefixes (`emulation_exact_iff`); on the others it
is wrong about the length, the address or both (`emulation_ignores_displacement`).
-/

namespace ZeldaOS

/-! ## Prefixes -/

/-- A prefix sets a flag and nothing else; 0x66 sets the one of the operand size. -/
theorem prefixFields_spec : ∀ p ∈ prefixFields, ∀ c : InstructionContext,
    (p.2 c).instructionLength = c.instructionLength ∧ (p.2 c).rexPrefix = c.rexPrefix ∧
      (p.2 c).operandSizeOverrided = (c.operandSizeOverrided || p.1 == 0x66) := by
  intro p hp c
  simp only [prefixFields, List.mem_cons, List.not_mem_nil, or_false] at hp
  rcases hp with rfl | rfl | rfl | rfl | rfl | rfl | rfl | rfl | rfl | rfl | rfl | rfl | rfl | rfl
  all_goals simp

/-- The context after one more prefix. -/
def takePrefix (c : InstructionContext) (b : UInt8) : InstructionContext :=
  match prefixField b with
  | none => c
  | some set => { set c with instructionLength := (set c).instructionLength + 1 }

/-- The loop takes the prefixes at the start of a stream. -/
theorem resolvePrefixes_prefixes {pre : List UInt8} (s : List UInt8)
    (hpre : ∀ b ∈ pre, (prefixField b).isSome = true) (c : InstructionContext) :
    resolvePrefixes (pre ++ s) c = resolvePrefixes s (pre.foldl takePrefix c) := by
  induction pre generalizing c with
  | nil => rfl
  | cons b pre ih =>
    obtain ⟨set, hset⟩ := Option.isSome_iff_exists.1 (hpre b List.mem_cons_self)
    have hne : b ≠ 0 := by
      rintro rfl
      cases hset
    rw [List.cons_append, resolvePrefixes, if_neg hne, hset]
    dsimp only
    rw [ih (fun x hx => hpre x (List.mem_cons_of_mem _ hx)), List.foldl_cons, takePrefix, hset]

/-- The loop takes all prefixes in front of a byte that is none. -/
theorem resolvePrefixes_append {pre s : List UInt8}
    (hpre : ∀ b ∈ pre, (prefixField b).isSome = true)
    (hs : prefixField (s.headD 0) = none) (c : InstructionContext) :
    resolvePrefixes (pre ++ s) c = (s, pre.foldl takePrefix c) := by
  rw [resolvePrefixes_prefixes s hpre]
  cases s with
  | nil => rfl
  | cons b s =>
    rw [List.headD_cons] at hs
    rw [resolvePrefixes, hs]
    split <;> rfl

/-- What the prefixes leave in the context. -/
theorem foldl_takePrefix {pre : List UInt8} (hpre : ∀ b ∈ pre, (prefixField b).isSome = true)
    (c : InstructionContext) :
    (pre.foldl takePrefix c).instructionLength = c.instructionLength + pre.length ∧
      (pre.foldl takePrefix c).rexPrefix = c.rexPrefix ∧
      (pre.foldl takePrefix c).operandSizeOverrided =
        (c.operandSizeOverrided || decide (0x66 ∈ pre)) := by
  induction pre generalizing c with
  | nil => simp
  | cons b pre ih =>
    obtain ⟨set, hset⟩ := Option.isSome_iff_exists.1 (hpre b List.mem_cons_self)
    obtain ⟨p, hp, rfl⟩ := Option.map_eq_some_iff.1 hset
    have hb : p.1 = b := by simpa using List.find?_some hp
    obtain ⟨hlen, hrex, hsize⟩ := prefixFields_spec p (List.mem_of_find?_eq_some hp) c
    obtain ⟨ihlen, ihrex, ihsize⟩ := ih (fun x hx => hpre x (List.mem_cons_of_mem _ hx))
      (takePrefix c b)
    rw [List.foldl_cons, ihlen, ihrex, ihsize, takePrefix, hset]
    dsimp only
    rw [hlen, hrex, hsize, hb, List.length_cons]
    refine ⟨by omega, rfl, ?_⟩
    rw [Bool.or_assoc]
    congr 1
    by_cases h : b = 0x66
    · simp [h]
    · simp [h, Ne.symm h]

/-- The decoder knows every legacy prefix. -/
theorem prefixField_of_legacy {b : UInt8} (hb : b ∈ legacyBytes) :
    (prefixField b).isSome = true := by
  have hall : legacyBytes.all (fun b => (prefixField b).isSome) = true := by decide
  exact List.all_eq_true.1 hall b hb

/-! ## REX -/

/-- The byte that the context keeps of a REX prefix. -/
def rexByte (rex : Option (Fin 16)) : UInt8 := rex.elim 0 rexPrefixByte

/-- A REX prefix is none of them, -/
theorem prefixField_rex : ∀ r : Fin 16, prefixField (rexPrefixByte r) = none := by
  decide

/-- but has its own range, -/
theorem rexPrefixByte_range : ∀ r : Fin 16, 0x40 ≤ rexPrefixByte r ∧ rexPrefixByte r ≤ 0x4f := by
  decide

/-- and its four bits are read back. -/
theorem rexPrefixByte_testBit : ∀ (r : Fin 16) (n : Fin 4),
    (rexPrefixByte r).toNat.testBit n = r.val.testBit n := by
  decide

/-- A bit of the REX prefix, as the decoder reads it. -/
theorem rexByte_testBit (rex : Option (Fin 16)) (n : Fin 4) :
    (rexByte rex).toNat.testBit n = rex.any fun r => r.val.testBit n := by
  cases rex with
  | none => exact Nat.zero_testBit n
  | some r => exact rexPrefixByte_testBit r n

/-- A REX prefix is taken if there is one. -/
theorem resolveRex_rex (rex : Option (Fin 16)) {b : UInt8} (s : List UInt8)
    (hb : ¬ (0x40 ≤ b ∧ b ≤ 0x4f)) {c : InstructionContext} (hc : c.rexPrefix = 0) :
    resolveRex (rex.toList.map rexPrefixByte ++ b :: s) c =
      (b :: s, { c with
        rexPrefix := rexByte rex
        instructionLength := c.instructionLength + rex.toList.length }) := by
  cases rex with
  | none =>
    rw [Option.toList_none, List.map_nil, List.nil_append, resolveRex, List.headD_cons]
    refine (if_neg hb).trans ?_
    cases c
    cases hc
    rfl
  | some r =>
    rw [Option.toList_some, List.map_singleton, List.singleton_append, resolveRex]
    exact (if_pos (rexPrefixByte_range r)).trans rfl

/-! ## Opcodes -/

/-- The entry of the table for an opcode. -/
def opcodeDefOf : MovOpcode → OpcodeDef
  | .op88 => ⟨0x88, .byte, .rm, opcode8aResolver⟩
  | .op89 => ⟨0x89, .byte, .rm, opcode8bResolver⟩
  | .op8a => ⟨0x8a, .byte, .mr, opcode8aResolver⟩
  | .op8b => ⟨0x8b, .byte, .mr, opcode8bResolver⟩
  | .opC6 => ⟨0xc6, .byte, .im, opcodeC6Resolver⟩
  | .opC7 => ⟨0xc7, .byte, .im, opcodeC7Resolver⟩
  | .opB6 => ⟨0xb6, .byte, .mr, opcodeB6Resolver⟩
  | .opB7 => ⟨0xb7, .byte, .mr, opcodeB7Resolver⟩

/-- The bytes that the decoder takes for the immediate. -/
def decodedImmediate (op : MovOpcode) (operandSize16 : Bool) : Nat :=
  match op with
  | .opC6 => 1
  | .opC7 => if operandSize16 then 2 else 4
  | _ => 0

/-- What the resolvers have in common: they take the ModRM byte and the immediate, and nothing
between them. -/
theorem resolve_spec (op : MovOpcode) (s : List UInt8) (c : InstructionContext) :
    ((opcodeDefOf op).resolve s c).opcode = c.opcode ∧
      ((opcodeDefOf op).resolve s c).operandHint = c.operandHint ∧
      ((opcodeDefOf op).resolve s c).rmIndex = regMemIndexOf { c with moderm := s.headD 0 } ∧
      ((opcodeDefOf op).resolve s c).instructionLength =
        c.instructionLength + 1 + decodedImmediate op c.operandSizeOverrided := by
  cases op with
  | opC7 =>
    cases hsize : c.operandSizeOverrided <;> cases hrex : rexWBit c.rexPrefix <;>
      simp [opcodeDefOf, opcodeC7Resolver, resolveModerm, decodedImmediate, hsize, hrex]
  | _ => exact ⟨rfl, rfl, rfl, rfl⟩

/-- They all take the register operand from the ModRM byte. -/
theorem resolve_regIndex (op : MovOpcode) (s : List UInt8) (c : InstructionContext) :
    ((opcodeDefOf op).resolve s c).regIndex = regIndexOf { c with moderm := s.headD 0 } := by
  cases op with
  | opC7 =>
    cases hsize : c.operandSizeOverrided <;> cases hrex : rexWBit c.rexPrefix <;>
      simp [opcodeDefOf, opcodeC7Resolver, resolveModerm, hsize, hrex]
  | _ => rfl

/-- The low byte of the word at the start of a stream. -/
theorem streamWord_and_byte (b : UInt8) (s : List UInt8) :
    OpcodeMask.byte.value &&& streamWord (b :: s) 4 = b.toNat := by
  have hb := b.toNat_lt
  rw [Nat.and_comm]
  refine (and_mask_eq_mod _ 8).trans ?_
  rw [streamWord, List.headD_cons]
  omega

/-- All opcodes of the table are one byte. -/
theorem find_predefinedOpcodes (b : UInt8) (s : List UInt8) :
    (predefinedOpcodes.find? fun d =>
      d.mask.value &&& d.code == d.mask.value &&& streamWord (b :: s) 4) =
      predefinedOpcodes.find? fun d => d.code == b.toNat := by
  have hbyte : ∀ d ∈ predefinedOpcodes, d.mask = .byte ∧
      OpcodeMask.byte.value &&& d.code = d.code := by
    decide
  refine List.find?_congr fun d hd => ?_
  obtain ⟨hmask, hcode⟩ := hbyte d hd
  rw [hmask, hcode, streamWord_and_byte]

/-- The opcode is looked up by its byte. -/
theorem resolveOpcode_mov (op : MovOpcode) (s : List UInt8) (c : InstructionContext) :
    resolveOpcode (op.byte :: s) c = some ((opcodeDefOf op).resolve s
      { c with
        opcode := op.byte.toNat
        opcodeLength := 1
        instructionLength := c.instructionLength + 1
        operandHint := (opcodeDefOf op).operandHint }) := by
  have hfind : (predefinedOpcodes.find? fun d => d.code == op.byte.toNat) =
      some (opcodeDefOf op) := by
    cases op <;> rfl
  have hopcode : streamWord (op.byte :: s) 4 &&& OpcodeMask.byte.value = op.byte.toNat := by
    rw [Nat.and_comm, streamWord_and_byte]
  have hmask : (opcodeDefOf op).mask = .byte := by
    cases op <;> rfl
  rw [resolveOpcode]
  dsimp only
  rw [find_predefinedOpcodes, hfind]
  dsimp only
  rw [hmask, hopcode]
  have hne : op.byte.toNat ≠ 0 := by
    cases op <;> decide
  rw [if_neg]
  · rfl
  · rw [(resolve_spec op _ _).1]
    exact hne

/-- The escape byte is no opcode. -/
theorem resolveOpcode_escape (s : List UInt8) (c : InstructionContext) :
    resolveOpcode (0x0f :: s) c = none := by
  rw [resolveOpcode]
  dsimp only
  rw [find_predefinedOpcodes]
  rfl

/-! ## Instructions -/

/-- The decoder up to the opcode: prefixes, a REX prefix and the rest. -/
theorem decode_append {pre s : List UInt8} (rex : Option (Fin 16)) {b : UInt8}
    (hpre : ∀ b ∈ pre, (prefixField b).isSome = true)
    (hhead : prefixField ((rex.toList.map rexPrefixByte ++ b :: s).headD 0) = none)
    (hb : ¬ (0x40 ≤ b ∧ b ≤ 0x4f)) :
    decodeX8664Instruction (pre ++ (rex.toList.map rexPrefixByte ++ b :: s)) =
      resolveOpcode (b :: s)
        { pre.foldl takePrefix {} with
          rexPrefix := rexByte rex
          instructionLength := pre.length + rex.toList.length } := by
  obtain ⟨hlen, hrex, -⟩ := foldl_takePrefix hpre {}
  rw [decodeX8664Instruction]
  dsimp only
  rw [resolvePrefixes_append hpre hhead]
  dsimp only
  rw [resolveRex_rex rex s hb hrex, hlen, Nat.zero_add]

section
variable (i : MovInstruction) (rest : List UInt8)

/-- The bytes in front of the opcode that the loop over the prefixes takes when there is no REX
prefix in between. -/
theorem prefixField_escape : ∀ b ∈ i.legacy ++ i.opcode.escape, (prefixField b).isSome = true := by
  intro b hb
  rcases List.mem_append.1 hb with hb | hb
  · exact prefixField_of_legacy (i.legacy_mem b hb)
  · revert hb
    cases i.opcode <;> simp [MovOpcode.escape] <;> rintro rfl <;> rfl

/-- The byte of an opcode is no prefix, and the decoder has a hint for it. -/
theorem opcode_byte_spec (op : MovOpcode) :
    prefixField op.byte = none ∧ ¬ (0x40 ≤ op.byte ∧ op.byte ≤ 0x4f) ∧
      (opcodeDefOf op).operandHint ≠ .none := by
  cases op <;> decide

/-- The byte behind the prefixes is no prefix. -/
theorem prefixField_head (rex : Option (Fin 16)) (op : MovOpcode) (rest : List UInt8) :
    prefixField ((rex.toList.map rexPrefixByte ++ op.byte :: rest).headD 0) = none := by
  cases rex with
  | none => exact (opcode_byte_spec op).1
  | some r => exact prefixField_rex r

/-- An escape byte behind a REX prefix is not decoded. -/
theorem decode_rex_escape_byte {legacy : List UInt8} (hlegacy : ∀ b ∈ legacy, b ∈ legacyBytes)
    (r : Fin 16) (s : List UInt8) :
    decodeX8664Instruction (legacy ++ ((some r).toList.map rexPrefixByte ++ 0x0f :: s)) = none := by
  rw [decode_append (some r) (fun b hb => prefixField_of_legacy (hlegacy b hb)) (prefixField_rex r)
    (by decide), resolveOpcode_escape]

/-- A two-byte opcode behind a REX prefix is not decoded. -/
theorem decode_rex_escape (hrex : i.rex ≠ none) (hesc : i.opcode.escape ≠ []) :
    decodeX8664Instruction (i.bytes ++ rest) = none := by
  obtain ⟨r, hr⟩ := Option.ne_none_iff_exists'.1 hrex
  have hesc : i.opcode.escape = [0x0f] := by
    revert hesc
    cases i.opcode <;> simp [MovOpcode.escape]
  have hbytes : i.bytes ++ rest = i.legacy ++ ((some r).toList.map rexPrefixByte ++
      0x0f :: (i.opcode.byte :: i.modrm :: i.operandBytes ++ rest)) := by
    simp [MovInstruction.bytes, MovInstruction.rexBytes, hesc, hr]
  rw [hbytes, decode_rex_escape_byte i.legacy_mem]

/-- The register that the decoder takes for the address. -/
theorem regMemIndexOf_modrm (c : InstructionContext) (hrex : c.rexPrefix = rexByte i.rex)
    (hmod : c.moderm = i.modrm) : regMemIndexOf c = i.extend i.rm 0 := by
  have hrm : modermRm i.modrm = i.rm := by
    rw [modermRm, i.modrm_toNat]
    refine (and_mask_eq_mod _ 3).trans ?_
    omega
  have hbit : rexBBit (rexByte i.rex) = i.rexBit 0 := rexByte_testBit i.rex 0
  rw [regMemIndexOf, hrex, hmod, hrm, hbit, MovInstruction.extend]
  split
  · rw [Nat.or_comm, Nat.add_comm]
    exact or_offset_eq_add (k := 3) rfl i.rm.isLt
  · exact Nat.or_zero _

/-- The register that the decoder takes for the register operand. -/
theorem regIndexOf_modrm (c : InstructionContext) (hrex : c.rexPrefix = rexByte i.rex)
    (hmod : c.moderm = i.modrm) : regIndexOf c = i.extend i.reg 2 := by
  have hreg : modermReg i.modrm = i.reg := by
    rw [modermReg, i.modrm_toNat, Nat.shiftRight_eq_div_pow]
    refine (and_mask_eq_mod _ 3).trans ?_
    omega
  have hbit : rexRBit (rexByte i.rex) = i.rexBit 2 := rexByte_testBit i.rex 2
  rw [regIndexOf, hrex, hmod, hreg, hbit, MovInstruction.extend]
  split
  · rw [Nat.or_comm, Nat.add_comm]
    exact or_offset_eq_add (k := 3) rfl i.reg.isLt
  · exact Nat.or_zero _

/-- The context at the opcode's resolver. -/
def movContext : InstructionContext :=
  { (i.legacy ++ i.opcode.escape).foldl takePrefix {} with
    rexPrefix := rexByte i.rex
    opcode := i.opcode.byte.toNat
    opcodeLength := 1
    instructionLength := (i.legacy ++ i.opcode.escape).length + i.rex.toList.length + 1
    operandHint := (opcodeDefOf i.opcode).operandHint }

/-- The operand size is overridden exactly if there is a prefix 0x66. -/
theorem movContext_operandSizeOverrided :
    (movContext i).operandSizeOverrided = decide (0x66 ∈ i.legacy) := by
  obtain ⟨-, -, hflag⟩ := foldl_takePrefix (prefixField_escape i) {}
  have hsize : decide (0x66 ∈ i.legacy ++ i.opcode.escape) = decide (0x66 ∈ i.legacy) := by
    cases i.opcode <;> simp [MovOpcode.escape]
  exact hflag.trans (by rw [hsize, Bool.false_or])

/-- The decoder up to the opcode's resolver. -/
theorem decode_mov_eq (h : i.rex = none ∨ i.opcode.escape = []) :
    decodeX8664Instruction (i.bytes ++ rest) =
      some ((opcodeDefOf i.opcode).resolve (i.modrm :: i.operandBytes ++ rest) (movContext i)) := by
  obtain ⟨-, hrange, -⟩ := opcode_byte_spec i.opcode
  have hbytes : i.bytes ++ rest = (i.legacy ++ i.opcode.escape) ++
    (i.rex.toList.map rexPrefixByte ++ i.opcode.byte :: (i.modrm :: i.operandBytes ++ rest)) := by
    rcases h with h | h <;> simp [MovInstruction.bytes, MovInstruction.rexBytes, h]
  rw [hbytes, decode_append i.rex (prefixField_escape i) (prefixField_head ..) hrange,
    resolveOpcode_mov]
  rfl

/-- **What the decoder makes of an instruction**: it takes the address from the register of the
ModRM byte, and counts neither the SIB byte nor the displacement. -/
theorem decode_mov (h : i.rex = none ∨ i.opcode.escape = []) :
    ∃ c, decodeX8664Instruction (i.bytes ++ rest) = some c ∧ c.operandHint ≠ .none ∧
      c.rmIndex = i.extend i.rm 0 ∧
      c.instructionLength = i.legacy.length + i.rexBytes.length + i.opcode.escape.length + 2 +
        decodedImmediate i.opcode (0x66 ∈ i.legacy) := by
  obtain ⟨-, -, hne⟩ := opcode_byte_spec i.opcode
  obtain ⟨-, hhint, hrm, hlen⟩ :=
    resolve_spec i.opcode (i.modrm :: i.operandBytes ++ rest) (movContext i)
  refine ⟨_, decode_mov_eq i rest h, ?_, ?_, ?_⟩
  · rw [hhint]
    exact hne
  · rw [hrm]
    exact regMemIndexOf_modrm i _ rfl rfl
  · rw [hlen, movContext_operandSizeOverrided, movContext]
    dsimp only
    rw [MovInstruction.rexBytes, List.length_append, List.length_map]
    omega

/-- The length that the decoder finds. -/
def decodedLength : Nat :=
  i.legacy.length + i.rexBytes.length + i.opcode.escape.length + 2 +
    decodedImmediate i.opcode (0x66 ∈ i.legacy)

/-- The decoder misses two bytes of the immediate when an operand-size prefix stands with REX.W. -/
theorem decodedImmediate_cases : ((i.opcode = .opC7 ∧ 0x66 ∈ i.legacy ∧ i.rexBit 3 = true) ∧
      i.imm.length = decodedImmediate i.opcode (0x66 ∈ i.legacy) + 2) ∨
    (¬ (i.opcode = .opC7 ∧ 0x66 ∈ i.legacy ∧ i.rexBit 3 = true) ∧
      i.imm.length = decodedImmediate i.opcode (0x66 ∈ i.legacy)) := by
  have himm : i.imm.length = i.opcode.immediateLength (0x66 ∈ i.legacy) (i.rexBit 3) := i.imm_length
  rw [himm]
  cases i.opcode with
  | opC7 =>
    by_cases hsize : 0x66 ∈ i.legacy <;> cases i.rexBit 3 <;>
      simp [MovOpcode.immediateLength, decodedImmediate, hsize]
  | _ => exact .inr ⟨by simp, rfl⟩

/-- **The length** is right exactly when nothing but the immediate follows the ModRM byte, and the
prefixes agree about its size; it is never off by more than seven. -/
theorem decodedLength_spec : decodedLength i ≤ i.length ∧ i.length ≤ decodedLength i + 7 ∧
    (decodedLength i = i.length ↔ (i.mod = 0 ∧ i.rm ≠ 4 ∧ i.rm ≠ 5) ∧
      ¬ (i.opcode = .opC7 ∧ 0x66 ∈ i.legacy ∧ i.rexBit 3 = true)) := by
  have hsib : i.sib.toList.length ≤ 1 := by
    cases i.sib <;> simp
  have hdisp : i.disp.length ≤ 4 := by
    rw [i.disp_length]
    unfold displacementLength
    split <;> (try split) <;> omega
  rw [← i.no_displacement_iff, decodedLength, i.length_eq]
  rcases decodedImmediate_cases i with ⟨himm, hlen⟩ | ⟨himm, hlen⟩
  · rw [hlen]
    refine ⟨by omega, by omega, fun h => by omega, fun h => absurd himm h.2⟩
  · rw [hlen]
    refine ⟨by omega, by omega, fun h => ⟨by omega, himm⟩, fun h => by omega⟩

end

/-! ## The handler -/

section
variable {D : Type} {search : Nat → Option (MmioOperation D)} {c : InstructionContext}
  {g g' : Guest D} {access : MmioAccess}

/-- What a load does. -/
theorem emulateRead_inv (h : emulateRead search c g = some (access, g')) :
    ∃ mmio read r, search (vcpuGetGpRegiter g.vcpu c.rmIndex) = some mmio ∧
      mmio.mmioRead = some read ∧
      read (vcpuGetGpRegiter g.vcpu c.rmIndex) c.accessSize g.devices = some r ∧
      access = ⟨vcpuGetGpRegiter g.vcpu c.rmIndex, vcpuGetGpRegiter g.vcpu c.rmIndex, c.accessSize,
        none⟩ ∧
      g' = { g with vcpu := vcpuSetGpRegiter g.vcpu c.regIndex r.1, devices := r.2 } := by
  obtain ⟨mmio, hmmio, h⟩ := Option.bind_eq_some_iff.1 h
  obtain ⟨read, hread, h⟩ := Option.bind_eq_some_iff.1 h
  obtain ⟨r, hr, heq⟩ := Option.map_eq_some_iff.1 h
  cases heq
  exact ⟨mmio, read, r, hmmio, hread, hr, rfl, rfl⟩

/-- What a store does. -/
theorem emulateWrite_inv {value : Nat} (h : emulateWrite search c value g = some (access, g')) :
    ∃ devices, g' = { g with devices } ∧
      access = ⟨vcpuGetGpRegiter g.vcpu c.rmIndex, vcpuGetGpRegiter g.vcpu c.rmIndex, c.accessSize,
        some value⟩ := by
  obtain ⟨mmio, -, h⟩ := Option.bind_eq_some_iff.1 h
  obtain ⟨write, -, h⟩ := Option.bind_eq_some_iff.1 h
  obtain ⟨devices, -, heq⟩ := Option.map_eq_some_iff.1 h
  cases heq
  exact ⟨devices, rfl, rfl⟩

/-- The handler hands one address, that of the register, to the registry and to the callback. -/
theorem emulateAccess_spec (h : emulateAccess search c g = some (access, g')) :
    access.searched = vcpuGetGpRegiter g.vcpu c.rmIndex ∧
      access.called = vcpuGetGpRegiter g.vcpu c.rmIndex ∧ g'.rip = g.rip := by
  rw [emulateAccess] at h
  split at h
  · obtain ⟨-, -, r, -, -, -, rfl, rfl⟩ := emulateRead_inv h
    exact ⟨rfl, rfl, rfl⟩
  · obtain ⟨devices, rfl, rfl⟩ := emulateWrite_inv h
    exact ⟨rfl, rfl, rfl⟩
  · obtain ⟨devices, rfl, rfl⟩ := emulateWrite_inv h
    exact ⟨rfl, rfl, rfl⟩
  · cases h

/-- The registry that emulates all addresses, by devices that read as 0. -/
def anyRegion (_ : Nat) : Option (MmioOperation D) :=
  some ⟨some fun _ _ d => some (0, d), some fun _ _ _ d => some d⟩

/-- With a region everywhere an access has a result. -/
theorem emulateAccess_anyRegion (hne : c.operandHint ≠ .none) (g : Guest D) :
    (emulateAccess anyRegion c g).isSome = true := by
  rw [emulateAccess]
  split
  · rfl
  · rfl
  · rfl
  · next h => exact absurd h hne

end

/-- The instruction is emulated exactly: whatever the registry and the devices, the address that the
handler hands to them is the effective address, and the guest resumes behind the instruction. -/
def EmulatesExactly {D : Type} (host : Host) (i : MovInstruction) (g : Guest D) : Prop :=
  ∀ search access g', eptMisconfigExitSubHandler host search g = some (access, g') →
    access.searched = i.effectiveAddress (vcpuGetGpRegiter g.vcpu) g.rip ∧
    access.called = i.effectiveAddress (vcpuGetGpRegiter g.vcpu) g.rip ∧
    g'.rip = (g.rip + i.length) % 2 ^ 64

/-- The operand is at the address in a register, without SIB byte and displacement; no prefix for
16-bit operands stands with REX.W in front of an immediate, and an address-size prefix changes
nothing. -/
structure PlainOperand (i : MovInstruction) (gpr : Nat → Nat) : Prop where
  form : i.mod = 0 ∧ i.rm ≠ 4 ∧ i.rm ≠ 5
  immediate : ¬ (i.opcode = .opC7 ∧ 0x66 ∈ i.legacy ∧ i.rexBit 3 = true)
  address : 0x67 ∈ i.legacy → gpr (i.extend i.rm 0) < 2 ^ 32

/-- **Which instructions are emulated exactly.** An instruction that the decoder accepts is emulated
exactly if and only if its operand is plain. -/
theorem emulation_exact_iff {D : Type} (host : Host) (i : MovInstruction) (rest : List UInt8)
    (g : Guest D) (hstate : g.vcpu.state.Ok) (hrsp : g.vcpu.guestRsp < 2 ^ 64)
    (hfetch : instructionStream host g.rip = some (i.bytes ++ rest))
    (hdec : (decodeX8664Instruction (i.bytes ++ rest)).isSome = true) :
    EmulatesExactly host i g ↔ PlainOperand i (vcpuGetGpRegiter g.vcpu) := by
  have haccepted : i.rex = none ∨ i.opcode.escape = [] := by
    by_contra hnot
    rw [decode_rex_escape i rest (fun h => hnot (.inl h)) fun h => hnot (.inr h)] at hdec
    cases hdec
  obtain ⟨c, hc, hhint, hrm, hlen⟩ := decode_mov i rest haccepted
  obtain ⟨hle, hle', hiff⟩ := decodedLength_spec i
  have hhandler : ∀ search, eptMisconfigExitSubHandler host search g =
      (emulateAccess search c g).map fun r => (r.1, gotoNextInstruction r.2 (decodedLength i)) := by
    intro search
    rw [eptMisconfigExitSubHandler, hfetch, Option.bind_some, hc, Option.bind_some, hlen,
      decodedLength]
  -- of a plain operand only the width of the address is left to compare
  have haddr : i.mod = 0 ∧ i.rm ≠ 4 ∧ i.rm ≠ 5 →
      (vcpuGetGpRegiter g.vcpu c.rmIndex = i.effectiveAddress (vcpuGetGpRegiter g.vcpu) g.rip ↔
        (0x67 ∈ i.legacy → vcpuGetGpRegiter g.vcpu (i.extend i.rm 0) < 2 ^ 32)) := by
    rintro ⟨hmod, h4, h5⟩
    rw [i.effectiveAddress_of_plain _ _ hmod h4 h5, hrm, MovInstruction.addressBits]
    have hlt := vcpuGetGpRegiter_lt hstate hrsp (i.extend i.rm 0)
    split
    · next h67 =>
      rw [eq_comm, Nat.mod_eq_iff_lt (Nat.two_pow_pos 32).ne']
      exact ⟨fun h _ => h, fun h => h h67⟩
    · next h67 =>
      rw [Nat.mod_eq_of_lt hlt]
      exact ⟨fun _ h => absurd h h67, fun _ => rfl⟩
  constructor
  · intro hexact
    obtain ⟨⟨access, g'⟩, hr⟩ := Option.isSome_iff_exists.1 (emulateAccess_anyRegion hhint g)
    obtain ⟨hsearched, -, hrip⟩ := emulateAccess_spec hr
    obtain ⟨hea, -, hnext⟩ := hexact anyRegion access _ (by rw [hhandler, hr]; rfl)
    have hlength : decodedLength i = i.length := by
      rw [gotoNextInstruction] at hnext
      dsimp only at hnext
      rw [hrip] at hnext
      omega
    obtain ⟨hform, himm⟩ := hiff.1 hlength
    exact ⟨hform, himm, (haddr hform).1 (hsearched.symm.trans hea)⟩
  · intro hplain search access g' hr
    rw [hhandler] at hr
    obtain ⟨⟨access₁, g₁⟩, hstep, heq⟩ := Option.map_eq_some_iff.1 hr
    cases heq
    obtain ⟨hsearched, hcalled, hrip⟩ := emulateAccess_spec hstep
    have hea := (haddr hplain.form).2 hplain.address
    refine ⟨hsearched.trans hea, hcalled.trans hea, ?_⟩
    rw [gotoNextInstruction, hiff.2 ⟨hplain.form, hplain.immediate⟩, hrip]

/-! ## Two instructions -/

/-- A host whose guest has `code`, of `n` bytes, at address 0: the guest's page 0 is the page at
0x500000, in tables from 0x404000 on. -/
def sampleHost (n code : Nat) : Host where
  mem := ((((identityMemory.write 0x404000 8 0x405407).write 0x405000 8 0x406407).write 0x406000 8
    0x407407).write 0x407000 8 0x500477).write 0x500000 n code
  memEnd := 0x500010
  pml4Base := 0x401000
  eptPml4Base := 0x404000

/-- A guest at address 0 whose RBX points to the video buffer. -/
def sampleVideoGuest : Guest Unit :=
  ⟨⟨⟨0, 0, 0, 0, 0, 0, 0, 0, 0, 0, 0, 0, 0, 0, 0xb8000, 0⟩, 0x1000⟩, 0, ()⟩

/-- A `mov` with a plain operand is emulated exactly. -/
theorem emulation_exact_iff_sample :
    instructionStream (sampleHost 2 0x038b) 0 = some (movRbxPlain.bytes ++ List.replicate 14 0) ∧
    EmulatesExactly (sampleHost 2 0x038b) movRbxPlain sampleVideoGuest := by
  have hfetch : instructionStream (sampleHost 2 0x038b) 0 =
      some (movRbxPlain.bytes ++ List.replicate 14 0) := by decide +kernel
  refine ⟨hfetch, ?_⟩
  exact (emulation_exact_iff _ movRbxPlain (List.replicate 14 0) sampleVideoGuest
    (by decide) (by decide) hfetch (by decide +kernel)).2 ⟨by decide, by decide, nofun⟩

/-- **An ignored displacement.** Of `mov eax, [rbx + 8]` the handler reads `[rbx]`, and resumes the
guest at the displacement byte. -/
theorem emulation_ignores_displacement :
    instructionStream (sampleHost 3 0x08438b) 0 = some (movRbxPlus8.bytes ++ List.replicate 13 0) ∧
    movRbxPlus8.length = 3 ∧
    movRbxPlus8.effectiveAddress (vcpuGetGpRegiter sampleVideoGuest.vcpu) 0 = 0xb8008 ∧
    ∃ access g', eptMisconfigExitSubHandler (sampleHost 3 0x08438b) anyRegion sampleVideoGuest =
      some (access, g') ∧ access.searched = 0xb8000 ∧ access.called = 0xb8000 ∧ g'.rip = 2 := by
  refine ⟨by decide +kernel, by decide, by decide +kernel, ?_⟩
  have hex : (eptMisconfigExitSubHandler (sampleHost 3 0x08438b) anyRegion sampleVideoGuest).map
      (fun r => (r.1, r.2.rip)) = some (⟨0xb8000, 0xb8000, 4, none⟩, 2) := by decide +kernel
  obtain ⟨⟨access, g'⟩, hr, heq⟩ := Option.map_eq_some_iff.1 hex
  simp only [Prod.mk.injEq] at heq
  obtain ⟨rfl, hrip⟩ := heq
  exact ⟨_, g', hr, rfl, rfl, hrip⟩

end ZeldaOS
