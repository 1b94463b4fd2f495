import ZeldaOS.Lib.RegisterOperand
import ZeldaOS.VmMonitor.EmulationCorrect
import ZeldaOS.VmMonitor.IoInstruction

/-!
# Register operands of emulated accesses

Whether an emulated access changes the register operand that the instruction names, and nothing
else. Both handlers write a device's value back as a whole word: the handler of port accesses to
RAX, and the handler of memory accesses to the register whose number is in the ModRM byte. They do
not know of partial registers, nor of the high bytes AH, CH, DH and BH.

So an access is right exactly when the word happens to be what the register should hold
(`registerOperands_iff`); a byte load to AH, for instance, changes RSP (`registerOperands_wrong`).
-/

namespace ZeldaOS

section
variable {D : Type}

/-! ## Port accesses -/

/-- A byte IN of the value `v` changed AL and RIP, and nothing else. -/
def InExact (g g' : Guest D) (instructionLength : Nat) (v : UInt8) : Prop :=
  vcpuGetGpRegiter g'.vcpu = writeOperand 1 false (vcpuGetGpRegiter g.vcpu) 0 v.toNat ∧
    g'.vcpu.state.cr2 = g.vcpu.state.cr2 ∧ g'.rip = (g.rip + instructionLength) % 2 ^ 64

/-- What the handler does for an IN. -/
theorem ioInstruction_in {portioOps : List (PortioOperation (PortioCallback D))} {q len : Nat}
    {g g' : Guest D} {ops : PortioOperation (PortioCallback D)} {v : UInt8} {d : D}
    (hops : portioCallback portioOps (qualifiedPort q) = some (some ops))
    (hcall : callInb ops (qualifiedPort q) g.devices = some (v, d)) (hin : qualifiedDirection q = 1)
    (h : ioInstructionExitSubHandler portioOps q len g = some g') :
    g' = gotoNextInstruction
      { g with vcpu := vcpuSetGpRegiter g.vcpu 0 v.toNat, devices := d } len := by
  rw [ioInstructionExitSubHandler] at h
  split at h
  · rw [hops, Option.join_some, Option.bind_some] at h
    obtain ⟨g₁, hg₁, rfl⟩ := Option.map_eq_some_iff.1 h
    rw [emulatePortAccess, hin] at hg₁
    split at hg₁
    · rw [if_neg (by decide), hcall] at hg₁
      cases hg₁
      rfl
    · cases hg₁
  · cases h

/-- A byte IN is right exactly when RAX held no more than a byte. -/
theorem inExact_iff {g : Guest D} {len : Nat} {v : UInt8} {d : D} :
    InExact g
      (gotoNextInstruction { g with vcpu := vcpuSetGpRegiter g.vcpu 0 v.toNat, devices := d } len)
      len v ↔ g.vcpu.state.rax < 256 := by
  have hv : v.toNat % 256 ^ 1 = v.toNat := Nat.mod_eq_of_lt v.toNat_lt
  have hzero : v.toNat / 256 ^ 1 = 0 := Nat.div_eq_of_lt v.toNat_lt
  have hiff := update_eq_writeOperand_iff false (vcpuGetGpRegiter g.vcpu) 0 v.toNat (Nat.le_refl 1)
  rw [if_neg (by decide), hv, hzero, Nat.zero_mul] at hiff
  have hkept : 0 = keptBits 1 (vcpuGetGpRegiter g.vcpu 0) ↔ g.vcpu.state.rax < 256 := by
    rw [keptBits, if_pos (by decide), vcpuGetGpRegiter]
    omega
  rw [InExact, ← hkept, ← hiff]
  refine ⟨fun h => ?_, fun h => ⟨?_, vcpuSetGpRegiter_cr2 _ _ _, rfl⟩⟩
  · rw [← h.1]
    exact (vcpuGetGpRegiter_set _ (by decide) _).symm
  · rw [← h]
    exact vcpuGetGpRegiter_set _ (by decide) _

/-! ## Memory accesses -/

/-- The value that the device returned for a load. -/
def returnedValue (search : Nat → Option (MmioOperation D)) (access : MmioAccess) (d : D) :
    Option Nat :=
  (search access.called).bind fun mmio =>
    mmio.mmioRead.bind fun read => (read access.called access.accessSize d).map Prod.fst

/-- The access used the register operand of the instruction: a load of `v` wrote it and nothing
else, and a store read it. -/
structure RegisterExact (i : MovInstruction) (g g' : Guest D) (access : MmioAccess) (v : Nat) :
    Prop where
  load : i.opcode.isLoad = true → vcpuGetGpRegiter g'.vcpu =
    writeOperand i.registerSize i.rex.isSome (vcpuGetGpRegiter g.vcpu) i.registerNumber
      (v % 256 ^ i.memorySize)
  store : i.opcode.isStore = true → access.stored.map (· % 256 ^ i.memorySize) =
    some (readOperand i.memorySize i.rex.isSome (vcpuGetGpRegiter g.vcpu) i.registerNumber)
  other : i.opcode.isLoad = false → vcpuGetGpRegiter g'.vcpu = vcpuGetGpRegiter g.vcpu
  cr2 : g'.vcpu.state.cr2 = g.vcpu.state.cr2

/-- The register operand is a high byte. -/
def MovInstruction.HasHighByte (i : MovInstruction) : Prop :=
  i.registerSize = 1 ∧ isHighByte i.rex.isSome i.registerNumber = true

/-- When the registers and the value of a load are such that the access is right. A load to a high
byte must have nothing to change there, and must load what the register of the number holds anyway;
any other load must bring along the bits that the write keeps. A store from a high byte must find
the same byte in the register of the number. -/
structure RegisterCondition (i : MovInstruction) (gpr : Nat → Nat) (v : Nat) : Prop where
  loadHigh : i.opcode.isLoad = true → i.HasHighByte →
    v = gpr i.registerNumber ∧ bitField (gpr (i.registerNumber - 4)) 8 8 =
      v % 256 ^ i.memorySize % 256
  load : i.opcode.isLoad = true → ¬ i.HasHighByte →
    v / 256 ^ i.memorySize * 256 ^ i.memorySize = keptBits i.registerSize (gpr i.registerNumber)
  storeHigh : i.opcode.isStore = true → i.HasHighByte →
    gpr i.registerNumber % 256 = bitField (gpr (i.registerNumber - 4)) 8 8

variable {i : MovInstruction} {rest : List UInt8} {search : Nat → Option (MmioOperation D)}
  {host : Host} {g g' : Guest D} {access : MmioAccess} {v : Nat}

/-- The context that the handler works with. -/
theorem handler_context (hfetch : instructionStream host g.rip = some (i.bytes ++ rest))
    (h : eptMisconfigExitSubHandler host search g = some (access, g')) :
    ∃ c g₁, c.operandHint = (opcodeDefOf i.opcode).operandHint ∧ c.regIndex = i.registerNumber ∧
      emulateAccess search c g = some (access, g₁) ∧ g'.vcpu = g₁.vcpu := by
  rw [eptMisconfigExitSubHandler, hfetch, Option.bind_some] at h
  obtain ⟨c, hc, h⟩ := Option.bind_eq_some_iff.1 h
  obtain ⟨⟨access₁, g₁⟩, hstep, heq⟩ := Option.map_eq_some_iff.1 h
  cases heq
  have haccepted : i.rex = none ∨ i.opcode.escape = [] := by
    by_contra hnot
    rw [decode_rex_escape i rest (fun h => hnot (.inl h)) fun h => hnot (.inr h)] at hc
    cases hc
  rw [decode_mov_eq i rest haccepted] at hc
  cases hc
  refine ⟨_, g₁, (resolve_spec i.opcode _ _).2.1, ?_, hstep, rfl⟩
  rw [resolve_regIndex]
  exact regIndexOf_modrm i _ rfl rfl

/-- The handler of a load puts the value of the device into the register of the number. -/
theorem emulateAccess_load {c : InstructionContext} (hhint : c.operandHint = .mr)
    (hv : returnedValue search access g.devices = some v)
    (h : emulateAccess search c g = some (access, g')) :
    g'.vcpu = vcpuSetGpRegiter g.vcpu c.regIndex v := by
  rw [emulateAccess, hhint] at h
  obtain ⟨mmio, read, r, hmmio, hread, hr, rfl, rfl⟩ := emulateRead_inv h
  rw [returnedValue, hmmio, Option.bind_some, hread, Option.bind_some, hr, Option.map_some,
    Option.some.injEq] at hv
  rw [hv]

/-- The handler of a store changes no register, and hands on what is in the register of the number
unless the value is an immediate. -/
theorem emulateAccess_store {c : InstructionContext} (hhint : c.operandHint ≠ .mr)
    (h : emulateAccess search c g = some (access, g')) :
    g'.vcpu = g.vcpu ∧
      (c.operandHint = .rm → access.stored = some (vcpuGetGpRegiter g.vcpu c.regIndex)) := by
  rw [emulateAccess] at h
  cases hint : c.operandHint with
  | mr => exact absurd hint hhint
  | rm =>
    rw [hint] at h
    obtain ⟨devices, rfl, rfl⟩ := emulateWrite_inv h
    exact ⟨rfl, fun _ => rfl⟩
  | im =>
    rw [hint] at h
    obtain ⟨devices, rfl, rfl⟩ := emulateWrite_inv h
    refine ⟨rfl, fun h => ?_⟩
    cases h
  | none =>
    rw [hint] at h
    cases h

/-- The table's hints are those of the opcodes. -/
theorem operandHint_eq (op : MovOpcode) :
    ((opcodeDefOf op).operandHint = .mr ↔ op.isLoad = true) ∧
      ((opcodeDefOf op).operandHint = .rm ↔ op.isStore = true) := by
  cases op <;> decide

/-- A byte is stored by 88 only. -/
theorem memorySize_eq_registerSize (h : i.opcode.isStore = true) :
    i.memorySize = i.registerSize := by
  rw [MovInstruction.memorySize, MovInstruction.registerSize]
  revert h
  cases i.opcode <;> simp [MovOpcode.isStore, MovOpcode.memorySize, MovOpcode.registerSize]

/-- A memory access is right exactly under the condition. -/
theorem registerExact_iff (hfetch : instructionStream host g.rip = some (i.bytes ++ rest))
    (h : eptMisconfigExitSubHandler host search g = some (access, g'))
    (hv : i.opcode.isLoad = true → returnedValue search access g.devices = some v) :
    RegisterExact i g g' access v ↔ RegisterCondition i (vcpuGetGpRegiter g.vcpu) v := by
  obtain ⟨c, g₁, hhint, hreg, hstep, hvcpu⟩ := handler_context hfetch h
  obtain ⟨hmr, hrm⟩ := operandHint_eq i.opcode
  cases hload : i.opcode.isLoad with
  | true =>
    have hstore : i.opcode.isStore ≠ true := by
      revert hload
      cases i.opcode <;> decide
    have hset := emulateAccess_load (hhint.trans (hmr.2 hload)) (hv hload) hstep
    have hgpr : vcpuGetGpRegiter g'.vcpu =
        Function.update (vcpuGetGpRegiter g.vcpu) i.registerNumber v := by
      rw [hvcpu, hset, hreg, vcpuGetGpRegiter_set _ i.registerNumber_lt]
    have hcr2 : g'.vcpu.state.cr2 = g.vcpu.state.cr2 := by
      rw [hvcpu, hset, vcpuSetGpRegiter_cr2]
    have hiff := update_eq_writeOperand_iff i.rex.isSome (vcpuGetGpRegiter g.vcpu)
      i.registerNumber v i.memorySize_le_registerSize
    rw [← hgpr] at hiff
    constructor
    · intro hexact
      have hcond := hiff.1 (hexact.load hload)
      refine ⟨fun _ hhigh => ?_, fun _ hhigh => ?_, fun h => absurd h hstore⟩
      · rw [MovInstruction.HasHighByte] at hhigh
        rwa [if_pos hhigh] at hcond
      · rw [MovInstruction.HasHighByte] at hhigh
        rwa [if_neg hhigh] at hcond
    · intro hcond
      refine ⟨fun _ => hiff.2 ?_, fun h => absurd h hstore, fun h => ?_, hcr2⟩
      · split
        · next hhigh => exact hcond.loadHigh hload hhigh
        · next hhigh => exact hcond.load hload hhigh
      · rw [hload] at h
        cases h
  | false =>
    have hnot : ¬ i.opcode.isLoad = true := by rw [hload]; decide
    obtain ⟨hsame, hstored⟩ :=
      emulateAccess_store (fun hint => hnot (hmr.1 (hhint.symm.trans hint))) hstep
    rw [hsame] at hvcpu
    have hvalue : i.opcode.isStore = true →
        access.stored = some (vcpuGetGpRegiter g.vcpu i.registerNumber) := fun hstore => by
      rw [hstored (hhint.trans (hrm.2 hstore)), hreg]
    constructor
    · intro hexact
      refine ⟨fun h => absurd h hnot, fun h => absurd h hnot, fun hstore hhigh => ?_⟩
      have hbyte : i.memorySize = 1 := (memorySize_eq_registerSize hstore).trans hhigh.1
      have hread := hexact.store hstore
      rwa [hvalue hstore, readOperand, hbyte, if_pos ⟨rfl, hhigh.2⟩, Option.map_some,
        Option.some.injEq, Nat.pow_one] at hread
    · intro hcond
      refine ⟨fun h => absurd h hnot, fun hstore => ?_, fun _ => by rw [hvcpu], by rw [hvcpu]⟩
      rw [hvalue hstore, readOperand, Option.map_some, Option.some.injEq]
      have hsize := memorySize_eq_registerSize hstore
      split
      · next hhigh =>
        rw [hhigh.1, Nat.pow_one]
        exact hcond.storeHigh hstore ⟨hsize.symm.trans hhigh.1, hhigh.2⟩
      · rfl

end

/-- **When the register operand is right.** A byte IN is right exactly when RAX held no more than a
byte. A load or a store in memory is right exactly when the registers and the value that the device
returned meet `RegisterCondition`. -/
theorem registerOperands_iff {D : Type} :
    (∀ (portioOps : List (PortioOperation (PortioCallback D))) (q len : Nat) (g g' : Guest D)
        (ops : PortioOperation (PortioCallback D)) (v : UInt8) (d : D),
      portioCallback portioOps (qualifiedPort q) = some (some ops) →
      callInb ops (qualifiedPort q) g.devices = some (v, d) → qualifiedDirection q = 1 →
      ioInstructionExitSubHandler portioOps q len g = some g' →
      (InExact g g' len v ↔ g.vcpu.state.rax < 256)) ∧
    ∀ (host : Host) (i : MovInstruction) (rest : List UInt8)
      (search : Nat → Option (MmioOperation D)) (g g' : Guest D) (access : MmioAccess) (v : Nat),
      instructionStream host g.rip = some (i.bytes ++ rest) →
      eptMisconfigExitSubHandler host search g = some (access, g') →
      (i.opcode.isLoad = true → returnedValue search access g.devices = some v) →
      (RegisterExact i g g' access v ↔ RegisterCondition i (vcpuGetGpRegiter g.vcpu) v) := by
  refine ⟨fun portioOps q len g g' ops v d hops hcall hin h => ?_,
    fun host i rest search g g' access v hfetch h hv => registerExact_iff hfetch h hv⟩
  rw [ioInstruction_in hops hcall hin h]
  exact inExact_iff

/-- A keyboard that returns 0x1c on every port. -/
def samplePort : PortioOperation (PortioCallback Unit) :=
  { portid := 0x60, callInb := some (.inb fun _ d => some (0x1c, d)) }

/-- A byte IN from port 0x60 in the exit qualification. -/
def sampleQualification : Nat := 0x600008

theorem registerOperands_iff_sample : ∃ g' access g'',
    ioInstructionExitSubHandler [samplePort] sampleQualification 1 sampleVideoGuest = some g' ∧
    InExact sampleVideoGuest g' 1 0x1c ∧
    eptMisconfigExitSubHandler (sampleHost 2 0x038b) anyRegion sampleVideoGuest =
      some (access, g'') ∧
    RegisterExact movRbxPlain sampleVideoGuest g'' access 0 := by
  have hin : (ioInstructionExitSubHandler [samplePort] sampleQualification 1 sampleVideoGuest).map
      (·.vcpu.state.rax) = some 0x1c := by decide +kernel
  obtain ⟨g', hg', -⟩ := Option.map_eq_some_iff.1 hin
  have hload : (eptMisconfigExitSubHandler (sampleHost 2 0x038b) anyRegion sampleVideoGuest).map
      (·.2.rip) = some 2 := by decide +kernel
  obtain ⟨⟨access, g''⟩, hg'', -⟩ := Option.map_eq_some_iff.1 hload
  obtain ⟨hio, hept⟩ := registerOperands_iff (D := Unit)
  refine ⟨g', access, g'', hg', ?_, hg'', ?_⟩
  · exact (hio [samplePort] sampleQualification 1 _ g' samplePort 0x1c () rfl rfl (by decide)
      hg').2 (by decide)
  · refine (hept _ movRbxPlain (List.replicate 14 0) anyRegion _ g'' access 0
      (by decide +kernel) hg'' fun _ => rfl).2 ⟨?_, ?_, ?_⟩
    · exact fun _ h => absurd h (by simp [MovInstruction.HasHighByte]; decide)
    · exact fun _ _ => by decide
    · exact fun h => absurd h (by decide)

/-- **Registers that the instruction does not name.** The load `mov ah, [rbx]` of a device that
reads as 0 clears the guest's RSP; and a byte IN clears the upper bits of RAX. -/
theorem registerOperands_wrong :
    instructionStream (sampleHost 2 0x238a) 0 = some (movAhRbx.bytes ++ List.replicate 14 0) ∧
    sampleVideoGuest.vcpu.guestRsp = 0x1000 ∧
    (eptMisconfigExitSubHandler (sampleHost 2 0x238a) anyRegion sampleVideoGuest).map
      (fun r => (r.2.vcpu.guestRsp, r.2.vcpu.state.rax)) = some (0, 0) ∧
    ∃ g' : Guest Unit, ioInstructionExitSubHandler [samplePort] sampleQualification 1
        ⟨⟨{ sampleVideoGuest.vcpu.state with rax := 0x123400 }, 0x1000⟩, 0, ()⟩ = some g' ∧
      g'.vcpu.state.rax = 0x1c := by
  refine ⟨by decide +kernel, rfl, by decide +kernel, ?_⟩
  have hin : (ioInstructionExitSubHandler [samplePort] sampleQualification 1
      (⟨⟨{ sampleVideoGuest.vcpu.state with rax := 0x123400 }, 0x1000⟩, 0, ()⟩ : Guest Unit)).map
      (·.vcpu.state.rax) = some 0x1c := by decide +kernel
  obtain ⟨g', hg', hrax⟩ := Option.map_eq_some_iff.1 hin
  exact ⟨g', hg', hrax⟩

end ZeldaOS
