import ZeldaOS.VmMonitor.Ept
import ZeldaOS.VmMonitor.InstructionDecoding
import ZeldaOS.VmMonitor.Vmcs

/-!
# Emulation of memory accesses

Model of `vm_monitor/vmx_ept_misconfig.c`. A guest access to IO memory exits with an EPT
misconfiguration. The handler decodes the instruction at the guest's RIP, looks up the emulated
region of its memory operand, calls the region's read or write callback and skips the instruction.

The callbacks of a device are functions on the state `D` of the devices, and the registry of regions
is the function `search` from addresses to callbacks; a callback or a lookup that fails an assertion
gives `none`.
-/

namespace ZeldaOS

/-- The callbacks of `struct mmio_operation`. -/
structure MmioOperation (D : Type) where
  /-- The callback for reads, from the address and the access size. -/
  mmioRead : Option (Nat → Nat → D → Option (Nat × D))
  /-- The callback for writes, from the address, the access size and the value. -/
  mmioWrite : Option (Nat → Nat → Nat → D → Option D)

/-- The state of the guest that the handler reads and writes. -/
structure Guest (D : Type) where
  vcpu : Vcpu
  /-- `GUEST_RIP`. -/
  rip : Nat
  devices : D

/-- What the handler did: the address it handed to `search_mmio_callback`, and the address, the
access size and the value, if any, that it handed to the callback. -/
structure MmioAccess where
  searched : Nat
  called : Nat
  accessSize : Nat
  stored : Option Nat
deriving DecidableEq, Repr

/-- The memory of the host in which the handler finds the instruction. -/
structure Host where
  mem : Memory
  /-- The end of the memory. -/
  memEnd : Nat
  pml4Base : Nat
  eptPml4Base : Nat

/-- The instruction stream at the guest's RIP, which must be mapped to itself in the host. -/
def instructionStream (host : Host) (rip : Nat) : Option (List UInt8) :=
  let guestInstructionAddr := guestpaToHostpa host.mem host.eptPml4Base rip
  if pa host.mem host.pml4Base guestInstructionAddr = guestInstructionAddr then
    some (host.mem.bytes guestInstructionAddr (host.memEnd - guestInstructionAddr))
  else none

section
variable {D : Type}

/-- `GOTO_NEXT_INSTRUCTION`. -/
def gotoNextInstruction (g : Guest D) (instructionLength : Nat) : Guest D :=
  { g with rip := (g.rip + instructionLength) % 2 ^ 64 }

/-- The case of a load. -/
def emulateRead (search : Nat → Option (MmioOperation D)) (c : InstructionContext) (g : Guest D) :
    Option (MmioAccess × Guest D) :=
  let guestAddr := vcpuGetGpRegiter g.vcpu c.rmIndex
  (search guestAddr).bind fun mmio =>
    mmio.mmioRead.bind fun read =>
      (read guestAddr c.accessSize g.devices).map fun r =>
        (⟨guestAddr, guestAddr, c.accessSize, none⟩,
          { g with vcpu := vcpuSetGpRegiter g.vcpu c.regIndex r.1, devices := r.2 })

/-- The cases of a store of the given value. -/
def emulateWrite (search : Nat → Option (MmioOperation D)) (c : InstructionContext) (value : Nat)
    (g : Guest D) : Option (MmioAccess × Guest D) :=
  let guestAddr := vcpuGetGpRegiter g.vcpu c.rmIndex
  (search guestAddr).bind fun mmio =>
    mmio.mmioWrite.bind fun write =>
      (write guestAddr c.accessSize value g.devices).map fun devices =>
        (⟨guestAddr, guestAddr, c.accessSize, some value⟩, { g with devices })

/-- The switch over the operand hint. -/
def emulateAccess (search : Nat → Option (MmioOperation D)) (c : InstructionContext) (g : Guest D) :
    Option (MmioAccess × Guest D) :=
  match c.operandHint with
  | .mr => emulateRead search c g
  | .rm => emulateWrite search c (vcpuGetGpRegiter g.vcpu c.regIndex) g
  | .im => emulateWrite search c c.immediate g
  | .none => none

/-- `ept_misconfig_exit_sub_handler`. -/
def eptMisconfigExitSubHandler (host : Host) (search : Nat → Option (MmioOperation D))
    (g : Guest D) : Option (MmioAccess × Guest D) :=
  (instructionStream host g.rip).bind fun s =>
    (decodeX8664Instruction s).bind fun c =>
      (emulateAccess search c g).map fun r => (r.1, gotoNextInstruction r.2 c.instructionLength)

end

end ZeldaOS
