import ZeldaOS.Lib64.Printk
import ZeldaOS.VmMonitor.IoInstruction
import ZeldaOS.VmMonitor.VmxControls

/-!
# VM exits

Model of `vm_monitor/vmx_exit.c`, with `vmx_rdtsc.c` and the entry of external interrupts in
`vmx_schedule.c`. A VM exit calls `vm_exit_handler_entry`, which patches a bit of the guest's EFER,
reads the description of the exit from the VMCS and calls the handler of the exit's reason.

The handlers of port accesses, of accesses to IO memory and of interrupts are modelled on the part
of the state that they use, as functions on `Guest` and `Monitor`. Here they work on the VMCS: what
`Guest` and `Monitor` hold of it is read from its fields before the handler and written to them
after it.
-/

namespace ZeldaOS

/-! ## State -/

/-- `GUEST_CR3`. -/
def guestCr3 : Nat := 0x6802

/-- `GUEST_RSP`. -/
def guestRsp : Nat := 0x681c

/-- `GUEST_RIP`. -/
def guestRip : Nat := 0x681e

/-- `GUEST_RFLAG`. -/
def guestRflag : Nat := 0x6820

/-- `GUEST_IA32_EFER`. -/
def guestIa32Efer : Nat := 0x2806

/-- `CTLS_VM_ENTRY`. -/
def ctlsVmEntry : Nat := 0x4012

/-- `VMEXIT_REASON`. -/
def vmexitReason : Nat := 0x4402

/-- `VMEXIT_QUALIFICATION`. -/
def vmexitQualification : Nat := 0x6400

/-- `VMEXIT_INSTRUCTION_LENGTH`. -/
def vmexitInstructionLength : Nat := 0x440c

/-- `VMEXIT_INTERRUPT_INFORMATION`. -/
def vmexitInterruptInformation : Nat := 0x4404

/-- `VMENTRY_INTRRUPTION_INFO`. -/
def vmentryIntrruptionInfo : Nat := 0x4016

/-- The state that the handlers work on, with devices `D`. -/
structure ExitState (D : Type) where
  vmcs : Vmcs
  vcpu : GuestCpuState
  devices : D

/-- The fields of `struct vmexit_info` that the handlers read. -/
structure VmexitInfo where
  basicReason : Nat
  exitQualification : Nat
  instructionLength : Nat

/-- The devices that interrupts concern, and `interrupt_request_bitmap`. -/
structure Interrupts where
  pic : Pic
  pit : Pit
  kbd : Ring
  interruptRequestBitmap : Fin 15 → Bool

/-- Where a log line stands in the source: `__FILE__` and `__LINE__`. -/
structure LogSite where
  file : List UInt8
  line : Nat

/-- What the log lines of the handlers name: the VM, its `vpid`, and their places. -/
structure VmLog where
  vm : Nat
  vpid : Nat
  /-- The line in `controll_register_access_exit_sub_handler`. -/
  cr3Site : LogSite
  /-- The line in `wrmsr_exit_sub_handler`. -/
  msrSite : LogSite

/-- What `LOG_DEBUG` prints in front of a message on a VM: `"[debug] %s:%d "` and
`"vm:0x%x(vpid:%d) "`. -/
def VmLog.header (log : VmLog) (site : LogSite) : List UInt8 :=
  literal ['[', 'd', 'e', 'b', 'u', 'g', ']', ' '] ++ site.file ++ literal [':'] ++
    resolveSigned 32 site.line ++ literal [' ', 'v', 'm', ':', '0', 'x'] ++
    resolveHexQword log.vm true ++ literal ['(', 'v', 'p', 'i', 'd', ':'] ++
    resolveSigned 32 log.vpid ++ literal [')', ' ']

/-- The log line of a write of CR3. -/
def VmLog.cr3Line (log : VmLog) (cr3Content : Nat) : List UInt8 :=
  log.header log.cr3Site ++
    literal ['c', 'r', '3', ' ', 's', 'e', 't', ' ', 't', 'o', ':', '0', 'x'] ++
    resolveHexQword cr3Content true ++ [0x0a]

/-- The log line of a write of an MSR. -/
def VmLog.msrLine (log : VmLog) (msr value : Nat) : List UInt8 :=
  log.header log.msrSite ++ literal ['m', 's', 'r', ':', '0', 'x'] ++ resolveHexQword msr true ++
    literal [' ', 's', 'e', 't', ' ', 't', 'o', ':', '0', 'x'] ++
      resolveHexQword value true ++ [0x0a]

/-- What the monitor knows of its devices `D`: the registered callbacks, the memory of the host, the
part that interrupts concern, and the console, on which the handlers print the log lines of the
level `DEFAULT_LOGGING_LEVEL`, which is `LOG_DEBUG`. -/
structure Emulation (D : Type) where
  log : VmLog
  printk : D → List UInt8 → D
  portioOps : List (PortioOperation (PortioCallback D))
  searchMmioCallback : Nat → Option (MmioOperation D)
  host : D → Host
  interrupts : D → Interrupts
  setInterrupts : D → Interrupts → D

/-- What the handlers read from the processor and the keyboard of the host: the TSC, the byte at the
keyboard's port, and the byte on the stack that stays if that one is 0. -/
structure HostInput where
  tsc : Nat
  code : UInt8
  stale : UInt8

/-- A `vmexit_sub_handler`; a failed assertion or a panic is `none`. -/
def SubHandler (D : Type) := VmexitInfo → ExitState D → Option (ExitState D)

section
variable {D : Type}

/-- What the VMCS and the registers hold for an emulated access. -/
def ExitState.guest (s : ExitState D) : Guest D :=
  ⟨⟨s.vcpu, s.vmcs guestRsp⟩, s.vmcs guestRip, s.devices⟩

/-- The state after an emulated access. -/
def ExitState.setGuest (s : ExitState D) (g : Guest D) : ExitState D where
  vmcs := vmxWrite (vmxWrite s.vmcs guestRsp g.vcpu.guestRsp) guestRip g.rip
  vcpu := g.vcpu.state
  devices := g.devices

/-- What the VMCS and the devices hold for interrupts. -/
def ExitState.monitor (e : Emulation D) (s : ExitState D) : Monitor where
  pic := (e.interrupts s.devices).pic
  pit := (e.interrupts s.devices).pit
  kbd := (e.interrupts s.devices).kbd
  interruptRequestBitmap := (e.interrupts s.devices).interruptRequestBitmap
  procBasedControls := s.vmcs ctlsPriProcBasedVmExecution
  entryInterruptionInfo := s.vmcs vmentryIntrruptionInfo

/-- The state after an interrupt. -/
def ExitState.setMonitor (e : Emulation D) (s : ExitState D) (m : Monitor) : ExitState D where
  vmcs := vmxWrite (vmxWrite s.vmcs ctlsPriProcBasedVmExecution m.procBasedControls)
    vmentryIntrruptionInfo m.entryInterruptionInfo
  vcpu := s.vcpu
  devices := e.setInterrupts s.devices ⟨m.pic, m.pit, m.kbd, m.interruptRequestBitmap⟩

/-! ## Handlers -/

/-- `GOTO_NEXT_INSTRUCTION`. -/
def ExitState.gotoNext (s : ExitState D) (info : VmexitInfo) : ExitState D :=
  { s with vmcs := vmxWrite s.vmcs guestRip ((s.vmcs guestRip + info.instructionLength) % 2 ^ 64) }

/-- `controll_register_access_exit_sub_handler`: only CR3 can be written, from RAX. -/
def controllRegisterAccessExitSubHandler (e : Emulation D) : SubHandler D := fun info s =>
  let qualification := info.exitQualification
  if qualification &&& 0xf = 3 ∧ (qualification >>> 4) &&& 0x3 = 0 ∧
      (qualification >>> 8) &&& 0xf = 0 then
    let cr3Content := s.vcpu.rax
    let s :=
      { s with
        vmcs := vmxWrite s.vmcs guestCr3 cr3Content
        devices := e.printk s.devices (e.log.cr3Line cr3Content) }
    some (s.gotoNext info)
  else none

/-- The number of `IA32_EFER`. -/
def ia32EferMsr : Nat := 0xc0000080

/-- `rdmsr_exit_sub_handler`. -/
def rdmsrExitSubHandler : SubHandler D := fun info s =>
  if s.vcpu.rcx = ia32EferMsr then
    let guestEfer := s.vmcs guestIa32Efer
    let vcpu := { s.vcpu with rax := guestEfer % 2 ^ 32, rdx := (guestEfer >>> 32) % 2 ^ 32 }
    some (ExitState.gotoNext { s with vcpu } info)
  else none

/-- The value that `wrmsr_exit_sub_handler` makes of the halves. -/
def wrmsrValue (vcpu : GuestCpuState) : Nat :=
  let guestEfer := vcpu.rax &&& 0xffffffff
  guestEfer ||| ((vcpu.rdx <<< 32) % 2 ^ 64 &&& 0xffffffff)

/-- `wrmsr_exit_sub_handler`. -/
def wrmsrExitSubHandler (e : Emulation D) : SubHandler D := fun info s =>
  if s.vcpu.rcx = ia32EferMsr then
    let guestEfer := wrmsrValue s.vcpu
    let s :=
      { s with
        vmcs := vmxWrite s.vmcs guestIa32Efer guestEfer
        devices := e.printk s.devices (e.log.msrLine s.vcpu.rcx guestEfer) }
    some (s.gotoNext info)
  else none

/-- `halt_exit_sub_handler`. -/
def haltExitSubHandler : SubHandler D := fun info s => some (s.gotoNext info)

/-- `rdtsc_exit_sub_handler`. -/
def rdtscExitSubHandler (input : HostInput) : SubHandler D := fun info s =>
  let vcpu :=
    { s.vcpu with
      rdx := (input.tsc >>> 32) &&& 0xffffffff
      rax := input.tsc &&& 0xffffffff
      rcx := cpuFrequency }
  some (ExitState.gotoNext { s with vcpu } info)

/-- The switch of `external_interrupt_sub_handler`. -/
def externalInterruptSubHandler (input : HostInput) (vector : Nat) (m : Monitor) : Option Monitor :=
  if vector = 0x20 then (timerInterrupt m input.tsc).map fun r => r.2
  else if vector = 0x21 then (keyboardInterrupt m input.code input.stale).map fun r => r.2.2
  else none

/-- `external_interrupt_exit_sub_handler`. -/
def externalInterruptExitSubHandler (e : Emulation D) (input : HostInput) :
    SubHandler D := fun _ s =>
  let interruptInfo := s.vmcs vmexitInterruptInformation
  if (interruptInfo >>> 31) &&& 0x1 ≠ 0 ∧ (interruptInfo >>> 8) &&& 0x7 = 0 then
    (externalInterruptSubHandler input (interruptInfo &&& 0xff) (s.monitor e)).map (s.setMonitor e)
  else none

/-- The table `sub_handlers`, as `vm_exit_handler_init` fills it. -/
def subHandlers (e : Emulation D) (input : HostInput) : List (Nat × SubHandler D) :=
  [ (1, externalInterruptExitSubHandler e input),
    (30, fun info s => (ioInstructionExitSubHandler e.portioOps info.exitQualification
      info.instructionLength s.guest).map s.setGuest),
    (28, controllRegisterAccessExitSubHandler e),
    (12, haltExitSubHandler),
    (31, rdmsrExitSubHandler),
    (32, wrmsrExitSubHandler e),
    (49, fun _ s => (eptMisconfigExitSubHandler (e.host s.devices) e.searchMmioCallback s.guest).map
      fun r => s.setGuest r.2),
    (7, fun _ s => (interruptWindowExit (s.monitor e) (s.vmcs guestRflag)).map
      fun r => s.setMonitor e r.2),
    (16, rdtscExitSubHandler input) ]

/-- The first part of `vm_exit_handler_entry`: the bit LMA of the guest's EFER is made the bit of
the VM-entry controls that says whether the guest is in IA-32e mode. -/
def adjustLma (vmcs : Vmcs) : Vmcs :=
  if vmcs ctlsVmEntry &&& 1 <<< 9 ≠ 0 then
    vmxWrite vmcs guestIa32Efer (vmcs guestIa32Efer ||| 1 <<< 10)
  else vmxWrite vmcs guestIa32Efer (vmcs guestIa32Efer &&& (2 ^ 64 - 1 - 1 <<< 10))

/-- The description of the exit. -/
def exitInfo (vmcs : Vmcs) : VmexitInfo where
  basicReason := vmcs vmexitReason
  exitQualification := vmcs vmexitQualification
  instructionLength := vmcs vmexitInstructionLength

/-- `vm_exit_handler_entry`. The constant `1 << 31` is negative and is sign extended. -/
def vmExitHandlerEntry (e : Emulation D) (input : HostInput) (s : ExitState D) :
    Option (ExitState D) :=
  let s := { s with vmcs := adjustLma s.vmcs }
  let info := exitInfo s.vmcs
  if info.basicReason &&& 0xffffffff80000000 ≠ 0 then none
  else
    let reasonIndex := info.basicReason &&& 0xffff
    if reasonIndex < 65 then
      ((subHandlers e input).lookup reasonIndex).bind fun handler => handler info s
    else none

/-! ## Runs -/

/-- A VM exit: the VMCS and the registers that the processor leaves. -/
structure VmExit where
  vmcs : Vmcs
  vcpu : GuestCpuState
  input : HostInput

/-- One VM exit. -/
def vmExitStep (e : Emulation D) (s : ExitState D) (x : VmExit) : Option (Unit × ExitState D) :=
  (vmExitHandlerEntry e x.input ⟨x.vmcs, x.vcpu, s.devices⟩).map fun s' => ((), s')

end

end ZeldaOS
