import ZeldaOS.VmMonitor.EferCorrect
import ZeldaOS.VmMonitor.WindowCorrect

/-!
# What VM exits keep

Whatever the guest does, the monitor handles it by one of nine handlers (`Handled`,
`vmExitStep_handled`), two of which print a log line (`printk_cr3Line`, `printk_msrLine`). They
write six fields of the VMCS. Four of them describe the guest, one is the event that the next entry
injects, and of the last one, the processor-based controls, only the bit of the interrupt window
changes. So in every run of exits the host state and the controls stay as the monitor set them up:
the guest cannot leave its EPT or turn off an exit (`exits_confined`). The processor itself writes
two controls at an exit: it clears the event that it injected, and it stores in bit 9 of the
VM-entry controls whether the guest is in IA-32e mode.
-/

namespace ZeldaOS

/-! ## The log lines -/

/-- What `LOG_DEBUG` and the messages begin with: `"[debug] %s:%d vm:0x%x(vpid:%d) "`. -/
def debugFormat : List UInt8 :=
  literal ['[', 'd', 'e', 'b', 'u', 'g', ']', ' ', '%', 's', ':', '%', 'd', ' ', 'v',
    'm', ':', '0', 'x', '%', 'x', '(', 'v', 'p', 'i', 'd', ':', '%', 'd', ')', ' ']

/-- The message `"cr3 set to:0x%x\n"`. -/
def cr3Format : List UInt8 :=
  literal ['c', 'r', '3', ' ', 's', 'e', 't', ' ', 't', 'o', ':', '0', 'x', '%', 'x', '\n']

/-- The message `"msr:0x%x set to:0x%x\n"`. -/
def msrFormat : List UInt8 :=
  literal ['m', 's', 'r', ':', '0', 'x', '%', 'x', ' ', 's', 'e', 't', ' ', 't', 'o',
    ':', '0', 'x', '%', 'x', '\n']

section
variable {m : Memory} {log : VmLog} {site : LogSite} {file : Nat}

/-- A message behind the beginning of a line. -/
theorem printk_debugFormat {fmt text : List UInt8} {args : List Nat}
    (hfile : stringAt m (2 ^ 64) file = some site.file) (h : printkMpRaw m fmt args = some text) :
    printkMpRaw m (debugFormat ++ fmt) (file :: site.line :: log.vm :: log.vpid :: args) =
      some (log.header site ++ text) := by
  have hformat : debugFormat = literal ['[', 'd', 'e', 'b', 'u', 'g', ']', ' '] ++ 0x25 :: 0x73 ::
      (literal [':'] ++ 0x25 :: 0x64 :: (literal [' ', 'v', 'm', ':', '0', 'x'] ++ 0x25 :: 0x78 ::
        (literal ['(', 'v', 'p', 'i', 'd', ':'] ++ 0x25 :: 0x64 :: literal [')', ' ']))) := by
    decide
  rw [hformat]
  simp only [List.append_assoc, List.cons_append]
  rw [printkMpRaw_append (by simp [literal]), printkMpRaw_directive rfl hfile,
    printkMpRaw_append (by simp [literal]), printkMpRaw_directive rfl rfl,
    printkMpRaw_append (by simp [literal]), printkMpRaw_directive rfl rfl,
    printkMpRaw_append (by simp [literal]), printkMpRaw_directive rfl rfl,
    printkMpRaw_append (by simp [literal]), h]
  simp [VmLog.header]

/-- **The log line of CR3** is what `printk` prints for its format. -/
theorem printk_cr3Line (hfile : stringAt m (2 ^ 64) file = some log.cr3Site.file)
    (cr3Content : Nat) :
    printkMpRaw m (debugFormat ++ cr3Format)
      [file, log.cr3Site.line, log.vm, log.vpid, cr3Content] = some (log.cr3Line cr3Content) := by
  have hmessage : printkMpRaw m cr3Format [cr3Content] =
      some (literal ['c', 'r', '3', ' ', 's', 'e', 't', ' ', 't', 'o', ':', '0', 'x'] ++
        (resolveHexQword cr3Content true ++ [0x0a])) := by
    have hformat : cr3Format = literal ['c', 'r', '3', ' ', 's', 'e', 't', ' ', 't', 'o', ':', '0',
        'x'] ++ 0x25 :: 0x78 :: [0x0a] := by
      decide
    rw [hformat, printkMpRaw_append (by simp [literal]), printkMpRaw_directive rfl rfl]
    rfl
  rw [printk_debugFormat hfile hmessage, VmLog.cr3Line, List.append_assoc, List.append_assoc]

/-- **So is that of an MSR.** -/
theorem printk_msrLine (hfile : stringAt m (2 ^ 64) file = some log.msrSite.file)
    (msr value : Nat) :
    printkMpRaw m (debugFormat ++ msrFormat)
      [file, log.msrSite.line, log.vm, log.vpid, msr, value] = some (log.msrLine msr value) := by
  have hmessage : printkMpRaw m msrFormat [msr, value] =
      some (literal ['m', 's', 'r', ':', '0', 'x'] ++ (resolveHexQword msr true ++
        (literal [' ', 's', 'e', 't', ' ', 't', 'o', ':', '0', 'x'] ++
          (resolveHexQword value true ++ [0x0a])))) := by
    have hformat : msrFormat = literal ['m', 's', 'r', ':', '0', 'x'] ++ 0x25 :: 0x78 ::
        (literal [' ', 's', 'e', 't', ' ', 't', 'o', ':', '0', 'x'] ++ 0x25 :: 0x78 :: [0x0a]) := by
      decide
    rw [hformat, printkMpRaw_append (by simp [literal]), printkMpRaw_directive rfl rfl,
      printkMpRaw_append (by simp [literal]), printkMpRaw_directive rfl rfl]
    rfl
  rw [printk_debugFormat hfile hmessage, VmLog.msrLine]
  simp only [List.append_assoc]

end

section
variable {D : Type}

/-! ## The handlers -/

/-- What the handler of a reason does. -/
inductive Handled (e : Emulation D) (input : HostInput) (info : VmexitInfo) (s : ExitState D) :
    Nat → ExitState D → Prop
  | timer {r} : s.vmcs vmexitInterruptInformation &&& 0xff = 0x20 →
      timerInterrupt (s.monitor e) input.tsc = some r →
        Handled e input info s 1 (s.setMonitor e r.2)
  | keyboard {r} : s.vmcs vmexitInterruptInformation &&& 0xff = 0x21 →
      keyboardInterrupt (s.monitor e) input.code input.stale = some r →
      Handled e input info s 1 (s.setMonitor e r.2.2)
  | port {g} : ioInstructionExitSubHandler e.portioOps info.exitQualification info.instructionLength
      s.guest = some g → Handled e input info s 30 (s.setGuest g)
  | cr3 : Handled e input info s 28
      (ExitState.gotoNext { s with
        vmcs := vmxWrite s.vmcs guestCr3 s.vcpu.rax
        devices := e.printk s.devices (e.log.cr3Line s.vcpu.rax) } info)
  | halt : Handled e input info s 12 (s.gotoNext info)
  | rdmsr (vcpu : GuestCpuState) : Handled e input info s 31
      (ExitState.gotoNext { s with vcpu } info)
  | wrmsr : Handled e input info s 32
      (ExitState.gotoNext { s with
        vmcs := vmxWrite s.vmcs guestIa32Efer (wrmsrValue s.vcpu)
        devices := e.printk s.devices (e.log.msrLine s.vcpu.rcx (wrmsrValue s.vcpu)) } info)
  | mmio {r} : eptMisconfigExitSubHandler (e.host s.devices) e.searchMmioCallback s.guest = some r →
      Handled e input info s 49 (s.setGuest r.2)
  | window {r} : interruptWindowExit (s.monitor e) (s.vmcs guestRflag) = some r →
      Handled e input info s 7 (s.setMonitor e r.2)
  | rdtsc (vcpu : GuestCpuState) : Handled e input info s 16
      (ExitState.gotoNext { s with vcpu } info)

variable {e : Emulation D} {input : HostInput} {info : VmexitInfo} {s s' : ExitState D} {x : VmExit}

/-- The handler of external interrupts calls that of the timer or that of the keyboard. -/
theorem externalInterrupt_handled (h : externalInterruptExitSubHandler e input info s = some s') :
    Handled e input info s 1 s' := by
  rw [externalInterruptExitSubHandler] at h
  split at h
  · obtain ⟨m, hm, rfl⟩ := Option.map_eq_some_iff.1 h
    rw [externalInterruptSubHandler] at hm
    split at hm
    · next hvector =>
      obtain ⟨r, hr, rfl⟩ := Option.map_eq_some_iff.1 hm
      exact .timer hvector hr
    · split at hm
      · next hvector =>
        obtain ⟨r, hr, rfl⟩ := Option.map_eq_some_iff.1 hm
        exact .keyboard hvector hr
      · cases hm
  · cases h

/-- The entries of the table `sub_handlers`, one by one. -/
theorem subHandlers_handled {handler : SubHandler D} {reason : Nat}
    (hmem : (reason, handler) ∈ subHandlers e input) (h : handler info s = some s') :
    Handled e input info s reason s' := by
  simp only [subHandlers, List.mem_cons, Prod.mk.injEq, List.not_mem_nil, or_false] at hmem
  rcases hmem with ⟨rfl, rfl⟩ | ⟨rfl, rfl⟩ | ⟨rfl, rfl⟩ | ⟨rfl, rfl⟩ | ⟨rfl, rfl⟩ | ⟨rfl, rfl⟩ |
    ⟨rfl, rfl⟩ | ⟨rfl, rfl⟩ | ⟨rfl, rfl⟩
  · exact externalInterrupt_handled h
  · obtain ⟨g, hg, rfl⟩ := Option.map_eq_some_iff.1 h
    exact .port hg
  · rw [controllRegisterAccessExitSubHandler] at h
    split at h
    · cases h
      exact .cr3
    · cases h
  · cases h
    exact .halt
  · rw [rdmsrExitSubHandler] at h
    split at h
    · cases h
      exact .rdmsr _
    · cases h
  · rw [wrmsrExitSubHandler] at h
    split at h
    · cases h
      exact .wrmsr
    · cases h
  · obtain ⟨r, hr, rfl⟩ := Option.map_eq_some_iff.1 h
    exact .mmio hr
  · obtain ⟨r, hr, rfl⟩ := Option.map_eq_some_iff.1 h
    exact .window hr
  · cases h
    exact .rdtsc _

/-- The state that the handler of an exit meets. -/
def ExitState.atExit (s : ExitState D) (x : VmExit) : ExitState D :=
  ⟨adjustLma x.vmcs, x.vcpu, s.devices⟩

/-- **Inversion of an exit.** -/
theorem vmExitStep_handled {u : Unit} (h : vmExitStep e s x = some (u, s')) :
    Handled e x.input (exitInfo (adjustLma x.vmcs)) (s.atExit x)
      (x.vmcs vmexitReason &&& 0xffff) s' := by
  obtain ⟨s'', hentry, heq⟩ := Option.map_eq_some_iff.1 h
  cases heq
  have hreason : (exitInfo (adjustLma x.vmcs)).basicReason = x.vmcs vmexitReason :=
    adjustLma_of_ne (by decide) _
  rw [vmExitHandlerEntry] at hentry
  dsimp only at hentry
  split at hentry
  · cases hentry
  split at hentry
  · obtain ⟨handler, hlookup, hhandler⟩ := Option.bind_eq_some_iff.1 hentry
    obtain ⟨l₁, l₂, hlist, -⟩ := List.lookup_eq_some_iff.1 hlookup
    rw [hreason] at hlist
    have hmem : (x.vmcs vmexitReason &&& 0xffff, handler) ∈ subHandlers e x.input := by
      rw [hlist]
      exact List.mem_append_right _ List.mem_cons_self
    exact subHandlers_handled hmem hhandler
  · cases hentry

/-! ## The fields -/

/-- Opening the interrupt window changes its bit of the processor-based controls. -/
theorem agreeButWindow_enable (m : Monitor) :
    AgreeBut 2 (enableInterruptWindow m).procBasedControls m.procBasedControls := by
  intro i hi hne
  have hbit : ∀ i < 64, i ≠ 2 → (1 <<< 2).testBit i = false := by decide
  rw [enableInterruptWindow, Nat.testBit_or, hbit i hi hne, Bool.or_false]

/-- So does closing it. -/
theorem agreeButWindow_disable (m : Monitor) :
    AgreeBut 2 (disableInterruptWindow m).procBasedControls m.procBasedControls := by
  intro i hi hne
  have hbit : ∀ i < 64, i ≠ 2 → (2 ^ 64 - 1 - 1 <<< 2).testBit i = true := by decide
  rw [disableInterruptWindow, Nat.testBit_and, hbit i hi hne, Bool.and_true]

section
variable {m m' : Monitor}

/-- A line that is raised opens the window at most, -/
theorem agreeButWindow_raise {vector : Nat} {raised : Option (Fin 15)}
    (h : raiseInterrupt m vector = some (raised, m')) :
    AgreeBut 2 m'.procBasedControls m.procBasedControls := by
  rw [raiseInterrupt] at h
  split at h
  · split at h
    · cases h
      exact .refl _ _
    · cases h
      exact agreeButWindow_enable _
  · cases h

/-- and so do the interrupts of the timer -/
theorem agreeButWindow_timer {currTsc : Nat} {r : Option (Fin 15) × Monitor}
    (h : timerInterrupt m currTsc = some r) :
    AgreeBut 2 r.2.procBasedControls m.procBasedControls := by
  obtain ⟨raised, m'⟩ := r
  obtain ⟨m₁, rfl, ⟨-, hr⟩ | ⟨-, -, rfl⟩⟩ := timerInterrupt_inv h
  · have hraised : AgreeBut 2 m₁.procBasedControls m.procBasedControls := agreeButWindow_raise hr
    exact hraised
  · exact .refl _ _

/-- and of the keyboard. -/
theorem agreeButWindow_keyboard {code stale : UInt8} {r : Option UInt8 × Option (Fin 15) × Monitor}
    (h : keyboardInterrupt m code stale = some r) :
    AgreeBut 2 r.2.2.procBasedControls m.procBasedControls := by
  obtain ⟨accepted, raised, m'⟩ := r
  obtain ⟨-, hr⟩ := keyboardInterrupt_inv h
  have hraised := agreeButWindow_raise hr
  exact hraised

/-- An exit by the open window closes it at most. -/
theorem agreeButWindow_windowExit {rflags : Nat} {r : WindowResult × Monitor}
    (h : interruptWindowExit m rflags = some r) :
    AgreeBut 2 r.2.procBasedControls m.procBasedControls := by
  rw [interruptWindowExit] at h
  split at h
  · cases h
  split at h
  · cases h
    exact .refl _ _
  · obtain ⟨⟨cleared, m₁⟩, hr, rfl⟩ := Option.map_eq_some_iff.1 h
    have hretired := (retireDelivered_retires hr).frame.1
    have hdelivered := (deliverNext_delivers m₁).frame
    dsimp only
    split
    · rw [hdelivered, hretired]
      exact .refl _ _
    · refine (agreeButWindow_disable _).trans ?_
      rw [hdelivered, hretired]
      exact .refl _ _

end

/-- The type of a field of the VMCS, from its encoding: 0 for a control, 1 for the description of an
exit, 2 for the state of the guest and 3 for the state of the host. -/
def fieldType (encoding : Nat) : Nat := (encoding >>> 10) &&& 3

/-- A field that the processor does not write by itself: a field of the host state, or a control
other than the event to inject, whose valid bit an exit clears, and the VM-entry controls. -/
def Configured (encoding : Nat) : Prop :=
  (fieldType encoding = 0 ∨ fieldType encoding = 3) ∧
    encoding ≠ vmentryIntrruptionInfo ∧ encoding ≠ ctlsVmEntry

/-- The guest ran between two exits. Of the VM-entry controls the exit writes bit 9, which says
whether the guest is in IA-32e mode. -/
structure GuestRuns (s : ExitState D) (x : VmExit) : Prop where
  fields : ∀ encoding, Configured encoding → x.vmcs encoding = s.vmcs encoding
  entry : AgreeBut 9 (x.vmcs ctlsVmEntry) (s.vmcs ctlsVmEntry)

/-- The configured fields stay, but for the bit of the interrupt window, and so do the VM-entry
controls but for the bit of the guest's mode. -/
structure Confined (s s' : ExitState D) : Prop where
  fields : ∀ encoding, Configured encoding → encoding ≠ ctlsPriProcBasedVmExecution →
    s'.vmcs encoding = s.vmcs encoding
  controls : AgreeBut 2 (s'.vmcs ctlsPriProcBasedVmExecution) (s.vmcs ctlsPriProcBasedVmExecution)
  entry : AgreeBut 9 (s'.vmcs ctlsVmEntry) (s.vmcs ctlsVmEntry)

/-- Confinement is transitive. -/
theorem Confined.trans {s₁ s₂ s₃ : ExitState D} (h₁ : Confined s₁ s₂) (h₂ : Confined s₂ s₃) :
    Confined s₁ s₃ :=
  ⟨fun encoding hc hne => (h₂.fields encoding hc hne).trans (h₁.fields encoding hc hne),
    h₂.controls.trans h₁.controls, h₂.entry.trans h₁.entry⟩

/-- A configured field is not one of the guest state. -/
theorem Configured.ne_guest {encoding field : Nat} (h : Configured encoding)
    (hfield : fieldType field = 2) : encoding ≠ field := by
  rintro rfl
  rcases h.1 with htype | htype
  · rw [hfield] at htype
    cases htype
  · rw [hfield] at htype
    cases htype

/-- Writing a field of the guest state keeps the configured fields. -/
theorem confined_guest (field value : Nat) (hfield : fieldType field = 2)
    (h : s'.vmcs = vmxWrite s.vmcs field value) : Confined s s' := by
  have hcontrol : ∀ control, fieldType control = 0 → s'.vmcs control = s.vmcs control := by
    intro control hcontrol
    have hne : control ≠ field := by
      rintro rfl
      cases hfield.symm.trans hcontrol
    rw [h, vmxWrite_of_ne hne]
  refine ⟨fun encoding hc _ => ?_, ?_, ?_⟩
  · rw [h, vmxWrite_of_ne (hc.ne_guest hfield)]
  · rw [hcontrol _ rfl]
    exact .refl _ _
  · rw [hcontrol _ rfl]
    exact .refl _ _

/-- Advancing the instruction pointer keeps them. -/
theorem confined_gotoNext (s : ExitState D) (info : VmexitInfo) : Confined s (s.gotoNext info) :=
  confined_guest guestRip _ rfl rfl

/-- So does an emulated access. -/
theorem confined_setGuest (s : ExitState D) (g : Guest D) : Confined s (s.setGuest g) := by
  have hrsp : Confined s { s with vmcs := vmxWrite s.vmcs guestRsp g.vcpu.guestRsp } :=
    confined_guest guestRsp _ rfl rfl
  exact hrsp.trans (confined_guest guestRip _ rfl rfl)

/-- So does an interrupt that changes the bit of the window only. -/
theorem confined_setMonitor {m : Monitor}
    (h : AgreeBut 2 m.procBasedControls (s.vmcs ctlsPriProcBasedVmExecution)) :
    Confined s (s.setMonitor e m) := by
  have hvmcs : (s.setMonitor e m).vmcs =
      vmxWrite (vmxWrite s.vmcs ctlsPriProcBasedVmExecution m.procBasedControls)
        vmentryIntrruptionInfo m.entryInterruptionInfo := rfl
  refine ⟨fun encoding hc hne => ?_, ?_, ?_⟩
  · rw [hvmcs, vmxWrite_of_ne hc.2.1, vmxWrite_of_ne hne]
  · rw [hvmcs, vmxWrite_of_ne (by decide), vmxWrite_self]
    exact h
  · rw [hvmcs, vmxWrite_of_ne (by decide), vmxWrite_of_ne (by decide)]
    exact .refl _ _

/-- **No handler** writes a configured field, but for the bit of the interrupt window. -/
theorem Handled.confined {reason : Nat} (h : Handled e input info s reason s') : Confined s s' := by
  cases h with
  | timer _ hr => exact confined_setMonitor (agreeButWindow_timer hr)
  | keyboard _ hr => exact confined_setMonitor (agreeButWindow_keyboard hr)
  | port | mmio => exact confined_setGuest s _
  | cr3 => exact (confined_guest guestCr3 _ rfl rfl).trans (confined_gotoNext _ info)
  | halt => exact confined_gotoNext s info
  | rdmsr | rdtsc => exact confined_guest guestRip _ rfl rfl
  | wrmsr => exact (confined_guest guestIa32Efer _ rfl rfl).trans (confined_gotoNext _ info)
  | window hr => exact confined_setMonitor (agreeButWindow_windowExit hr)

/-- One exit, with the run of the guest before it. -/
theorem vmExitStep_confined {u : Unit} (hran : GuestRuns s x)
    (h : vmExitStep e s x = some (u, s')) :
    Confined s s' := by
  have hexit : Confined s (s.atExit x) := by
    have hfield : ∀ encoding, Configured encoding → (s.atExit x).vmcs encoding =
        s.vmcs encoding := by
      intro encoding hc
      exact (adjustLma_of_ne (hc.ne_guest rfl) x.vmcs).trans (hran.fields encoding hc)
    have hentry : (s.atExit x).vmcs ctlsVmEntry = x.vmcs ctlsVmEntry :=
      adjustLma_of_ne (by decide) x.vmcs
    refine ⟨fun encoding hc _ => hfield encoding hc, ?_, ?_⟩
    · rw [hfield _ ⟨.inl rfl, by decide, by decide⟩]
      exact .refl _ _
    · rw [hentry]
      exact hran.entry
  exact hexit.trans (vmExitStep_handled h).confined

/-- **The guest cannot reconfigure its VM.** In every run of VM exits, whatever the guest did in
between and whatever its devices are, the host state and all controls of the VMCS are as at the
start, except for the event to inject, the bit of the interrupt window, and the bit of the VM-entry
controls in which an exit stores whether the guest is in IA-32e mode. -/
theorem exits_confined {s₀ : ExitState D} {t : List (VmExit × Unit)}
    (h : Run (vmExitStep e) GuestRuns s₀ t s) :
    (∀ encoding, Configured encoding → encoding ≠ ctlsPriProcBasedVmExecution →
      s.vmcs encoding = s₀.vmcs encoding) ∧
    (∀ i < 64, i ≠ 2 → (s.vmcs ctlsPriProcBasedVmExecution).testBit i =
      (s₀.vmcs ctlsPriProcBasedVmExecution).testBit i) ∧
    ∀ i < 64, i ≠ 9 → (s.vmcs ctlsVmEntry).testBit i = (s₀.vmcs ctlsVmEntry).testBit i := by
  have hconfined : Confined s₀ s := by
    induction h with
    | nil => exact ⟨fun _ _ _ => rfl, .refl _ _, .refl _ _⟩
    | snoc _ hran hst ih => exact ih.trans (vmExitStep_confined hran hst)
  exact ⟨hconfined.fields, hconfined.controls, hconfined.entry⟩

end

/-- A VMCS with an EPT pointer. -/
def eptVmcs : Vmcs := fun field => if field = 0x201a then 0x5000 else 0

/-- The same at an exit by WRMSR of a guest in IA-32e mode. -/
def wrmsrVmcs : Vmcs := fun field =>
  if field = vmexitReason then 32 else if field = ctlsVmEntry then 0x200 else eptVmcs field

/-- The guest enters IA-32e mode and writes EFER; the EPT pointer is as it was. -/
theorem exits_confined_eptp : ∃ t s, Run (vmExitStep bareEmulation) GuestRuns
    ⟨eptVmcs, (wrmsrExit 1 0).vcpu, ()⟩ t s ∧ s.vmcs guestIa32Efer = 1 ∧
      s.vmcs 0x201a = 0x5000 := by
  obtain ⟨s, hst, hefer⟩ := vmExitStep_wrmsr (x := { wrmsrExit 1 0 with vmcs := wrmsrVmcs })
    bareEmulation ⟨eptVmcs, (wrmsrExit 1 0).vcpu, ()⟩ rfl rfl
  have hran : GuestRuns (⟨eptVmcs, (wrmsrExit 1 0).vcpu, ()⟩ : ExitState Unit)
      { wrmsrExit 1 0 with vmcs := wrmsrVmcs } := by
    refine ⟨fun encoding hc => ?_, ?_⟩
    · have hreason : encoding ≠ vmexitReason := by
        rintro rfl
        rcases hc.1 with htype | htype
        · cases htype
        · cases htype
      exact (if_neg hreason).trans (if_neg hc.2.2)
    · have hbit : ∀ i < 64, i ≠ 9 → (0x200 : Nat).testBit i = (0 : Nat).testBit i := by decide
      exact hbit
  have hrun : Run (vmExitStep bareEmulation) GuestRuns ⟨eptVmcs, (wrmsrExit 1 0).vcpu, ()⟩
      ([] ++ [(_, ())]) s := Run.nil.snoc hran hst
  exact ⟨_, s, hrun, hefer,
    (exits_confined hrun).1 0x201a ⟨.inl rfl, by decide, by decide⟩ (by decide)⟩

end ZeldaOS
