import Mathlib.Logic.Function.Basic
import Mathlib.Tactic.IntervalCases
import ZeldaOS.Lib.Stack
import ZeldaOS.Memory.Paging
import ZeldaOS.VmMonitor.Monitor

/-!
# The VM's control structures

Model of the parts of `vm_monitor/vmx_vmcs.c` that lay out the monitor's memory for a VM, and of the
assembly entry of VM exits, `vmx_asm.S`.

`preInitializeVmcs` allocates the regions of a VM, clears the first page of each and sets the
devices to their initial states. `initializeVmcsHostState` writes the fields of the VMCS that the
processor loads upon a VM exit, the stack pointer among them. `vm_exit_handler` then saves the
guest's registers by sixteen pushes (`saveGuest`), calls the handler in C, and restores them by
sixteen pops (`restoreGuest`). The pushes lay out a `struct guest_cpu_state`, which the handlers
read and write as the guest's registers (`vcpuGetGpRegiter`, `vcpuSetGpRegiter`).
-/

namespace ZeldaOS

/-! ## Regions and devices -/

/-- `HOST_STACK_NR_PAGES`. -/
def hostStackNrPages : Nat := 0x8

/-- The fields of `struct vmcs_blob` and its `regions` that `pre_initialize_vmcs` sets; the fields
it leaves 0 and the devices do not use are left out. -/
structure VmcsBlob where
  guestRegion : Nat
  ioBitmapRegion0 : Nat
  ioBitmapRegion1 : Nat
  vmExitStoreMsrRegion : Nat
  vmExitLoadMsrRegion : Nat
  hostStack : Nat
  serialLineBuffer : Nat
  videoBuffer : Nat
  serialLineIptr : Nat
  pic : Pic
  pit : Pit
  kbd : Ring

/-- The macro `_` of `pre_initialize_vmcs`: assert that the region exists, clear its first page and
assert that its address is its physical address. -/
def clearRegion {A : Type} (k : Kernel A) (va : Nat) : Option (Kernel A) :=
  if va = 0 then none
  else
    let mem := k.mem.fill va 4096 0
    if va = pa mem k.pml4Base va then some { k with mem } else none

/-- `pre_initialize_vmcs`. -/
def preInitializeVmcs (k : Kernel PhysicalMemory) : Option (VmcsBlob × Kernel PhysicalMemory) :=
  let guestRegion := getPhysicalPage k.alloc
  let ioBitmapRegion0 := getPhysicalPage guestRegion.2
  let ioBitmapRegion1 := getPhysicalPage ioBitmapRegion0.2
  let storeMsrRegion := getPhysicalPage ioBitmapRegion1.2
  let loadMsrRegion := getPhysicalPage storeMsrRegion.2
  (getPhysicalPages loadMsrRegion.2 hostStackNrPages).bind fun hostStack =>
    let serialLineBuffer := getPhysicalPage hostStack.2
    let videoBuffer := getPhysicalPage serialLineBuffer.2
    let vm : VmcsBlob :=
      { guestRegion := guestRegion.1
        ioBitmapRegion0 := ioBitmapRegion0.1
        ioBitmapRegion1 := ioBitmapRegion1.1
        vmExitStoreMsrRegion := storeMsrRegion.1
        vmExitLoadMsrRegion := loadMsrRegion.1
        hostStack := hostStack.1
        serialLineBuffer := serialLineBuffer.1
        videoBuffer := videoBuffer.1
        serialLineIptr := 0
        pic :=
          { masterPicCommand := 0, slavePicCommand := 0, masterPicData := 0xff
            slavePicData := 0xff, isMasterPicInitializing := false
            isSlavePicInitializing := false, masterPicOffset := 0, slavePicOffset := 0
            interruptDeliveryPending := false, interruptDeliveryVector := 0 }
        pit := { threshold := 0, lastTsc := 0 }
        kbd := Ring.empty scancodeBufferLength }
    let regions := [vm.guestRegion, vm.ioBitmapRegion0, vm.ioBitmapRegion1,
      vm.vmExitStoreMsrRegion, vm.vmExitLoadMsrRegion, vm.hostStack, vm.serialLineBuffer,
      vm.videoBuffer]
    (regions.foldlM clearRegion { k with alloc := videoBuffer.2 }).map fun k => (vm, k)

/-- The requests that `pre_initialize_vmcs` makes, with the regions they return. -/
def VmcsBlob.requests (vm : VmcsBlob) : List (Int × Nat) :=
  [(1, vm.guestRegion), (1, vm.ioBitmapRegion0), (1, vm.ioBitmapRegion1),
    (1, vm.vmExitStoreMsrRegion), (1, vm.vmExitLoadMsrRegion), (hostStackNrPages, vm.hostStack),
    (1, vm.serialLineBuffer), (1, vm.videoBuffer)]

/-- The regions that `pre_initialize_vmcs` clears. -/
def VmcsBlob.regions (vm : VmcsBlob) : List Nat := vm.requests.map Prod.snd

section
variable {A : Type} {k k' : Kernel A} {va x : Nat} {regions : List Nat}

/-- What clearing a region does. -/
theorem clearRegion_inv (h : clearRegion k va = some k') :
    va ≠ 0 ∧ k' = { k with mem := k.mem.fill va 4096 0 } := by
  rw [clearRegion] at h
  split at h
  · cases h
  · next hva =>
    dsimp only at h
    split at h
    · cases h
      exact ⟨hva, rfl⟩
    · cases h

/-- A region that was cleared is zero, and what was zero stays zero. -/
theorem clearRegion_zero (h : clearRegion k va = some k')
    (hx : (va ≤ x ∧ x < va + 4096) ∨ k.mem x = 0) : k'.mem x = 0 := by
  obtain ⟨-, rfl⟩ := clearRegion_inv h
  by_cases hin : va ≤ x ∧ x < va + 4096
  · exact Memory.fill_apply_of_mem hin.1 hin.2
  · exact (Memory.fill_apply_of_not_mem (by omega)).trans (hx.resolve_left hin)

theorem foldlM_clearRegion_zero : ∀ {regions : List Nat} {k : Kernel A},
    regions.foldlM clearRegion k = some k' →
    (∃ va ∈ regions, va ≤ x ∧ x < va + 4096) ∨ k.mem x = 0 → k'.mem x = 0
  | [], k, h, hx => by
    cases h
    exact hx.resolve_left (by simp)
  | va :: regions, k, h, hx => by
    rw [List.foldlM_cons] at h
    obtain ⟨k₁, hk₁, h⟩ := Option.bind_eq_some_iff.1 h
    refine foldlM_clearRegion_zero h ?_
    rcases hx with ⟨va', hmem, hin⟩ | hzero
    · rcases List.mem_cons.1 hmem with rfl | hmem
      · exact .inr (clearRegion_zero hk₁ (.inl hin))
      · exact .inl ⟨va', hmem, hin⟩
    · exact .inr (clearRegion_zero hk₁ (.inr hzero))

theorem foldlM_clearRegion_ne_zero : ∀ {regions : List Nat} {k : Kernel A},
    regions.foldlM clearRegion k = some k' → ∀ va ∈ regions, va ≠ 0
  | [], _, _ => by simp
  | va :: regions, k, h => by
    rw [List.foldlM_cons] at h
    obtain ⟨k₁, hk₁, h⟩ := Option.bind_eq_some_iff.1 h
    exact List.forall_mem_cons.2 ⟨(clearRegion_inv hk₁).1, foldlM_clearRegion_ne_zero h⟩

end

section
variable {k k' : Kernel PhysicalMemory} {vm : VmcsBlob}

/-- A request of one page. -/
theorem Run.getPhysicalPage {s₀ s : PhysicalMemory} {t : List (Int × Nat)}
    (h : Run getPhysicalPages (fun _ n => RequestOk n) s₀ t s) :
    Run getPhysicalPages (fun _ n => RequestOk n) s₀ (t ++ [(1, (ZeldaOS.getPhysicalPage s).1)])
      (ZeldaOS.getPhysicalPage s).2 := h.snoc ⟨by decide, by decide⟩ rfl

/-- **What `pre_initialize_vmcs` does**: it makes its requests, clears the regions and sets the
devices to their initial states. -/
theorem preInitializeVmcs_inv (h : preInitializeVmcs k = some (vm, k')) :
    (∃ s, Run getPhysicalPages (fun _ n => RequestOk n) k.alloc vm.requests s ∧
      vm.regions.foldlM clearRegion { k with alloc := s } = some k') ∧
    vm.serialLineIptr = 0 ∧
    ∀ procBasedControls entryInterruptionInfo : Nat,
      (⟨vm.pic, vm.pit, vm.kbd, fun _ => false, procBasedControls,
        entryInterruptionInfo⟩ : Monitor) =
        preInitialized procBasedControls entryInterruptionInfo := by
  rw [preInitializeVmcs] at h
  obtain ⟨hostStack, hstack, h⟩ := Option.bind_eq_some_iff.1 h
  obtain ⟨k₁, hclear, heq⟩ := Option.map_eq_some_iff.1 h
  cases heq
  have hstart : Run getPhysicalPages (fun _ n => RequestOk n) k.alloc [] k.alloc := .nil
  have hmsr :=
    hstart.getPhysicalPage.getPhysicalPage.getPhysicalPage.getPhysicalPage.getPhysicalPage
  have hregions := (hmsr.snoc ⟨by decide, by decide⟩ hstack).getPhysicalPage.getPhysicalPage
  exact ⟨⟨_, hregions, hclear⟩, rfl, fun _ _ => rfl⟩

/-- Every region exists, and its first page is zero when the VM starts. -/
theorem preInitializeVmcs_regions (h : preInitializeVmcs k = some (vm, k')) :
    ∀ va ∈ vm.regions, va ≠ 0 ∧ ∀ x, va ≤ x → x < va + 4096 → k'.mem x = 0 := by
  obtain ⟨⟨s, -, hclear⟩, -⟩ := preInitializeVmcs_inv h
  exact fun va hva => ⟨foldlM_clearRegion_ne_zero hclear va hva,
    fun x h₁ h₂ => foldlM_clearRegion_zero hclear (.inl ⟨va, hva, h₁, h₂⟩)⟩

end

/-! ## The VMCS -/

/-- The fields of the current VMCS by encoding. -/
def Vmcs := Nat → Nat

/-- The macro `VMXWRITE` on a processor that has the field. -/
def vmxWrite (vmcs : Vmcs) (encoding value : Nat) : Vmcs := Function.update vmcs encoding value

@[simp] theorem vmxWrite_self (vmcs : Vmcs) (encoding value : Nat) :
    vmxWrite vmcs encoding value encoding = value := Function.update_self ..

/-- A write leaves the other fields as they are. -/
theorem vmxWrite_of_ne {encoding field : Nat} (h : field ≠ encoding) (vmcs : Vmcs) (value : Nat) :
    vmxWrite vmcs encoding value field = vmcs field := Function.update_of_ne h ..

/-- What `initialize_vmcs_host_state` reads from the processor, and the address of
`vm_exit_handler`. -/
structure HostCpu where
  cr0Fixed0 : Nat
  cr4Fixed0 : Nat
  cr0 : Nat
  cr3 : Nat
  cr4 : Nat
  idtrBase : Nat
  gdtrBase : Nat
  fsBase : Nat
  gsBase : Nat
  tssBase : Nat
  efer : Nat
  vmExitHandler : Nat

/-- `HOST_RSP`. -/
def hostRsp : Nat := 0x6c14

/-- `KERNEL_CODE_SELECTOR`. -/
def kernelCodeSelector : Nat := 0x08

/-- `KERNEL_DATA_SELECTOR`. -/
def kernelDataSelector : Nat := 0x10

/-- `TSS0_SELECTOR`. -/
def tss0Selector : Nat := 0x28

/-- The fields that `initialize_vmcs_host_state` writes, in order. -/
def hostStateFields (cpu : HostCpu) (vm : VmcsBlob) : List (Nat × Nat) :=
  [ (0x6c00, cpu.cr0Fixed0 ||| cpu.cr0), -- HOST_CR0
    (0x6c02, cpu.cr3), -- HOST_CR3
    (0x6c04, cpu.cr4Fixed0 ||| cpu.cr4), -- HOST_CR4
    (0x0c00, kernelDataSelector), -- HOST_ES_SELECTOR
    (0x0c02, kernelCodeSelector), -- HOST_CS_SELECTOR
    (0x0c04, kernelDataSelector), -- HOST_SS_SELECTOR
    (0x0c06, kernelDataSelector), -- HOST_DS_SELECTOR
    (0x0c08, kernelDataSelector), -- HOST_FS_SELECTOR
    (0x0c0a, kernelDataSelector), -- HOST_GS_SELECTOR
    (0x0c0c, tss0Selector), -- HOST_TR_SELECTOR
    (0x4c00, 0), -- HOST_IA32_SYSENTER_CS
    (0x6c10, 0), -- HOST_IA32_SYSENTER_ESP
    (0x6c12, 0), -- HOST_IA32_SYSENTER_EIP
    (0x6c0e, cpu.idtrBase), -- HOST_IDTR_BASE
    (0x6c0c, cpu.gdtrBase), -- HOST_GDTR_BASE
    (0x6c06, cpu.fsBase), -- HOST_FS_BASE
    (0x6c08, cpu.gsBase), -- HOST_GS_BASE
    (0x6c0a, cpu.tssBase), -- HOST_TR_BASE
    (hostRsp, vm.hostStack),
    (0x6c16, cpu.vmExitHandler), -- HOST_RIP
    (0x2c02, cpu.efer) ] -- HOST_IA32_EFER

/-- `initialize_vmcs_host_state`. -/
def initializeVmcsHostState (cpu : HostCpu) (vm : VmcsBlob) (vmcs : Vmcs) : Vmcs :=
  (hostStateFields cpu vm).foldl (fun vmcs field => vmxWrite vmcs field.1 field.2) vmcs

/-! ## The guest's registers -/

/-- `struct guest_cpu_state`. -/
structure GuestCpuState where
  cr2 : Nat
  r8 : Nat
  r9 : Nat
  r10 : Nat
  r11 : Nat
  r12 : Nat
  r13 : Nat
  r14 : Nat
  r15 : Nat
  rbp : Nat
  rdi : Nat
  rsi : Nat
  rdx : Nat
  rcx : Nat
  rbx : Nat
  rax : Nat
deriving DecidableEq, Repr

/-- The words that `vm_exit_handler` pushes, in order. -/
def GuestCpuState.pushes (s : GuestCpuState) : List Nat :=
  [s.rax, s.rbx, s.rcx, s.rdx, s.rsi, s.rdi, s.rbp, s.r15, s.r14, s.r13, s.r12, s.r11, s.r10, s.r9,
    s.r8, s.cr2]

/-- The registers hold machine words. -/
def GuestCpuState.Ok (s : GuestCpuState) : Prop := ∀ v ∈ s.pushes, v < 2 ^ 64

instance (s : GuestCpuState) : Decidable s.Ok := inferInstanceAs (Decidable (∀ v ∈ s.pushes, _))

/-- The registers that `vm_exit_handler` pops, in order. -/
def GuestCpuState.ofPops : List Nat → Option GuestCpuState
  | [cr2, r8, r9, r10, r11, r12, r13, r14, r15, rbp, rdi, rsi, rdx, rcx, rbx, rax] =>
    some ⟨cr2, r8, r9, r10, r11, r12, r13, r14, r15, rbp, rdi, rsi, rdx, rcx, rbx, rax⟩
  | _ => none

/-- The part of `vm_exit_handler` before the call: save the registers on the stack the processor
loaded from `HOST_RSP`. The second result is the `struct guest_cpu_state` handed to the call. -/
def saveGuest (m : Memory) (rsp : Nat) (s : GuestCpuState) : Memory × Nat :=
  Stack.pushAll m rsp s.pushes

/-- The part of `vm_exit_handler` after the call: restore the registers from where the call
returned. -/
def restoreGuest (m : Memory) (rsp : Nat) : Option GuestCpuState :=
  GuestCpuState.ofPops (Stack.popAll m rsp 16).1

/-- The registers as the handlers see them: the saved ones, and the stack pointer, which the VMCS
field `GUEST_RSP` holds. -/
structure Vcpu where
  state : GuestCpuState
  guestRsp : Nat
deriving DecidableEq, Repr

/-- `vcpu_get_gp_regiter`. -/
def vcpuGetGpRegiter (vcpu : Vcpu) (index : Nat) : Nat :=
  match index with
  | 0 => vcpu.state.rax
  | 1 => vcpu.state.rcx
  | 2 => vcpu.state.rdx
  | 3 => vcpu.state.rbx
  | 4 => vcpu.guestRsp
  | 5 => vcpu.state.rbp
  | 6 => vcpu.state.rsi
  | 7 => vcpu.state.rdi
  | 8 => vcpu.state.r8
  | 9 => vcpu.state.r9
  | 10 => vcpu.state.r10
  | 11 => vcpu.state.r11
  | 12 => vcpu.state.r12
  | 13 => vcpu.state.r13
  | 14 => vcpu.state.r14
  | 15 => vcpu.state.r15
  | _ => 0

/-- `vcpu_set_gp_regiter`. -/
def vcpuSetGpRegiter (vcpu : Vcpu) (index val : Nat) : Vcpu :=
  let s := vcpu.state
  match index with
  | 0 => { vcpu with state := { s with rax := val } }
  | 1 => { vcpu with state := { s with rcx := val } }
  | 2 => { vcpu with state := { s with rdx := val } }
  | 3 => { vcpu with state := { s with rbx := val } }
  | 4 => { vcpu with guestRsp := val }
  | 5 => { vcpu with state := { s with rbp := val } }
  | 6 => { vcpu with state := { s with rsi := val } }
  | 7 => { vcpu with state := { s with rdi := val } }
  | 8 => { vcpu with state := { s with r8 := val } }
  | 9 => { vcpu with state := { s with r9 := val } }
  | 10 => { vcpu with state := { s with r10 := val } }
  | 11 => { vcpu with state := { s with r11 := val } }
  | 12 => { vcpu with state := { s with r12 := val } }
  | 13 => { vcpu with state := { s with r13 := val } }
  | 14 => { vcpu with state := { s with r14 := val } }
  | 15 => { vcpu with state := { s with r15 := val } }
  | _ => vcpu

/-- A register is a machine word. -/
theorem vcpuGetGpRegiter_lt {vcpu : Vcpu} (hs : vcpu.state.Ok) (hrsp : vcpu.guestRsp < 2 ^ 64)
    (index : Nat) : vcpuGetGpRegiter vcpu index < 2 ^ 64 := by
  unfold vcpuGetGpRegiter
  split
  case h_5 => exact hrsp
  case h_17 => exact Nat.two_pow_pos 64
  all_goals exact hs _ (by simp [GuestCpuState.pushes])

/-- A register that was set reads back, and the others are as before. -/
theorem vcpuGetGpRegiter_set (vcpu : Vcpu) {index : Nat} (h : index < 16) (val : Nat) :
    vcpuGetGpRegiter (vcpuSetGpRegiter vcpu index val) =
      Function.update (vcpuGetGpRegiter vcpu) index val := by
  funext j
  by_cases hj : j = index
  · subst hj
    rw [Function.update_self]
    interval_cases j <;> rfl
  · rw [Function.update_of_ne hj]
    interval_cases index <;> unfold vcpuGetGpRegiter <;> split <;>
      first
      | rfl
      | exact absurd rfl hj

theorem vcpuSetGpRegiter_cr2 (vcpu : Vcpu) (index val : Nat) :
    (vcpuSetGpRegiter vcpu index val).state.cr2 = vcpu.state.cr2 := by
  unfold vcpuSetGpRegiter
  dsimp only
  split <;> rfl

end ZeldaOS
