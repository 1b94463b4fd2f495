import ZeldaOS.VmMonitor.EptCorrect
import ZeldaOS.VmMonitor.Vmcs

/-!
# The stack of VM exits

The registers that a VM exit saves come back unchanged (`restoreGuest_saveGuest`). But the stack
they are saved on is not the block allocated for it: `initialize_vmcs_host_state` gives the
processor the lowest address of that block as the stack pointer, so all sixteen pushes go below it
(`exitSlots_outside`). The block allocated just before is the page of the MSRs loaded upon VM exits,
whose last 128 bytes every VM exit overwrites if the two are adjacent, as on the sample machine
(`exit_overwrites_loadMsrRegion`).
-/

namespace ZeldaOS

/-! ## Registers -/

/-- **Round trip.** Restoring from where the registers were saved gives them back. -/
theorem restoreGuest_saveGuest {s : GuestCpuState} (hs : s.Ok) {rsp : Nat} (hlow : 128 ≤ rsp)
    (hrsp : rsp < 2 ^ 64) (m : Memory) :
    restoreGuest (saveGuest m rsp s).1 (saveGuest m rsp s).2 = some s := by
  have hpop : Stack.popAll (Stack.pushAll m rsp s.pushes).1 (Stack.pushAll m rsp s.pushes).2 16 =
      (s.pushes.reverse, rsp) := Stack.popAll_pushAll hlow hrsp hs
  rw [restoreGuest, saveGuest, hpop]
  rfl

/-! ## The regions -/

section
variable {k k' : Kernel PhysicalMemory} {vm : VmcsBlob}

/-- A block that the allocator hands out starts below 2^64. -/
theorem getPhysicalPages_lt {s s' : PhysicalMemory} {n : Int} {r : Nat}
    (h : getPhysicalPages s n = some (r, s')) : r < 2 ^ 64 := by
  rcases getPhysicalPages_inv h with ⟨rfl, -⟩ | ⟨rfl, hv, -⟩
  · exact Nat.two_pow_pos 64
  · simp only [PhysicalMemory.pageValid, Bool.or_eq_true, Bool.and_eq_true, decide_eq_true_eq] at hv
    omega

theorem hostStack_lt (h : preInitializeVmcs k = some (vm, k')) : vm.hostStack < 2 ^ 64 := by
  obtain ⟨⟨s, hrun, -⟩, -⟩ := preInitializeVmcs_inv h
  have hall : ∀ b ∈ vm.requests, b.2 < 2 ^ 64 :=
    hrun.inv (fun t _ => ∀ b ∈ t, b.2 < 2 ^ 64) (by simp) fun t s n r s' ht _ hst =>
      List.forall_mem_append.2 ⟨ht, List.forall_mem_singleton.2 (getPhysicalPages_lt hst)⟩
  exact hall (hostStackNrPages, vm.hostStack) (by simp [VmcsBlob.requests])

/-- A sample machine has room for the regions. -/
theorem preInitializeVmcs_identityKernel : ∃ vm k', preInitializeVmcs identityKernel =
    some (vm, k') := by
  have hex : (preInitializeVmcs identityKernel).isSome := by decide +kernel
  obtain ⟨⟨vm, k'⟩, hk⟩ := Option.isSome_iff_exists.1 hex
  exact ⟨vm, k', hk⟩

end

/-- Writes to other fields leave a field alone. -/
theorem foldl_vmxWrite_of_ne {fields : List (Nat × Nat)} {encoding : Nat} (vmcs : Vmcs)
    (h : ∀ f ∈ fields, encoding ≠ f.1) :
    fields.foldl (fun vmcs field => vmxWrite vmcs field.1 field.2) vmcs encoding =
      vmcs encoding := by
  induction fields generalizing vmcs with
  | nil => rfl
  | cons f fields ih =>
    rw [List.foldl_cons, ih _ fun g hg => h g (List.mem_cons_of_mem _ hg)]
    exact vmxWrite_of_ne (h f List.mem_cons_self) ..

/-- The stack pointer of VM exits is the lowest address of the host stack. -/
theorem hostRsp_eq (cpu : HostCpu) (vm : VmcsBlob) (vmcs : Vmcs) :
    initializeVmcsHostState cpu vm vmcs hostRsp = vm.hostStack := by
  have hsplit : hostStateFields cpu vm = (hostStateFields cpu vm).take 18 ++
      (hostRsp, vm.hostStack) :: [(0x6c16, cpu.vmExitHandler), (0x2c02, cpu.efer)] := rfl
  rw [initializeVmcsHostState, hsplit, List.foldl_append, List.foldl_cons,
    foldl_vmxWrite_of_ne _ (by simp [hostRsp])]
  exact vmxWrite_self ..

/-- The slots pushed from `rsp` on lie in the block of the host stack. -/
def SlotsInHostStack (vm : VmcsBlob) (rsp : Nat) : Prop :=
  ∀ a ∈ Stack.slots rsp 16, vm.hostStack ≤ a ∧ a + 8 ≤ vm.hostStack + 4096 * hostStackNrPages

/-- **No slot is in the host stack.** However `pre_initialize_vmcs` allocated the regions, all
sixteen slots that a VM exit pushes lie outside the block of the host stack. -/
theorem exitSlots_outside {k k' : Kernel PhysicalMemory} {vm : VmcsBlob}
    (h : preInitializeVmcs k = some (vm, k')) (cpu : HostCpu) (vmcs : Vmcs) :
    (∀ a ∈ Stack.slots (initializeVmcsHostState cpu vm vmcs hostRsp) 16,
      a + 8 ≤ vm.hostStack ∨ vm.hostStack + 4096 * hostStackNrPages ≤ a) ∧
    ¬ SlotsInHostStack vm (initializeVmcsHostState cpu vm vmcs hostRsp) := by
  have hlt := hostStack_lt h
  rw [hostRsp_eq, SlotsInHostStack, hostStackNrPages]
  refine ⟨fun a ha => ?_, fun hin => ?_⟩
  · have hmem := Stack.mem_slots hlt (by decide) ha
    omega
  · have hfirst := hin (Stack.pushSlot vm.hostStack) List.mem_cons_self
    have hslot := Stack.pushSlot_cases hlt
    omega

theorem exitSlots_outside_sample : ∃ vm k', preInitializeVmcs identityKernel = some (vm, k') ∧
    vm.hostStack = 0x40a000 ∧
    ∀ cpu vmcs, ¬ SlotsInHostStack vm (initializeVmcsHostState cpu vm vmcs hostRsp) := by
  have hex : (preInitializeVmcs identityKernel).map (fun r => r.1.hostStack) = some 0x40a000 := by
    decide +kernel
  obtain ⟨⟨vm, k'⟩, hk, hstack⟩ := Option.map_eq_some_iff.1 hex
  exact ⟨vm, k', hk, hstack, fun cpu vmcs => (exitSlots_outside hk cpu vmcs).2⟩

/-- The registers of a guest whose RAX is 1. -/
def sampleGuest : GuestCpuState := ⟨0, 0, 0, 0, 0, 0, 0, 0, 0, 0, 0, 0, 0, 0, 0, 1⟩

/-- **An overwritten region.** On the sample machine the first VM exit changes the page of the MSRs
that VM exits load, which `pre_initialize_vmcs` had cleared. -/
theorem exit_overwrites_loadMsrRegion : ∃ vm k', preInitializeVmcs identityKernel = some (vm, k') ∧
    vm.vmExitLoadMsrRegion = 0x409000 ∧ k'.mem 0x409ff8 = 0 ∧
    ∀ cpu vmcs, ¬ SlotsInHostStack vm (initializeVmcsHostState cpu vm vmcs hostRsp) ∧
      (saveGuest k'.mem (initializeVmcsHostState cpu vm vmcs hostRsp) sampleGuest).1 0x409ff8 =
        1 := by
  have hex : (preInitializeVmcs identityKernel).map (fun r => (r.1.hostStack,
      r.1.vmExitLoadMsrRegion, r.2.mem 0x409ff8,
      (saveGuest r.2.mem r.1.hostStack sampleGuest).1 0x409ff8)) =
      some (0x40a000, 0x409000, 0, 1) := by decide +kernel
  obtain ⟨⟨vm, k'⟩, hk, heq⟩ := Option.map_eq_some_iff.1 hex
  simp only [Prod.mk.injEq] at heq
  obtain ⟨hstack, hmsr, hbefore, hafter⟩ := heq
  refine ⟨vm, k', hk, hmsr, hbefore, fun cpu vmcs => ?_⟩
  rw [hostRsp_eq]
  refine ⟨fun hin => ?_, hafter⟩
  have hfirst := hin (Stack.pushSlot vm.hostStack) List.mem_cons_self
  rw [hstack, Stack.pushSlot_eq (by decide) (by decide)] at hfirst
  omega

end ZeldaOS
