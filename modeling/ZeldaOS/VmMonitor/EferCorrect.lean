import ZeldaOS.VmMonitor.VmExit

/-!
# The guest's EFER

A write of EFER by the guest exits, and so does a read. The value that a read returns is the one
that was written, except for the bit LMA, which every exit makes that of the VM-entry controls: no
handler but that of WRMSR writes the field (`subHandlers_keepEfer`), so between a write and a read
it changes in this bit only (`Run.agreeButLma`).

But the handler of WRMSR keeps the low half only: it masks the shifted high half with the mask of
the low one, which leaves 0 (`wrmsr_value`). So the round trip works exactly if EDX is 0
(`efer_round_trip_iff`, `efer_high_lost`).
-/

namespace ZeldaOS

/-! ## The property -/

/-- Two values of EFER that differ in the bit LMA at most. -/
def AgreeButLma (a b : Nat) : Prop := AgreeBut 10 a b

/-- The value EDX:EAX. -/
def edxEax (rax rdx : Nat) : Nat := 2 ^ 32 * (rdx % 2 ^ 32) + rax % 2 ^ 32

section
variable {D : Type}

/-- The guest ran between two exits, in which the processor may have changed its LMA. -/
def GuestRan (s : ExitState D) (x : VmExit) : Prop :=
  AgreeButLma (x.vmcs guestIa32Efer) (s.vmcs guestIa32Efer)

/-- An exit by a WRMSR of EFER. -/
def VmExit.WritesEfer (x : VmExit) : Prop :=
  x.vmcs vmexitReason &&& 0xffff = 32 ∧ x.vcpu.rcx = ia32EferMsr

/-- The round trip of a written value. After a WRMSR exit the field holds EDX:EAX. After any exits
that do not write EFER it still does, up to LMA. An RDMSR exit then returns the low halves of what
was written, with the bit LMA of the VM-entry controls at this exit. -/
def EferRoundTrip (e : Emulation D) (s₀ : ExitState D) (rax rdx : Nat) : Prop :=
  ∀ w : VmExit, w.vmcs vmexitReason = 32 → w.vcpu.rcx = ia32EferMsr → w.vcpu.rax = rax →
    w.vcpu.rdx = rdx →
    ∃ s₁, vmExitStep e s₀ w = some ((), s₁) ∧ s₁.vmcs guestIa32Efer = edxEax rax rdx ∧
      ∀ t s, Run (vmExitStep e) (fun s x => GuestRan s x ∧ ¬ x.WritesEfer) s₁ t s →
        AgreeButLma (s.vmcs guestIa32Efer) (edxEax rax rdx) ∧
        ∀ r : VmExit, GuestRan s r → r.vmcs vmexitReason = 31 → r.vcpu.rcx = ia32EferMsr →
          ∃ s', vmExitStep e s r = some ((), s') ∧
            (∀ i, s'.vcpu.rax.testBit i =
              if i = 10 then (r.vmcs ctlsVmEntry).testBit 9 else (rax % 2 ^ 32).testBit i) ∧
            s'.vcpu.rdx = rdx % 2 ^ 32

variable {e : Emulation D} {input : HostInput} {info : VmexitInfo} {s s' : ExitState D} {x : VmExit}

theorem edxEax_testBit (rax rdx i : Nat) : (edxEax rax rdx).testBit i =
    if i < 32 then (rax % 2 ^ 32).testBit i else (rdx % 2 ^ 32).testBit (i - 32) :=
  Nat.testBit_two_pow_mul_add _ (Nat.mod_lt _ (by decide)) i

/-! ## What the handlers do to the field -/

theorem gotoNext_efer (s : ExitState D) (info : VmexitInfo) :
    (s.gotoNext info).vmcs guestIa32Efer = s.vmcs guestIa32Efer :=
  vmxWrite_of_ne (show guestIa32Efer ≠ guestRip by decide) s.vmcs
    ((s.vmcs guestRip + info.instructionLength) % 2 ^ 64)

theorem setGuest_efer (s : ExitState D) (g : Guest D) :
    (s.setGuest g).vmcs guestIa32Efer = s.vmcs guestIa32Efer := by
  have hvmcs : (s.setGuest g).vmcs =
      vmxWrite (vmxWrite s.vmcs guestRsp g.vcpu.guestRsp) guestRip g.rip := rfl
  rw [hvmcs, vmxWrite_of_ne (by decide), vmxWrite_of_ne (by decide)]

theorem setMonitor_efer (e : Emulation D) (s : ExitState D) (m : Monitor) :
    (s.setMonitor e m).vmcs guestIa32Efer = s.vmcs guestIa32Efer := by
  have hvmcs : (s.setMonitor e m).vmcs =
      vmxWrite (vmxWrite s.vmcs ctlsPriProcBasedVmExecution m.procBasedControls)
        vmentryIntrruptionInfo m.entryInterruptionInfo := rfl
  rw [hvmcs, vmxWrite_of_ne (by decide), vmxWrite_of_ne (by decide)]

/-- **No handler but that of WRMSR** writes the field. -/
theorem subHandlers_keepEfer {handler : SubHandler D} {reason : Nat}
    (hmem : (reason, handler) ∈ subHandlers e input) (hreason : reason ≠ 32)
    (h : handler info s = some s') : s'.vmcs guestIa32Efer = s.vmcs guestIa32Efer := by
  simp only [subHandlers, List.mem_cons, Prod.mk.injEq, List.not_mem_nil, or_false] at hmem
  rcases hmem with ⟨-, rfl⟩ | ⟨-, rfl⟩ | ⟨-, rfl⟩ | ⟨-, rfl⟩ | ⟨-, rfl⟩ | ⟨rfl, -⟩ | ⟨-, rfl⟩ |
    ⟨-, rfl⟩ | ⟨-, rfl⟩
  · -- an external interrupt
    rw [externalInterruptExitSubHandler] at h
    split at h
    · obtain ⟨m, -, rfl⟩ := Option.map_eq_some_iff.1 h
      exact setMonitor_efer e s m
    · cases h
  · -- a port access
    obtain ⟨g, -, rfl⟩ := Option.map_eq_some_iff.1 h
    exact setGuest_efer s g
  · -- a control register
    rw [controllRegisterAccessExitSubHandler] at h
    split at h
    · cases h
      rw [gotoNext_efer]
      exact vmxWrite_of_ne (show guestIa32Efer ≠ guestCr3 by decide) s.vmcs s.vcpu.rax
    · cases h
  · -- HLT
    cases h
    exact gotoNext_efer s info
  · -- RDMSR
    rw [rdmsrExitSubHandler] at h
    split at h
    · cases h
      exact gotoNext_efer _ info
    · cases h
  · exact absurd rfl hreason
  · -- an access to IO memory
    obtain ⟨r, -, rfl⟩ := Option.map_eq_some_iff.1 h
    exact setGuest_efer s r.2
  · -- an interrupt window
    obtain ⟨r, -, rfl⟩ := Option.map_eq_some_iff.1 h
    exact setMonitor_efer e s r.2
  · -- RDTSC
    cases h
    exact gotoNext_efer _ info

/-- The patch of an exit. -/
theorem adjustLma_testBit (vmcs : Vmcs) {i : Nat} (hi : i < 64) :
    (adjustLma vmcs guestIa32Efer).testBit i =
      if i = 10 then (vmcs ctlsVmEntry).testBit 9 else (vmcs guestIa32Efer).testBit i := by
  have hmode : vmcs ctlsVmEntry &&& 1 <<< 9 ≠ 0 ↔ (vmcs ctlsVmEntry).testBit 9 = true := by
    rw [Nat.one_shiftLeft, Nat.and_two_pow]
    cases (vmcs ctlsVmEntry).testBit 9 <;> simp
  have hset : ∀ i < 64, (1 <<< 10).testBit i = decide (i = 10) := by decide
  have hclear : ∀ i < 64, (2 ^ 64 - 1 - 1 <<< 10).testBit i = decide (i ≠ 10) := by decide
  rw [adjustLma]
  split
  · next h =>
    rw [vmxWrite_self, Nat.testBit_or, hset i hi, hmode.1 h]
    by_cases hlma : i = 10 <;> simp [hlma]
  · next h =>
    rw [vmxWrite_self, Nat.testBit_and, hclear i hi, Bool.eq_false_iff.2 (mt hmode.2 h)]
    by_cases hlma : i = 10 <;> simp [hlma]

theorem adjustLma_of_ne {field : Nat} (h : field ≠ guestIa32Efer) (vmcs : Vmcs) :
    adjustLma vmcs field = vmcs field := by
  rw [adjustLma]
  split <;> exact vmxWrite_of_ne h _ _

/-- What WRMSR writes: the high half is lost. -/
theorem wrmsr_value (rax rdx : Nat) :
    (rax &&& 0xffffffff) ||| ((rdx <<< 32) % 2 ^ 64 &&& 0xffffffff) = rax % 2 ^ 32 := by
  have hhigh : (rdx <<< 32) % 2 ^ 64 % 2 ^ 32 = 0 := by
    rw [Nat.shiftLeft_eq]
    omega
  rw [show 0xffffffff = 2 ^ 32 - 1 from rfl, and_mask_eq_mod, and_mask_eq_mod, hhigh, Nat.or_zero]

/-! ## Exits -/

/-- An exit calls the handler of its reason. -/
theorem vmExitHandlerEntry_eq {reason : Nat} {handler : SubHandler D}
    (hreason : s.vmcs vmexitReason = reason) (hlt : reason < 65)
    (hhandler : (subHandlers e input).lookup reason = some handler) :
    vmExitHandlerEntry e input s =
      handler (exitInfo (adjustLma s.vmcs)) { s with vmcs := adjustLma s.vmcs } := by
  have hbasic : (exitInfo (adjustLma s.vmcs)).basicReason = reason :=
    (adjustLma_of_ne (by decide) _).trans hreason
  have hbits : ∀ r < 65, r &&& 0xffffffff80000000 = 0 ∧ r &&& 0xffff = r := by decide
  rw [vmExitHandlerEntry]
  dsimp only
  rw [hbasic, (hbits reason hlt).1, (hbits reason hlt).2, if_neg (fun h => h rfl),
    if_pos hlt, hhandler, Option.bind_some]

/-- An exit that does not write EFER leaves it with the patch. -/
theorem vmExitHandlerEntry_efer (hne : s.vmcs vmexitReason &&& 0xffff = 32 →
      s.vcpu.rcx ≠ ia32EferMsr)
    (h : vmExitHandlerEntry e input s = some s') :
    s'.vmcs guestIa32Efer = adjustLma s.vmcs guestIa32Efer := by
  have hreason : (exitInfo (adjustLma s.vmcs)).basicReason = s.vmcs vmexitReason :=
    adjustLma_of_ne (by decide) _
  rw [vmExitHandlerEntry] at h
  dsimp only at h
  split at h
  · cases h
  split at h
  · obtain ⟨handler, hlookup, h⟩ := Option.bind_eq_some_iff.1 h
    rw [hreason] at hlookup
    by_cases hwrmsr : s.vmcs vmexitReason &&& 0xffff = 32
    · rw [hwrmsr] at hlookup
      cases hlookup
      rw [wrmsrExitSubHandler, if_neg (hne hwrmsr)] at h
      cases h
    · obtain ⟨l₁, l₂, hlist, -⟩ := List.lookup_eq_some_iff.1 hlookup
      have hmem : (s.vmcs vmexitReason &&& 0xffff, handler) ∈ subHandlers e input := by
        rw [hlist]
        simp
      exact subHandlers_keepEfer hmem hwrmsr h
  · cases h

/-- **The exit of WRMSR** does not panic, and leaves the low half of what was to be written. -/
theorem vmExitStep_wrmsr (e : Emulation D) (s : ExitState D) (hreason : x.vmcs vmexitReason = 32)
    (hrcx : x.vcpu.rcx = ia32EferMsr) :
    ∃ s', vmExitStep e s x = some ((), s') ∧ s'.vmcs guestIa32Efer = x.vcpu.rax % 2 ^ 32 := by
  rw [vmExitStep, vmExitHandlerEntry_eq hreason (by decide) rfl, wrmsrExitSubHandler, if_pos hrcx]
  refine ⟨_, rfl, ?_⟩
  rw [gotoNext_efer, ← wrmsr_value x.vcpu.rax x.vcpu.rdx]
  exact vmxWrite_self (adjustLma x.vmcs) guestIa32Efer
    ((x.vcpu.rax &&& 0xffffffff) ||| ((x.vcpu.rdx <<< 32) % 2 ^ 64 &&& 0xffffffff))

/-- **The exit of RDMSR** does not panic, and returns the halves of the field with the patch. -/
theorem vmExitStep_rdmsr (e : Emulation D) (s : ExitState D) (hreason : x.vmcs vmexitReason = 31)
    (hrcx : x.vcpu.rcx = ia32EferMsr) :
    ∃ s', vmExitStep e s x = some ((), s') ∧
      s'.vcpu.rax = adjustLma x.vmcs guestIa32Efer % 2 ^ 32 ∧
      s'.vcpu.rdx = (adjustLma x.vmcs guestIa32Efer >>> 32) % 2 ^ 32 := by
  rw [vmExitStep, vmExitHandlerEntry_eq hreason (by decide) rfl, rdmsrExitSubHandler, if_pos hrcx]
  exact ⟨_, rfl, rfl, rfl⟩

/-- **Between a write and a read** the field changes in the bit LMA only. -/
theorem Run.agreeButLma {t : List (VmExit × Unit)} {s₁ : ExitState D} {value : Nat}
    (hrun : Run (vmExitStep e) (fun s x => GuestRan s x ∧ ¬ x.WritesEfer) s₁ t s)
    (h₁ : AgreeButLma (s₁.vmcs guestIa32Efer) value) :
    AgreeButLma (s.vmcs guestIa32Efer) value := by
  refine hrun.inv (fun _ s => AgreeButLma (s.vmcs guestIa32Efer) value) h₁ ?_
  rintro t s x _ s' hs ⟨hran, hkeeps⟩ hstep
  obtain ⟨s'', hentry, heq⟩ := Option.map_eq_some_iff.1 hstep
  cases heq
  have hefer := vmExitHandlerEntry_efer (fun hreason hrcx => hkeeps ⟨hreason, hrcx⟩) hentry
  have hpatch : AgreeButLma (s'.vmcs guestIa32Efer) (x.vmcs guestIa32Efer) := by
    intro i hi hne
    rw [hefer, adjustLma_testBit _ hi, if_neg hne]
  exact (AgreeBut.trans hpatch hran).trans hs

/-- A read of a value that agrees with EDX:EAX. -/
theorem rdmsr_halves {vmcs : Vmcs} {rax rdx : Nat}
    (h : AgreeButLma (vmcs guestIa32Efer) (edxEax rax rdx)) :
    (∀ i, (adjustLma vmcs guestIa32Efer % 2 ^ 32).testBit i =
      if i = 10 then (vmcs ctlsVmEntry).testBit 9 else (rax % 2 ^ 32).testBit i) ∧
    (adjustLma vmcs guestIa32Efer >>> 32) % 2 ^ 32 = rdx % 2 ^ 32 := by
  constructor
  · intro i
    rw [Nat.testBit_mod_two_pow]
    by_cases hi : i < 32
    · rw [decide_eq_true hi, Bool.true_and, adjustLma_testBit _ (by omega)]
      refine ite_congr rfl (fun _ => rfl) fun hne => ?_
      rw [h i (by omega) hne, edxEax_testBit, if_pos hi]
    · rw [decide_eq_false hi, Bool.false_and, if_neg (by omega), Nat.testBit_mod_two_pow,
        decide_eq_false hi, Bool.false_and]
  · refine Nat.eq_of_testBit_eq fun i => ?_
    rw [Nat.testBit_mod_two_pow, Nat.testBit_mod_two_pow]
    by_cases hi : i < 32
    · rw [Nat.testBit_shiftRight, adjustLma_testBit _ (by omega), if_neg (by omega),
        h _ (by omega) (by omega), edxEax_testBit, if_neg (by omega), Nat.add_sub_cancel_left,
        Nat.testBit_mod_two_pow, decide_eq_true hi, Bool.true_and]
    · rw [decide_eq_false hi, Bool.false_and, Bool.false_and]

end

/-- An exit by a WRMSR of EFER with the given registers. -/
def wrmsrExit (rax rdx : Nat) : VmExit where
  vmcs := fun field => if field = vmexitReason then 32 else 0
  vcpu := ⟨0, 0, 0, 0, 0, 0, 0, 0, 0, 0, 0, 0, rdx, ia32EferMsr, 0, rax⟩
  input := ⟨0, 0, 0⟩

/-- **When EFER can be written and read back.** From every state, for all values of RAX and RDX: the
field holds what was written, up to LMA, and a later RDMSR returns it, exactly if EDX is 0. -/
theorem efer_round_trip_iff {D : Type} (e : Emulation D) (s₀ : ExitState D) (rax rdx : Nat) :
    EferRoundTrip e s₀ rax rdx ↔ rdx % 2 ^ 32 = 0 := by
  constructor
  · intro h
    obtain ⟨s₁, hstep, hfield, -⟩ := h (wrmsrExit rax rdx) rfl rfl rfl rfl
    obtain ⟨s₂, hstep', hlow⟩ := vmExitStep_wrmsr (x := wrmsrExit rax rdx) e s₀ rfl rfl
    cases hstep.symm.trans hstep'
    rw [hlow, edxEax] at hfield
    have hzero : 2 ^ 32 * (rdx % 2 ^ 32) = 0 := by
      have hrax : (wrmsrExit rax rdx).vcpu.rax = rax := rfl
      omega
    simpa using hzero
  · rintro hzero w hreason hrcx rfl rfl
    obtain ⟨s₁, hstep, hlow⟩ := vmExitStep_wrmsr e s₀ hreason hrcx
    have hfield : s₁.vmcs guestIa32Efer = edxEax w.vcpu.rax w.vcpu.rdx := by
      rw [hlow, edxEax, hzero, Nat.mul_zero, Nat.zero_add]
    refine ⟨s₁, hstep, hfield, fun t s hrun => ?_⟩
    have hagree : AgreeButLma (s.vmcs guestIa32Efer) (edxEax w.vcpu.rax w.vcpu.rdx) :=
      hrun.agreeButLma fun i _ _ => by rw [hfield]
    refine ⟨hagree, fun r hran hreason hrcx => ?_⟩
    obtain ⟨s', hstep, hrax, hrdx⟩ := vmExitStep_rdmsr e s hreason hrcx
    obtain ⟨hlow, hhigh⟩ := rdmsr_halves (AgreeBut.trans hran hagree)
    refine ⟨s', hstep, fun i => ?_, hrdx.trans hhigh⟩
    rw [hrax, hlow i]

/-- A VM without devices. -/
def bareEmulation : Emulation Unit where
  log := ⟨0, 0, ⟨[], 0⟩, ⟨[], 0⟩⟩
  printk := fun d _ => d
  portioOps := []
  searchMmioCallback := fun _ => none
  host := fun _ => ⟨fun _ => 0, 0, 0, 0⟩
  interrupts := fun _ =>
    ⟨(preInitialized 0 0).pic, (preInitialized 0 0).pit, (preInitialized 0 0).kbd, fun _ => false⟩
  setInterrupts := fun d _ => d

/-- **A lost half.** The guest writes EDX = 1, EAX = 0; the field is 0 after it. -/
theorem efer_high_lost :
    (∃ s₁, vmExitStep bareEmulation ⟨fun _ => 0, (wrmsrExit 0 0).vcpu, ()⟩ (wrmsrExit 0 1) =
        some ((), s₁) ∧ s₁.vmcs guestIa32Efer = 0) ∧
    edxEax 0 1 = 2 ^ 32 ∧
    ¬ EferRoundTrip bareEmulation ⟨fun _ => 0, (wrmsrExit 0 0).vcpu, ()⟩ 0 1 := by
  obtain ⟨s₁, hstep, hfield⟩ := vmExitStep_wrmsr (x := wrmsrExit 0 1) bareEmulation
    ⟨fun _ => 0, (wrmsrExit 0 0).vcpu, ()⟩ rfl rfl
  refine ⟨⟨s₁, hstep, hfield⟩, rfl, fun h => ?_⟩
  obtain ⟨s₂, hstep', hfield', -⟩ := h (wrmsrExit 0 1) rfl rfl rfl rfl
  cases hstep.symm.trans hstep'
  rw [hfield] at hfield'
  exact absurd hfield' (by decide)

end ZeldaOS
