import ZeldaOS.Lib.BitLoop
import ZeldaOS.VmMonitor.HostStack

/-!
# Execution controls

Model of the parts of `vm_monitor/vmx_vmcs.c` that set the pin-based and the processor-based
execution controls. A capability MSR of the processor says which bits of a control word must be set
(`eax`) and which may be set (`edx`). The monitor requests some bits, lets `fix_reserved_1_bits` add
the bits that must be set and `fix_reserved_0_bits` remove those that may not, and asserts by
`validate_vmx_capability` that the word obeys the MSR.

The three loops compute bitwise operations (`fixReserved1Bits_eq`, `fixReserved0Bits_eq`,
`validateVmxCapability_eq_ok_iff`). So the assertion is about the MSR alone: it holds exactly when
no bit that must be set may not be set. A requested bit that the processor does not support is
removed without an error (`procbased_features_iff`, `unrestrictedGuest_dropped`).
-/

namespace ZeldaOS

/-! ## Capabilities -/

/-- `validate_vmx_capability`. -/
def validateVmxCapability (target : BitVec 64) (allowed0 allowed1 : BitVec 32) : ErrorCode :=
  if (List.range 32).any fun idx =>
      let mask := 1#32 <<< idx
      let targetIsSet := target &&& mask.setWidth 64 != 0#64
      let allowed0IsSet := allowed0 &&& mask != 0#32
      let allowed1IsSet := allowed1 &&& mask != 0#32
      allowed0IsSet && !targetIsSet || !allowed1IsSet && targetIsSet then .invalid
  else .ok

/-- `fix_reserved_1_bits`. -/
def fixReserved1Bits (target allowed0 : BitVec 32) : BitVec 32 :=
  (List.range 32).foldl (fun target idx =>
    let mask := 1#32 <<< idx
    if allowed0 &&& mask ≠ 0#32 ∧ target &&& mask = 0#32 then target ||| mask else target) target

/-- `fix_reserved_0_bits`. -/
def fixReserved0Bits (target allowed1 : BitVec 32) : BitVec 32 :=
  (List.range 32).foldl (fun target idx =>
    let mask := 1#32 <<< idx
    if allowed1 &&& mask = 0#32 ∧ target &&& mask ≠ 0#32 then target &&& ~~~mask else target) target

/-- The two halves of an MSR as `RDMSR` returns them. -/
structure Msr where
  eax : BitVec 32
  edx : BitVec 32
deriving DecidableEq, Repr

/-- A word with the given bits, set one by one. -/
def requestBits (bits : List Nat) : BitVec 32 :=
  bits.foldl (fun word bit => word ||| 1#32 <<< bit) 0#32

/-- What the control words have in common: request bits, fix the word and assert that it obeys the
capability MSR. -/
def controlWord (bits : List Nat) (msr : Msr) : Option (BitVec 32) :=
  let word := fixReserved0Bits (fixReserved1Bits (requestBits bits) msr.eax) msr.edx
  if validateVmxCapability (word.setWidth 64) msr.eax msr.edx = .ok then some word else none

/-! ## The control words -/

/-- The capability MSRs that the initialisation of the execution controls reads. -/
structure VmxMsrs where
  /-- `IA32_VMX_PINBASED_CTLS_MSR`. -/
  pinbased : Msr
  /-- `IA32_VMX_EPT_VPID_CAP_MSR`. -/
  vpidAndEpt : Msr
  /-- `IA32_VMX_PRI_PROCBASED_CTLS_MSR`. -/
  priProcbased : Msr
  /-- `IA32_VMX_SEC_PROCBASED_CTLS_MSR`. -/
  secProcbased : Msr
deriving DecidableEq, Repr

/-- `CTLS_PIN_BASED_VM_EXECUTION`. -/
def ctlsPinBasedVmExecution : Nat := 0x4000

/-- `CTLS_PRI_PROC_BASED_VM_EXECUTION`. -/
def ctlsPriProcBasedVmExecution : Nat := 0x4002

/-- `CTLS_SEC_PROC_BASED_VM_EXECUTION`. -/
def ctlsSecProcBasedVmExecution : Nat := 0x401e

/-- `initialize_vmcs_pinbased_control`: external interrupts exit. -/
def initializeVmcsPinbasedControl (msrs : VmxMsrs) (vmcs : Vmcs) : Option Vmcs :=
  (controlWord [0] msrs.pinbased).map fun word =>
    vmxWrite vmcs ctlsPinBasedVmExecution word.toNat

/-- The bits of the primary controls that are requested: exits by an interrupt window, HLT, INVLPG,
RDTSC, accesses to CR3, port accesses and PAUSE, and the secondary controls. -/
def priProcbaseBits : List Nat := [2, 7, 9, 12, 15, 16, 24, 30, 31]

/-- The bits of the secondary controls that are requested: EPT, VPID and unrestricted guests. -/
def secProcbaseBits : List Nat := [1, 5, 7]

/-- The fields that `initialize_vmcs_procbased_control` writes after the control words. -/
def procbasedFields (vm : VmcsBlob) : List (Nat × Nat) :=
  [ (0x4004, 0), -- CTLS_EXCEPTION_BITMAP
    (0x2000, vm.ioBitmapRegion0), -- CTLS_IO_BITMAP_A
    (0x2002, vm.ioBitmapRegion1), -- CTLS_IO_BITMAP_B
    (0x400a, 0) ] -- CTLS_CR3_TARGET_COUNT

/-- `initialize_vmcs_procbased_control`. -/
def initializeVmcsProcbasedControl (msrs : VmxMsrs) (vm : VmcsBlob) (vmcs : Vmcs) : Option Vmcs :=
  if msrs.vpidAndEpt.eax &&& 0x1#32 = 0#32 then none
  else
    (controlWord priProcbaseBits msrs.priProcbased).bind fun priProcbaseCtls =>
      let vmcs := vmxWrite vmcs ctlsPriProcBasedVmExecution priProcbaseCtls.toNat
      (controlWord secProcbaseBits msrs.secProcbased).map fun secProcbaseCtls =>
        let vmcs := vmxWrite vmcs ctlsSecProcBasedVmExecution secProcbaseCtls.toNat
        (procbasedFields vm).foldl (fun vmcs field => vmxWrite vmcs field.1 field.2) vmcs

/-! ## The loops -/

section
variable {a₀ a₁ : BitVec 32} {x : BitVec 64} {bits : List Nat} {msr : Msr} {word : BitVec 32}

/-- A mask tests the bit at its position, for the words of 32 bits. -/
theorem and_mask_ne_zero_iff {x : BitVec 32} {i : Nat} (hi : i < 32) :
    x &&& 1#32 <<< i ≠ 0#32 ↔ x.getLsbD i = true := by
  rw [Ne, and_mask_eq_zero_iff hi, Bool.not_eq_false]

theorem fixReserved1Bits_eq (t a₀ : BitVec 32) : fixReserved1Bits t a₀ = t ||| a₀ := by
  refine BitVec.eq_of_getLsbD_eq fun j hj => ?_
  have hround : ∀ (x : BitVec 32) i j, i < 32 → j < 32 →
      (if a₀ &&& 1#32 <<< i ≠ 0#32 ∧ x &&& 1#32 <<< i = 0#32 then x ||| 1#32 <<< i
        else x).getLsbD j = if j = i then x.getLsbD i || a₀.getLsbD i else x.getLsbD j := by
    intro x i j hi hj
    split
    · next hset =>
      rw [getLsbD_or_mask hi, (and_mask_ne_zero_iff hi).1 hset.1, Bool.or_true]
    · next hset =>
      rw [and_mask_ne_zero_iff hi, and_mask_eq_zero_iff hi] at hset
      by_cases hji : j = i
      · rw [if_pos hji, hji]
        cases h₀ : a₀.getLsbD i <;> cases hx : x.getLsbD i <;> simp_all
      · rw [if_neg hji]
  rw [fixReserved1Bits, getLsbD_foldl_range (g := fun i b => b || a₀.getLsbD i) hround
    (Nat.le_refl 32) t hj, if_pos hj, BitVec.getLsbD_or]

theorem fixReserved0Bits_eq (t a₁ : BitVec 32) : fixReserved0Bits t a₁ = t &&& a₁ := by
  refine BitVec.eq_of_getLsbD_eq fun j hj => ?_
  have hround : ∀ (x : BitVec 32) i j, i < 32 → j < 32 →
      (if a₁ &&& 1#32 <<< i = 0#32 ∧ x &&& 1#32 <<< i ≠ 0#32 then x &&& ~~~(1#32 <<< i)
        else x).getLsbD j = if j = i then x.getLsbD i && a₁.getLsbD i else x.getLsbD j := by
    intro x i j hi hj
    split
    · next hset =>
      rw [getLsbD_and_not_mask hi hj, (and_mask_eq_zero_iff hi).1 hset.1, Bool.and_false]
    · next hset =>
      rw [and_mask_ne_zero_iff hi, and_mask_eq_zero_iff hi] at hset
      by_cases hji : j = i
      · rw [if_pos hji, hji]
        cases h₁ : a₁.getLsbD i <;> cases hx : x.getLsbD i <;> simp_all
      · rw [if_neg hji]
  rw [fixReserved0Bits, getLsbD_foldl_range (g := fun i b => b && a₁.getLsbD i) hround
    (Nat.le_refl 32) t hj, if_pos hj, BitVec.getLsbD_and]

/-- The mask of a round, as the 64-bit target sees it. -/
theorem and_mask_setWidth {i : Nat} (hi : i < 32) :
    x &&& (1#32 <<< i).setWidth 64 = 0#64 ↔ (x.setWidth 32).getLsbD i = false := by
  have hmask : (1#32 <<< i).setWidth 64 = 1#64 <<< i := by
    refine BitVec.eq_of_getLsbD_eq fun j hj => ?_
    rw [BitVec.getLsbD_setWidth, getLsbD_mask hi, getLsbD_mask (by omega)]
    simp [hj]
  rw [hmask, and_mask_eq_zero_iff (by omega), BitVec.getLsbD_setWidth]
  simp [hi]

/-- A word is valid if it has all the bits that must be set, and none that may not. -/
theorem validateVmxCapability_eq_ok_iff :
    validateVmxCapability x a₀ a₁ = .ok ↔
      BitSubset a₀ (x.setWidth 32) ∧ BitSubset (x.setWidth 32) a₁ := by
  rw [bitSubset_iff_forall_lt, bitSubset_iff_forall_lt, ← forall₂_and, validateVmxCapability]
  have hok : ∀ b : Bool, (if b then ErrorCode.invalid else .ok) = .ok ↔ b = false := by decide
  rw [hok, List.any_eq_false]
  refine forall_congr' fun i => ?_
  rw [List.mem_range]
  refine forall_congr' fun hi => ?_
  -- one round of the loop
  simp only [bne, Bool.or_eq_true, Bool.and_eq_true, Bool.not_eq_true', Bool.not_eq_false',
    beq_iff_eq, beq_eq_false_iff_ne, ne_eq, and_mask_eq_zero_iff hi, and_mask_setWidth hi]
  cases a₀.getLsbD i <;> cases a₁.getLsbD i <;> cases (x.setWidth 32).getLsbD i <;> simp

/-- A word of 32 bits as the 64-bit target of the validation. -/
theorem validateVmxCapability_setWidth {t : BitVec 32} :
    validateVmxCapability (t.setWidth 64) a₀ a₁ = .ok ↔ BitSubset a₀ t ∧ BitSubset t a₁ := by
  rw [validateVmxCapability_eq_ok_iff, BitVec.setWidth_setWidth_of_le _ (by decide),
    BitVec.setWidth_eq]

/-- The fixed word is valid exactly if no bit that must be set may not be set. -/
theorem bitSubset_fixed_iff (t a₀ a₁ : BitVec 32) :
    BitSubset a₀ ((t ||| a₀) &&& a₁) ∧ BitSubset ((t ||| a₀) &&& a₁) a₁ ↔ BitSubset a₀ a₁ := by
  simp only [BitSubset, BitVec.getLsbD_and, BitVec.getLsbD_or, Bool.and_eq_true, Bool.or_eq_true]
  constructor
  · exact fun h i hi => (h.1 i hi).2
  · exact fun h => ⟨fun i hi => ⟨.inr hi, h i hi⟩, fun i hi => hi.2⟩

theorem or_eq_left_of_bitSubset {t : BitVec 32} (h : BitSubset a₀ t) : t ||| a₀ = t := by
  refine BitVec.eq_of_getLsbD_eq fun i _ => ?_
  have hi := h i
  rw [BitVec.getLsbD_or]
  cases ht : t.getLsbD i <;> cases h₀ : a₀.getLsbD i <;> simp_all

theorem and_eq_left_of_bitSubset {t : BitVec 32} (h : BitSubset t a₁) : t &&& a₁ = t := by
  refine BitVec.eq_of_getLsbD_eq fun i _ => ?_
  have hi := h i
  rw [BitVec.getLsbD_and]
  cases ht : t.getLsbD i <;> cases h₁ : a₁.getLsbD i <;> simp_all

end

/-- **Fixing a control word.** The fixed word is `(t ||| a₀) &&& a₁`; it is valid exactly if `a₀` is
a subset of `a₁`; it agrees with `t` on the bits that are free; and a word is valid exactly if its
low half is between `a₀` and `a₁`, and then the fixers leave it as it is. -/
theorem capability_fixing (t a₀ a₁ : BitVec 32) :
    fixReserved0Bits (fixReserved1Bits t a₀) a₁ = (t ||| a₀) &&& a₁ ∧
    (validateVmxCapability ((fixReserved0Bits (fixReserved1Bits t a₀) a₁).setWidth 64) a₀ a₁ = .ok ↔
      BitSubset a₀ a₁) ∧
    (∀ i, a₀.getLsbD i = false → a₁.getLsbD i = true →
      (fixReserved0Bits (fixReserved1Bits t a₀) a₁).getLsbD i = t.getLsbD i) ∧
    ∀ x : BitVec 64,
      (validateVmxCapability x a₀ a₁ = .ok ↔
        BitSubset a₀ (x.setWidth 32) ∧ BitSubset (x.setWidth 32) a₁) ∧
      (validateVmxCapability x a₀ a₁ = .ok →
        fixReserved1Bits (x.setWidth 32) a₀ = x.setWidth 32 ∧
        fixReserved0Bits (x.setWidth 32) a₁ = x.setWidth 32) := by
  rw [fixReserved1Bits_eq, fixReserved0Bits_eq]
  refine ⟨rfl, validateVmxCapability_setWidth.trans (bitSubset_fixed_iff t a₀ a₁),
    fun i h₀ h₁ => ?_, fun x => ⟨validateVmxCapability_eq_ok_iff, fun hx => ?_⟩⟩
  · rw [BitVec.getLsbD_and, BitVec.getLsbD_or, h₀, h₁, Bool.or_false, Bool.and_true]
  · obtain ⟨hlow, hhigh⟩ := validateVmxCapability_eq_ok_iff.1 hx
    rw [fixReserved1Bits_eq, fixReserved0Bits_eq]
    exact ⟨or_eq_left_of_bitSubset hlow, and_eq_left_of_bitSubset hhigh⟩

/-! ## The features -/

section
variable {bits : List Nat} {msr : Msr} {msrs : VmxMsrs} {vm : VmcsBlob} {vmcs vmcs' : Vmcs}
  {word pri sec : BitVec 32}

/-- The requested bits are those of the list. -/
theorem getLsbD_requestBits (hbits : ∀ b ∈ bits, b < 32) (i : Nat) :
    (requestBits bits).getLsbD i = decide (i ∈ bits) := by
  have hfold : ∀ word : BitVec 32,
    (bits.foldl (fun word bit => word ||| 1#32 <<< bit) word).getLsbD i =
      (word.getLsbD i || decide (i ∈ bits)) := by
    induction bits with
    | nil => simp
    | cons b bits ih =>
      intro word
      rw [List.foldl_cons, ih (fun c hc => hbits c (List.mem_cons_of_mem _ hc)),
        getLsbD_or_mask (hbits b List.mem_cons_self)]
      by_cases hib : i = b <;> simp [hib]
  rw [requestBits, hfold, BitVec.getLsbD_zero, Bool.false_or]

/-- A control word passes its assertion whenever the MSR is consistent, whatever was requested. -/
theorem controlWord_eq_some_iff : controlWord bits msr = some word ↔
    BitSubset msr.eax msr.edx ∧ word = (requestBits bits ||| msr.eax) &&& msr.edx := by
  rw [controlWord, fixReserved1Bits_eq, fixReserved0Bits_eq]
  have hvalid : validateVmxCapability
    (((requestBits bits ||| msr.eax) &&& msr.edx).setWidth 64) msr.eax
      msr.edx = .ok ↔ BitSubset msr.eax msr.edx :=
    validateVmxCapability_setWidth.trans (bitSubset_fixed_iff _ _ _)
  split
  · next h => simp [hvalid.1 h, eq_comm]
  · next h => simp [mt hvalid.2 h]

/-- A control word has the requested bits that may be set. -/
theorem controlWord_requested (hbits : ∀ b ∈ bits, b < 32) (h : controlWord bits msr = some word) :
    (∀ b ∈ bits, word.toNat.testBit b = true) ↔ ∀ b ∈ bits, msr.edx.getLsbD b = true := by
  obtain ⟨-, rfl⟩ := controlWord_eq_some_iff.1 h
  refine forall₂_congr fun b hb => ?_
  rw [BitVec.testBit_toNat, BitVec.getLsbD_and, BitVec.getLsbD_or, getLsbD_requestBits hbits,
    decide_eq_true hb, Bool.true_or, Bool.true_and]

/-- External interrupts exit exactly if the processor supports it, which the initialisation of the
pin-based controls does not check either. -/
theorem initializeVmcsPinbasedControl_exits
    (h : initializeVmcsPinbasedControl msrs vmcs = some vmcs') :
    (vmcs' ctlsPinBasedVmExecution).testBit 0 = true ↔ msrs.pinbased.edx.getLsbD 0 = true := by
  obtain ⟨word, hword, rfl⟩ := Option.map_eq_some_iff.1 h
  have hrequested := controlWord_requested (by decide) hword
  rw [vmxWrite_self]
  simpa using hrequested

/-- What the initialisation needs, and the control words that it leaves. -/
theorem initializeVmcsProcbasedControl_eq_some
    (h : initializeVmcsProcbasedControl msrs vm vmcs = some vmcs') :
    msrs.vpidAndEpt.eax.getLsbD 0 = true ∧
    ∃ pri sec, controlWord priProcbaseBits msrs.priProcbased = some pri ∧
      controlWord secProcbaseBits msrs.secProcbased = some sec ∧
      vmcs' ctlsPriProcBasedVmExecution = pri.toNat ∧ vmcs' ctlsSecProcBasedVmExecution =
        sec.toNat := by
  rw [initializeVmcsProcbasedControl] at h
  split at h
  · cases h
  · next hept =>
    obtain ⟨pri, hpri, h⟩ := Option.bind_eq_some_iff.1 h
    obtain ⟨sec, hsec, rfl⟩ := Option.map_eq_some_iff.1 h
    refine ⟨(and_mask_ne_zero_iff (by decide)).1 hept, pri, sec, hpri, hsec, ?_, ?_⟩
    · rw [foldl_vmxWrite_of_ne _ (by simp [procbasedFields, ctlsPriProcBasedVmExecution]),
        vmxWrite_of_ne (by decide), vmxWrite_self]
    · rw [foldl_vmxWrite_of_ne _ (by simp [procbasedFields, ctlsSecProcBasedVmExecution]),
        vmxWrite_self]

/-- The initialisation returns when all its assertions hold. -/
theorem initializeVmcsProcbasedControl_returns (hept : msrs.vpidAndEpt.eax.getLsbD 0 = true)
    (hpri : BitSubset msrs.priProcbased.eax msrs.priProcbased.edx)
    (hsec : BitSubset msrs.secProcbased.eax msrs.secProcbased.edx) :
    ∃ vmcs', initializeVmcsProcbasedControl msrs vm vmcs = some vmcs' := by
  have hept : msrs.vpidAndEpt.eax &&& 0x1#32 ≠ 0#32 :=
    (and_mask_ne_zero_iff (i := 0) (by decide)).2 hept
  rw [initializeVmcsProcbasedControl, if_neg hept,
    controlWord_eq_some_iff.2 ⟨hpri, rfl⟩, Option.bind_some, controlWord_eq_some_iff.2 ⟨hsec, rfl⟩]
  exact ⟨_, rfl⟩

end

/-- If the initialisation returns, every requested feature is in the control words. -/
def FeaturesPresent (msrs : VmxMsrs) (vm : VmcsBlob) (vmcs : Vmcs) : Prop :=
  ∀ vmcs', initializeVmcsProcbasedControl msrs vm vmcs = some vmcs' →
    (∀ b ∈ priProcbaseBits, (vmcs' ctlsPriProcBasedVmExecution).testBit b = true) ∧
    ∀ b ∈ secProcbaseBits, (vmcs' ctlsSecProcBasedVmExecution).testBit b = true

/-- **When no feature is dropped.** For all values of the MSRs: the requested features are present
whenever the initialisation returns, exactly if an assertion stops it or the processor supports all
of them. The assertions are that the processor has execute-only pages in its EPT, and that no
control that must be set may not be set. -/
theorem procbased_features_iff (msrs : VmxMsrs) (vm : VmcsBlob) (vmcs : Vmcs) :
    FeaturesPresent msrs vm vmcs ↔
      msrs.vpidAndEpt.eax.getLsbD 0 = false ∨
      ¬ BitSubset msrs.priProcbased.eax msrs.priProcbased.edx ∨
      ¬ BitSubset msrs.secProcbased.eax msrs.secProcbased.edx ∨
      ((∀ b ∈ priProcbaseBits, msrs.priProcbased.edx.getLsbD b = true) ∧
        ∀ b ∈ secProcbaseBits, msrs.secProcbased.edx.getLsbD b = true) := by
  have hbits : (∀ b ∈ priProcbaseBits, b < 32) ∧ ∀ b ∈ secProcbaseBits, b < 32 := by decide
  -- when the initialisation returns, what it leaves is decided by the MSRs
  have hleft : ∀ vmcs', initializeVmcsProcbasedControl msrs vm vmcs = some vmcs' →
      (((∀ b ∈ priProcbaseBits, (vmcs' ctlsPriProcBasedVmExecution).testBit b = true) ∧
        ∀ b ∈ secProcbaseBits, (vmcs' ctlsSecProcBasedVmExecution).testBit b = true) ↔
      (∀ b ∈ priProcbaseBits, msrs.priProcbased.edx.getLsbD b = true) ∧
        ∀ b ∈ secProcbaseBits, msrs.secProcbased.edx.getLsbD b = true) := by
    intro vmcs' h
    obtain ⟨-, pri, sec, hpri, hsec, hpriField, hsecField⟩ :=
      initializeVmcsProcbasedControl_eq_some h
    rw [hpriField, hsecField, controlWord_requested hbits.1 hpri,
      controlWord_requested hbits.2 hsec]
  constructor
  · intro h
    by_contra hcon
    simp only [not_or, Bool.not_eq_false, not_not] at hcon
    obtain ⟨hept, hpri, hsec, hsupport⟩ := hcon
    obtain ⟨vmcs', hret⟩ : ∃ vmcs', initializeVmcsProcbasedControl msrs vm vmcs = some vmcs' :=
      initializeVmcsProcbasedControl_returns hept hpri hsec
    exact hsupport ((hleft vmcs' hret).1 (h vmcs' hret))
  · rintro h vmcs' hret
    obtain ⟨hept, pri, sec, hpri, hsec, -⟩ := initializeVmcsProcbasedControl_eq_some hret
    rcases h with h | h | h | h
    · rw [h] at hept
      cases hept
    · exact absurd (controlWord_eq_some_iff.1 hpri).1 h
    · exact absurd (controlWord_eq_some_iff.1 hsec).1 h
    · exact (hleft vmcs' hret).2 h

/-- A processor with all controls but unrestricted guests, bit 7 of the secondary controls. -/
def restrictedMsrs : VmxMsrs :=
  ⟨⟨0, 0xffffffff⟩, ⟨0x1, 0⟩, ⟨0, 0xffffffff⟩, ⟨0, 0xffffff7f⟩⟩

/-- **A dropped feature.** On a processor without unrestricted guests the initialisation of a VM
returns, and the secondary controls are EPT and VPID alone. -/
theorem unrestrictedGuest_dropped : ∃ vm k', preInitializeVmcs identityKernel = some (vm, k') ∧
    (∃ vmcs', initializeVmcsProcbasedControl restrictedMsrs vm (fun _ => 0) = some vmcs' ∧
      vmcs' ctlsSecProcBasedVmExecution = 0x22) ∧
    ¬ FeaturesPresent restrictedMsrs vm (fun _ => 0) := by
  obtain ⟨vm, k', hpre⟩ := preInitializeVmcs_identityKernel
  obtain ⟨vmcs', hret⟩ :
      ∃ vmcs', initializeVmcsProcbasedControl restrictedMsrs vm (fun _ => 0) = some vmcs' :=
    initializeVmcsProcbasedControl_returns (by decide) (by simp [BitSubset, restrictedMsrs])
      (by simp [BitSubset, restrictedMsrs])
  obtain ⟨-, -, sec, -, hsec, -, hfield⟩ := initializeVmcsProcbasedControl_eq_some hret
  have hword : vmcs' ctlsSecProcBasedVmExecution = 0x22 := by
    rw [hfield, (controlWord_eq_some_iff.1 hsec).2]
    decide
  refine ⟨vm, k', hpre, ⟨vmcs', hret, hword⟩, fun hall => ?_⟩
  have hbit := (hall vmcs' hret).2 7 (by decide)
  rw [hword] at hbit
  exact absurd hbit (by decide)

end ZeldaOS
