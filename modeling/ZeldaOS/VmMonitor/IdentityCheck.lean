import ZeldaOS.VmMonitor.EptMisconfig
import ZeldaOS.VmMonitor.GuestImage

/-!
# The check that an address is mapped to itself

Before the monitor uses an address `h` that `guestpa_to_hostpa` found as a pointer, it asserts
`pa(h) == h`. Both functions return -1 for an address that is not mapped. The lookup of a guest
address that is not mapped gives -1, and then `pa` is asked for -1, which is not mapped either
unless the kernel mapped the top page of the address space; so it returns -1 too, and the assertion
holds.

For every other address the check is right, because no translation is -1 (`translation_lt`). The
checks reject a failed lookup exactly if the top page is mapped (`identity_check_iff`), which it is
not after `paging_init` (`failed_lookup_passes`).
-/

namespace ZeldaOS

/-- The walk of `pa`, with its errors apart from its results: an address is translated if every
level on its walk is present. -/
def translation (m : Memory) (pml4Base va : Nat) : Option Nat :=
  let l4Entry := m.read (pml4Base + 8 * level4Index va) 8
  if present l4Entry = 0 then none
  else
    let l3Entry := m.read (tableAddress l4Entry + 8 * level3Index va) 8
    if present l3Entry = 0 then none
    else
      let l2Entry := m.read (tableAddress l3Entry + 8 * level2Index va) 8
      if present l2Entry ≠ 0 ∧ pageSizeBit l2Entry ≠ 0 then some (translateLarge l2Entry va)
      else if present l2Entry = 0 then none
      else
        let l1Entry := m.read (tableAddress l2Entry + 8 * level1Index va) 8
        if present l1Entry = 0 then none else some (translatePage l1Entry va)

/-- All that the checks are for, with the kernel's tables as they are in `m`: an address that passes
is mapped to itself, and a guest address whose lookup failed is not used, neither for an instruction
of the guest nor for a page of its image. -/
structure ChecksReject (m : Memory) (pml4Base : Nat) : Prop where
  sound : ∀ x < 2 ^ 64, pa m pml4Base x = x → translation m pml4Base x = some x
  eptMisconfig : ∀ memEnd eptPml4Base rip,
    guestpaToHostpa m eptPml4Base rip = translationError →
      instructionStream ⟨m, memEnd, pml4Base, eptPml4Base⟩ rip = none
  guestImage : ∀ (alloc : PhysicalMemory) base guestImageEndAddr fuel imgAddr guestAddr,
    imgAddr < guestImageEndAddr → guestpaToHostpa m base guestAddr = translationError →
      copyImageLoop base guestImageEndAddr (fuel + 1) ⟨m, alloc, pml4Base⟩ imgAddr guestAddr = none

section
variable {m : Memory} {pml4Base x y : Nat}

theorem pa_eq_translation (m : Memory) (pml4Base va : Nat) :
    pa m pml4Base va = (translation m pml4Base va).getD translationError := by
  rw [pa, translation]
  dsimp only
  split
  · exact Option.getD_none.symm
  split
  · exact Option.getD_none.symm
  split
  · exact Option.getD_some.symm
  split
  · exact Option.getD_none.symm
  split
  · exact Option.getD_none.symm
  · exact Option.getD_some.symm

theorem translateLarge_lt (w va : Nat) : translateLarge w va < 2 ^ 52 := by
  refine Nat.or_lt_two_pow ?_ (Nat.lt_of_le_of_lt Nat.and_le_right (by decide))
  have hlt : shlBitField 43 (bitField w 21 43) 21 < 2 ^ 43 := Nat.mod_lt _ (by decide)
  omega

theorem translatePage_lt (w va : Nat) : translatePage w va < 2 ^ 52 :=
  Nat.or_lt_two_pow (Nat.mod_lt _ (by decide)) (Nat.lt_of_le_of_lt Nat.and_le_right (by decide))

/-- No translation is -1. -/
theorem translation_lt (h : translation m pml4Base x = some y) : y < 2 ^ 52 := by
  rw [translation] at h
  dsimp only at h
  split at h
  · cases h
  split at h
  · cases h
  split at h
  · cases h
    exact translateLarge_lt _ _
  split at h
  · cases h
  split at h
  · cases h
  · cases h
    exact translatePage_lt _ _

/-- **What `pa` returns**: -1 for an address that is not mapped, and something else for one that
is. -/
theorem pa_eq_error_iff : pa m pml4Base x = translationError ↔ translation m pml4Base x = none := by
  rw [pa_eq_translation]
  cases h : translation m pml4Base x with
  | none => simp
  | some y =>
    have hlt := translation_lt h
    rw [Option.getD_some, translationError]
    simp only [reduceCtorEq, iff_false]
    omega

/-- An address other than -1 passes the check only if it is mapped to itself. -/
theorem translation_of_pa (hx : x ≠ translationError) (h : pa m pml4Base x = x) :
    translation m pml4Base x = some x := by
  cases htr : translation m pml4Base x with
  | none => exact absurd (h.symm.trans (pa_eq_error_iff.2 htr)) hx
  | some y => rw [← h, pa_eq_translation, htr, Option.getD_some]

/-- The address of a failed lookup passes the check if -1 is not mapped. -/
theorem check_error_iff :
    pa m pml4Base translationError = translationError ↔
      (translation m pml4Base translationError).isSome = false := by
  rw [pa_eq_error_iff, Option.isSome_eq_false_iff, Option.isNone_iff_eq_none]

end

/-- **When the checks reject a failed lookup.** In every state of the kernel's tables: every address
but -1 that passes is mapped to itself, and the checks do all that they are for exactly if -1, in
the top page of the address space, is mapped. -/
theorem identity_check_iff (m : Memory) (pml4Base : Nat) :
    (∀ x, x ≠ translationError → pa m pml4Base x = x → translation m pml4Base x = some x) ∧
    (ChecksReject m pml4Base ↔ (translation m pml4Base translationError).isSome = true) := by
  refine ⟨fun x hx h => translation_of_pa hx h, fun h => ?_, fun h => ?_⟩
  · by_contra hnone
    have hpass := check_error_iff.2 (Bool.eq_false_iff.2 hnone)
    rw [h.sound translationError (by decide) hpass] at hnone
    exact hnone rfl
  · have hfail : pa m pml4Base translationError ≠ translationError := by
      intro hpass
      rw [check_error_iff.1 hpass] at h
      cases h
    refine ⟨fun x _ hx => translation_of_pa (fun heq => hfail (heq ▸ hx)) hx, ?_, ?_⟩
    · intro memEnd eptPml4Base rip hlookup
      rw [instructionStream]
      dsimp only
      rw [hlookup, if_neg hfail]
    · intro alloc base guestImageEndAddr fuel imgAddr guestAddr hlt hlookup
      rw [copyImageLoop, if_pos hlt]
      dsimp only
      rw [hlookup, if_neg hfail]

/-! ## After `paging_init` -/

/-- On the machine with 3 GiB below the hole the top page is not mapped. -/
theorem top_not_mapped_large {k₁ : Kernel PhysicalMemory} (hinv : IdentityInv k₁)
    (hboot : BootInv (PageAllocator.getPhysicalPage largeKernel.alloc).2 0x401000
      initialVaCeiling k₁) :
    pa k₁.mem k₁.pml4Base translationError = translationError := by
  by_contra hne
  obtain ⟨w, hw, hpres, -⟩ := pa_ne_error hinv.upper hne
  have hslot : slotPath translationError = slotPath (2 ^ 48 - 1) := by decide
  rw [hslot] at hw
  have hempty := hboot.empty (2 ^ 48 - 1) (by decide) (by decide) w hw
  omega

/-- **A failed lookup passes.** After `paging_init` -1 passes the check and is not mapped. With an
empty EPT in the next page, the guest's address 0x1000 is not mapped; the monitor takes an
instruction from address -1, and it copies a page of the guest's image to address -1. -/
theorem failed_lookup_passes : ∃ k₁ k₂ : Kernel PhysicalMemory,
    pagingInit largeKernel = some k₁ ∧
      pa k₁.mem k₁.pml4Base translationError = translationError ∧
      translation k₁.mem k₁.pml4Base translationError = none ∧ ¬ ChecksReject k₁.mem k₁.pml4Base ∧
      getClearPage k₁ = some (0x405000, k₂) ∧
      guestpaToHostpa k₂.mem 0x405000 0x1000 = translationError ∧
      (instructionStream ⟨k₂.mem, 2 ^ 64, k₂.pml4Base, 0x405000⟩ 0x1000).isSome = true ∧
      initializeVmcsGuestImage k₂ 0x405000 0x100000 0x101000 =
        some { k₂ with mem := memcpy k₂.mem translationError 0x100000 4096 } := by
  obtain ⟨k₁, hinit, hinv, hboot, halloc⟩ := pagingInit_large
  have hpass := top_not_mapped_large hinv hboot
  have hnone := pa_eq_error_iff.1 hpass
  obtain ⟨kpt, hkernel, hkpt⟩ := kernelTables_large hinv hboot halloc
  have hpage : (PageAllocator.getPhysicalPage k₁.alloc).1 = 0x405000 := by
    rw [halloc]
    decide
  have hclear : getClearPage k₁ = some (0x405000,
      { k₁ with
        mem := k₁.mem.fill 0x405000 4096 0
        alloc := (PageAllocator.getPhysicalPage k₁.alloc).2 }) := by
    rw [getClearPage]
    rw [hpage, if_pos ⟨by decide, hboot.identity 0x405000 (by decide)⟩]
  have hpass₂ : pa (k₁.mem.fill 0x405000 4096 0) k₁.pml4Base translationError = translationError :=
    ((hkernel.congr fun a ha => Memory.fill_agreeOn (.inl (hkpt a ha).2)).2 _).trans hpass
  have hlookup : guestpaToHostpa (k₁.mem.fill 0x405000 4096 0) 0x405000 0x1000 =
      translationError := by
    have hindex : (level4Index 0x1000 : Nat) = 0 := by decide
    have hzero : (k₁.mem.fill 0x405000 4096 0).read (0x405000 + 8 * level4Index 0x1000) 8 = 0 := by
      rw [hindex]
      exact Memory.read_eq_zero fun x hx hx' => Memory.fill_apply_of_mem (by omega) (by omega)
    rw [guestpaToHostpa, hzero, if_pos eptAbsent_zero]
  refine ⟨k₁, _, hinit, hpass, hnone, fun h => ?_, hclear, hlookup, ?_, ?_⟩
  · have hsound := h.sound translationError (by decide) hpass
    rw [hnone] at hsound
    cases hsound
  · rw [instructionStream]
    dsimp only
    rw [hlookup, if_pos hpass₂]
    rfl
  · rw [initializeVmcsGuestImage, copyImageLoop, if_pos (by decide)]
    dsimp only
    rw [hlookup, if_pos hpass₂, copyImageLoop, if_neg (by decide)]

end ZeldaOS
