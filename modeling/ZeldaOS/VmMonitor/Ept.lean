import ZeldaOS.Memory.Paging

/-!
# Extended page tables

Model of `vm_monitor/vmx_ept.c`: the tables that translate the physical addresses of a guest to
those of the host. `map_ept_page` maps one guest page, to a page of the host or, for emulated
devices, to a leaf that is writable but not readable, so that an access to it exits as a
misconfiguration. `guestpa_to_hostpa` walks the tables in software.

The tables are allocated from the same pages as the memory of the guest, and the assertions on a
new page go through the kernel's own translation `pa`; so the state is that of the kernel. An
assertion that fails halts the machine, which is the result `none`.

An entry counts as absent when it is neither readable nor writable. The walk of `guestpa_to_hostpa`
tests this at the three upper levels. At the last level it tests for a leaf that is not readable but
writable, which is the leaf of a device only: an untouched leaf passes.
-/

namespace ZeldaOS

/-! ## Entries -/

/-- The `read_access` bit, common to the entries of all levels. -/
def readAccess (w : Nat) : Nat := bitField w 0 1

/-- The `write_access` bit, common to the entries of all levels. -/
def writeAccess (w : Nat) : Nat := bitField w 1 1

/-- The test of the builder and of the upper levels of the walker for an absent entry. -/
def EptAbsent (w : Nat) : Prop := readAccess w = 0 ∧ writeAccess w = 0

instance (w : Nat) : Decidable (EptAbsent w) := inferInstanceAs (Decidable (_ ∧ _))

/-- The page an entry points to: its 40-bit page number, shifted in its own width. -/
def eptAddress (w : Nat) : Nat := shlBitField 40 (bitField w 12 40) 12

/-- A cleared entry with its four access bits set. -/
def eptFlags : Nat :=
  setBitField (setBitField (setBitField (setBitField 0 0 1 1) 1 1 1) 2 1 1) 10 1 1

/-- What backs a guest page: `PAGE_SYSTEM_MEMORY` or `PAGE_SYSTEM_IOMEMORY`. -/
inductive Backing
  | systemMemory
  | systemIomemory
deriving DecidableEq, Repr

/-- The leaf that `map_ept_page` stores. The leaf of a device is misconfigured on purpose. -/
def eptLeaf (phyPa : Nat) : Backing → Nat
  | .systemMemory => setBitField (setBitField (setBitField eptFlags 6 1 1) 3 3 6) 12
      40 (phyPa >>> 12)
  | .systemIomemory => setBitField (setBitField (setBitField eptFlags 0 1 0) 6 1 1) 3 3 6

/-! ## Translation -/

/-- `guestpa_to_hostpa`. -/
def guestpaToHostpa (m : Memory) (eptBase guestpa : Nat) : Nat :=
  let pml4e := m.read (eptBase + 8 * level4Index guestpa) 8
  if EptAbsent pml4e then translationError
  else
    let pdpe := m.read (eptAddress pml4e + 8 * level3Index guestpa) 8
    if EptAbsent pdpe then translationError
    else
      let pde := m.read (eptAddress pdpe + 8 * level2Index guestpa) 8
      if EptAbsent pde then translationError
      else
        let pt := m.read (eptAddress pde + 8 * level1Index guestpa) 8
        if readAccess pt = 0 ∧ writeAccess pt ≠ 0 then translationError
        else eptAddress pt ||| (guestpa &&& 0xfff)

/-! ## Mapping -/

section
variable {A : Type} [PageAllocator A]

/-- The blocks of `map_ept_page` that install a table under the entry at `entry`, if it is absent.
The access bits are set before the page is allocated, and its address after it is cleared. -/
def installEptTable (k : Kernel A) (entry : Nat) : Option (Kernel A) :=
  if EptAbsent (k.mem.read entry 8) then
    let mem := k.mem.write entry 8 eptFlags
    let page := PageAllocator.getPhysicalPage k.alloc
    if page.1 ≠ 0 ∧ pa mem k.pml4Base page.1 = page.1 then
      let mem := mem.fill page.1 4096 0
      let mem := mem.write entry 8 (setBitField (mem.read entry 8) 12 40 (page.1 >>> 12))
      if EptAbsent (mem.read entry 8) then none
      else some { k with mem := mem, alloc := page.2 }
    else none
  else some k

/-- `map_ept_page`. -/
def mapEptPage (k : Kernel A) (base guestPa phyPa : Nat) (backing : Backing) :
    Option (ErrorCode × Kernel A) := do
  let pml4e := base + 8 * level4Index guestPa
  let k ← installEptTable k pml4e
  let pdpe := eptAddress (k.mem.read pml4e 8) + 8 * level3Index guestPa
  let k ← installEptTable k pdpe
  let pde := eptAddress (k.mem.read pdpe 8) + 8 * level2Index guestPa
  let k ← installEptTable k pde
  let pt := eptAddress (k.mem.read pde 8) + 8 * level1Index guestPa
  if EptAbsent (k.mem.read pt 8) then
    some (.ok, { k with mem := k.mem.write pt 8 (eptLeaf phyPa backing) })
  else some (.duplication, k)

/-- A page for the guest or for a table: allocated, asserted to be mapped to itself, and cleared. -/
def getClearPage (k : Kernel A) : Option (Nat × Kernel A) :=
  let page := PageAllocator.getPhysicalPage k.alloc
  if page.1 ≠ 0 ∧ pa k.mem k.pml4Base page.1 = page.1 then
    some (page.1, { k with mem := k.mem.fill page.1 4096 0, alloc := page.2 })
  else none

/-- The loop of `setup_basic_physical_memory`, for at most `fuel` iterations. -/
def setupLoop (base addrHigh : Nat) : Nat → Kernel A → Nat → Option (Kernel A)
  | 0, _, _ => none
  | fuel + 1, k, guestPa =>
    if guestPa ≤ addrHigh then do
      let (page, k) ← getClearPage k
      let (_, k) ← mapEptPage k base guestPa page .systemMemory
      setupLoop base addrHigh fuel k ((guestPa + 4096) % 2 ^ 64)
    else some k

/-- `setup_basic_physical_memory`: the PML4 of a new guest whose memory is the pages from `addrLow`
to `addrHigh`. The loop takes one iteration more than there are pages, unless its counter wraps
around, and then it never ends. -/
def setupBasicPhysicalMemory (k : Kernel A) (addrLow addrHigh : Nat) :
    Option (Nat × Kernel A) := do
  let (base, k) ← getClearPage k
  let k ← setupLoop base addrHigh ((addrHigh - addrLow) / 4096 + 2) k addrLow
  some (base, k)

/-- `setup_io_memory`: halts if the page is mapped already. -/
def setupIoMemory (k : Kernel A) (base guestPhysicalPage : Nat) : Option (Kernel A) :=
  match mapEptPage k base guestPhysicalPage 0 .systemIomemory with
  | some (.ok, k) => some k
  | _ => none

end

/-! ## The fields of the entries -/

section
variable {w a : Nat}

/-- The entry that an installed table leaves. -/
def eptTableEntry (addr : Nat) : Nat := setBitField eptFlags 12 40 (addr >>> 12)

/-- The flags of an entry. -/
theorem eptFlags_eq : eptFlags = 0x407 := by decide

/-- The word of an entry that points to a table. -/
theorem eptTableEntry_val (a : Nat) : eptTableEntry a = a / 2 ^ 12 % 2 ^ 40 * 2 ^ 12 + 0x407 := by
  simp only [eptTableEntry, eptFlags_eq, setBitField, Nat.shiftRight_eq_div_pow]
  omega

/-- The word of a leaf of memory. -/
theorem eptLeaf_systemMemory (a : Nat) :
    eptLeaf a .systemMemory = a / 2 ^ 12 % 2 ^ 40 * 2 ^ 12 + 0x477 := by
  have hleaf : eptLeaf a .systemMemory = setBitField 0x477 12 40 (a >>> 12) :=
    congrArg (setBitField · 12 40 (a >>> 12)) (by decide)
  rw [hleaf, setBitField, Nat.shiftRight_eq_div_pow]
  omega

/-- The leaf for a device has no address and is misconfigured. -/
theorem eptLeaf_systemIomemory (a : Nat) : eptLeaf a .systemIomemory = 0x476 := by
  rw [eptLeaf, eptFlags_eq]
  decide

/-- An entry for a table is a quadword, -/
theorem eptTableEntry_lt (a : Nat) : eptTableEntry a < 256 ^ 8 := by
  rw [eptTableEntry_val]
  omega

/-- and it is present. -/
theorem not_eptAbsent_eptTableEntry (a : Nat) : ¬ EptAbsent (eptTableEntry a) := by
  rw [eptTableEntry_val, EptAbsent, readAccess, bitField]
  omega

/-- An entry gives back the table it was made for. -/
theorem eptAddress_eptTableEntry (h₁ : a % 4096 = 0) (h₂ : a < 2 ^ 40) :
    eptAddress (eptTableEntry a) = a := by
  rw [eptTableEntry_val, eptAddress, shlBitField, bitField]
  omega

/-- A leaf is a quadword. -/
theorem eptLeaf_lt (a : Nat) (b : Backing) : eptLeaf a b < 256 ^ 8 := by
  cases b with
  | systemMemory =>
    rw [eptLeaf_systemMemory]
    omega
  | systemIomemory =>
    rw [eptLeaf_systemIomemory]
    decide

/-- The leaf of a device is writable, but not readable; that of memory is both. -/
theorem readAccess_eptLeaf_systemMemory (a : Nat) :
    readAccess (eptLeaf a .systemMemory) = 1 := by
  rw [eptLeaf_systemMemory, readAccess, bitField]
  omega

/-- Every leaf is writable. -/
theorem writeAccess_eptLeaf (a : Nat) (b : Backing) : writeAccess (eptLeaf a b) = 1 := by
  cases b with
  | systemMemory =>
    rw [eptLeaf_systemMemory, writeAccess, bitField]
    omega
  | systemIomemory =>
    rw [eptLeaf_systemIomemory]
    decide

/-- A leaf of memory gives back the page it was made for. -/
theorem eptAddress_eptLeaf (h₁ : a % 4096 = 0) (h₂ : a < 2 ^ 40) :
    eptAddress (eptLeaf a .systemMemory) = a := by
  rw [eptLeaf_systemMemory, eptAddress, shlBitField, bitField]
  omega

/-- A leaf that was stored is not absent. -/
theorem not_eptAbsent_eptLeaf (a : Nat) (b : Backing) : ¬ EptAbsent (eptLeaf a b) := by
  intro h
  have := h.2
  rw [writeAccess_eptLeaf] at this
  omega

/-- An entry 0 is absent. -/
theorem eptAbsent_zero : EptAbsent 0 := by decide

end

end ZeldaOS
