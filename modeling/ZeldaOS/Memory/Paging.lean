import ZeldaOS.Lib.Bits
import ZeldaOS.Lib.Radix
import ZeldaOS.Memory.PageAllocator

/-!
# Kernel paging

Model of `memory/paging.c`: the four-level page tables of the kernel, mapped by `map_address` with
4 KiB and 2 MiB pages and translated in software by `pa`. The tables live in the machine's memory
and every entry is a word, read through the bit-field structures of `memory/include/paging.h`. The
entry of level 2 has two readings, a 2 MiB page (`struct pd_2mb_entry`) and a pointer to a page
table (`struct pd_table_entry`); they share the `present` bit and differ in bit 7.
-/

namespace ZeldaOS

/-- `enum ERROR_CODE`. A function that fails returns the negated code. -/
inductive ErrorCode
  | ok
  | invalid
  | notNecessary
  | duplication
  | outOfMemory
  | outOfResource
deriving DecidableEq, Repr

/-- The state of the kernel's memory management: the memory, the page allocator and `pml4_base`. -/
structure Kernel (A : Type) where
  mem : Memory
  alloc : A
  pml4Base : Nat

/-! ## Indices -/

/-- The nine bits of an address from bit `shift` on. -/
def levelIndex (shift addr : Nat) : Fin 512 :=
  ⟨(addr >>> shift) &&& 0x1ff, Nat.lt_of_le_of_lt Nat.and_le_right (by decide)⟩

/-- `LEVEL_4_INDEX`. -/
def level4Index (addr : Nat) : Fin 512 := levelIndex 39 addr

/-- `LEVEL_3_INDEX`. -/
def level3Index (addr : Nat) : Fin 512 := levelIndex 30 addr

/-- `LEVEL_2_INDEX`. -/
def level2Index (addr : Nat) : Fin 512 := levelIndex 21 addr

/-- `LEVEL_1_INDEX`. -/
def level1Index (addr : Nat) : Fin 512 := levelIndex 12 addr

/-- The index is nine bits of the address. -/
theorem levelIndex_val (shift addr : Nat) :
    (levelIndex shift addr : Nat) = addr / 2 ^ shift % 512 := by
  rw [levelIndex, Fin.val_mk, Nat.shiftRight_eq_div_pow]
  exact Nat.and_two_pow_sub_one_eq_mod _ 9

/-- Two addresses have the same index exactly if these bits are the same. -/
theorem levelIndex_inj {shift a b : Nat} :
    levelIndex shift a = levelIndex shift b ↔ a / 2 ^ shift % 512 = b / 2 ^ shift % 512 := by
  rw [Fin.ext_iff, levelIndex_val, levelIndex_val]

/-- The path of the entry of the 2 MiB slot of `va`. -/
def slotPath (va : Nat) : Path := [level2Index va, level3Index va, level4Index va]

/-- The path of the entry of the page of `va`. -/
def pagePath (va : Nat) : Path := level1Index va :: slotPath va

/-- Two addresses have the same slot when bits 21 to 47 agree. -/
theorem slotPath_inj {v va : Nat} :
    slotPath v = slotPath va ↔ v / 2 ^ 21 % 2 ^ 27 = va / 2 ^ 21 % 2 ^ 27 := by
  simp only [slotPath, level2Index, level3Index, level4Index, List.cons.injEq, levelIndex_inj,
    and_true]
  omega

/-- Two addresses have the same page when bits 12 to 47 agree. -/
theorem pagePath_inj {v va : Nat} :
    pagePath v = pagePath va ↔ v / 2 ^ 12 % 2 ^ 36 = va / 2 ^ 12 % 2 ^ 36 := by
  simp only [pagePath, level1Index, List.cons.injEq, levelIndex_inj, slotPath_inj]
  omega

/-! ## Entries -/

/-- The `present` bit, common to the entries of all levels. -/
def present (w : Nat) : Nat := bitField w 0 1

/-- The `page_size` bit of `struct pd_2mb_entry`. -/
def pageSizeBit (w : Nat) : Nat := bitField w 7 1

/-- The table an entry points to: its 52-bit page number, shifted in its own width. -/
def tableAddress (w : Nat) : Nat := shlBitField 52 (bitField w 12 52) 12

/-- An entry of level 4, 3 or 2 that points to the table at `addr`. -/
def tableEntry (addr : Nat) : Nat :=
  setBitField (setBitField (setBitField 0 0 1 1) 1 1 1) 12 52 (addr >>> 12)

/-- An entry of level 2 for the 2 MiB page at `phyAddr`. -/
def largeEntry (phyAddr : Nat) : Nat :=
  setBitField (setBitField (setBitField (setBitField 0 0 1 1) 1 1 1) 7 1 1) 21 43 (phyAddr >>> 21)

/-- An entry of level 1 for the page at `phyAddr`. -/
def pageEntry (phyAddr : Nat) : Nat :=
  setBitField (setBitField (setBitField 0 0 1 1) 1 1 1) 12 52 (phyAddr >>> 12)

/-! ## Translation -/

/-- The result of a failed translation, -1 as a `uint64_t`. -/
def translationError : Nat := 2 ^ 64 - 1

/-- The translation by a 2 MiB page. -/
def translateLarge (w va : Nat) : Nat := shlBitField 43 (bitField w 21 43) 21 ||| (va &&& 0x1fffff)

/-- The translation by a 4 KiB page. -/
def translatePage (w va : Nat) : Nat := shlBitField 52 (bitField w 12 52) 12 ||| (va &&& 0xfff)

/-- `pa`: walk the tables from `pml4Base` in software. -/
def pa (m : Memory) (pml4Base va : Nat) : Nat :=
  let l4Entry := m.read (pml4Base + 8 * level4Index va) 8
  if present l4Entry = 0 then translationError
  else
    let l3Entry := m.read (tableAddress l4Entry + 8 * level3Index va) 8
    if present l3Entry = 0 then translationError
    else
      let l2Entry := m.read (tableAddress l3Entry + 8 * level2Index va) 8
      if present l2Entry ≠ 0 ∧ pageSizeBit l2Entry ≠ 0 then translateLarge l2Entry va
      else if present l2Entry = 0 then translationError
      else
        let l1Entry := m.read (tableAddress l2Entry + 8 * level1Index va) 8
        if present l1Entry = 0 then translationError
        else translatePage l1Entry va

/-- The 2 MiB slot of `va` holds a 2 MiB page: the walk of `pa` ends at level 2. -/
def holdsLargePage (m : Memory) (pml4Base va : Nat) : Bool :=
  let l4Entry := m.read (pml4Base + 8 * level4Index va) 8
  let l3Entry := m.read (tableAddress l4Entry + 8 * level3Index va) 8
  let l2Entry := m.read (tableAddress l3Entry + 8 * level2Index va) 8
  present l4Entry ≠ 0 && present l3Entry ≠ 0 && present l2Entry ≠ 0 && pageSizeBit l2Entry ≠ 0

/-! ## Mapping -/

section
variable {A : Type} [PageAllocator A]

/-- The blocks of `map_address` that install a table under the entry at `entry`, unless the entry
is present. The source clears the page before or after the entry; the entry is assigned last. -/
def installTable (k : Kernel A) (entry : Nat) : ErrorCode × Kernel A :=
  if present (k.mem.read entry 8) ≠ 0 then (.ok, k)
  else
    let page := PageAllocator.getPhysicalPage k.alloc
    if page.1 = 0 then (.outOfMemory, { k with alloc := page.2 })
    else
      (.ok, { k with
        alloc := page.2
        mem := (k.mem.fill page.1 4096 0).write entry 8 (tableEntry page.1) })

/-- The block of `map_address` that installs a 2 MiB page in the entry at `entry`. -/
def installLargePage (k : Kernel A) (entry phyAddr : Nat) : Option (ErrorCode × Kernel A) :=
  if present (k.mem.read entry 8) ≠ 0 then some (.duplication, k)
  else if phyAddr &&& 0x1fffff ≠ 0 then none
  else some (.ok, { k with mem := k.mem.write entry 8 (largeEntry phyAddr) })

/-- The block of `map_address` that installs a 4 KiB page in the entry at `entry`. -/
def installPage (k : Kernel A) (entry phyAddr : Nat) : Option (ErrorCode × Kernel A) :=
  if present (k.mem.read entry 8) ≠ 0 then some (.duplication, k)
  else if phyAddr &&& 0xfff ≠ 0 then none
  else some (.ok, { k with mem := k.mem.write entry 8 (pageEntry phyAddr) })

/-- `map_address`. It halts on a page size other than 4 KiB and 2 MiB, and on an unaligned physical
address that it would map. -/
def mapAddress (k : Kernel A) (virtAddr phyAddr pageSize : Nat) : Option (ErrorCode × Kernel A) :=
  if pageSize ≠ 0x1000 ∧ pageSize ≠ 0x200000 then none
  else
    let l4Entry := k.pml4Base + 8 * level4Index virtAddr
    match installTable k l4Entry with
    | (.ok, k) =>
      let l3Entry := tableAddress (k.mem.read l4Entry 8) + 8 * level3Index virtAddr
      match installTable k l3Entry with
      | (.ok, k) =>
        let l2Entry := tableAddress (k.mem.read l3Entry 8) + 8 * level2Index virtAddr
        if pageSize = 0x200000 then installLargePage k l2Entry phyAddr
        else
          match installTable k l2Entry with
          | (.ok, k) =>
            let l1Entry := tableAddress (k.mem.read l2Entry 8) + 8 * level1Index virtAddr
            installPage k l1Entry phyAddr
          | (rc, k) => some (rc, k)
      | (rc, k) => some (rc, k)
    | (rc, k) => some (rc, k)

section
variable {k k' : Kernel A} {rc : ErrorCode} {entry : Nat}

/-- **What installing a table does**: nothing if the entry is present, and otherwise it takes a
page, if there is one. -/
theorem installTable_inv (h : installTable k entry = (rc, k')) :
    (present (k.mem.read entry 8) ≠ 0 ∧ rc = .ok ∧ k' = k) ∨
    (present (k.mem.read entry 8) = 0 ∧ rc = .outOfMemory ∧
      k' = { k with alloc := (PageAllocator.getPhysicalPage k.alloc).2 }) ∨
    (present (k.mem.read entry 8) = 0 ∧ (PageAllocator.getPhysicalPage k.alloc).1 ≠ 0 ∧ rc = .ok ∧
      k' = { k with
        alloc := (PageAllocator.getPhysicalPage k.alloc).2
        mem := (k.mem.fill (PageAllocator.getPhysicalPage k.alloc).1 4096 0).write entry 8
          (tableEntry (PageAllocator.getPhysicalPage k.alloc).1) }) := by
  rw [installTable] at h
  split at h
  · next hpres =>
    cases h
    exact .inl ⟨hpres, rfl, rfl⟩
  next hpres =>
  have hpres := not_not.1 hpres
  dsimp only at h
  split at h
  · cases h
    exact .inr (.inl ⟨hpres, rfl, rfl⟩)
  · next hne =>
    cases h
    exact .inr (.inr ⟨hpres, hne, rfl, rfl⟩)

end

end

section
variable {A : Type} {k k' : Kernel A} {rc : ErrorCode} {entry phyAddr : Nat}

/-- A page is installed in an entry that is not present, with an aligned address. -/
theorem install_inv {n word : Nat}
    (h : (if present (k.mem.read entry 8) ≠ 0 then some (.duplication, k)
      else if phyAddr &&& (2 ^ n - 1) ≠ 0 then none
      else some (.ok, { k with mem := k.mem.write entry 8 word })) = some (rc, k')) :
    (rc = .duplication ∧ k' = k) ∨
    (present (k.mem.read entry 8) = 0 ∧ phyAddr % 2 ^ n = 0 ∧ rc = .ok ∧
      k' = { k with mem := k.mem.write entry 8 word }) := by
  rw [and_mask_eq_mod] at h
  split at h
  · cases h
    exact .inl ⟨rfl, rfl⟩
  next hpres =>
  split at h
  · cases h
  · next hal =>
    cases h
    exact .inr ⟨not_not.1 hpres, not_not.1 hal, rfl, rfl⟩

/-- **What installing a 2 MiB page does**: nothing if the entry is present. -/
theorem installLargePage_inv (h : installLargePage k entry phyAddr = some (rc, k')) :
    (rc = .duplication ∧ k' = k) ∨
    (present (k.mem.read entry 8) = 0 ∧ phyAddr % 0x200000 = 0 ∧ rc = .ok ∧
      k' = { k with mem := k.mem.write entry 8 (largeEntry phyAddr) }) :=
  install_inv (n := 21) h

/-- **What installing a 4 KiB page does**: nothing if the entry is present. -/
theorem installPage_inv (h : installPage k entry phyAddr = some (rc, k')) :
    (rc = .duplication ∧ k' = k) ∨
    (present (k.mem.read entry 8) = 0 ∧ phyAddr % 0x1000 = 0 ∧ rc = .ok ∧
      k' = { k with mem := k.mem.write entry 8 (pageEntry phyAddr) }) :=
  install_inv (n := 12) h

end

/-! ## The fields of the entries -/

section
variable {a w : Nat}

/-- The word of an entry that points to a table. -/
theorem tableEntry_val (a : Nat) : tableEntry a = a / 2 ^ 12 % 2 ^ 52 * 2 ^ 12 + 0x3 := by
  simp only [tableEntry, setBitField, Nat.shiftRight_eq_div_pow]
  omega

/-- The word of an entry for a 2 MiB page. -/
theorem largeEntry_val (a : Nat) : largeEntry a = a / 2 ^ 21 % 2 ^ 43 * 2 ^ 21 + 0x83 := by
  simp only [largeEntry, setBitField, Nat.shiftRight_eq_div_pow]
  omega

/-- An entry for a table is a quadword, -/
theorem tableEntry_lt (a : Nat) : tableEntry a < 256 ^ 8 := by
  rw [tableEntry_val]
  omega

/-- and so is one for a large page. -/
theorem largeEntry_lt (a : Nat) : largeEntry a < 256 ^ 8 := by
  rw [largeEntry_val]
  omega

/-- The entry for a table is present, -/
@[simp] theorem present_tableEntry (a : Nat) : present (tableEntry a) = 1 := by
  rw [tableEntry_val, present, bitField]
  omega

/-- and has not the size bit. -/
@[simp] theorem pageSizeBit_tableEntry (a : Nat) : pageSizeBit (tableEntry a) = 0 := by
  rw [tableEntry_val, pageSizeBit, bitField]
  omega

/-- An entry gives back the table it was made for. -/
theorem tableAddress_tableEntry (h₁ : a % 4096 = 0) (h₂ : a < 2 ^ 52) :
    tableAddress (tableEntry a) = a := by
  rw [tableEntry_val, tableAddress, shlBitField, bitField]
  omega

/-- The entry for a large page is present, -/
@[simp] theorem present_largeEntry (a : Nat) : present (largeEntry a) = 1 := by
  rw [largeEntry_val, present, bitField]
  omega

/-- and has the size bit. -/
@[simp] theorem pageSizeBit_largeEntry (a : Nat) : pageSizeBit (largeEntry a) = 1 := by
  rw [largeEntry_val, pageSizeBit, bitField]
  omega

/-- A large page is translated as it was mapped. -/
theorem translateLarge_largeEntry (h₁ : a % 0x200000 = 0) (h₂ : a < 2 ^ 43) (va : Nat) :
    translateLarge (largeEntry a) va = a + va % 0x200000 := by
  have hbase : shlBitField 43 (bitField (largeEntry a) 21 43) 21 = a := by
    rw [largeEntry_val, shlBitField, bitField]
    omega
  rw [translateLarge, hbase, show 0x1fffff = 2 ^ 21 - 1 from rfl, and_mask_eq_mod,
    or_offset_eq_add (k := 21) h₁ (Nat.mod_lt _ (by decide))]
  rfl

/-- An entry for a page is a quadword, -/
theorem pageEntry_lt (a : Nat) : pageEntry a < 256 ^ 8 := tableEntry_lt a

/-- and it is present. -/
@[simp] theorem present_pageEntry (a : Nat) : present (pageEntry a) = 1 := present_tableEntry a

/-- A page is translated as it was mapped. -/
theorem translatePage_pageEntry (h₁ : a % 0x1000 = 0) (h₂ : a < 2 ^ 52) (va : Nat) :
    translatePage (pageEntry a) va = a + va % 0x1000 := by
  have hbase : shlBitField 52 (bitField (pageEntry a) 12 52) 12 = a :=
    tableAddress_tableEntry h₁ h₂
  rw [translatePage, hbase, show 0xfff = 2 ^ 12 - 1 from rfl, and_mask_eq_mod,
    or_offset_eq_add (k := 12) h₁ (Nat.mod_lt _ (by decide))]
  rfl

/-- The `present` bit is 0 or 1. -/
theorem present_ne_zero_iff : present w ≠ 0 ↔ present w = 1 := by
  have : present w < 2 ^ 1 := bitField_lt w 0 1
  omega

end

end ZeldaOS
