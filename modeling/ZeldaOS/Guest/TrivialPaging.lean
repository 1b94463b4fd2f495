import ZeldaOS.Lib.Run
import ZeldaOS.Memory.Paging

/-!
# Paging of the guest

Model of `guest/trivial_paging.c`: the guest kernel's mapper of addresses above 4 GiB, over the page
tables that `construct_early_page_table` (`guest/init32.S`) builds, and the walk that the processor
makes of them (`walk`). The entries have the layout of the hypervisor's (`Memory.Paging`).

The guest's `memset` takes a source: it copies the bytes at its second argument. Called as
`memset(page, 0x0, n)` it copies the bytes at address 0, and clears the page when these are zero
(`guestMemset_eq_fill`). The mapper runs under the identity mapping of the first GiB, so an address
of its tables is a physical one.
-/

namespace ZeldaOS

/-! ## Early page tables -/

/-- Where the linker puts the tables of the guest: the three early tables are adjacent, the pool is
aligned and apart from them, and page 0 is below the image. -/
structure GuestTables where
  /-- `pml4_base`; `pdpt_base` and `pdt_base` are the two pages after it. -/
  pml4Base : Nat
  /-- `base_pages`. -/
  basePages : Nat
  pml4_aligned : pml4Base % 4096 = 0
  base_aligned : basePages % 4096 = 0
  pml4_pos : 4096 ≤ pml4Base
  base_pos : 4096 ≤ basePages
  apart : pml4Base + 3 * 4096 ≤ basePages ∨ basePages + 16 * 4096 ≤ pml4Base
  pml4_le : pml4Base + 3 * 4096 ≤ 2 ^ 30
  base_le : basePages + 16 * 4096 ≤ 2 ^ 30

namespace GuestTables

variable (L : GuestTables)

/-- `pdpt_base`. -/
def pdptBase : Nat := L.pml4Base + 4096

/-- `pdt_base`. -/
def pdtBase : Nat := L.pml4Base + 2 * 4096

/-- Two stores of four bytes: the low half of an entry and a zero above it. -/
def storeEntry (m : Memory) (a w : Nat) : Memory := (m.write a 4 w).write (a + 4) 4 0

/-- The loop over the pages of 2 MiB, the first `n` of which are installed in the page directory at
`base`; `ebx` is `i * 0x200000` in round `i`. -/
def storeDirectory (m : Memory) (base : Nat) : Nat → Memory
  | 0 => m
  | i + 1 => storeEntry (storeDirectory m base i) (base + 8 * i) (0x83 ||| i * 0x200000 % 2 ^ 32)

/-- `construct_early_page_table`. -/
def constructEarlyPageTable (m : Memory) : Memory :=
  let m := m.fill L.pml4Base (4 * (1024 * 3)) 0
  let m := storeEntry m L.pml4Base (0x3 ||| L.pdptBase)
  let m := storeEntry m L.pdptBase (0x3 ||| L.pdtBase)
  storeDirectory m L.pdtBase 512

end GuestTables

/-! ## The mapper -/

/-- `memset` of `guest/lib.c`: copy `nrBytes` bytes from `src` to `dst`, one after the other. -/
def guestMemset (m : Memory) (dst src : Nat) : Nat → Memory
  | 0 => m
  | idx + 1 =>
    let m := guestMemset m dst src idx
    m.write (dst + idx) 1 (m (src + idx)).toNat

/-- The variables of `trivial_paging.c`. -/
structure GuestPaging where
  mem : Memory
  nrUsedBasePages : Nat
  /-- The pages that `get_base_page` has returned so far. -/
  returned : List Nat

/-- `NR_BASE_PAGES`. -/
def nrBasePages : Nat := 16

section
variable (L : GuestTables)

/-- `get_base_page`. The pool is an array of bytes, and its index is the number of pages used. -/
def getBasePage (s : GuestPaging) : Nat × GuestPaging :=
  if s.nrUsedBasePages ≥ nrBasePages then (0, s)
  else
    let page := L.basePages + s.nrUsedBasePages
    (page, { s with
      mem := guestMemset s.mem page 0 4096
      nrUsedBasePages := s.nrUsedBasePages + 1
      returned := s.returned ++ [page] })

/-- The three assignments that make the entry at `entry` point to `addr`. -/
def assignEntry (m : Memory) (entry addr : Nat) : Memory :=
  m.write entry 8
    (setBitField (setBitField (setBitField (m.read entry 8) 0 1 1) 1 1 1) 12 52 (addr >>> 12))

/-- Levels 4 and 3 clear the page, then the entry. -/
def clearPageFirst (m : Memory) (entry page : Nat) : Memory :=
  guestMemset (guestMemset m page 0 4096) entry 0 8

/-- Level 2 clears the entry, then the page. -/
def clearEntryFirst (m : Memory) (entry page : Nat) : Memory :=
  guestMemset (guestMemset m entry 0 8) page 0 4096

/-- The blocks of `map_page_high` that install a table under the entry at `entry`, unless it is
present; `rc` is the result when the pool is empty. -/
def installBasePage (clear : Memory → Nat → Nat → Memory) (rc : Int) (s : GuestPaging)
    (entry : Nat) : Int × GuestPaging :=
  if present (s.mem.read entry 8) ≠ 0 then (0, s)
  else
    let r := getBasePage L s
    if r.1 = 0 then (rc, r.2)
    else (0, { r.2 with mem := assignEntry (clear r.2.mem entry r.1) entry r.1 })

/-- The block of `map_page_high` that installs the entry of level 1. -/
def installHighPage (s : GuestPaging) (entry pa : Nat) : Int × GuestPaging :=
  if present (s.mem.read entry 8) ≠ 0 then (-5, s)
  else (0, { s with mem := assignEntry (guestMemset s.mem entry 0 8) entry pa })

/-- `map_page_high`. -/
def mapPageHigh (s : GuestPaging) (va pa : Nat) : Int × GuestPaging :=
  if va < 0x100000000 then (-1, s)
  else
    let l4Entry := L.pml4Base + 8 * level4Index va
    let r := installBasePage L clearPageFirst (-2) s l4Entry
    if r.1 ≠ 0 then r
    else
      let l3Entry := tableAddress (r.2.mem.read l4Entry 8) + 8 * level3Index va
      let r := installBasePage L clearPageFirst (-3) r.2 l3Entry
      if r.1 ≠ 0 then r
      else
        let l2Entry := tableAddress (r.2.mem.read l3Entry 8) + 8 * level2Index va
        let r := installBasePage L clearEntryFirst (-4) r.2 l2Entry
        if r.1 ≠ 0 then r
        else
          let l1Entry := tableAddress (r.2.mem.read l2Entry 8) + 8 * level1Index va
          installHighPage r.2 l1Entry pa

/-- A call of the guest's paging code. -/
inductive GuestCall
  | mapPageHigh (va pa : Nat)
  | pagingInit
deriving DecidableEq, Repr

/-- The mapping that a call asks for; `paging_init` maps the video buffer. -/
def GuestCall.request : GuestCall → Nat × Nat
  | .mapPageHigh va pa => (va, pa)
  | .pagingInit => (0x1000b8000, 0x1000b8000)

/-- A call, with the result of the mapper as its output. `paging_init` discards that result and
makes the whole pool available again. -/
def guestPagingStep (s : GuestPaging) : GuestCall → Option (Int × GuestPaging)
  | .mapPageHigh va pa => some (mapPageHigh L s va pa)
  | .pagingInit =>
    let r := mapPageHigh L s 0x1000b8000 0x1000b8000
    some (r.1, { r.2 with nrUsedBasePages := 0 })

/-- The paging code before the first call, on a memory `m` with the early tables. -/
def initialPaging (m : Memory) : GuestPaging := ⟨L.constructEarlyPageTable m, 0, []⟩

end

/-! ## The walk of the processor -/

/-- The frame that an entry points to. -/
def entryFrame (w : Nat) : Nat := bitField w 12 40 * 2 ^ 12

/-- The translation of `va` by the tables at `cr3`, none when `va` is not present. Bit 7 of an entry
of level 3 or 2 makes it a page. -/
def walk (m : Memory) (cr3 va : Nat) : Option Nat :=
  let l4Entry := m.read (cr3 + 8 * level4Index va) 8
  if present l4Entry = 0 then none
  else
    let l3Entry := m.read (entryFrame l4Entry + 8 * level3Index va) 8
    if present l3Entry = 0 then none
    else if pageSizeBit l3Entry ≠ 0 then some (bitField l3Entry 30 22 * 2 ^ 30 + va % 2 ^ 30)
    else
      let l2Entry := m.read (entryFrame l3Entry + 8 * level2Index va) 8
      if present l2Entry = 0 then none
      else if pageSizeBit l2Entry ≠ 0 then some (bitField l2Entry 21 31 * 2 ^ 21 + va % 2 ^ 21)
      else
        let l1Entry := m.read (entryFrame l2Entry + 8 * level1Index va) 8
        if present l1Entry = 0 then none
        else some (entryFrame l1Entry + va % 2 ^ 12)

end ZeldaOS
