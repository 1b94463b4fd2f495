import ZeldaOS.Guest.Memset

/-!
# The guest's mapper shares its tables

`get_base_page` indexes the pool by pages used, but the pool is an array of bytes: the pages it
returns start one byte apart, and all of them lie in the frame of the pool. Since an entry keeps
only the page number, every table that `map_page_high` installs is that one frame.

The first call already shows it, whatever its arguments (`mapPageHigh_first`): it takes a page that
is not aligned, and it leaves an address present that nobody mapped (`strayAddress`), because the
frame's entry at the index of level 2 points to the frame itself and so serves as the entry of every
level. So the mapper never maps exactly what it is asked to (`mapPageHigh_exact_iff`).
-/

namespace ZeldaOS

/-! ## Clearing -/

section
variable {m : Memory} {dst entry page x n : Nat}

/-- Page 0 of the guest is zero. -/
def PageZero (m : Memory) : Prop := ∀ x, x < 4096 → m x = 0

/-- Page 0 stays zero where zeros are written. -/
theorem PageZero.fill (h : PageZero m) : PageZero (m.fill dst n 0) := by
  intro x hx
  rw [Memory.fill]
  split
  · rfl
  · exact h x hx

/-- **Copying the zeros of page 0 clears the destination.** -/
theorem guestMemset_eq_fill (h : PageZero m) (hn : n ≤ 4096) :
    guestMemset m dst 0 n = m.fill dst n 0 := by
  refine guestMemset_eq_fill_of_zero fun i hi => h _ ?_
  have := Nat.mod_le i dst
  omega

/-- Both orders of clearing have the same effect. -/
structure ClearsBoth (clear : Memory → Nat → Nat → Memory) : Prop where
  zero : ∀ {m entry page x}, PageZero m →
    (entry ≤ x ∧ x < entry + 8 ∨ page ≤ x ∧ x < page + 4096) → clear m entry page x = 0
  frame : ∀ {m entry page x}, PageZero m →
    (x < entry ∨ entry + 8 ≤ x) → (x < page ∨ page + 4096 ≤ x) → clear m entry page x = m x

/-- At levels 4 and 3 the page is cleared before the entry, -/
theorem clears_pageFirst : ClearsBoth clearPageFirst := by
  have heq : ∀ {m entry page}, PageZero m →
      clearPageFirst m entry page = (m.fill page 4096 0).fill entry 8 0 := by
    intro m entry page h
    rw [clearPageFirst, guestMemset_eq_fill h (by omega), guestMemset_eq_fill h.fill (by omega)]
  refine ⟨fun h hx => ?_, fun h hx₁ hx₂ => ?_⟩
  · rw [heq h, Memory.fill_fill_apply_of_mem hx.symm]
  · rw [heq h, Memory.fill_fill_apply_of_not_mem hx₂ hx₁]

/-- and at level 2 the entry before the page. -/
theorem clears_entryFirst : ClearsBoth clearEntryFirst := by
  have heq : ∀ {m entry page}, PageZero m →
      clearEntryFirst m entry page = (m.fill entry 8 0).fill page 4096 0 := by
    intro m entry page h
    rw [clearEntryFirst, guestMemset_eq_fill h (by omega), guestMemset_eq_fill h.fill (by omega)]
  refine ⟨fun h hx => ?_, fun h hx₁ hx₂ => ?_⟩
  · rw [heq h, Memory.fill_fill_apply_of_mem hx]
  · rw [heq h, Memory.fill_fill_apply_of_not_mem hx₁ hx₂]

end

/-! ## Installing a table -/

/-- An entry keeps the page number of an address only. -/
theorem tableEntry_add {a k : Nat} (ha : a % 4096 = 0) (hk : k < 4096) :
    tableEntry (a + k) = tableEntry a := by
  rw [tableEntry_val, tableEntry_val]
  omega

/-- Assigning the fields of a cleared entry stores a whole entry. -/
theorem assignEntry_of_zero {m : Memory} {entry addr : Nat} (h : m.read entry 8 = 0) :
    assignEntry m entry addr = m.write entry 8 (tableEntry addr) := by
  rw [assignEntry, h]
  rfl

section
variable {L : GuestTables} {s s' : GuestPaging} {entry x : Nat}

/-- What installing a page of the pool under an empty entry does. -/
structure Installs (L : GuestTables) (s : GuestPaging) (entry : Nat) (s' : GuestPaging) : Prop where
  entry_eq : s'.mem.read entry 8 = tableEntry L.basePages
  zero : ∀ x, L.basePages + s.nrUsedBasePages ≤ x → x < L.basePages + s.nrUsedBasePages + 4096 →
    (x < entry ∨ entry + 8 ≤ x) → s'.mem x = 0
  frame : ∀ x, (x < entry ∨ entry + 8 ≤ x) →
    (x < L.basePages + s.nrUsedBasePages ∨ L.basePages + s.nrUsedBasePages + 4096 ≤ x) →
    s'.mem x = s.mem x
  used : s'.nrUsedBasePages = s.nrUsedBasePages + 1
  returned : s'.returned = s.returned ++ [L.basePages + s.nrUsedBasePages]

/-- One level of `map_page_high` whose entry is empty takes a page of the pool. -/
theorem installBasePage_installs {clear : Memory → Nat → Nat → Memory} (rc : Int)
    (hc : ClearsBoth clear) (hz : PageZero s.mem) (hused : s.nrUsedBasePages < 16)
    (h₀ : s.mem.read entry 8 = 0) :
    ∃ s', installBasePage L clear rc s entry = (0, s') ∧ Installs L s entry s' := by
  have hbase := L.base_pos
  have hpage : L.basePages + s.nrUsedBasePages ≠ 0 := by omega
  have hget : getBasePage L s = (L.basePages + s.nrUsedBasePages,
      ⟨s.mem.fill (L.basePages + s.nrUsedBasePages) 4096 0, s.nrUsedBasePages + 1,
        s.returned ++ [L.basePages + s.nrUsedBasePages]⟩) := by
    rw [getBasePage, if_neg (by simpa [nrBasePages] using hused)]
    simp only [guestMemset_eq_fill hz (Nat.le_refl 4096)]
  have hpres : ¬ present (s.mem.read entry 8) ≠ 0 := by
    rw [h₀]
    decide
  generalize hm : clear (s.mem.fill (L.basePages + s.nrUsedBasePages) 4096 0) entry
    (L.basePages + s.nrUsedBasePages) = m
  have hzero : ∀ x, entry ≤ x ∧ x < entry + 8 ∨ L.basePages + s.nrUsedBasePages ≤ x ∧
      x < L.basePages + s.nrUsedBasePages + 4096 → m x = 0 := fun x hx => by
    rw [← hm, hc.zero hz.fill hx]
  have hread : m.read entry 8 = 0 :=
    Memory.read_eq_zero fun x h₁ h₂ => hzero x (.inl ⟨h₁, h₂⟩)
  refine ⟨⟨m.write entry 8 (tableEntry (L.basePages + s.nrUsedBasePages)), s.nrUsedBasePages + 1,
    s.returned ++ [L.basePages + s.nrUsedBasePages]⟩, ?_, ?_, fun x h₁ h₂ hx => ?_,
    fun x h₁ h₂ => ?_, rfl, rfl⟩
  · rw [installBasePage, if_neg hpres, hget, if_neg hpage, hm, assignEntry_of_zero hread]
  · rw [Memory.read_write_self, tableEntry_add L.base_aligned (by omega)]
    exact Nat.mod_eq_of_lt (tableEntry_lt _)
  · exact (Memory.write_apply_of_not_mem hx).trans (hzero x (.inr ⟨h₁, h₂⟩))
  · refine (Memory.write_apply_of_not_mem h₁).trans ?_
    rw [← hm, hc.frame hz.fill h₁ h₂, Memory.fill_apply_of_not_mem h₂]

/-- Page 0 stays zero. -/
theorem Installs.pageZero (h : Installs L s entry s') (hz : PageZero s.mem) (he : 4096 ≤ entry) :
    PageZero s'.mem := by
  intro x hx
  have hbase := L.base_pos
  rw [h.frame x (by omega) (by omega)]
  exact hz x hx

/-- A word outside the pool and the entry is unchanged. -/
theorem Installs.read_eq (h : Installs L s entry s') (hused : s.nrUsedBasePages < 16)
    (h₁ : x + 8 ≤ entry ∨ entry + 8 ≤ x)
    (h₂ : x + 8 ≤ L.basePages ∨ L.basePages + 16 * 4096 ≤ x) : s'.mem.read x 8 = s.mem.read x 8 :=
  Memory.read_congr fun y hy₁ hy₂ => h.frame y (by omega) (by omega)

/-- Behind the first two installs, the first of them outside the pool, an entry of the frame of the
pool is empty unless it is the second entry. -/
theorem Installs.read_pool_eq_zero {s₁ s₂ : GuestPaging} {entry' : Nat} (h₁ : Installs L s entry s₁)
    (h₂ : Installs L s₁ entry' s₂) (hused : s.nrUsedBasePages = 0)
    (hout : entry + 8 ≤ L.basePages ∨ L.basePages + 16 * 4096 ≤ entry) (i : Fin 512)
    (hi : L.basePages + 8 * i + 8 ≤ entry' ∨ entry' + 8 ≤ L.basePages + 8 * i) :
    s₂.mem.read (L.basePages + 8 * i) 8 = 0 := by
  have hused₁ := h₁.used
  have hilt := i.isLt
  refine Memory.read_eq_zero fun x _ _ => ?_
  -- the first byte of the frame is in front of the second page
  by_cases hx : x < L.basePages + s₁.nrUsedBasePages
  · rw [h₂.frame x (by omega) (.inl hx)]
    exact h₁.zero x (by omega) (by omega) (by omega)
  · exact h₂.zero x (by omega) (by omega) (by omega)

end

/-! ## The early tables -/

section
variable {L : GuestTables} {m : Memory} {a w x : Nat}

/-- An entry of the early tables is read back. -/
theorem read_storeEntry (m : Memory) (a : Nat) (hw : w < 2 ^ 32) :
    (GuestTables.storeEntry m a w).read a 8 = w := by
  rw [show (8 : Nat) = 4 + 4 from rfl, Memory.read_add, GuestTables.storeEntry,
    Memory.read_write_self, Memory.read_congr (Memory.write_agreeOn (by omega)),
    Memory.read_write_self]
  omega

/-- No other byte changes, -/
theorem storeEntry_apply (h : x < a ∨ a + 8 ≤ x) : GuestTables.storeEntry m a w x = m x := by
  rw [GuestTables.storeEntry, Memory.write_apply_of_not_mem (by omega),
    Memory.write_apply_of_not_mem (by omega)]

/-- and no other entry. -/
theorem read_storeEntry_of_disjoint (h : x + 8 ≤ a ∨ a + 8 ≤ x) :
    (GuestTables.storeEntry m a w).read x 8 = m.read x 8 :=
  Memory.read_congr fun _ _ _ => storeEntry_apply (by omega)

/-- Only the entries of the page directory are written. -/
theorem storeDirectory_apply {base n : Nat} (h : x < base ∨ base + 8 * n ≤ x) :
    GuestTables.storeDirectory m base n x = m x := by
  induction n with
  | zero => rfl
  | succ n ih => rw [GuestTables.storeDirectory, storeEntry_apply (by omega), ih (by omega)]

/-- The entry of the 2 MiB page `i`. -/
theorem read_storeDirectory {base n i : Nat} (hn : n ≤ 512) (hi : i < n) :
    (GuestTables.storeDirectory m base n).read (base + 8 * i) 8 = i * 2 ^ 21 + 0x83 := by
  induction n with
  | zero => omega
  | succ n ih =>
    have hor : 0x83 ||| n * 0x200000 % 2 ^ 32 = n * 2 ^ 21 + 0x83 := by
      rw [Nat.or_comm, Nat.mod_eq_of_lt (by omega)]
      exact or_offset_eq_add (k := 21) (by omega) (by omega)
    rw [GuestTables.storeDirectory, hor]
    rcases Nat.lt_succ_iff_lt_or_eq.1 hi with hlt | rfl
    · rw [read_storeEntry_of_disjoint (by omega), ih (by omega) hlt]
    · exact read_storeEntry _ _ (by omega)

/-- The tables before the first call: one table at level 4 and at level 3, and the first GiB in
2 MiB pages. -/
structure EarlyTables (L : GuestTables) (m : Memory) : Prop where
  pageZero : PageZero m
  l4_zero : m.read L.pml4Base 8 = tableEntry L.pdptBase
  l4_eq : ∀ i, 0 < i → i < 512 → m.read (L.pml4Base + 8 * i) 8 = 0
  l3_zero : m.read L.pdptBase 8 = tableEntry L.pdtBase
  l3_eq : ∀ i, 0 < i → i < 512 → m.read (L.pdptBase + 8 * i) 8 = 0
  l2_eq : ∀ i, i < 512 → m.read (L.pdtBase + 8 * i) 8 = i * 2 ^ 21 + 0x83

/-- The entry that points to a table is the address of the table with two bits set. -/
theorem tableEntry_eq {a : Nat} (ha : a % 4096 = 0) (hlt : a < 2 ^ 32) : tableEntry a = a + 3 := by
  rw [tableEntry_val]
  omega

/-- This is what the code computes with `|=`. -/
theorem or_table {a : Nat} (ha : a % 4096 = 0) (hlt : a < 2 ^ 32) : 0x3 ||| a = tableEntry a := by
  rw [tableEntry_eq ha hlt, Nat.or_comm]
  exact or_offset_eq_add (k := 12) ha (by omega)

/-- **`construct_early_page_table` builds the early tables.** -/
theorem constructEarlyPageTable_earlyTables (L : GuestTables) (hz : PageZero m) :
    EarlyTables L (L.constructEarlyPageTable m) := by
  have hal := L.pml4_aligned
  have hpos := L.pml4_pos
  have hle := L.pml4_le
  have hpdpt : L.pdptBase = L.pml4Base + 4096 := rfl
  have hpdt : L.pdtBase = L.pml4Base + 2 * 4096 := rfl
  have h4 : 0x3 ||| L.pdptBase = tableEntry L.pdptBase := or_table (by omega) (by omega)
  have h3 : 0x3 ||| L.pdtBase = tableEntry L.pdtBase := or_table (by omega) (by omega)
  have hlt4 : tableEntry L.pdptBase < 2 ^ 32 := by
    rw [tableEntry_eq (by omega) (by omega)]
    omega
  have hlt3 : tableEntry L.pdtBase < 2 ^ 32 := by
    rw [tableEntry_eq (by omega) (by omega)]
    omega
  rw [GuestTables.constructEarlyPageTable, h4, h3]
  generalize hm₁ : m.fill L.pml4Base (4 * (1024 * 3)) 0 = m₁
  have hzero : ∀ x, L.pml4Base ≤ x → x < L.pml4Base + 3 * 4096 → m₁ x = 0 := by
    intro x h₁ h₂
    rw [← hm₁, Memory.fill_apply_of_mem h₁ (by omega)]
  refine ⟨fun x hx => ?_, ?_, fun i hi hi' => ?_, ?_, fun i hi hi' => ?_,
    fun i hi => read_storeDirectory (Nat.le_refl _) hi⟩
  · rw [storeDirectory_apply (by omega), storeEntry_apply (by omega), storeEntry_apply (by omega),
      ← hm₁]
    exact hz.fill x hx
  · rw [Memory.read_congr fun x _ _ => storeDirectory_apply (by omega),
      read_storeEntry_of_disjoint (by omega), read_storeEntry _ _ hlt4]
  · refine Memory.read_eq_zero fun x _ _ => ?_
    rw [storeDirectory_apply (by omega), storeEntry_apply (by omega), storeEntry_apply (by omega)]
    exact hzero x (by omega) (by omega)
  · rw [Memory.read_congr fun x _ _ => storeDirectory_apply (by omega), read_storeEntry _ _ hlt3]
  · refine Memory.read_eq_zero fun x _ _ => ?_
    rw [storeDirectory_apply (by omega), storeEntry_apply (by omega), storeEntry_apply (by omega)]
    exact hzero x (by omega) (by omega)

end

/-! ## Walks -/

section
variable {L : GuestTables} {m : Memory} {va a : Nat}

/-- The entry leads to the table. -/
theorem entryFrame_tableEntry (ha : a % 4096 = 0) (hlt : a < 2 ^ 32) :
    entryFrame (tableEntry a) = a := by
  rw [tableEntry_eq ha hlt, entryFrame, bitField]
  omega

/-- The rest of a walk, from an entry of level 3 on. -/
def walkPdpte (m : Memory) (l3Entry va : Nat) : Option Nat :=
  if present l3Entry = 0 then none
  else if pageSizeBit l3Entry ≠ 0 then some (bitField l3Entry 30 22 * 2 ^ 30 + va % 2 ^ 30)
  else
    let l2Entry := m.read (entryFrame l3Entry + 8 * level2Index va) 8
    if present l2Entry = 0 then none
    else if pageSizeBit l2Entry ≠ 0 then some (bitField l2Entry 21 31 * 2 ^ 21 + va % 2 ^ 21)
    else
      let l1Entry := m.read (entryFrame l2Entry + 8 * level1Index va) 8
      if present l1Entry = 0 then none
      else some (entryFrame l1Entry + va % 2 ^ 12)

/-- Where the entry of level 4 is absent, nothing is translated. -/
theorem walk_of_absent {cr3 : Nat} (h : present (m.read (cr3 + 8 * level4Index va) 8) = 0) :
    walk m cr3 va = none := by
  rw [walk, if_pos h]

/-- A walk through a table of level 3. -/
theorem walk_of_table {cr3 pdpt : Nat} (hpdpt : pdpt % 4096 = 0) (hlt : pdpt < 2 ^ 32)
    (h : m.read (cr3 + 8 * level4Index va) 8 = tableEntry pdpt) :
    walk m cr3 va = walkPdpte m (m.read (pdpt + 8 * level3Index va) 8) va := by
  rw [walk, h, if_neg (by simp), entryFrame_tableEntry hpdpt hlt]
  rfl

/-- A page directory of pages of 2 MiB maps the first GiB to itself. -/
theorem walkPdpte_directory {pd : Nat} (hpd : pd % 4096 = 0) (hlt : pd < 2 ^ 32)
    (h : ∀ i, i < 512 → m.read (pd + 8 * i) 8 = i * 2 ^ 21 + 0x83) (hva : va < 2 ^ 30) :
    walkPdpte m (tableEntry pd) va = some va := by
  have hi2 := levelIndex_val 21 va
  rw [← level2Index] at hi2
  have hpres : ¬ present ((level2Index va : Nat) * 2 ^ 21 + 0x83) = 0 := by
    rw [present, bitField]
    omega
  have hlarge : pageSizeBit ((level2Index va : Nat) * 2 ^ 21 + 0x83) ≠ 0 := by
    rw [pageSizeBit, bitField]
    omega
  rw [walkPdpte, if_neg (by simp), if_neg (by simp), entryFrame_tableEntry hpd hlt,
    h _ (level2Index va).isLt, if_neg hpres, if_pos hlarge, bitField]
  exact congrArg some (by omega)

/-- **The early tables map the first GiB to itself and nothing else.** -/
theorem EarlyTables.walk_eq (h : EarlyTables L m) (hva : va < 2 ^ 48) :
    walk m L.pml4Base va = if va < 2 ^ 30 then some va else none := by
  have hal := L.pml4_aligned
  have hle := L.pml4_le
  have hpdpt : L.pdptBase = L.pml4Base + 4096 := rfl
  have hpdt : L.pdtBase = L.pml4Base + 2 * 4096 := rfl
  have hi4 := levelIndex_val 39 va
  have hi3 := levelIndex_val 30 va
  rw [← level4Index] at hi4
  rw [← level3Index] at hi3
  by_cases h4 : (level4Index va : Nat) = 0
  · have hread4 : m.read (L.pml4Base + 8 * level4Index va) 8 = tableEntry L.pdptBase := by
      rw [h4, Nat.mul_zero, Nat.add_zero, h.l4_zero]
    rw [walk_of_table (by omega) (by omega) hread4]
    by_cases h3 : (level3Index va : Nat) = 0
    · rw [h3, Nat.mul_zero, Nat.add_zero, h.l3_zero,
        walkPdpte_directory (by omega) (by omega) h.l2_eq (by omega), if_pos (by omega)]
    · rw [h.l3_eq _ (by omega) (level3Index va).isLt, walkPdpte, if_pos (by decide),
        if_neg (by omega)]
  · have hread4 := h.l4_eq _ (by omega) (level4Index va).isLt
    rw [walk_of_absent (by rw [hread4]; decide), if_neg (by omega)]

end

/-! ## The first call -/

/-- The first address of the page with the indices `i4`, `i3`, `i2` and `i1`. -/
def addressOf (i4 i3 i2 i1 : Fin 512) : Nat := i4 * 2 ^ 39 + i3 * 2 ^ 30 + i2 * 2 ^ 21 + i1 * 2 ^ 12

section
variable (i4 i3 i2 i1 : Fin 512)

/-- An address with given indices has the index of level 4, -/
theorem level4Index_addressOf : level4Index (addressOf i4 i3 i2 i1) = i4 := by
  rw [level4Index, Fin.ext_iff, levelIndex_val, addressOf]
  omega

/-- that of level 3, -/
theorem level3Index_addressOf : level3Index (addressOf i4 i3 i2 i1) = i3 := by
  rw [level3Index, Fin.ext_iff, levelIndex_val, addressOf]
  omega

/-- that of level 2, -/
theorem level2Index_addressOf : level2Index (addressOf i4 i3 i2 i1) = i2 := by
  rw [level2Index, Fin.ext_iff, levelIndex_val, addressOf]
  omega

/-- and that of level 1. -/
theorem level1Index_addressOf : level1Index (addressOf i4 i3 i2 i1) = i1 := by
  rw [level1Index, Fin.ext_iff, levelIndex_val, addressOf]
  omega

end

/-- The address that the first call leaves present. The entry at its index of level 2 points to the
frame of the pool and lies in that frame, so it serves at the levels below too. -/
def strayAddress (va : Nat) : Nat :=
  addressOf (level4Index va) (if (level4Index va : Nat) = 0 then level3Index va else level2Index va)
    (level2Index va) (level2Index va)

section
variable {L : GuestTables} {m : Memory} {s s₁ s₂ s₃ : GuestPaging} {va pa entry a : Nat}

/-- The tables of `va` after the first call. The frame of the pool is the table of level 2 and of
level 1, and of level 3 as well unless the early one is. -/
structure Shared (L : GuestTables) (va : Nat) (m : Memory) : Prop where
  l4 : m.read (L.pml4Base + 8 * level4Index va) 8 =
    tableEntry (if (level4Index va : Nat) = 0 then L.pdptBase else L.basePages)
  l3 : (level4Index va : Nat) = 0 →
    m.read (L.pdptBase + 8 * level3Index va) 8 = tableEntry L.basePages
  l2 : m.read (L.basePages + 8 * level2Index va) 8 = tableEntry L.basePages

/-- With one frame for two levels there is a page that nobody mapped: it is the frame. -/
theorem Shared.walk_stray (h : Shared L va m) :
    walk m L.pml4Base (strayAddress va) = some L.basePages := by
  have hbase := L.base_aligned
  have hle := L.base_le
  have hal := L.pml4_aligned
  have hle' := L.pml4_le
  have hpdpt : L.pdptBase = L.pml4Base + 4096 := rfl
  have h4 : level4Index (strayAddress va) = level4Index va := level4Index_addressOf ..
  have h3 : level3Index (strayAddress va) =
      if (level4Index va : Nat) = 0 then level3Index va else level2Index va :=
    level3Index_addressOf ..
  have h2 : level2Index (strayAddress va) = level2Index va := level2Index_addressOf ..
  have h1 : level1Index (strayAddress va) = level2Index va := level1Index_addressOf ..
  have hoff : strayAddress va % 2 ^ 12 = 0 := by
    rw [strayAddress, addressOf]
    omega
  have hf := entryFrame_tableEntry hbase (show L.basePages < 2 ^ 32 by omega)
  have hread3 : m.read (entryFrame (m.read (L.pml4Base + 8 * level4Index va) 8) +
      8 * level3Index (strayAddress va)) 8 = tableEntry L.basePages := by
    rw [h.l4, h3]
    split
    · next h0 => rw [entryFrame_tableEntry (by omega) (by omega), h.l3 h0]
    · rw [hf, h.l2]
  rw [walk, h4, hread3, h.l4, if_neg (by simp), if_neg (by simp), if_neg (by simp), hf, h2, h1,
    h.l2, if_neg (by simp), if_neg (by simp), hf, h.l2, if_neg (by simp), hf, hoff]
  rfl

/-- A present entry is left alone. -/
theorem installBasePage_of_entry (clear : Memory → Nat → Nat → Memory) (rc : Int)
    (h : s.mem.read entry 8 = tableEntry a) : installBasePage L clear rc s entry = (0, s) := by
  rw [installBasePage, h, present_tableEntry, if_pos (by decide)]

/-- The mapper reaches level 1 when each level above it has a table. -/
theorem mapPageHigh_eq {t3 t2 t1 : Nat} (hlo : 2 ^ 32 ≤ va)
    (h4 : installBasePage L clearPageFirst (-2) s (L.pml4Base + 8 * level4Index va) = (0, s₁))
    (ht3 : tableAddress (s₁.mem.read (L.pml4Base + 8 * level4Index va) 8) = t3)
    (h3 : installBasePage L clearPageFirst (-3) s₁ (t3 + 8 * level3Index va) = (0, s₂))
    (ht2 : tableAddress (s₂.mem.read (t3 + 8 * level3Index va) 8) = t2)
    (h2 : installBasePage L clearEntryFirst (-4) s₂ (t2 + 8 * level2Index va) = (0, s₃))
    (ht1 : tableAddress (s₃.mem.read (t2 + 8 * level2Index va) 8) = t1) :
    mapPageHigh L s va pa = installHighPage s₃ (t1 + 8 * level1Index va) pa := by
  subst ht3 ht2 ht1
  simp only [mapPageHigh, if_neg (show ¬ va < 0x100000000 by omega), h4, h3, h2, ne_eq,
    not_true_eq_false, if_false]

/-- A first call below 512 GiB. The early table of level 3 is there, so the pages 0 and 1 of the
pool go to levels 2 and 1. -/
theorem mapPageHigh_first_installs (pa : Nat) (h : EarlyTables L s.mem)
    (hused : s.nrUsedBasePages = 0) (hlo : 2 ^ 32 ≤ va) (hhi : va < 2 ^ 39) :
    ∃ s₁ s₂, mapPageHigh L s va pa = installHighPage s₂ (L.basePages + 8 * level1Index va) pa ∧
      Installs L s (L.pdptBase + 8 * level3Index va) s₁ ∧
      Installs L s₁ (L.basePages + 8 * level2Index va) s₂ := by
  have hal := L.base_aligned
  have hle := L.base_le
  have hal' := L.pml4_aligned
  have hle' := L.pml4_le
  have hap := L.apart
  have hpdpt : L.pdptBase = L.pml4Base + 4096 := rfl
  have hi3 := (level3Index va).isLt
  have hi2 := (level2Index va).isLt
  have htable : tableAddress (tableEntry L.basePages) = L.basePages :=
    tableAddress_tableEntry hal (by omega)
  have hzero : (level4Index va : Nat) = 0 := by
    rw [level4Index, levelIndex_val]
    omega
  have hi3pos : 0 < (level3Index va : Nat) := by
    rw [level3Index, levelIndex_val]
    omega
  have hread4 : s.mem.read (L.pml4Base + 8 * level4Index va) 8 = tableEntry L.pdptBase := by
    rw [hzero, Nat.mul_zero, Nat.add_zero, h.l4_zero]
  obtain ⟨s₁, h3, hin3⟩ := installBasePage_installs (L := L) (-3) clears_pageFirst h.pageZero
    (by omega) (h.l3_eq _ hi3pos hi3)
  have hused₁ := hin3.used
  have hread2 : s₁.mem.read (L.basePages + 8 * level2Index va) 8 = 0 :=
    Memory.read_eq_zero fun x _ _ => hin3.zero x (by omega) (by omega) (by omega)
  obtain ⟨s₂, h2, hin2⟩ := installBasePage_installs (L := L) (-4) clears_entryFirst
    (hin3.pageZero h.pageZero (by omega)) (by omega) hread2
  refine ⟨s₁, s₂, mapPageHigh_eq hlo (installBasePage_of_entry _ _ hread4) ?_ h3 ?_ h2 ?_, hin3,
    hin2⟩
  · rw [hread4, tableAddress_tableEntry (by omega) (by omega)]
  · rw [hin3.entry_eq, htable]
  · rw [hin2.entry_eq, htable]

/-- The first call below 512 GiB takes two pages of the pool, which lie in one frame. -/
theorem mapPageHigh_first_low (pa : Nat) (h : EarlyTables L s.mem)
    (hused : s.nrUsedBasePages = 0) (hlo : 2 ^ 32 ≤ va) (hhi : va < 2 ^ 39) :
    ∃ s', mapPageHigh L s va pa = installHighPage s' (L.basePages + 8 * level1Index va) pa ∧
      Shared L va s'.mem ∧
      L.basePages + 1 ∈ s'.returned ∧
      ∀ i : Fin 512, i ≠ level2Index va → s'.mem.read (L.basePages + 8 * i) 8 = 0 := by
  have hal := L.base_aligned
  have hap := L.apart
  have hpdpt : L.pdptBase = L.pml4Base + 4096 := rfl
  have hi3 := (level3Index va).isLt
  have hi2 := (level2Index va).isLt
  have hzero : (level4Index va : Nat) = 0 := by
    rw [level4Index, levelIndex_val]
    omega
  obtain ⟨s₁, s₂, heq, hin3, hin2⟩ := mapPageHigh_first_installs pa h hused hlo hhi
  have hused₁ := hin3.used
  refine ⟨s₂, heq, ⟨?_, fun _ => ?_, hin2.entry_eq⟩, ?_, fun i hi => ?_⟩
  · rw [if_pos hzero, hin2.read_eq (by omega) (by omega) (by omega),
      hin3.read_eq (by omega) (by omega) (by omega), hzero, Nat.mul_zero, Nat.add_zero, h.l4_zero]
  · rw [hin2.read_eq (by omega) (by omega) (by omega), hin3.entry_eq]
  · rw [hin2.returned, hused₁, hused]
    exact List.mem_append_right _ (List.mem_singleton.2 rfl)
  · have hne : (i : Nat) ≠ level2Index va := fun h => hi (Fin.ext h)
    exact hin3.read_pool_eq_zero hin2 hused (by omega) i (by omega)

/-- A first call from 512 GiB on. The pages 0 and 1 of the pool go to levels 3 and 2; the entry of
level 3 is the entry of level 2 as well when the two indices agree, and page 2 goes to level 1
otherwise. -/
theorem mapPageHigh_first_high (pa : Nat) (h : EarlyTables L s.mem)
    (hused : s.nrUsedBasePages = 0) (hlo : 2 ^ 39 ≤ va) (hhi : va < 2 ^ 48) :
    ∃ s', mapPageHigh L s va pa = installHighPage s' (L.basePages + 8 * level1Index va) pa ∧
      Shared L va s'.mem ∧
      L.basePages + 1 ∈ s'.returned := by
  have hal := L.base_aligned
  have hle := L.base_le
  have hpos := L.base_pos
  have hle' := L.pml4_le
  have hpos' := L.pml4_pos
  have hap := L.apart
  have hlo' : 2 ^ 32 ≤ va := by omega
  have hi4 := (level4Index va).isLt
  have hi3 := (level3Index va).isLt
  have hi2 := (level2Index va).isLt
  have htable : tableAddress (tableEntry L.basePages) = L.basePages :=
    tableAddress_tableEntry hal (by omega)
  have hzero : (level4Index va : Nat) ≠ 0 := by
    rw [level4Index, levelIndex_val]
    omega
  obtain ⟨s₁, h4, hin4⟩ := installBasePage_installs (L := L) (-2) clears_pageFirst h.pageZero
    (by omega) (h.l4_eq _ (by omega) hi4)
  have hused₁ := hin4.used
  have hz₁ := hin4.pageZero h.pageZero (by omega)
  have hread3 : s₁.mem.read (L.basePages + 8 * level3Index va) 8 = 0 :=
    Memory.read_eq_zero fun x _ _ => hin4.zero x (by omega) (by omega) (by omega)
  obtain ⟨s₂, h3, hin3⟩ := installBasePage_installs (L := L) (-3) clears_pageFirst hz₁ (by omega)
    hread3
  have hused₂ := hin3.used
  have hret : L.basePages + 1 ∈ s₂.returned := by
    rw [hin3.returned, hused₁, hused]
    exact List.mem_append_right _ (List.mem_singleton.2 rfl)
  have hread4 : s₂.mem.read (L.pml4Base + 8 * level4Index va) 8 = tableEntry L.basePages := by
    rw [hin3.read_eq (by omega) (by omega) (by omega), hin4.entry_eq]
  have ht3 : tableAddress (s₁.mem.read (L.pml4Base + 8 * level4Index va) 8) = L.basePages := by
    rw [hin4.entry_eq, htable]
  have ht2 : tableAddress (s₂.mem.read (L.basePages + 8 * level3Index va) 8) = L.basePages := by
    rw [hin3.entry_eq, htable]
  by_cases h23 : level2Index va = level3Index va
  · have hread2 : s₂.mem.read (L.basePages + 8 * level2Index va) 8 = tableEntry L.basePages := by
      rw [h23, hin3.entry_eq]
    refine ⟨s₂, mapPageHigh_eq hlo' h4 ht3 h3 ht2 (installBasePage_of_entry _ _ hread2) ?_,
      ⟨?_, fun h0 => absurd h0 hzero, hread2⟩, hret⟩
    · rw [hread2, htable]
    · rw [if_neg hzero, hread4]
  · have hne : (level2Index va : Nat) ≠ level3Index va := fun h => h23 (Fin.ext h)
    have hread2 := hin4.read_pool_eq_zero hin3 hused (by omega) (level2Index va) (by omega)
    obtain ⟨s₃, h2, hin2⟩ := installBasePage_installs (L := L) (-4) clears_entryFirst
      (hin3.pageZero hz₁ (by omega)) (by omega) hread2
    refine ⟨s₃, mapPageHigh_eq hlo' h4 ht3 h3 ht2 h2 ?_,
      ⟨?_, fun h0 => absurd h0 hzero, hin2.entry_eq⟩, ?_⟩
    · rw [hin2.entry_eq, htable]
    · rw [if_neg hzero, hin2.read_eq (by omega) (by omega) (by omega), hread4]
    · rw [hin2.returned]
      exact List.mem_append_left _ hret

/-- **The tables of the first call.** Each table it installs is the frame of the pool, and it takes
at least two pages. -/
theorem mapPageHigh_first (pa : Nat) (h : EarlyTables L s.mem)
    (hused : s.nrUsedBasePages = 0) (hlo : 2 ^ 32 ≤ va) (hhi : va < 2 ^ 48) :
    ∃ s', mapPageHigh L s va pa = installHighPage s' (L.basePages + 8 * level1Index va) pa ∧
      Shared L va s'.mem ∧
      L.basePages + 1 ∈ s'.returned := by
  by_cases hva : va < 2 ^ 39
  · obtain ⟨s', heq, hsh, hret, -⟩ := mapPageHigh_first_low pa h hused hlo hva
    exact ⟨s', heq, hsh, hret⟩
  · exact mapPageHigh_first_high pa h hused (by omega) hhi

/-! ## The entry of level 1 -/

/-- Installing an entry of level 1 changes that entry only. -/
theorem installHighPage_apply {x : Nat} (h : x < entry ∨ entry + 8 ≤ x) :
    (installHighPage s entry pa).2.mem x = s.mem x := by
  rw [installHighPage]
  split
  · rfl
  · refine (Memory.write_apply_of_not_mem h).trans ?_
    exact guestMemset_apply_of_not_mem h

/-- The last level writes its entry only. -/
theorem installHighPage_read {x : Nat} (h : x + 8 ≤ entry ∨ entry + 8 ≤ x) :
    (installHighPage s entry pa).2.mem.read x 8 = s.mem.read x 8 :=
  Memory.read_congr fun _ _ _ => installHighPage_apply (by omega)

/-- An empty entry of level 1 is made to point to `pa`. -/
theorem installHighPage_read_self (hz : PageZero s.mem) (h₀ : s.mem.read entry 8 = 0) :
    (installHighPage s entry pa).2.mem.read entry 8 = tableEntry pa := by
  have hpres : ¬ present (s.mem.read entry 8) ≠ 0 := by
    rw [h₀]
    decide
  have hread : (s.mem.fill entry 8 0).read entry 8 = 0 :=
    Memory.read_eq_zero fun x h₁ h₂ => Memory.fill_apply_of_mem h₁ h₂
  rw [installHighPage, if_neg hpres, guestMemset_eq_fill hz (by decide), assignEntry_of_zero hread]
  exact (Memory.read_write_self ..).trans (Nat.mod_eq_of_lt (tableEntry_lt pa))

/-- The last level takes no page of the pool, -/
theorem installHighPage_returned : (installHighPage s entry pa).2.returned = s.returned := by
  rw [installHighPage]
  split <;> rfl

/-- and succeeds exactly if the entry is absent. -/
theorem installHighPage_eq_zero_iff :
    (installHighPage s entry pa).1 = 0 ↔ present (s.mem.read entry 8) = 0 := by
  rw [installHighPage]
  split
  · next h => exact iff_of_false (show (-5 : Int) ≠ 0 by decide) h
  · next h => exact iff_of_true rfl (not_not.1 h)

/-- The shared entry of level 2 is present, so it is not the one that level 1 installs. -/
theorem Shared.index_ne (h : Shared L va s.mem)
    (h0 : (installHighPage s (L.basePages + 8 * level1Index va) pa).1 = 0) :
    level1Index va ≠ level2Index va := by
  intro heq
  rw [installHighPage_eq_zero_iff, heq, h.l2, present_tableEntry] at h0
  cases h0

/-- The shared tables stay shared. -/
theorem Shared.installHighPage (h : Shared L va s.mem) :
    Shared L va (installHighPage s (L.basePages + 8 * level1Index va) pa).2.mem := by
  have hal := L.base_aligned
  have hap := L.apart
  have hpdpt : L.pdptBase = L.pml4Base + 4096 := rfl
  have hi4 := (level4Index va).isLt
  have hi3 := (level3Index va).isLt
  have hi2 := (level2Index va).isLt
  have hi1 := (level1Index va).isLt
  refine ⟨?_, fun h0 => ?_, ?_⟩
  · rw [installHighPage_read (by omega), h.l4]
  · rw [installHighPage_read (by omega), h.l3 h0]
  · by_cases heq : (level1Index va : Nat) = level2Index va
    · -- then the entry is present and nothing is stored
      have hpres : present (s.mem.read (L.basePages + 8 * level1Index va) 8) ≠ 0 := by
        rw [heq, h.l2, present_tableEntry]
        decide
      rw [ZeldaOS.installHighPage, if_pos hpres]
      exact h.l2
    · rw [installHighPage_read (by omega), h.l2]

/-- The stray address is in another page than the one that was mapped. -/
theorem strayAddress_ne (hne : level1Index va ≠ level2Index va) :
    strayAddress va / 4096 ≠ va / 4096 := by
  intro heq
  have h1 : level1Index (strayAddress va) = level1Index va := by
    rw [level1Index, level1Index, levelIndex_inj]
    exact congrArg (· % 512) heq
  rw [strayAddress, level1Index_addressOf] at h1
  exact hne h1.symm

/-- The page that nobody mapped is above 4 GiB too. -/
theorem strayAddress_bounds (hlo : 2 ^ 32 ≤ va) (hhi : va < 2 ^ 48) :
    2 ^ 32 ≤ strayAddress va ∧ strayAddress va < 2 ^ 48 := by
  have hi4 : (level4Index va : Nat) = va / 2 ^ 39 % 512 := levelIndex_val 39 va
  have hi3 : (level3Index va : Nat) = va / 2 ^ 30 % 512 := levelIndex_val 30 va
  have hi2 := (level2Index va).isLt
  rw [strayAddress, addressOf]
  split <;> omega

end

/-! ## Exact mapping -/

/-- The calls that the mapper is for: an address of 48 bits from 4 GiB on, and an aligned frame
below 1 TiB. -/
def GuestCall.Ok (c : GuestCall) : Prop :=
  2 ^ 32 ≤ c.request.1 ∧ c.request.1 < 2 ^ 48 ∧ c.request.2 % 4096 = 0 ∧ c.request.2 < 2 ^ 40

/-- The mappings that the successful calls of a trace asked for. -/
def mappings (t : List (GuestCall × Int)) : List (Nat × Nat) :=
  (t.filter fun x => x.2 = 0).map fun x => x.1.request

/-- The processor translates what was mapped, and from 4 GiB on nothing else. -/
structure WalkExact (L : GuestTables) (maps : List (Nat × Nat)) (m : Memory) : Prop where
  mapped : ∀ c ∈ maps, ∀ a, a / 4096 = c.1 / 4096 → walk m L.pml4Base a = some (c.2 + a % 4096)
  absent : ∀ a, 2 ^ 32 ≤ a → a < 2 ^ 48 → (∀ c ∈ maps, a / 4096 ≠ c.1 / 4096) →
    walk m L.pml4Base a = none

/-- The pages of the pool are aligned, and no two of them share a frame. -/
structure PoolSound (pages : List Nat) : Prop where
  aligned : ∀ p ∈ pages, p % 4096 = 0
  apart : pages.Pairwise fun p q => p / 4096 ≠ q / 4096

/-- The calls `cs`, from the early tables on: the pool gives sound pages, and after each call that
returned 0 the translations are exact. -/
def MapsExactly (L : GuestTables) (m : Memory) (cs : List GuestCall) : Prop :=
  ∀ p, p <+: cs → ∀ t s, exec (guestPagingStep L) (initialPaging L m) p = some (t, s) →
    PoolSound s.returned ∧ ∀ c, t.getLast? = some (c, 0) → WalkExact L (mappings t) s.mem

section
variable {L : GuestTables} {m : Memory}

/-- The tables when `paging_init` is called. -/
theorem initialPaging_earlyTables (L : GuestTables) (hz : PageZero m) :
    EarlyTables L (initialPaging L m).mem := constructEarlyPageTable_earlyTables L hz

/-- What the first call leaves behind. -/
theorem guestPagingStep_first (hz : PageZero m) {c : GuestCall} (hc : c.Ok) {rc : Int}
    {s : GuestPaging} (hst : guestPagingStep L (initialPaging L m) c = some (rc, s)) :
    L.basePages + 1 ∈ s.returned ∧
      walk s.mem L.pml4Base (strayAddress c.request.1) = some L.basePages ∧
      (rc = 0 → strayAddress c.request.1 / 4096 ≠ c.request.1 / 4096) := by
  obtain ⟨s', heq, hsh, hret⟩ :=
    mapPageHigh_first c.request.2 (initialPaging_earlyTables L hz) rfl hc.1 hc.2.1
  have hres : rc = (mapPageHigh L (initialPaging L m) c.request.1 c.request.2).1 ∧
      s.mem = (mapPageHigh L (initialPaging L m) c.request.1 c.request.2).2.mem ∧
      s.returned = (mapPageHigh L (initialPaging L m) c.request.1 c.request.2).2.returned := by
    cases c with
    | mapPageHigh va pa =>
      have h := Option.some.inj hst
      rw [Prod.ext_iff] at h
      exact ⟨h.1.symm, congrArg GuestPaging.mem h.2.symm, congrArg GuestPaging.returned h.2.symm⟩
    | pagingInit =>
      have h := Option.some.inj hst
      rw [Prod.ext_iff] at h
      exact ⟨h.1.symm, (congrArg GuestPaging.mem h.2).symm,
        (congrArg GuestPaging.returned h.2).symm⟩
  obtain ⟨hrc, hmem, hreturned⟩ := hres
  rw [heq] at hrc hmem hreturned
  refine ⟨?_, ?_, fun h0 => ?_⟩
  · rw [hreturned, installHighPage_returned]
    exact hret
  · rw [hmem]
    exact hsh.installHighPage.walk_stray
  · exact strayAddress_ne (hsh.index_ne (hrc.symm.trans h0))

/-- **The mapper never maps exactly what it is asked to.** The one sequence of calls that meets the
contract is the empty one; and where the first call returns 0, the walk itself is wrong, because an
address that was never mapped is present. -/
theorem mapPageHigh_exact_iff (L : GuestTables) (m : Memory) (hz : PageZero m) (cs : List GuestCall)
    (hcs : ∀ c ∈ cs, c.Ok) :
    (MapsExactly L m cs ↔ cs = []) ∧
    ∀ c rest, cs = c :: rest → ∀ s, guestPagingStep L (initialPaging L m) c = some (0, s) →
      ¬ WalkExact L [c.request] s.mem := by
  refine ⟨⟨fun h => ?_, ?_⟩, ?_⟩
  · cases cs with
    | nil => rfl
    | cons c rest =>
      obtain ⟨⟨rc, s⟩, hst⟩ : ∃ r, guestPagingStep L (initialPaging L m) c = some r := by
        cases c <;> exact ⟨_, rfl⟩
      have hex : exec (guestPagingStep L) (initialPaging L m) [c] = some ([(c, rc)], s) := by
        simp [exec, hst]
      have hsound := (h [c] ⟨rest, rfl⟩ _ _ hex).1
      have hmem := (guestPagingStep_first hz (hcs c List.mem_cons_self) hst).1
      have hodd := hsound.aligned _ hmem
      have hal := L.base_aligned
      omega
  · rintro rfl p hp t s hex
    rw [List.prefix_nil.1 hp] at hex
    cases hex
    refine ⟨⟨fun p hp => absurd hp List.not_mem_nil, List.Pairwise.nil⟩, fun c hc => ?_⟩
    cases hc
  · rintro c rest rfl s hst hexact
    have hc := hcs c List.mem_cons_self
    obtain ⟨-, hwalk, hne⟩ := guestPagingStep_first hz hc hst
    have hb := strayAddress_bounds hc.1 hc.2.1
    have habsent := hexact.absent _ hb.1 hb.2 fun d hd => by
      rw [List.mem_singleton.1 hd]
      exact hne rfl
    rw [habsent] at hwalk
    cases hwalk

end

/-- A layout of the guest's image. -/
def sampleTables : GuestTables where
  pml4Base := 0x8000
  basePages := 0x10000
  pml4_aligned := rfl
  base_aligned := rfl
  pml4_pos := by omega
  base_pos := by omega
  apart := by omega
  pml4_le := by omega
  base_le := by omega

/-- After `paging_init` alone the map is not exact. -/
theorem mapPageHigh_exact_iff_sample :
    PageZero Memory.zero ∧ GuestCall.pagingInit.Ok ∧
    ¬ MapsExactly sampleTables Memory.zero [.pagingInit] := by
  have hz : PageZero Memory.zero := fun _ _ => rfl
  have hok : GuestCall.pagingInit.Ok := by
    refine ⟨?_, ?_, ?_, ?_⟩ <;> decide
  refine ⟨hz, hok, fun h => ?_⟩
  have hnil := (mapPageHigh_exact_iff sampleTables Memory.zero hz [.pagingInit] fun c hc => by
    rw [List.mem_singleton.1 hc]
    exact hok).1.1 h
  cases hnil

/-- **A page that nobody mapped.** `paging_init` maps the video buffer at 0x1000b8000 and succeeds;
address 0x100000000 then translates to the pool. -/
theorem pagingInit_maps_stray : ∃ s,
    guestPagingStep sampleTables (initialPaging sampleTables Memory.zero) .pagingInit =
      some (0, s) ∧
    sampleTables.basePages + 1 ∈ s.returned ∧
    walk s.mem sampleTables.pml4Base 0x100000000 = some sampleTables.basePages ∧
    ¬ WalkExact sampleTables [(0x1000b8000, 0x1000b8000)] s.mem := by
  have hz : PageZero Memory.zero := fun _ _ => rfl
  have hok : GuestCall.pagingInit.Ok := by
    refine ⟨?_, ?_, ?_, ?_⟩ <;> decide
  have hlo : 2 ^ 32 ≤ 0x1000b8000 := by omega
  obtain ⟨s', heq, -, -, hzero⟩ := mapPageHigh_first_low 0x1000b8000
    (initialPaging_earlyTables sampleTables hz) rfl hlo (by omega)
  have hne : level1Index 0x1000b8000 ≠ level2Index 0x1000b8000 := by
    rw [level1Index, level2Index, Ne, Fin.ext_iff, levelIndex_val, levelIndex_val]
    omega
  have hrc : (mapPageHigh sampleTables (initialPaging sampleTables Memory.zero) 0x1000b8000
      0x1000b8000).1 = 0 := by
    rw [heq, installHighPage_eq_zero_iff, hzero _ hne]
    decide
  obtain ⟨s, hst⟩ : ∃ s, guestPagingStep sampleTables (initialPaging sampleTables Memory.zero)
      .pagingInit = some (0, s) := by
    rw [guestPagingStep, hrc]
    exact ⟨_, rfl⟩
  have hstray : strayAddress GuestCall.pagingInit.request.1 = 0x100000000 := by decide
  obtain ⟨hret, hwalk, -⟩ := guestPagingStep_first hz hok hst
  rw [hstray] at hwalk
  refine ⟨s, hst, hret, hwalk, fun h => ?_⟩
  rw [h.absent 0x100000000 (by omega) (by omega) (by simp)] at hwalk
  cases hwalk

end ZeldaOS
