import ZeldaOS.Init.EarlyPageTable

/-!
# The address space of the guest after its boot

Model of `construct_early_page_table` of `guest/init32.S`, instruction by instruction, and of what
the processor translates once `paging_init` has mapped the video buffer.

The routine leaves the memory that the model of the mapper starts from
(`run_guestConstructEarlyPageTable`). `paging_init` then takes two pages of the pool, and both lie
in the first frame of it: this frame is the table of level 2 and the table of level 1
(`BootTables`). So the entry that leads from level 2 to level 1 is an entry of level 1 as well, and
the entry of the video buffer is an entry of level 2 as well. Besides the first GiB and the video
buffer, two ranges are present that nobody mapped (`guestBoot_walk`): the page at 4 GiB is the frame
of the pool, and in the 2 MiB from 0x117000000 on the characters on the screen are the entries of
the table.
-/

namespace ZeldaOS

open Asm

/-! ## The routine -/

section
variable (L : GuestTables)

/-- Clear the three tables. -/
def clearTables : List Stmt :=
  [ .instr (.movl (.imm L.pml4Base) (.reg .edi)),
    .instr (.movl (.imm (1024 * 3)) (.reg .ecx)),
    .loop clearBody ]

/-- Install the 512 pages of 2 MiB. -/
def fillPdt : List Stmt :=
  [ .instr (.movl (.imm L.pdtBase) (.reg .edi)),
    .instr (.movl (.imm 512) (.reg .ecx)),
    .instr (.xorl (.reg .ebx) (.reg .ebx)),
    .loop fillBody ]

/-- `construct_early_page_table` of the guest. -/
def guestConstructEarlyPageTable : List Stmt :=
  clearTables L ++ installEntryZero L.pml4Base L.pdptBase ++
    installEntryZero L.pdptBase L.pdtBase ++ fillPdt L ++ [.instr .ret]

end

section
variable {L : GuestTables}

theorem run_clearTables (s : State) (p : List Stmt) : ∃ s', run (clearTables L ++ p) s = run p s' ∧
    s'.mem = s.mem.fill L.pml4Base (4 * (1024 * 3)) 0 := by
  have hle := L.pml4_le
  simp only [clearTables, List.cons_append, List.nil_append, run_instr]
  exact run_clearBody (n := 1024 * 3) rfl rfl (by decide) (by omega)

theorem run_fillPdt (s : State) (p : List Stmt) : ∃ s', run (fillPdt L ++ p) s = run p s' ∧
    s'.mem = GuestTables.storeDirectory s.mem L.pdtBase 512 := by
  have hle := L.pml4_le
  have hpdt : L.pdtBase = L.pml4Base + 2 * 4096 := rfl
  simp only [fillPdt, List.cons_append, List.nil_append, run_instr]
  exact run_fillBody rfl (Nat.xor_self _) rfl (by omega)

/-- **The routine returns**, with the memory that the model of the mapper starts from. -/
theorem run_guestConstructEarlyPageTable (L : GuestTables) (s : State) :
    ∃ s', run (guestConstructEarlyPageTable L) s = some s' ∧
      s'.mem = L.constructEarlyPageTable s.mem := by
  have hle := L.pml4_le
  have hpdpt : L.pdptBase = L.pml4Base + 4096 := rfl
  simp only [guestConstructEarlyPageTable, List.append_assoc]
  obtain ⟨s₁, heq₁, hmem₁⟩ := run_clearTables s (installEntryZero L.pml4Base L.pdptBase ++
    (installEntryZero L.pdptBase L.pdtBase ++ (fillPdt L ++ [.instr .ret])))
  obtain ⟨s₂, heq₂, hmem₂⟩ := run_installEntryZero L.pdptBase (show L.pml4Base < 2 ^ 31 by omega) s₁
    (installEntryZero L.pdptBase L.pdtBase ++ (fillPdt L ++ [.instr .ret]))
  obtain ⟨s₃, heq₃, hmem₃⟩ := run_installEntryZero L.pdtBase (show L.pdptBase < 2 ^ 31 by omega) s₂
    (fillPdt L ++ [.instr .ret])
  obtain ⟨s₄, heq₄, hmem₄⟩ := run_fillPdt (L := L) s₃ [.instr .ret]
  refine ⟨Instr.ret.exec s₄, ?_, ?_⟩
  · rw [heq₁, heq₂, heq₃, heq₄, run_instr, run]
  · have hret : (Instr.ret.exec s₄).mem = s₄.mem := rfl
    rw [hret, hmem₄, hmem₃, hmem₂, hmem₁, GuestTables.constructEarlyPageTable]

end

/-- Only the three tables are written. -/
theorem constructEarlyPageTable_apply {L : GuestTables} {m : Memory} {x : Nat}
    (hx : x < L.pml4Base ∨ L.pml4Base + 3 * 4096 ≤ x) : L.constructEarlyPageTable m x = m x := by
  have hpdpt : L.pdptBase = L.pml4Base + 4096 := rfl
  have hpdt : L.pdtBase = L.pml4Base + 2 * 4096 := rfl
  rw [GuestTables.constructEarlyPageTable, storeDirectory_apply (by omega),
    storeEntry_apply (by omega), storeEntry_apply (by omega),
      Memory.fill_apply_of_not_mem (by omega)]

/-! ## The tables after `paging_init` -/

/-- The entries of the tables, and the rest of the memory `m` as it was. The frame of the pool is
under entry 4 of the PDPT; its own entry 0 points to itself. -/
structure BootTables (L : GuestTables) (m m' : Memory) : Prop where
  l4_zero : m'.read L.pml4Base 8 = tableEntry L.pdptBase
  l4_eq : ∀ i, 0 < i → i < 512 → m'.read (L.pml4Base + 8 * i) 8 = 0
  l3_zero : m'.read L.pdptBase 8 = tableEntry L.pdtBase
  l3_four : m'.read (L.pdptBase + 8 * 4) 8 = tableEntry L.basePages
  l3_eq : ∀ i, 0 < i → i ≠ 4 → i < 512 → m'.read (L.pdptBase + 8 * i) 8 = 0
  l2_eq : ∀ i, i < 512 → m'.read (L.pdtBase + 8 * i) 8 = i * 2 ^ 21 + 0x83
  pool_zero : m'.read L.basePages 8 = tableEntry L.basePages
  pool_video : m'.read (L.basePages + 8 * 0xb8) 8 = tableEntry 0x1000b8000
  pool_eq : ∀ i, 0 < i → i ≠ 0xb8 → i < 512 → m'.read (L.basePages + 8 * i) 8 = 0
  frame : ∀ x, (x < L.pml4Base ∨ L.pml4Base + 3 * 4096 ≤ x) →
    (x < L.basePages ∨ L.basePages + 16 * 4096 ≤ x) → m' x = m x

section
variable {L : GuestTables} {s : GuestPaging} {m m' : Memory} {va : Nat}

/-- **`paging_init` on the early tables** succeeds. -/
theorem pagingInit_bootTables (h : EarlyTables L s.mem) (hused : s.nrUsedBasePages = 0) :
    ∃ s', guestPagingStep L s .pagingInit = some (0, s') ∧ BootTables L s.mem s'.mem := by
  have hal := L.base_aligned
  have hap := L.apart
  have hpos := L.pml4_pos
  have hpos' := L.base_pos
  have hpdpt : L.pdptBase = L.pml4Base + 4096 := rfl
  have hpdt : L.pdtBase = L.pml4Base + 2 * 4096 := rfl
  obtain ⟨s₁, s₂, heq, hin3, hin2⟩ := mapPageHigh_first_installs 0x1000b8000 h hused
    (show 2 ^ 32 ≤ 0x1000b8000 by decide) (by decide)
  have h3 : (level3Index 0x1000b8000 : Nat) = 4 := by decide
  have h2 : (level2Index 0x1000b8000 : Nat) = 0 := by decide
  have h1 : (level1Index 0x1000b8000 : Nat) = 0xb8 := by decide
  rw [h3] at hin3
  rw [h2, Nat.mul_zero, Nat.add_zero] at hin2
  rw [h1] at heq
  have hused₁ := hin3.used
  have hz₂ : PageZero s₂.mem := hin2.pageZero (hin3.pageZero h.pageZero (by omega)) hpos'
  have hpool : ∀ i, 0 < i → i < 512 → s₂.mem.read (L.basePages + 8 * i) 8 = 0 := by
    intro i hi hi'
    exact hin3.read_pool_eq_zero hin2 hused (by omega) ⟨i, hi'⟩ (.inr (by dsimp only; omega))
  have hvideo := hpool 0xb8 (by decide) (by decide)
  have hrc : (installHighPage s₂ (L.basePages + 8 * 0xb8) 0x1000b8000).1 = 0 := by
    rw [installHighPage_eq_zero_iff, hvideo]
    rfl
  -- a word outside the pool is read as after the first of the two installs
  have hout : ∀ x, (x + 8 ≤ L.basePages ∨ L.basePages + 16 * 4096 ≤ x) →
      (installHighPage s₂ (L.basePages + 8 * 0xb8) 0x1000b8000).2.mem.read x 8 =
        s₁.mem.read x 8 := by
    intro x hx
    rw [installHighPage_read (by omega), hin2.read_eq (by omega) (by omega) hx]
  refine ⟨{ (installHighPage s₂ (L.basePages + 8 * 0xb8) 0x1000b8000).2 with
    nrUsedBasePages := 0 }, ?_, ?_⟩
  · rw [guestPagingStep, heq, hrc]
  · refine ⟨?_, fun i hi hi' => ?_, ?_, ?_, fun i hi hne hi' => ?_, fun i hi => ?_, ?_, ?_,
      fun i hi hne hi' => ?_, fun x hx hx' => ?_⟩
    · rw [hout _ (by omega), hin3.read_eq (by omega) (by omega) (by omega), h.l4_zero]
    · rw [hout _ (by omega), hin3.read_eq (by omega) (by omega) (by omega), h.l4_eq i hi hi']
    · rw [hout _ (by omega), hin3.read_eq (by omega) (by omega) (by omega), h.l3_zero]
    · rw [hout _ (by omega), hin3.entry_eq]
    · rw [hout _ (by omega), hin3.read_eq (by omega) (by omega) (by omega), h.l3_eq i hi hi']
    · rw [hout _ (by omega), hin3.read_eq (by omega) (by omega) (by omega), h.l2_eq i hi]
    · rw [installHighPage_read (by omega), hin2.entry_eq]
    · exact installHighPage_read_self hz₂ hvideo
    · rw [installHighPage_read (by omega), hpool i hi hi']
    · rw [installHighPage_apply (by omega), hin2.frame x (by omega) (by omega),
        hin3.frame x (by omega) (by omega)]

/-! ## The address space -/

/-- What the guest's tables translate after `paging_init`, where `m` is the memory at the start. -/
def bootTranslation (L : GuestTables) (m : Memory) (va : Nat) : Option Nat :=
  if va < 2 ^ 30 then some va
  else if va / 2 ^ 12 = 0x100000 then some (L.basePages + va % 2 ^ 12)
  else if va / 2 ^ 12 = 0x1000b8 then some va
  else if va / 2 ^ 21 = 0x117000000 / 2 ^ 21 then
    -- the characters of the video buffer
    let l1Entry := m.read (0x1000b8000 + 8 * level1Index va) 8
    if present l1Entry = 0 then none else some (entryFrame l1Entry + va % 2 ^ 12)
  else none

theorem bootTranslation_congr (h : ∀ x, 2 ^ 30 ≤ x → m' x = m x) :
    bootTranslation L m' va = bootTranslation L m va := by
  have hread : m'.read (0x1000b8000 + 8 * level1Index va) 8 =
      m.read (0x1000b8000 + 8 * level1Index va) 8 :=
    Memory.read_congr fun x _ _ => h x (by omega)
  rw [bootTranslation, bootTranslation, hread]

/-- The walk through the frame of the pool. -/
theorem BootTables.walkPdpte_pool (h : BootTables L m m') (hlo : 2 ^ 32 ≤ va)
    (hhi : va < 2 ^ 32 + 2 ^ 30) :
    walkPdpte m' (tableEntry L.basePages) va = bootTranslation L m va := by
  have hal := L.base_aligned
  have hle := L.base_le
  have hle' := L.pml4_le
  have hi2 : (level2Index va : Nat) = va / 2 ^ 21 % 512 := levelIndex_val 21 va
  have hi1 : (level1Index va : Nat) = va / 2 ^ 12 % 512 := levelIndex_val 12 va
  have hf := entryFrame_tableEntry hal (show L.basePages < 2 ^ 32 by omega)
  have hfv : entryFrame (tableEntry 0x1000b8000) = 0x1000b8000 := by decide
  rw [walkPdpte, if_neg (by simp), if_neg (by simp), hf]
  by_cases h2 : (level2Index va : Nat) = 0
  · -- the entry of level 2 leads back to the frame
    rw [h2, Nat.mul_zero, Nat.add_zero, h.pool_zero, if_neg (by simp), if_neg (by simp), hf]
    by_cases h1 : (level1Index va : Nat) = 0
    · rw [h1, Nat.mul_zero, Nat.add_zero, h.pool_zero, if_neg (by simp), hf, bootTranslation,
        if_neg (by omega), if_pos (by omega)]
    · by_cases hv : (level1Index va : Nat) = 0xb8
      · rw [hv, h.pool_video, if_neg (by simp), hfv, bootTranslation, if_neg (by omega),
          if_neg (by omega), if_pos (by omega)]
        exact congrArg some (by omega)
      · rw [h.pool_eq _ (by omega) hv (level1Index va).isLt, if_pos (by decide), bootTranslation,
          if_neg (by omega), if_neg (by omega), if_neg (by omega), if_neg (by omega)]
  · by_cases hv : (level2Index va : Nat) = 0xb8
    · -- the entry of the video buffer serves at level 2
      have hread : m'.read (0x1000b8000 + 8 * level1Index va) 8 =
          m.read (0x1000b8000 + 8 * level1Index va) 8 :=
        Memory.read_congr fun x _ _ => h.frame x (by omega) (by omega)
      rw [hv, h.pool_video, if_neg (by simp), if_neg (by simp), hfv, hread, bootTranslation,
        if_neg (by omega : ¬ va < 2 ^ 30), if_neg (by omega : ¬ va / 2 ^ 12 = 0x100000),
        if_neg (by omega : ¬ va / 2 ^ 12 = 0x1000b8),
        if_pos (by omega : va / 2 ^ 21 = 0x117000000 / 2 ^ 21)]
    · rw [h.pool_eq _ (by omega) hv (level2Index va).isLt, if_pos (by decide), bootTranslation,
        if_neg (by omega), if_neg (by omega), if_neg (by omega), if_neg (by omega)]

/-- The translations of the tables. -/
theorem BootTables.walk_eq (h : BootTables L m m') (hva : va < 2 ^ 48) :
    walk m' L.pml4Base va = bootTranslation L m va := by
  have hal := L.pml4_aligned
  have hle := L.pml4_le
  have hpdpt : L.pdptBase = L.pml4Base + 4096 := rfl
  have hpdt : L.pdtBase = L.pml4Base + 2 * 4096 := rfl
  have hi4 : (level4Index va : Nat) = va / 2 ^ 39 % 512 := levelIndex_val 39 va
  have hi3 : (level3Index va : Nat) = va / 2 ^ 30 % 512 := levelIndex_val 30 va
  have hnone : 2 ^ 30 ≤ va → va / 2 ^ 30 ≠ 4 → bootTranslation L m va = none := by
    intro h₁ h₂
    rw [bootTranslation, if_neg (by omega), if_neg (by omega), if_neg (by omega), if_neg (by omega)]
  by_cases h4 : (level4Index va : Nat) = 0
  · have hread4 : m'.read (L.pml4Base + 8 * level4Index va) 8 = tableEntry L.pdptBase := by
      rw [h4, Nat.mul_zero, Nat.add_zero, h.l4_zero]
    rw [walk_of_table (by omega) (by omega) hread4]
    by_cases h0 : (level3Index va : Nat) = 0
    · rw [h0, Nat.mul_zero, Nat.add_zero, h.l3_zero,
        walkPdpte_directory (by omega) (by omega) h.l2_eq (by omega), bootTranslation,
        if_pos (by omega)]
    · by_cases hp : (level3Index va : Nat) = 4
      · rw [hp, h.l3_four]
        exact h.walkPdpte_pool (by omega) (by omega)
      · rw [h.l3_eq _ (by omega) hp (level3Index va).isLt, walkPdpte, if_pos (by decide),
          hnone (by omega) (by omega)]
  · have hread4 := h.l4_eq _ (by omega) (level4Index va).isLt
    rw [walk_of_absent (by rw [hread4]; decide), hnone (by omega) (by omega)]

end

/-- **The address space of the guest after its boot.** Where page 0 is zero, the routine of
`init32.S` returns, `paging_init` maps the video buffer, and the processor then translates every
address as `bootTranslation` says; outside the tables and the pool the memory is what it was. -/
theorem guestBoot_walk (L : GuestTables) (s : State) (hz : PageZero s.mem) :
    ∃ s' g, run (guestConstructEarlyPageTable L) s = some s' ∧
      guestPagingStep L ⟨s'.mem, 0, []⟩ .pagingInit = some (0, g) ∧
      (∀ va, va < 2 ^ 48 → walk g.mem L.pml4Base va = bootTranslation L s.mem va) ∧
      ∀ x, (x < L.pml4Base ∨ L.pml4Base + 3 * 4096 ≤ x) →
        (x < L.basePages ∨ L.basePages + 16 * 4096 ≤ x) → g.mem x = s.mem x := by
  obtain ⟨s', hrun, hmem⟩ := run_guestConstructEarlyPageTable L s
  have hearly : EarlyTables L s'.mem := by
    rw [hmem]
    exact constructEarlyPageTable_earlyTables L hz
  obtain ⟨g, hstep, hboot⟩ := pagingInit_bootTables (s := ⟨s'.mem, 0, []⟩) hearly rfl
  have hframe : ∀ x, (x < L.pml4Base ∨ L.pml4Base + 3 * 4096 ≤ x) → s'.mem x = s.mem x := by
    intro x hx
    rw [hmem]
    exact constructEarlyPageTable_apply hx
  refine ⟨s', g, hrun, hstep, fun va hva => ?_, fun x hx hx' => ?_⟩
  · rw [hboot.walk_eq hva]
    exact bootTranslation_congr fun x hx => hframe x (.inr (by have := L.pml4_le; omega))
  · exact (hboot.frame x hx hx').trans (hframe x hx)

/-- The guest boots on a zero memory, and 0x100000000 is then the pool. -/
theorem guestBoot_walk_sample : ∃ s' g,
    run (guestConstructEarlyPageTable sampleTables) ⟨fun _ => 0, Memory.zero⟩ = some s' ∧
    guestPagingStep sampleTables ⟨s'.mem, 0, []⟩ .pagingInit = some (0, g) ∧
    walk g.mem sampleTables.pml4Base 0x100000000 = some sampleTables.basePages ∧
    walk g.mem sampleTables.pml4Base 0x117000000 = none := by
  obtain ⟨s', g, hrun, hstep, hwalk, -⟩ :=
    guestBoot_walk sampleTables ⟨fun _ => 0, Memory.zero⟩ fun _ _ => rfl
  refine ⟨s', g, hrun, hstep, (hwalk _ (by decide)).trans ?_, (hwalk _ (by decide)).trans ?_⟩
  · decide +kernel
  · decide +kernel

end ZeldaOS
