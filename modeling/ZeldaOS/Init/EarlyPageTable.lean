import ZeldaOS.Guest.TrivialPagingCorrect
import ZeldaOS.Lib.Assembly

/-!
# The early page table

Model of `construct_early_page_table` of `init/kernel_entry.S`, instruction by instruction in the
language of `Lib.Assembly`. It clears three pages and fills them with tables that map the first GiB
in pages of 2 MiB.

The loop that should clear the page directory pointer table does not advance: `andl $0x4, %edi`
stands for `addl $4, %edi`, and makes `edi` 0. So only the first double word of the table is
cleared, and the other 1023 rounds clear the double word at address 0 (`run_clearPdpt`). The entries
1 to 511 of that table are what the memory held before. The first GiB is mapped to itself all the
same; addresses above it are not present exactly if these entries lead to no page in the memory of
before (`earlyPageTable_right_iff`). An entry that points to one of the early tables always leads to
a page.
-/

namespace ZeldaOS

open Asm

/-- `EARLY_PML4_BASE`. -/
def earlyPml4Base : Nat := 0x12000

/-- `EARLY_PDPT_BASE`. -/
def earlyPdptBase : Nat := 0x13000

/-- `EARLY_PD_BASE`. -/
def earlyPdBase : Nat := 0x14000

/-- `PAGE_PRESENT`. -/
def pagePresent : Nat := 0x1

/-- `PAGE_WRITTABLE`. -/
def pageWrittable : Nat := 0x2

/-- `PAGE_2MB_SIZE`. -/
def page2MbSize : Nat := 0x80

/-! ## The routine -/

/-- The body of the loops at the labels 1 and 3. -/
def clearBody : List Instr := [.movl (.imm 0x0) (.mem 0 .edi), .addl (.imm 4) (.reg .edi)]

/-- Clear the PML4 page. -/
def clearPml4 : List Stmt :=
  [ .instr (.movl (.imm earlyPml4Base) (.reg .edi)),
    .instr (.movl (.imm 1024) (.reg .ecx)),
    .loop clearBody ]

/-- Install the table at `table` in entry 0 of the table at `base`. -/
def installEntryZero (base table : Nat) : List Stmt :=
  [ .instr (.xorl (.reg .eax) (.reg .eax)),
    .instr (.orl (.imm pagePresent) (.reg .eax)),
    .instr (.orl (.imm pageWrittable) (.reg .eax)),
    .instr (.orl (.imm table) (.reg .eax)),
    .instr (.movl (.imm base) (.reg .edi)),
    .instr (.movl (.reg .eax) (.mem 0 .edi)),
    .instr (.movl (.imm 0x0) (.mem 4 .edi)) ]

/-- Install entry 0 of the PML4. -/
def installPml4 : List Stmt := installEntryZero earlyPml4Base earlyPdptBase

/-- The body of the loop at the label 2. -/
def stalledBody : List Instr := [.movl (.imm 0x0) (.mem 0 .edi), .andl (.imm 0x4) (.reg .edi)]

/-- Clear the PDPT. -/
def clearPdpt : List Stmt :=
  [ .instr (.movl (.imm earlyPdptBase) (.reg .edi)),
    .instr (.movl (.imm 1024) (.reg .ecx)),
    .loop stalledBody ]

/-- Install entry 0 of the PDPT. -/
def installPdpt : List Stmt :=
  [ .instr (.movl (.imm earlyPdptBase) (.reg .edi)),
    .instr (.xorl (.reg .eax) (.reg .eax)),
    .instr (.orl (.imm pagePresent) (.reg .eax)),
    .instr (.orl (.imm pageWrittable) (.reg .eax)),
    .instr (.orl (.imm earlyPdBase) (.reg .eax)),
    .instr (.movl (.reg .eax) (.mem 0 .edi)),
    .instr (.movl (.imm 0x0) (.mem 4 .edi)) ]

/-- Clear the page directory. -/
def clearPd : List Stmt :=
  [ .instr (.movl (.imm earlyPdBase) (.reg .edi)),
    .instr (.movl (.imm 1024) (.reg .ecx)),
    .instr (.movl (.imm 0x0) (.reg .ebx)),
    .loop clearBody ]

/-- The body of the loop at the label 4. -/
def fillBody : List Instr :=
  [ .xorl (.reg .eax) (.reg .eax),
    .orl (.imm pagePresent) (.reg .eax),
    .orl (.imm pageWrittable) (.reg .eax),
    .orl (.imm page2MbSize) (.reg .eax),
    .orl (.reg .ebx) (.reg .eax),
    .movl (.reg .eax) (.mem 0 .edi),
    .movl (.imm 0x0) (.mem 4 .edi),
    .addl (.imm 8) (.reg .edi),
    .addl (.imm 0x200000) (.reg .ebx) ]

/-- Fill the page directory. -/
def fillPd : List Stmt :=
  [ .instr (.movl (.imm earlyPdBase) (.reg .edi)),
    .instr (.movl (.imm 512) (.reg .ecx)),
    .instr (.movl (.imm 0x0) (.reg .ebx)),
    .loop fillBody ]

/-- `construct_early_page_table`. -/
def constructEarlyPageTable : List Stmt :=
  .instr .pushal :: (clearPml4 ++ installPml4 ++ clearPdpt ++ installPdpt ++ clearPd ++ fillPd ++
    [.instr .popal, .instr .ret])

/-! ## What it stores -/

section
variable {s : State} {m : Memory} {p : List Stmt} {base a n k v : Nat}

/-- The loop at the labels 1 and 3 clears `n` double words. -/
theorem run_clearBody (hedi : s.regs .edi = base) (hecx : s.regs .ecx = n) (hpos : 0 < n)
    (hbase : base + 4 * n < 2 ^ 32) :
    ∃ s', run (.loop clearBody :: p) s = run p s' ∧ s'.mem = s.mem.fill base (4 * n) 0 := by
  have hstep : ∀ (k : Nat) (t : State), k < n →
      t.regs .edi = base + 4 * k ∧ t.mem = s.mem.fill base (4 * k) 0 →
      (countDown (execBlock clearBody t)).regs .edi = base + 4 * (k + 1) ∧
      (countDown (execBlock clearBody t)).mem = s.mem.fill base (4 * (k + 1)) 0 := by
    rintro k t hk ⟨hedi, hmem⟩
    have hregs : (countDown (execBlock clearBody t)).regs .edi = (t.regs .edi + 4) % 2 ^ 32 := rfl
    have hmem' : (countDown (execBlock clearBody t)).mem =
        t.mem.write ((t.regs .edi + 0) % 2 ^ 32) 4 0 := rfl
    have haddr : (base + 4 * k + 0) % 2 ^ 32 = base + 4 * k := by omega
    rw [hregs, hmem', hedi, hmem, haddr, Memory.fill_write]
    exact ⟨by omega, rfl⟩
  obtain ⟨s', heq, -, hmem⟩ := run_loop (p := p)
    (fun k t => t.regs .edi = base + 4 * k ∧ t.mem = s.mem.fill base (4 * k) 0)
    (fun t => rfl) hstep hecx hpos (by omega) ⟨hedi, (s.mem.fill_zero_length base 0).symm⟩
  exact ⟨s', heq, hmem⟩

/-- The first loop clears the table of level 4, -/
theorem run_clearPml4 (s : State) (p : List Stmt) : ∃ s', run (clearPml4 ++ p) s = run p s' ∧
    s'.mem = s.mem.fill earlyPml4Base 4096 0 := by
  simp only [clearPml4, List.cons_append, List.nil_append, run_instr]
  exact run_clearBody (n := 1024) rfl rfl (by decide) (by decide)

/-- and the third one that of level 2. -/
theorem run_clearPd (s : State) (p : List Stmt) : ∃ s', run (clearPd ++ p) s = run p s' ∧
    s'.mem = s.mem.fill earlyPdBase 4096 0 := by
  simp only [clearPd, List.cons_append, List.nil_append, run_instr]
  exact run_clearBody (n := 1024) rfl rfl (by decide) (by decide)

/-- Where `edi` points in round `k` of the loop at the label 2. -/
def stalledCursor (k : Nat) : Nat := if k = 0 then earlyPdptBase else 0

/-- The memory after `k` rounds of that loop. -/
def stalledClear (m : Memory) : Nat → Memory
  | 0 => m
  | k + 1 => (stalledClear m k).write (stalledCursor k) 4 0

/-- The loop that stalls clears one double word, and the one at 0. -/
theorem stalledClear_eq (m : Memory) (k : Nat) :
    stalledClear m (k + 2) = (m.write earlyPdptBase 4 0).write 0 4 0 := by
  induction k with
  | zero => rfl
  | succ k ih => rw [stalledClear, ih, stalledCursor, if_neg (by omega),
    Memory.write_write_self]

/-- **The loop at the label 2** clears the first double word of the page and the one at address
0. -/
theorem run_clearPdpt (s : State) (p : List Stmt) : ∃ s', run (clearPdpt ++ p) s = run p s' ∧
    s'.mem = (s.mem.write earlyPdptBase 4 0).write 0 4 0 := by
  have hstep : ∀ (k : Nat) (t : State), k < 1024 →
      t.regs .edi = stalledCursor k ∧ t.mem = stalledClear s.mem k →
      (countDown (execBlock stalledBody t)).regs .edi = stalledCursor (k + 1) ∧
      (countDown (execBlock stalledBody t)).mem = stalledClear s.mem (k + 1) := by
    rintro k t - ⟨hedi, hmem⟩
    have hregs : (countDown (execBlock stalledBody t)).regs .edi = t.regs .edi &&& 4 := rfl
    have hmem' : (countDown (execBlock stalledBody t)).mem =
        t.mem.write ((t.regs .edi + 0) % 2 ^ 32) 4 0 := rfl
    have hcursor : stalledCursor k &&& 4 = 0 ∧ (stalledCursor k + 0) % 2 ^ 32 =
        stalledCursor k := by
      rw [stalledCursor]
      split
      · decide
      · decide
    rw [hregs, hmem', hedi, hmem, hcursor.1, hcursor.2]
    exact ⟨rfl, rfl⟩
  simp only [clearPdpt, List.cons_append, List.nil_append, run_instr]
  obtain ⟨s', heq, -, hmem⟩ := run_loop (p := p) (n := 1024)
    (s := (Instr.movl (.imm 1024) (.reg .ecx)).exec
      ((Instr.movl (.imm earlyPdptBase) (.reg .edi)).exec s))
    (fun k t => t.regs .edi = stalledCursor k ∧ t.mem = stalledClear s.mem k)
    (fun t => rfl) hstep rfl (by decide) (by decide) ⟨rfl, rfl⟩
  exact ⟨s', heq, hmem.trans (stalledClear_eq s.mem 1022)⟩

/-- Entry 0 of the table at `base` points to the table at `table`. -/
theorem run_installEntryZero {base : Nat} (table : Nat) (hbase : base < 2 ^ 31) (s : State)
    (p : List Stmt) : ∃ s', run (installEntryZero base table ++ p) s = run p s' ∧
      s'.mem = GuestTables.storeEntry s.mem base (0x3 ||| table) := by
  have hlow : (base + 0) % 2 ^ 32 = base := by omega
  have hhigh : (base + 4) % 2 ^ 32 = base + 4 := by omega
  have hentry : (((s.regs .eax ^^^ s.regs .eax) ||| pagePresent) ||| pageWrittable) ||| table =
      0x3 ||| table := by
    rw [Nat.xor_self]
    rfl
  simp only [installEntryZero, List.cons_append, List.nil_append, run_instr]
  refine ⟨_, rfl, ?_⟩
  change (s.mem.write ((base + 0) % 2 ^ 32) 4 ((((s.regs .eax ^^^ s.regs .eax) ||| pagePresent) |||
    pageWrittable) ||| table)).write ((base + 4) % 2 ^ 32) 4 0 = _
  rw [hlow, hhigh, hentry, GuestTables.storeEntry]

/-- The entry of level 4, -/
theorem run_installPml4 (s : State) (p : List Stmt) : ∃ s', run (installPml4 ++ p) s = run p s' ∧
    s'.mem = GuestTables.storeEntry s.mem earlyPml4Base (tableEntry earlyPdptBase) :=
  run_installEntryZero earlyPdptBase (by decide) s p

/-- and the entry of level 3. -/
theorem run_installPdpt (s : State) (p : List Stmt) : ∃ s', run (installPdpt ++ p) s = run p s' ∧
    s'.mem = GuestTables.storeEntry s.mem earlyPdptBase (tableEntry earlyPdBase) := by
  have hentry : (((s.regs .eax ^^^ s.regs .eax) ||| pagePresent) ||| pageWrittable) |||
    earlyPdBase = tableEntry earlyPdBase := by
    rw [Nat.xor_self]
    decide
  simp only [installPdpt, List.cons_append, List.nil_append, run_instr]
  refine ⟨_, rfl, ?_⟩
  rw [← hentry]
  rfl

/-- The registers of the loop at the label 4 do not wrap around. -/
theorem fill_no_wrap {base k : Nat} (hbase : base < 2 ^ 31) (hk : k < 512) :
    (base + 8 * k + 0) % 2 ^ 32 = base + 8 * k ∧
    (base + 8 * k + 4) % 2 ^ 32 = base + 8 * k + 4 ∧
    (base + 8 * k + 8) % 2 ^ 32 = base + 8 * (k + 1) ∧
    (k * 0x200000 + 0x200000) % 2 ^ 32 = (k + 1) * 0x200000 ∧
    k * 0x200000 % 2 ^ 32 = k * 0x200000 := by
  omega

/-- The loop at the label 4 fills a page directory. -/
theorem run_fillBody (hedi : s.regs .edi = base) (hebx : s.regs .ebx = 0) (hecx : s.regs .ecx = 512)
    (hbase : base < 2 ^ 31) :
    ∃ s', run (.loop fillBody :: p) s = run p s' ∧
      s'.mem = GuestTables.storeDirectory s.mem base 512 := by
  have hstep : ∀ (k : Nat) (t : State), k < 512 →
      t.regs .edi = base + 8 * k ∧ t.regs .ebx = k * 0x200000 ∧
        t.mem = GuestTables.storeDirectory s.mem base k →
      (countDown (execBlock fillBody t)).regs .edi = base + 8 * (k + 1) ∧
      (countDown (execBlock fillBody t)).regs .ebx = (k + 1) * 0x200000 ∧
      (countDown (execBlock fillBody t)).mem = GuestTables.storeDirectory s.mem base (k + 1) := by
    rintro k t hk ⟨hedi, hebx, hmem⟩
    obtain ⟨hlow, hhigh, hnext, hpage', hpage⟩ := fill_no_wrap hbase hk
    have hregs : (countDown (execBlock fillBody t)).regs .edi = (t.regs .edi + 8) % 2 ^ 32 := rfl
    have hregs' : (countDown (execBlock fillBody t)).regs .ebx =
        (t.regs .ebx + 0x200000) % 2 ^ 32 := by
      simp [countDown, execBlock, fillBody, Instr.exec, State.assign, State.value]
    have hmem' : (countDown (execBlock fillBody t)).mem =
        (t.mem.write ((t.regs .edi + 0) % 2 ^ 32) 4 (((((t.regs .eax ^^^ t.regs .eax) |||
          pagePresent) ||| pageWrittable) ||| page2MbSize) ||| t.regs .ebx)).write
          ((t.regs .edi + 4) % 2 ^ 32) 4 0 := rfl
    have hflags : ((0 ||| pagePresent) ||| pageWrittable) ||| page2MbSize = 0x83 := by decide
    refine ⟨hregs.trans ?_, hregs'.trans ?_, hmem'.trans ?_⟩
    · rw [hedi]
      exact hnext
    · rw [hebx]
      exact hpage'
    · rw [hedi, hebx, hmem, Nat.xor_self, hflags, hlow, hhigh, GuestTables.storeDirectory, hpage,
        GuestTables.storeEntry]
  obtain ⟨s', heq, hinv⟩ := run_loop (p := p) (fun k t => t.regs .edi = base + 8 * k ∧
    t.regs .ebx = k * 0x200000 ∧ t.mem = GuestTables.storeDirectory s.mem base k)
    (fun t => rfl) hstep hecx (by decide) (by decide) ⟨hedi, hebx.trans (Nat.zero_mul _).symm, rfl⟩
  exact ⟨s', heq, hinv.2.2⟩

/-- The entries of level 2. -/
theorem run_fillPd (s : State) (p : List Stmt) : ∃ s', run (fillPd ++ p) s = run p s' ∧
    s'.mem = GuestTables.storeDirectory s.mem earlyPdBase 512 := by
  simp only [fillPd, List.cons_append, List.nil_append, run_instr]
  exact run_fillBody rfl rfl rfl (by decide)

/-- The memory that the routine leaves, of the memory with its stack frame. -/
def earlyTablesMemory (m : Memory) : Memory :=
  let m := m.fill earlyPml4Base 4096 0
  let m := GuestTables.storeEntry m earlyPml4Base (tableEntry earlyPdptBase)
  let m := (m.write earlyPdptBase 4 0).write 0 4 0
  let m := GuestTables.storeEntry m earlyPdptBase (tableEntry earlyPdBase)
  let m := m.fill earlyPdBase 4096 0
  GuestTables.storeDirectory m earlyPdBase 512

/-- **The routine returns**, with this memory. -/
theorem run_constructEarlyPageTable (s : State) : ∃ s', run constructEarlyPageTable s = some s' ∧
    s'.mem = earlyTablesMemory (Instr.pushal.exec s).mem := by
  simp only [constructEarlyPageTable, run_instr, List.append_assoc]
  obtain ⟨s₁, heq₁, hmem₁⟩ := run_clearPml4 (Instr.pushal.exec s) (installPml4 ++ (clearPdpt ++
    (installPdpt ++ (clearPd ++ (fillPd ++ [.instr .popal, .instr .ret])))))
  obtain ⟨s₂, heq₂, hmem₂⟩ :=
    run_installPml4 s₁ (clearPdpt ++ (installPdpt ++ (clearPd ++ (fillPd ++
    [.instr .popal, .instr .ret]))))
  obtain ⟨s₃, heq₃, hmem₃⟩ := run_clearPdpt s₂ (installPdpt ++ (clearPd ++ (fillPd ++
    [.instr .popal, .instr .ret])))
  obtain ⟨s₄, heq₄, hmem₄⟩ := run_installPdpt s₃ (clearPd ++ (fillPd ++
    [.instr .popal, .instr .ret]))
  obtain ⟨s₅, heq₅, hmem₅⟩ := run_clearPd s₄ (fillPd ++ [.instr .popal, .instr .ret])
  obtain ⟨s₆, heq₆, hmem₆⟩ := run_fillPd s₅ [.instr .popal, .instr .ret]
  refine ⟨Instr.ret.exec (Instr.popal.exec s₆), ?_, ?_⟩
  · rw [heq₁, heq₂, heq₃, heq₄, heq₅, heq₆, run_instr, run_instr, run]
  · have hret : (Instr.ret.exec (Instr.popal.exec s₆)).mem = (Instr.popal.exec s₆).mem := rfl
    rw [hret, popal_mem, hmem₆, hmem₅, hmem₄, hmem₃, hmem₂, hmem₁, earlyTablesMemory]

end

/-! ## The tables -/

section
variable {m : Memory} {x i va : Nat}

/-- Once the PML4 is stored, only entry 0 of the PDPT, the page directory and the double word at
address 0 are written. -/
theorem earlyTablesMemory_apply (hlow : 4 ≤ x)
    (hx : x < 0x13000 ∨ (0x13008 ≤ x ∧ x < 0x14000) ∨ 0x15000 ≤ x) : earlyTablesMemory m x =
      GuestTables.storeEntry (m.fill 0x12000 4096 0) 0x12000 (tableEntry 0x13000) x := by
  simp only [earlyTablesMemory, earlyPml4Base, earlyPdptBase, earlyPdBase]
  rw [storeDirectory_apply (by omega), Memory.fill_apply_of_not_mem (by omega),
    storeEntry_apply (by omega), Memory.write_apply_of_not_mem (by omega),
    Memory.write_apply_of_not_mem (by omega)]

/-- Outside the tables, and in the PDPT but for its first entry, nothing changes but the double word
at address 0. -/
theorem earlyTablesMemory_of_not_mem (hlow : 4 ≤ x)
    (hx : x < 0x12000 ∨ (0x13008 ≤ x ∧ x < 0x14000) ∨ 0x15000 ≤ x) :
    earlyTablesMemory m x = m x := by
  rw [earlyTablesMemory_apply hlow (by omega), storeEntry_apply (by omega),
    Memory.fill_apply_of_not_mem (by omega)]

/-- The double word at 0 is cleared. -/
theorem earlyTablesMemory_low (hx : x < 4) : earlyTablesMemory m x = 0 := by
  simp only [earlyTablesMemory, earlyPml4Base, earlyPdptBase, earlyPdBase]
  rw [storeDirectory_apply (by omega), Memory.fill_apply_of_not_mem (by omega),
    storeEntry_apply (by omega), Memory.write_apply_of_mem (by omega) (by omega), Nat.zero_div]
  rfl

/-- The entries of the PML4 but the first are 0. -/
theorem earlyTablesMemory_pml4 (hi : 0 < i) (hi' : i < 512) :
    (earlyTablesMemory m).read (0x12000 + 8 * i) 8 = 0 := by
  refine Memory.read_eq_zero fun x h₁ h₂ => ?_
  rw [earlyTablesMemory_apply (by omega) (by omega), storeEntry_apply (by omega),
    Memory.fill_apply_of_mem (by omega) (by omega)]

/-- The first entry of level 4 leads to level 3, -/
theorem earlyTablesMemory_pml4_zero :
    (earlyTablesMemory m).read 0x12000 8 = tableEntry 0x13000 := by
  rw [Memory.read_congr fun x h₁ h₂ => earlyTablesMemory_apply (by omega) (by omega),
    read_storeEntry _ _ (by decide)]

/-- and the first one of level 3 to level 2. -/
theorem earlyTablesMemory_pdpt_zero :
    (earlyTablesMemory m).read 0x13000 8 = tableEntry 0x14000 := by
  simp only [earlyTablesMemory, earlyPml4Base, earlyPdptBase, earlyPdBase]
  rw [Memory.read_congr fun x _ _ => storeDirectory_apply (by omega),
    Memory.read_fill_of_disjoint (by omega),
    read_storeEntry _ _ (by decide)]

/-- **The entries of the PDPT but the first** are what the memory held before. -/
theorem earlyTablesMemory_pdpt (hi : 0 < i) (hi' : i < 512) :
    (earlyTablesMemory m).read (0x13000 + 8 * i) 8 = m.read (0x13000 + 8 * i) 8 :=
  Memory.read_congr fun x h₁ h₂ => earlyTablesMemory_of_not_mem (by omega) (by omega)

/-- A walk below 512 GiB goes through the PDPT. -/
theorem walk_earlyTables_low (hva : va < 2 ^ 39) : walk (earlyTablesMemory m) earlyPml4Base va =
    walkPdpte (earlyTablesMemory m)
      ((earlyTablesMemory m).read (earlyPdptBase + 8 * level3Index va) 8) va := by
  have hi4 := levelIndex_val 39 va
  rw [← level4Index] at hi4
  refine walk_of_table (by decide) (by decide) ?_
  rw [show (level4Index va : Nat) = 0 by omega]
  exact earlyTablesMemory_pml4_zero

/-- **The first GiB** is mapped to itself. -/
theorem walk_earlyTables_first (hva : va < 2 ^ 30) :
    walk (earlyTablesMemory m) earlyPml4Base va = some va := by
  have hi3 := levelIndex_val 30 va
  rw [← level3Index] at hi3
  have hentry : (earlyTablesMemory m).read (earlyPdptBase + 8 * level3Index va) 8 =
      tableEntry 0x14000 := by
    rw [show (level3Index va : Nat) = 0 by omega]
    exact earlyTablesMemory_pdpt_zero
  rw [walk_earlyTables_low (by omega), hentry]
  exact walkPdpte_directory (by decide) (by decide)
    (fun i hi => read_storeDirectory (Nat.le_refl _) hi) hva

/-- **Above the first GiB** a walk goes through an entry that was there before. -/
theorem walk_earlyTables_leftover (h₁ : 2 ^ 30 ≤ va) (h₂ : va < 2 ^ 39) :
    walk (earlyTablesMemory m) earlyPml4Base va =
      walkPdpte (earlyTablesMemory m) (m.read (earlyPdptBase + 8 * level3Index va) 8) va := by
  have hi3 := levelIndex_val 30 va
  rw [← level3Index] at hi3
  rw [walk_earlyTables_low h₂]
  exact congrArg (fun w => walkPdpte (earlyTablesMemory m) w va)
    (earlyTablesMemory_pdpt (by omega) (level3Index va).isLt)

/-- A canonical address. -/
def Canonical (va : Nat) : Prop := va < 2 ^ 47 ∨ (2 ^ 64 - 2 ^ 47 ≤ va ∧ va < 2 ^ 64)

/-- From 512 GiB on nothing is present. -/
theorem walk_earlyTables_high (hva : Canonical va) (h : 2 ^ 39 ≤ va) :
    walk (earlyTablesMemory m) earlyPml4Base va = none := by
  have hi4 := levelIndex_val 39 va
  rw [← level4Index] at hi4
  have hentry : (earlyTablesMemory m).read (earlyPml4Base + 8 * level4Index va) 8 = 0 :=
    earlyTablesMemory_pml4 (by rw [Canonical] at hva; omega) (level4Index va).isLt
  exact walk_of_absent (by rw [hentry]; decide)

end

/-! ## What the entries left in the PDPT lead to -/

/-- One of the three pages of the early tables. -/
def IsEarlyTable (a : Nat) : Prop := a = earlyPml4Base ∨ a = earlyPdptBase ∨ a = earlyPdBase

/-- An entry `w` of a page directory leads to no page, for the memory `m` of before: it is not
present, or it points to a page table other than the early tables in which no entry is present. -/
def PdeLeadsNowhere (m : Memory) (w : Nat) : Prop :=
  present w = 0 ∨ (pageSizeBit w = 0 ∧ ¬ IsEarlyTable (entryFrame w) ∧
    ∀ i, i < 512 → present (m.read (entryFrame w + 8 * i) 8) = 0)

/-- An entry `w` of a PDPT leads to no page, for the memory `m` of before: it is not present, or it
points to a page directory other than the early tables in which no entry leads to a page. -/
def PdpteLeadsNowhere (m : Memory) (w : Nat) : Prop :=
  present w = 0 ∨ (pageSizeBit w = 0 ∧ ¬ IsEarlyTable (entryFrame w) ∧
    ∀ i, i < 512 → PdeLeadsNowhere m (m.read (entryFrame w + 8 * i) 8))

section
variable {m m' : Memory} {w va i j k a : Nat}

/-- The memory of before, kept but for the three pages, which hold the early tables. -/
structure EarlyTablesOver (m m' : Memory) : Prop where
  frame : ∀ x, x < 0x12000 ∨ 0x15000 ≤ x → m' x = m x
  pml4 : m'.read 0x12000 8 = tableEntry 0x13000
  pdpt : m'.read 0x13000 8 = tableEntry 0x14000
  pd : m'.read 0x14000 8 = 0x83

/-- The routine leaves such a memory if the double word at address 0 was 0. -/
theorem earlyTablesOver (hzero : ∀ x, x < 4 → m x = 0) :
    EarlyTablesOver m (earlyTablesMemory m) := by
  refine ⟨fun x hx => ?_, earlyTablesMemory_pml4_zero, earlyTablesMemory_pdpt_zero, ?_⟩
  · rcases Nat.lt_or_ge x 4 with hlow | hlow
    · rw [earlyTablesMemory_low hlow, hzero x hlow]
    · exact earlyTablesMemory_of_not_mem hlow (by omega)
  · exact read_storeDirectory (i := 0) (Nat.le_refl 512) (by decide)

/-- The frame of an entry is page aligned. -/
theorem entryFrame_aligned (w : Nat) : entryFrame w % 4096 = 0 := Nat.mul_mod_left _ _

/-- The entries of a table other than the early ones are those of before. -/
theorem EarlyTablesOver.read_entry (h : EarlyTablesOver m m') (hw : ¬ IsEarlyTable (entryFrame w))
    (hi : i < 512) : m'.read (entryFrame w + 8 * i) 8 = m.read (entryFrame w + 8 * i) 8 := by
  have hal := entryFrame_aligned w
  simp only [IsEarlyTable, earlyPml4Base, earlyPdptBase, earlyPdBase, not_or] at hw
  exact Memory.read_congr fun x h₁ h₂ => h.frame x (by omega)

/-- The first entry of each early table is present. -/
theorem EarlyTablesOver.present_zero (h : EarlyTablesOver m m') (ha : IsEarlyTable a) :
    present (m'.read (a + 8 * 0) 8) ≠ 0 := by
  rcases ha with rfl | rfl | rfl
  · rw [earlyPml4Base, Nat.mul_zero, Nat.add_zero, h.pml4]
    decide
  · rw [earlyPdptBase, Nat.mul_zero, Nat.add_zero, h.pdpt]
    decide
  · rw [earlyPdBase, Nat.mul_zero, Nat.add_zero, h.pd]
    decide

/-- As an entry of a page directory it leads to a page, of 2 MiB or through the first entry of
another early table. -/
theorem EarlyTablesOver.zero_leads (h : EarlyTablesOver m m') (ha : IsEarlyTable a) :
    pageSizeBit (m'.read (a + 8 * 0) 8) ≠ 0 ∨
      IsEarlyTable (entryFrame (m'.read (a + 8 * 0) 8)) := by
  rcases ha with rfl | rfl | rfl
  · rw [earlyPml4Base, Nat.mul_zero, Nat.add_zero, h.pml4]
    exact .inr (.inr (.inl (by decide)))
  · rw [earlyPdptBase, Nat.mul_zero, Nat.add_zero, h.pdpt]
    exact .inr (.inr (.inr (by decide)))
  · rw [earlyPdBase, Nat.mul_zero, Nat.add_zero, h.pd]
    exact .inl (by decide)

/-- No address under the entry `w` of a page directory is present. -/
def PdeAbsent (m : Memory) (w : Nat) : Prop :=
  present w = 0 ∨ (pageSizeBit w = 0 ∧
    ∀ i, i < 512 → present (m.read (entryFrame w + 8 * i) 8) = 0)

/-- **An entry of a page directory** is absent in the memory that the routine leaves exactly if it
leads to no page in the memory of before. -/
theorem EarlyTablesOver.pdeAbsent_iff (h : EarlyTablesOver m m') :
    PdeAbsent m' w ↔ PdeLeadsNowhere m w := by
  rw [PdeAbsent, PdeLeadsNowhere]
  refine or_congr_right (and_congr_right fun _ => ⟨fun habsent => ?_, fun hnowhere i hi => ?_⟩)
  · have hother : ¬ IsEarlyTable (entryFrame w) := fun htable =>
      h.present_zero htable (habsent 0 (by decide))
    exact ⟨hother, fun i hi => by rw [← h.read_entry hother hi]; exact habsent i hi⟩
  · rw [h.read_entry hnowhere.1 hi]
    exact hnowhere.2 i hi

/-- The first entry of an early table is not absent as an entry of a page directory. -/
theorem EarlyTablesOver.not_pdeAbsent (h : EarlyTablesOver m m') (ha : IsEarlyTable a) :
    ¬ PdeAbsent m' (m'.read (a + 8 * 0) 8) := by
  rintro (habsent | ⟨hsmall, habsent⟩)
  · exact h.present_zero ha habsent
  · rcases h.zero_leads ha with hlarge | htable
    · exact hlarge hsmall
    · exact h.present_zero htable (habsent 0 (by decide))

/-- **So is an entry of the PDPT.** -/
theorem EarlyTablesOver.pdpteAbsent_iff (h : EarlyTablesOver m m') :
    (present w = 0 ∨ (pageSizeBit w = 0 ∧
      ∀ i, i < 512 → PdeAbsent m' (m'.read (entryFrame w + 8 * i) 8))) ↔ PdpteLeadsNowhere m w := by
  rw [PdpteLeadsNowhere]
  refine or_congr_right (and_congr_right fun _ => ⟨fun habsent => ?_, fun hnowhere i hi => ?_⟩)
  · have hother : ¬ IsEarlyTable (entryFrame w) := fun htable =>
      h.not_pdeAbsent htable (habsent 0 (by decide))
    refine ⟨hother, fun i hi => h.pdeAbsent_iff.1 ?_⟩
    rw [← h.read_entry hother hi]
    exact habsent i hi
  · rw [h.read_entry hnowhere.1 hi]
    exact h.pdeAbsent_iff.2 (hnowhere.2 i hi)

/-- When a walk from an entry of level 3 on finds nothing. -/
theorem walkPdpte_eq_none_iff : walkPdpte m w va = none ↔ present w = 0 ∨ (pageSizeBit w = 0 ∧
    (present (m.read (entryFrame w + 8 * level2Index va) 8) = 0 ∨
      (pageSizeBit (m.read (entryFrame w + 8 * level2Index va) 8) = 0 ∧
        present (m.read (entryFrame (m.read (entryFrame w + 8 * level2Index va) 8) +
          8 * level1Index va) 8) = 0))) := by
  simp only [walkPdpte]
  generalize m.read (entryFrame w + 8 * level2Index va) 8 = w₂
  generalize m.read (entryFrame w₂ + 8 * level1Index va) 8 = w₁
  by_cases hpresent : present w = 0
  · simp [hpresent]
  by_cases hlarge : pageSizeBit w = 0
  · by_cases hpresent₂ : present w₂ = 0
    · simp [hpresent₂, hlarge]
    · by_cases hlarge₂ : pageSizeBit w₂ = 0
      · by_cases hpresent₁ : present w₁ = 0
        · simp [hpresent₁, hlarge, hlarge₂]
        · simp [hpresent, hpresent₁, hpresent₂, hlarge, hlarge₂]
      · simp [hpresent, hpresent₂, hlarge, hlarge₂]
  · simp [hpresent, hlarge]

/-- The address with given indices at the levels 3, 2 and 1. -/
theorem indices_eq (hi : i < 512) (hj : j < 512) (hk : k < 512) :
    (level3Index (i * 2 ^ 30 + j * 2 ^ 21 + k * 2 ^ 12) : Nat) = i ∧
    (level2Index (i * 2 ^ 30 + j * 2 ^ 21 + k * 2 ^ 12) : Nat) = j ∧
    (level1Index (i * 2 ^ 30 + j * 2 ^ 21 + k * 2 ^ 12) : Nat) = k := by
  rw [level3Index, level2Index, level1Index, levelIndex_val, levelIndex_val, levelIndex_val]
  omega

/-- The addresses under an entry of the PDPT are absent exactly if the tables below it lead to no
page. -/
theorem walkPdpte_none_iff (hi : i < 512) :
    (∀ va, level3Index va = i → va < 2 ^ 39 → walkPdpte m w va = none) ↔
      (present w = 0 ∨ (pageSizeBit w = 0 ∧
        ∀ j, j < 512 → PdeAbsent m (m.read (entryFrame w + 8 * j) 8))) := by
  constructor
  · intro h
    have hat : ∀ j k, j < 512 → k < 512 → present w = 0 ∨ (pageSizeBit w = 0 ∧
        (present (m.read (entryFrame w + 8 * j) 8) = 0 ∨
          (pageSizeBit (m.read (entryFrame w + 8 * j) 8) = 0 ∧
            present (m.read (entryFrame (m.read (entryFrame w + 8 * j) 8) + 8 * k) 8) = 0))) := by
      intro j k hj hk
      obtain ⟨h₃, h₂, h₁⟩ := indices_eq hi hj hk
      have hnone := walkPdpte_eq_none_iff.1 (h _ h₃ (by omega))
      rwa [h₂, h₁] at hnone
    by_cases hpresent : present w = 0
    · exact .inl hpresent
    refine .inr ⟨((hat 0 0 (by decide) (by decide)).resolve_left hpresent).1, fun j hj => ?_⟩
    by_cases hpresent₂ : present (m.read (entryFrame w + 8 * j) 8) = 0
    · exact .inl hpresent₂
    have hat₂ := fun k hk => (((hat j k hj hk).resolve_left hpresent).2).resolve_left hpresent₂
    exact .inr ⟨(hat₂ 0 (by decide)).1, fun k hk => (hat₂ k hk).2⟩
  · intro h va _ _
    refine walkPdpte_eq_none_iff.2 (h.imp_right fun h => ⟨h.1, ?_⟩)
    exact (h.2 _ (level2Index va).isLt).imp_right fun h => ⟨h.1, h.2 _ (level1Index va).isLt⟩

/-- **The addresses from 1 GiB to 512 GiB** are absent exactly if the entries left in the PDPT lead
to no page in the memory of before. -/
theorem EarlyTablesOver.leftover_iff (h : EarlyTablesOver m m') (entry : Nat → Nat) :
    (∀ va, 2 ^ 30 ≤ va → va < 2 ^ 39 → walkPdpte m' (entry (level3Index va)) va = none) ↔
      ∀ i, 0 < i → i < 512 → PdpteLeadsNowhere m (entry i) := by
  constructor
  · intro habsent i hpos hi
    refine h.pdpteAbsent_iff.1 ((walkPdpte_none_iff hi).1 fun va hva hlt => ?_)
    have hindex := levelIndex_val 30 va
    rw [← level3Index, hva] at hindex
    have hnone := habsent va (by omega) hlt
    rwa [hva] at hnone
  · intro hnowhere va h₁ h₂
    have hindex := levelIndex_val 30 va
    rw [← level3Index] at hindex
    have hi := (level3Index va).isLt
    exact (walkPdpte_none_iff hi).2 (h.pdpteAbsent_iff.2 (hnowhere _ (by omega) hi)) va rfl h₂

end

/-! ## The result -/

/-- Outside the three pages and the stack frame of the routine. -/
def OutsideTables (esp x : Nat) : Prop :=
  (x < earlyPml4Base ∨ earlyPdBase + 4096 ≤ x) ∧ (x < esp - 32 ∨ esp ≤ x)

/-- What the routine is for: the first GiB is mapped to itself, no other canonical address is
present, and no memory outside the tables and the stack frame has changed. -/
structure MapsFirstGiB (m m' : Memory) (esp : Nat) : Prop where
  mapped : ∀ va, va < 2 ^ 30 → walk m' earlyPml4Base va = some va
  absent : ∀ va, Canonical va → 2 ^ 30 ≤ va → walk m' earlyPml4Base va = none
  frame : ∀ x, OutsideTables esp x → m' x = m x

/-- The memory in which the routine builds the tables: the memory of before, with the eight
registers that `pushal` stores in the stack frame. -/
def memoryBefore (s : State) : Memory := (Instr.pushal.exec s).mem

/-- `pushal` writes to the stack frame only. -/
theorem memoryBefore_apply {s : State} {x : Nat} (hlow : 36 ≤ s.regs .esp)
    (hlt : s.regs .esp < 2 ^ 32) (hx : x < s.regs .esp - 32 ∨ s.regs .esp ≤ x) :
    memoryBefore s x = s.mem x :=
  pushal_mem_of_not_mem (by omega) hlt hx

/-- The stack frame is apart from the PDPT, so the entries left there are those of before. -/
theorem read_memoryBefore_pdpt {s : State} (hlow : 36 ≤ s.regs .esp) (hlt : s.regs .esp < 2 ^ 32)
    (hapart : s.regs .esp ≤ earlyPml4Base ∨ earlyPdBase + 4096 + 32 ≤ s.regs .esp) (va : Nat) :
    (memoryBefore s).read (earlyPdptBase + 8 * level3Index va) 8 =
      s.mem.read (earlyPdptBase + 8 * level3Index va) 8 := by
  have hi := (level3Index va).isLt
  unfold earlyPml4Base earlyPdBase at hapart
  refine Memory.read_congr fun x h₁ h₂ => memoryBefore_apply hlow hlt ?_
  unfold earlyPdptBase at h₁ h₂
  omega

/-- **The early page table.** Whatever the memory holds, the routine returns, the first GiB is
mapped to itself, nothing is present from 512 GiB on, and outside the tables and the stack frame
only the double word at address 0 may change. It does all that it is for exactly if that double word
was 0 and each of the entries 1 to 511 that the memory of before holds in the PDPT leads to no page:
it is not present, or it points to a directory, other than the early tables, of which no entry leads
to a page. -/
theorem earlyPageTable_right_iff (s : State) (hlow : 36 ≤ s.regs .esp) (hlt : s.regs .esp < 2 ^ 32)
    (hapart : s.regs .esp ≤ earlyPml4Base ∨ earlyPdBase + 4096 + 32 ≤ s.regs .esp) :
    ∃ s', run constructEarlyPageTable s = some s' ∧
      (∀ va, va < 2 ^ 30 → walk s'.mem earlyPml4Base va = some va) ∧
      (∀ va, Canonical va → 2 ^ 39 ≤ va → walk s'.mem earlyPml4Base va = none) ∧
      (∀ x, OutsideTables (s.regs .esp) x → 4 ≤ x → s'.mem x = s.mem x) ∧
      (MapsFirstGiB s.mem s'.mem (s.regs .esp) ↔
        (∀ i, 0 < i → i < 512 →
          PdpteLeadsNowhere (memoryBefore s) (s.mem.read (earlyPdptBase + 8 * i) 8)) ∧
        ∀ x, x < 4 → s.mem x = 0) := by
  obtain ⟨s', heq, hmem⟩ := run_constructEarlyPageTable s
  have hleft := read_memoryBefore_pdpt hlow hlt hapart
  change s'.mem = earlyTablesMemory (memoryBefore s) at hmem
  simp only [OutsideTables, earlyPml4Base, earlyPdBase] at hapart ⊢
  have hframe : ∀ x, (x < 0x12000 ∨ 0x14000 + 4096 ≤ x) ∧ (x < s.regs .esp - 32 ∨ s.regs .esp ≤ x) →
      4 ≤ x → s'.mem x = s.mem x := by
    intro x hx hx4
    rw [hmem, earlyTablesMemory_of_not_mem hx4 (by omega), memoryBefore_apply hlow hlt hx.2]
  have hwalk : ∀ va, 2 ^ 30 ≤ va → va < 2 ^ 39 → walk s'.mem earlyPml4Base va =
      walkPdpte s'.mem (s.mem.read (earlyPdptBase + 8 * level3Index va) 8) va := by
    intro va h₁ h₂
    rw [hmem, walk_earlyTables_leftover h₁ h₂, hleft]
  have hfirst : ∀ va, va < 2 ^ 30 → walk s'.mem earlyPml4Base va = some va := by
    intro va hva
    rw [hmem]
    exact walk_earlyTables_first hva
  have hhigh : ∀ va, Canonical va → 2 ^ 39 ≤ va → walk s'.mem earlyPml4Base va = none := by
    intro va hcan hva
    rw [hmem]
    exact walk_earlyTables_high hcan hva
  have hiff : (∀ x, x < 4 → s.mem x = 0) → ((∀ va, 2 ^ 30 ≤ va → va < 2 ^ 39 →
      walkPdpte s'.mem (s.mem.read (earlyPdptBase + 8 * level3Index va) 8) va = none) ↔
      ∀ i, 0 < i → i < 512 →
        PdpteLeadsNowhere (memoryBefore s) (s.mem.read (earlyPdptBase + 8 * i) 8)) := by
    intro hzero
    rw [hmem]
    refine (earlyTablesOver fun x hx => ?_).leftover_iff
      fun i => s.mem.read (earlyPdptBase + 8 * i) 8
    rw [memoryBefore_apply hlow hlt (by omega), hzero x hx]
  refine ⟨s', heq, hfirst, hhigh, hframe, fun h => ?_, fun h =>
    ⟨hfirst, fun va hcan hva => ?_, fun x hx => ?_⟩⟩
  · have hzero : ∀ x, x < 4 → s.mem x = 0 := by
      intro x hx
      have hsame : s'.mem x = s.mem x :=
        h.frame x ⟨.inl (by rw [earlyPml4Base]; omega), .inl (by omega)⟩
      rw [← hsame, hmem, earlyTablesMemory_low hx]
    refine ⟨(hiff hzero).1 fun va h₁ h₂ => ?_, hzero⟩
    rw [← hwalk va h₁ h₂]
    exact h.absent va (.inl (by omega)) h₁
  · rcases Nat.lt_or_ge va (2 ^ 39) with hlt' | hge
    · rw [hwalk va hva hlt', (hiff h.2).2 h.1 va hva hlt']
    · exact hhigh va hcan hge
  · rcases Nat.lt_or_ge x 4 with hx4 | hx4
    · rw [hmem, earlyTablesMemory_low hx4, h.2 x hx4]
    · exact hframe x hx hx4

/-- The registers of the sample runs, with the stack at 2 MiB. -/
def sampleRegs : Reg → Nat := fun _ => 0x200000

/-- In a memory of zeros the routine does what it is for. -/
theorem earlyPageTable_right_iff_sample : ∃ s',
    run constructEarlyPageTable ⟨sampleRegs, Memory.zero⟩ = some s' ∧
    MapsFirstGiB Memory.zero s'.mem 0x200000 := by
  obtain ⟨s', heq, -, -, -, hiff⟩ := earlyPageTable_right_iff ⟨sampleRegs, Memory.zero⟩
    (by decide) (by decide) (by decide)
  refine ⟨s', heq, hiff.2 ⟨fun i _ _ => .inl ?_, fun x _ => rfl⟩⟩
  have hzero : Memory.zero.read (earlyPdptBase + 8 * i) 8 = 0 :=
    Memory.read_eq_zero fun _ _ _ => rfl
  rw [hzero]
  rfl

/-- A memory with an entry of a page of 1 GiB at index 1 of the PDPT, and a byte at address 0. -/
def leftoverMemory : Memory := fun x => if x = 0x13008 then 0x83 else if x = 0 then 0xff else 0

/-- In that memory the address 1 GiB is mapped to 0, and the byte at address 0 is lost. -/
theorem earlyPageTable_leftover : ∃ s',
    run constructEarlyPageTable ⟨sampleRegs, leftoverMemory⟩ = some s' ∧
    walk s'.mem earlyPml4Base (2 ^ 30) = some 0 ∧ s'.mem 0 = 0 ∧ leftoverMemory 0 = 0xff := by
  obtain ⟨s', heq, hmem⟩ := run_constructEarlyPageTable ⟨sampleRegs, leftoverMemory⟩
  have hread : (Instr.pushal.exec ⟨sampleRegs, leftoverMemory⟩).mem.read
      (earlyPdptBase + 8 * level3Index (2 ^ 30)) 8 = 0x83 := by
    have hpush : ∀ x, x < 0x200000 - 32 →
        (Instr.pushal.exec ⟨sampleRegs, leftoverMemory⟩).mem x = leftoverMemory x := fun x hx =>
      pushal_mem_of_not_mem (s := ⟨sampleRegs, leftoverMemory⟩) (by decide) (by decide) (.inl hx)
    have hindex : earlyPdptBase + 8 * level3Index (2 ^ 30) = 0x13008 := by decide
    have hagree : (Instr.pushal.exec ⟨sampleRegs, leftoverMemory⟩).mem.AgreeOn leftoverMemory
        0x13008 8 := fun x h₁ h₂ => hpush x (by omega)
    rw [hindex, Memory.read_congr hagree]
    decide
  refine ⟨s', heq, ?_, ?_, rfl⟩
  · rw [hmem, walk_earlyTables_leftover (by decide) (by decide), hread]
    rfl
  · rw [hmem]
    exact earlyTablesMemory_low (by decide)

end ZeldaOS
