import ZeldaOS.Memory.PagingCorrect

/-!
# How `map_address` extends the tables

`KernelInv.mapStep` says what a call of `map_address` does to the translations. This module says
what it does to the tables, for any request that does not descend through a 2 MiB page (`Extends`):
it takes pages from the allocator, one for each table missing on its way (`tablesNeeded`) unless it
runs out of them, each new table is one of these pages and lies on the path of the request, and no
entry that was present changes. So an address that is mapped keeps its translation
(`Extends.pa_eq`).

A request for a 2 MiB page succeeds if its slot is empty and the pages for its tables are there
(`KernelInv.mapStep_large`).
-/

namespace ZeldaOS

section
variable {m : Memory} {base v : Nat}

/-- The entries on the walk of a mapped address are present. -/
theorem pa_ne_error (hu : UpperTables m base)
    (hv : pa m base v ≠ translationError) :
    ∃ w, entryAt tableChild m base (slotPath v) = some w ∧ present w = 1 ∧
      (pageSizeBit w = 0 → ∃ w', entryAt tableChild m base (pagePath v) = some w' ∧
        present w' = 1) := by
  rw [pa_eq_translate hu, translate] at hv
  cases hslot : entryAt tableChild m base (slotPath v) with
  | none =>
    rw [hslot, Option.elim_none] at hv
    exact absurd rfl hv
  | some w =>
    rw [hslot, Option.elim_some, translateSlot] at hv
    split at hv
    · next hlarge => exact ⟨w, rfl, present_ne_zero_iff.1 hlarge.1, fun hps => absurd hps hlarge.2⟩
    split at hv
    · exact absurd rfl hv
    next hpres =>
    refine ⟨w, rfl, present_ne_zero_iff.1 hpres, fun _ => ?_⟩
    cases hpage : entryAt tableChild m base (pagePath v) with
    | none =>
      rw [hpage, Option.elim_none] at hv
      exact absurd rfl hv
    | some w' =>
      rw [hpage, Option.elim_some, translateEntry] at hv
      split at hv
      · exact absurd rfl hv
      · next hpres' => exact ⟨w', rfl, present_ne_zero_iff.1 hpres'⟩

/-- The tables above a slot that has an entry. -/
theorem exists_tables_of_slot {w : Nat} (h : entryAt tableChild m base (slotPath v) = some w) :
    ∃ a, tableAt tableChild m base [level3Index v, level4Index v] = some a := by
  rw [slotPath, entryAt, Option.map_eq_some_iff] at h
  obtain ⟨a, ha, -⟩ := h
  exact ⟨a, ha⟩

/-- A table that the walk goes through is named by a present entry. -/
theorem present_of_tableAt {p : Path} {i : Fin 512} {a b : Nat}
    (ha : tableAt tableChild m base p = some a) (hb : tableAt tableChild m base (i :: p) = some b) :
    present (m.read (a + 8 * i) 8) = 1 ∧ b = tableAddress (m.read (a + 8 * i) 8) := by
  rw [tableAt_cons_of_some ha, tableChild] at hb
  split at hb
  · next h => exact ⟨h.1, (Option.some.inj hb).symm⟩
  · cases hb

end

/-! ## The tables a request needs -/

/-- The tables that are missing under an entry: one or none. -/
def missing (m : Memory) (entry : Nat) : Nat := if present (m.read entry 8) = 0 then 1 else 0

/-- At most one table is missing at an entry, -/
theorem missing_le_one (m : Memory) (entry : Nat) : missing m entry ≤ 1 := by
  rw [missing]
  split <;> omega

/-- and none if the entry is present. -/
theorem missing_of_present {m : Memory} {entry : Nat} (hpres : present (m.read entry 8) ≠ 0) :
    missing m entry = 0 := if_neg hpres

/-- The path on which a request may need tables. -/
def MapRequest.tablePath (c : MapRequest) : Path :=
  if c.pageSize = 0x200000 then [level3Index c.virtAddr, level4Index c.virtAddr]
  else slotPath c.virtAddr

/-- How many tables are missing on the way of a request. -/
def tablesNeeded {A : Type} (k : Kernel A) (c : MapRequest) : Nat :=
  let below := if c.pageSize = 0x200000 then 0 else 1
  let l4Entry := k.pml4Base + 8 * level4Index c.virtAddr
  if present (k.mem.read l4Entry 8) = 0 then below + 2
  else
    let l3Entry := tableAddress (k.mem.read l4Entry 8) + 8 * level3Index c.virtAddr
    if present (k.mem.read l3Entry 8) = 0 then below + 1
    else
      let l2Entry := tableAddress (k.mem.read l3Entry 8) + 8 * level2Index c.virtAddr
      if c.pageSize = 0x200000 then 0 else missing k.mem l2Entry

section
variable {A : Type} {k k₁ k₂ : Kernel A} {c : MapRequest} {e₃ : Nat}

/-- The tables missing at the two upper levels, met one after the other. A table that is there is
not installed, and one that is installed has no entries. -/
theorem missing_upper_eq
    (hold₁ : present (k.mem.read (k.pml4Base + 8 * level4Index c.virtAddr) 8) ≠ 0 → k₁ = k)
    (hnew₁ : present (k.mem.read (k.pml4Base + 8 * level4Index c.virtAddr) 8) = 0 →
      present (k₁.mem.read e₃ 8) = 0)
    (he₃ : e₃ = tableAddress (k₁.mem.read (k.pml4Base + 8 * level4Index c.virtAddr) 8) +
      8 * level3Index c.virtAddr) (hsize : c.pageSize = 0x200000) :
    missing k.mem (k.pml4Base + 8 * level4Index c.virtAddr) + missing k₁.mem e₃ =
      tablesNeeded k c := by
  simp only [tablesNeeded, if_pos hsize]
  split
  · next hpres => rw [missing, missing, if_pos hpres, if_pos (hnew₁ hpres)]
  · next hpres =>
    cases hold₁ hpres
    rw [missing_of_present hpres, ← he₃, missing, Nat.zero_add, Nat.zero_add]

/-- For a 4 KiB page the page table comes on top. -/
theorem missing_all_eq
    (hold₁ : present (k.mem.read (k.pml4Base + 8 * level4Index c.virtAddr) 8) ≠ 0 → k₁ = k)
    (hnew₁ : present (k.mem.read (k.pml4Base + 8 * level4Index c.virtAddr) 8) = 0 →
      present (k₁.mem.read e₃ 8) = 0)
    (he₃ : e₃ = tableAddress (k₁.mem.read (k.pml4Base + 8 * level4Index c.virtAddr) 8) +
      8 * level3Index c.virtAddr) (hsize : c.pageSize ≠ 0x200000)
    (hold₂ : present (k₁.mem.read e₃ 8) ≠ 0 → k₂ = k₁)
    (hnew₂ : present (k₁.mem.read e₃ 8) = 0 →
      present (k₂.mem.read (tableAddress (k₂.mem.read e₃ 8) + 8 * level2Index c.virtAddr) 8) = 0) :
    missing k.mem (k.pml4Base + 8 * level4Index c.virtAddr) + missing k₁.mem e₃ +
      missing k₂.mem (tableAddress (k₂.mem.read e₃ 8) + 8 * level2Index c.virtAddr) =
        tablesNeeded k c := by
  simp only [tablesNeeded, if_neg hsize]
  split
  · next hpres =>
    have hpres₃ := hnew₁ hpres
    rw [missing, missing, missing, if_pos hpres, if_pos hpres₃, if_pos (hnew₂ hpres₃)]
  · next hpres =>
    cases hold₁ hpres
    rw [missing_of_present hpres, ← he₃]
    split
    · next hpres₃ => rw [missing, missing, if_pos hpres₃, if_pos (hnew₂ hpres₃)]
    · next hpres₃ =>
      cases hold₂ hpres₃
      rw [missing_of_present hpres₃]
      omega

/-- A request that runs out of pages has met fewer of the missing tables. -/
theorem missing_le_tablesNeeded :
    missing k.mem (k.pml4Base + 8 * level4Index c.virtAddr) ≤ tablesNeeded k c := by
  simp only [tablesNeeded, missing]
  split <;> omega

/-- The tables of the upper levels are among those that are needed. -/
theorem missing_upper_le
    (hold₁ : present (k.mem.read (k.pml4Base + 8 * level4Index c.virtAddr) 8) ≠ 0 → k₁ = k)
    (he₃ : e₃ = tableAddress (k₁.mem.read (k.pml4Base + 8 * level4Index c.virtAddr) 8) +
      8 * level3Index c.virtAddr) :
    missing k.mem (k.pml4Base + 8 * level4Index c.virtAddr) + missing k₁.mem e₃ ≤
      tablesNeeded k c := by
  have hle := missing_le_one k₁.mem e₃
  simp only [tablesNeeded]
  split
  · next hpres =>
    rw [missing, if_pos hpres]
    omega
  · next hpres =>
    cases hold₁ hpres
    rw [missing_of_present hpres, ← he₃]
    split
    · omega
    · next hpres₃ =>
      rw [missing_of_present hpres₃]
      exact Nat.zero_le _

end

/-! ## Extensions -/

section
variable {A : Type} [PageAllocator A] {k k' k'' : Kernel A} {used : Set Nat} {a v : Nat}
  {p top : Path} {i : Fin 512} {rc : ErrorCode} {n n' : Nat} {c : MapRequest}

/-- The tree is extended by tables on the path `top`, from the next `n` pages of the allocator. -/
structure Extends (top : Path) (n : Nat) (k k' : Kernel A) : Prop where
  inv : ∃ used, KernelInv k' used
  base : k'.pml4Base = k.pml4Base
  alloc : k'.alloc = advance k.alloc n
  tables : ∀ q a, q.length < 4 → tableAt tableChild k'.mem k'.pml4Base q = some a →
    tableAt tableChild k.mem k.pml4Base q = some a ∨
      (q ≠ [] ∧ q <:+ top ∧ a ≠ 0 ∧ ∃ i < n, nthPage k.alloc i = a)
  entries : ∀ q w, q.length ≤ 4 → entryAt tableChild k.mem k.pml4Base q = some w → present w = 1 →
    entryAt tableChild k'.mem k'.pml4Base q = some w

/-- Nothing happened. -/
theorem Extends.refl (h : KernelInv k used) (top : Path) : Extends top 0 k k :=
  ⟨⟨used, h⟩, rfl, rfl, fun _ _ _ => .inl, fun _ _ _ hw _ => hw⟩

/-- The pages that are taken add up. -/
theorem Extends.trans (h : Extends top n k k') (h' : Extends top n' k' k'') :
    Extends top (n + n') k k'' := by
  refine ⟨h'.inv, h'.base.trans h.base, ?_, fun q a hq ha => ?_, fun q w hq hw hp => ?_⟩
  · rw [advance_add, ← h.alloc, h'.alloc]
  · rcases h'.tables q a hq ha with ha | ⟨hne, htop, hane, i, hi, heq⟩
    · rcases h.tables q a hq ha with ha | ⟨hne, htop, hane, i, hi, heq⟩
      · exact .inl ha
      · exact .inr ⟨hne, htop, hane, i, by omega, heq⟩
    · refine .inr ⟨hne, htop, hane, n + i, by omega, ?_⟩
      rw [nthPage, advance_add, ← h.alloc]
      exact heq
  · exact h'.entries q w hq (h.entries q w hq hw hp) hp

/-- **A mapped address keeps its translation.** -/
theorem Extends.pa_eq (h : Extends top n k k') (hu : UpperTables k.mem k.pml4Base)
    (hv : pa k.mem k.pml4Base v ≠ translationError) :
    pa k'.mem k'.pml4Base v = pa k.mem k.pml4Base v := by
  obtain ⟨used, hinv⟩ := h.inv
  obtain ⟨w, hw, hpres, hpage⟩ := pa_ne_error hu hv
  rw [pa_eq_translate hinv.upper, pa_eq_translate hu, hw,
    h.entries _ w (by simp [slotPath]) hw hpres, translate, translate, Option.elim_some,
    Option.elim_some, translateSlot, translateSlot]
  by_cases hps : pageSizeBit w = 0
  · obtain ⟨w', hw', hpres'⟩ := hpage hps
    rw [hw', h.entries _ w' (by simp [pagePath, slotPath]) hw' hpres']
  · have hlarge : present w ≠ 0 ∧ pageSizeBit w ≠ 0 := ⟨by omega, hps⟩
    rw [if_pos hlarge, if_pos hlarge]

/-! ## Installing a table -/

/-- A new table that is linked takes one page. -/
theorem KernelInv.extends_link (h : KernelInv k used) (hp : p.length ≤ 2)
    (ha : tableAt tableChild k.mem k.pml4Base p = some a) (htop : i :: p <:+ top)
    (hpres : present (k.mem.read (a + 8 * i) 8) = 0)
    (hne : (PageAllocator.getPhysicalPage k.alloc).1 ≠ 0)
    (hinv : ∃ used, KernelInv { k with
      alloc := (PageAllocator.getPhysicalPage k.alloc).2
      mem := (k.mem.fill (PageAllocator.getPhysicalPage k.alloc).1 4096 0).write (a + 8 * i) 8
        (tableEntry (PageAllocator.getPhysicalPage k.alloc).1) } used) :
    Extends top 1 k { k with
      alloc := (PageAllocator.getPhysicalPage k.alloc).2
      mem := (k.mem.fill (PageAllocator.getPhysicalPage k.alloc).1 4096 0).write (a + 8 * i) 8
        (tableEntry (PageAllocator.getPhysicalPage k.alloc).1) } := by
  obtain ⟨hal, hlt, hfresh⟩ := h.fresh.head hne
  have hl := h.linkable hp ha hpres hal hlt hfresh
  refine ⟨hinv, rfl, rfl, fun q b hq hb => ?_, fun q w hq hw hw' => ?_⟩
  · rw [hl.tableAt_eq hq] at hb
    split at hb
    · next heq =>
      cases hb
      exact .inr ⟨by simp [heq], heq ▸ htop, hne, 0, by omega, rfl⟩
    · exact .inl hb
  · rw [hl.entryAt_eq hq]
    split
    · -- the entry that is overwritten was not present
      next heq =>
      rw [heq, entryAt_cons_of_some ha] at hw
      rw [← Option.some.inj hw] at hw'
      omega
    · split
      · -- the entries of the new table did not exist
        next htail =>
        cases q with
        | nil => cases hw
        | cons j q =>
          rw [List.tail_cons] at htail
          rw [htail, entryAt_cons_of_none hl.tableAt_old] at hw
          cases hw
      · exact hw

/-- One level of `map_address` takes the table that is missing. -/
theorem KernelInv.installTable_extends (h : KernelInv k used) (hp : p.length ≤ 2)
    (ha : tableAt tableChild k.mem k.pml4Base p = some a)
    (hlarge : present (k.mem.read (a + 8 * i) 8) = 1 → pageSizeBit (k.mem.read (a + 8 * i) 8) = 0)
    (htop : i :: p <:+ top) (hr : ZeldaOS.installTable k (a + 8 * i) = (rc, k')) :
    Extends top (missing k.mem (a + 8 * i)) k k' := by
  obtain ⟨hq, -⟩ := h.installTable hp ha hlarge hr
  rcases installTable_inv hr with ⟨hpres, -, rfl⟩ | ⟨hpres, -, rfl⟩ | ⟨hpres, hne, -, rfl⟩
  · rw [missing_of_present hpres]
    exact .refl h top
  · rw [missing, if_pos hpres]
    exact ⟨hq.inv, rfl, rfl, fun _ _ _ => .inl, fun _ _ _ hw _ => hw⟩
  · rw [missing, if_pos hpres]
    exact h.extends_link hp ha htop hpres hne hq.inv

/-- A table that is installed has no entries. -/
theorem KernelInv.installTable_new (h : KernelInv k used) (hp : p.length ≤ 2)
    (ha : tableAt tableChild k.mem k.pml4Base p = some a)
    (hr : ZeldaOS.installTable k (a + 8 * i) = (.ok, k'))
    (hpres : present (k.mem.read (a + 8 * i) 8) = 0) (j : Fin 512) :
    present (k'.mem.read (tableAddress (k'.mem.read (a + 8 * i) 8) + 8 * j) 8) = 0 := by
  rcases installTable_inv hr with ⟨hold, -, -⟩ | ⟨-, hrc, -⟩ | ⟨-, hne, -, rfl⟩
  · exact absurd hpres hold
  · cases hrc
  · obtain ⟨hal, hlt, hfresh⟩ := h.fresh.head hne
    have hl := h.linkable hp ha hpres hal hlt hfresh
    dsimp only
    rw [Memory.read_write_self, Nat.mod_eq_of_lt (tableEntry_lt _), tableAddress_tableEntry hal hlt,
      hl.read_new]
    decide

/-! ## Storing a leaf -/

/-- The entry for a page takes none. -/
theorem KernelInv.store_extends (h : KernelInv k used) (hp : 2 ≤ p.length) (hp' : p.length < 4)
    (ha : tableAt tableChild k.mem k.pml4Base p = some a)
    (hpres : present (k.mem.read (a + 8 * i) 8) = 0) {w : Nat} (hw : w < 256 ^ 8)
    (hleaf : p.length + 1 < 4 → tableChild w = none) (top : Path) :
    Extends top 0 k { k with mem := k.mem.write (a + 8 * i) 8 w } := by
  have hs := stores_write k.mem (a + 8 * i) w
  have hread := Memory.read_write_self k.mem (a + 8 * i) 8 w
  rw [Nat.mod_eq_of_lt hw] at hread
  have hnone : p.length + 1 < 4 → tableChild (k.mem.read (a + 8 * i) 8) = none ∧
      tableChild ((k.mem.write (a + 8 * i) 8 w).read (a + 8 * i) 8) = none := by
    intro hlt
    rw [hread, hleaf hlt, tableChild, if_neg (by omega)]
    exact ⟨rfl, rfl⟩
  refine ⟨⟨used, h.tables.store hp' ha hs hnone,
    upperTables_store h.tables hp hp' ha hs hnone h.upper, h.fresh⟩, rfl, rfl, ?_, ?_⟩
  · intro q b hq hb
    rw [h.tables.tableAt_store hp' ha hs hnone hq] at hb
    exact .inl hb
  · intro q w' hq hw' hp'
    rw [h.tables.entryAt_store (by omega) ha hs hnone hq]
    split
    · next heq =>
      rw [heq, entryAt_cons_of_some ha] at hw'
      rw [← Option.some.inj hw'] at hp'
      omega
    · exact hw'

/-- Nor does a large page, -/
theorem KernelInv.installLargePage_extends (h : KernelInv k used) {va phy : Nat}
    (ha : tableAt tableChild k.mem k.pml4Base [level3Index va, level4Index va] = some a)
    (hr : ZeldaOS.installLargePage k (a + 8 * level2Index va) phy = some (rc, k')) :
    Extends top 0 k k' := by
  rcases installLargePage_inv hr with ⟨-, rfl⟩ | ⟨hpres, -, -, rfl⟩
  · exact .refl h top
  · exact h.store_extends (by simp) (by simp) ha hpres (largeEntry_lt phy)
      (fun _ => by rw [tableChild, if_neg (by simp)]) top

/-- nor a small one. -/
theorem KernelInv.installPage_extends (h : KernelInv k used) {va phy : Nat}
    (ha : tableAt tableChild k.mem k.pml4Base (slotPath va) = some a)
    (hr : ZeldaOS.installPage k (a + 8 * level1Index va) phy = some (rc, k')) :
    Extends top 0 k k' := by
  rcases installPage_inv hr with ⟨-, rfl⟩ | ⟨hpres, -, -, rfl⟩
  · exact .refl h top
  · exact h.store_extends (by simp [slotPath]) (by simp [slotPath]) ha hpres (pageEntry_lt phy)
      (by simp [slotPath]) top

/-! ## A call -/

/-- A table that is there is not installed again. -/
theorem installTable_of_present {entry : Nat} (hpres : present (k.mem.read entry 8) ≠ 0)
    (hr : installTable k entry = (rc, k')) : k' = k := by
  rcases installTable_inv hr with ⟨-, -, rfl⟩ | ⟨hnone, -⟩ | ⟨hnone, -⟩
  · rfl
  · exact absurd hnone hpres
  · exact absurd hnone hpres

/-- **What one call does to the tables**, unless it asks for a 4 KiB page in a slot that holds a 2
MiB page. -/
theorem KernelInv.mapStep_extends (h : KernelInv k used)
    (hslot : c.pageSize = 0x200000 ∨ ¬ HoldsLarge k.mem k.pml4Base c.virtAddr)
    (hr : ZeldaOS.mapStep k c = some (rc, k')) :
    ∃ n ≤ tablesNeeded k c, (rc ≠ .outOfMemory → n = tablesNeeded k c) ∧
      Extends c.tablePath n k k' := by
  rw [ZeldaOS.mapStep, mapAddress] at hr
  split at hr
  · cases hr
  dsimp only at hr
  have hsuffix₃ : [level3Index c.virtAddr, level4Index c.virtAddr] <:+ c.tablePath := by
    rw [MapRequest.tablePath]
    split
    · exact List.suffix_refl _
    · exact List.suffix_cons _ _
  have hsuffix₄ := (List.suffix_cons (level3Index c.virtAddr) _).trans hsuffix₃
  have h4 : tableAt tableChild k.mem k.pml4Base [] = some k.pml4Base := rfl
  have hl4 := h.upper (level4Index c.virtAddr) [] _ (by simp) (entryAt_cons_of_some h4)
  split at hr
  case h_2 rc₁ k₁ hne hi₁ =>
    cases hr
    obtain ⟨-, hrc | ⟨hrc, -⟩⟩ := h.installTable (by simp) h4 hl4 hi₁
    · exact ⟨_, missing_le_tablesNeeded, fun h => absurd hrc h,
        h.installTable_extends (by simp) h4 hl4 hsuffix₄ hi₁⟩
    · exact absurd hrc hne
  next k₁ hi₁ =>
  have hext₁ := h.installTable_extends (by simp) h4 hl4 hsuffix₄ hi₁
  obtain ⟨hq₁, hrc | ⟨-, -, h3⟩⟩ := h.installTable (by simp) h4 hl4 hi₁
  · cases hrc
  obtain ⟨used₁, h₁⟩ := hq₁.inv
  have hl3 := h₁.upper (level3Index c.virtAddr) _ _ (by simp) (entryAt_cons_of_some h3)
  have hold₁ := fun hpres => installTable_of_present hpres hi₁
  have hnew₁ := fun hpres => h.installTable_new (by simp) h4 hi₁ hpres (level3Index c.virtAddr)
  split at hr
  case h_2 rc₂ k₂ hne hi₂ =>
    cases hr
    obtain ⟨-, hrc | ⟨hrc, -⟩⟩ := h₁.installTable (by simp) h3 hl3 hi₂
    · exact ⟨_, missing_upper_le hold₁ rfl, fun h => absurd hrc h,
        hext₁.trans (h₁.installTable_extends (by simp) h3 hl3 hsuffix₃ hi₂)⟩
    · exact absurd hrc hne
  next k₂ hi₂ =>
  have hext₂ := h₁.installTable_extends (by simp) h3 hl3 hsuffix₃ hi₂
  obtain ⟨hq₂, hrc | ⟨-, -, h2⟩⟩ := h₁.installTable (by simp) h3 hl3 hi₂
  · cases hrc
  obtain ⟨used₂, h₂⟩ := hq₂.inv
  split at hr
  · next hsize =>
    have heq := missing_upper_eq hold₁ hnew₁ rfl hsize
    exact ⟨_, heq.le, fun _ => heq, (hext₁.trans hext₂).trans (h₂.installLargePage_extends h2 hr)⟩
  next hsize =>
  have hnot : ¬ HoldsLarge k₂.mem k₂.pml4Base c.virtAddr := fun hv =>
    hslot.resolve_left hsize (hq₁.large _ (hq₂.large _ hv))
  have hl2 := pageSizeBit_of_not_holdsLarge h2 hnot
  have hsuffix₂ : slotPath c.virtAddr <:+ c.tablePath := by
    rw [MapRequest.tablePath, if_neg hsize]
  have heq := missing_all_eq hold₁ hnew₁ rfl hsize (fun hpres => installTable_of_present hpres hi₂)
    fun hpres => h₁.installTable_new (by simp) h3 hi₂ hpres (level2Index c.virtAddr)
  split at hr
  case h_2 rc₃ k₃ hne hi₃ =>
    cases hr
    exact ⟨_, heq.le, fun _ => heq,
      (hext₁.trans hext₂).trans (h₂.installTable_extends (by simp) h2 hl2 hsuffix₂ hi₃)⟩
  next k₃ hi₃ =>
  have hext₃ := h₂.installTable_extends (by simp) h2 hl2 hsuffix₂ hi₃
  obtain ⟨hq₃, hrc | ⟨-, -, h1⟩⟩ := h₂.installTable (by simp) h2 hl2 hi₃
  · cases hrc
  obtain ⟨used₃, h₃⟩ := hq₃.inv
  exact ⟨_, heq.le, fun _ => heq,
    ((hext₁.trans hext₂).trans hext₃).trans (h₃.installPage_extends h1 hr)⟩

/-! ## A request that succeeds -/

/-- A table is installed if there is a page for it. -/
theorem installTable_ok {entry : Nat}
    (hpage : present (k.mem.read entry 8) = 0 → nthPage k.alloc 0 ≠ 0) :
    ∃ k', installTable k entry = (.ok, k') := by
  rw [installTable]
  split
  · exact ⟨k, rfl⟩
  · next hpres =>
    have hne : (PageAllocator.getPhysicalPage k.alloc).1 ≠ 0 := hpage (not_not.1 hpres)
    dsimp only
    rw [if_neg hne]
    exact ⟨_, rfl⟩

/-- A missing table is one page of the allocator. -/
theorem installTable_alloc {entry : Nat} (hpres : present (k.mem.read entry 8) = 0)
    (hr : installTable k entry = (rc, k')) : k'.alloc = advance k.alloc 1 := by
  rcases installTable_inv hr with ⟨hold, -⟩ | ⟨-, -, rfl⟩ | ⟨-, -, -, rfl⟩
  · exact absurd hpres hold
  · rfl
  · rfl

/-- The slot of `v` is empty: neither a 2 MiB page nor a page table. -/
def SlotEmpty (m : Memory) (base v : Nat) : Prop :=
  ∀ w, entryAt tableChild m base (slotPath v) = some w → present w = 0

/-- An entry of a slot that is present is a 2 MiB page or names a page table. -/
theorem slotEmpty_of_not {m : Memory} {base v : Nat} (hlarge : ¬ HoldsLarge m base v)
    (htable : tableAt tableChild m base (slotPath v) = none) : SlotEmpty m base v := by
  intro w hw
  by_contra hpres
  have hpres := present_ne_zero_iff.1 hpres
  by_cases hps : pageSizeBit w = 0
  · rw [slotPath, tableAt_cons, ← slotPath, hw, Option.bind_some, tableChild,
      if_pos ⟨hpres, hps⟩] at htable
    cases htable
  · exact hlarge ⟨w, hw, hpres, hps⟩

/-- An empty slot holds neither. -/
theorem SlotEmpty.not_holdsLarge {m : Memory} {base v : Nat} (h : SlotEmpty m base v) :
    ¬ HoldsLarge m base v := by
  rintro ⟨w, hw, hpres, -⟩
  have := h w hw
  omega

/-- An empty slot has no table. -/
theorem SlotEmpty.tableAt_eq_none {m : Memory} {base v : Nat} (h : SlotEmpty m base v) :
    tableAt tableChild m base (slotPath v) = none := by
  rw [Option.eq_none_iff_forall_ne_some]
  intro a ha
  obtain ⟨w, hw, hpres, -⟩ := slot_of_table ha
  have := h w hw
  omega

/-- Tables of the upper levels fill no slot. -/
theorem Extends.slotEmpty (h : Extends top n k k') (htop : top.length < 3)
    (hlarge : HoldsLarge k'.mem k'.pml4Base v → HoldsLarge k.mem k.pml4Base v)
    (hempty : SlotEmpty k.mem k.pml4Base v) : SlotEmpty k'.mem k'.pml4Base v := by
  refine slotEmpty_of_not (fun hv => hempty.not_holdsLarge (hlarge hv)) ?_
  rw [Option.eq_none_iff_forall_ne_some]
  intro a ha
  rcases h.tables _ a (by simp [slotPath]) ha with ha | ⟨-, hsuffix, -⟩
  · rw [hempty.tableAt_eq_none] at ha
    cases ha
  · have := hsuffix.length_le
    simp only [slotPath, List.length_cons, List.length_nil] at this
    omega

/-- **A request for a 2 MiB page succeeds** if its slot is empty and the pages for the tables on its
way are there. -/
theorem KernelInv.mapStep_large (h : KernelInv k used) {va phy : Nat} (hphy : phy % 0x200000 = 0)
    (hempty : SlotEmpty k.mem k.pml4Base va)
    (hpages : ∀ i < tablesNeeded k ⟨va, phy, 0x200000⟩, nthPage k.alloc i ≠ 0) :
    ∃ k', ZeldaOS.mapStep k ⟨va, phy, 0x200000⟩ = some (.ok, k') := by
  have h4 : tableAt tableChild k.mem k.pml4Base [] = some k.pml4Base := rfl
  have hl4 := h.upper (level4Index va) [] _ (by simp) (entryAt_cons_of_some h4)
  simp only [tablesNeeded, if_true, Nat.zero_add] at hpages
  obtain ⟨k₁, hi₁⟩ : ∃ k₁, ZeldaOS.installTable k (k.pml4Base + 8 * level4Index va) =
      (.ok, k₁) := by
    refine installTable_ok fun hpres => hpages 0 ?_
    rw [if_pos hpres]
    decide
  have hext₁ := h.installTable_extends (by simp) h4 hl4 (List.suffix_cons (level3Index va) _) hi₁
  obtain ⟨hq₁, hrc | ⟨-, -, h3⟩⟩ := h.installTable (by simp) h4 hl4 hi₁
  · cases hrc
  obtain ⟨used₁, h₁⟩ := hq₁.inv
  have hl3 := h₁.upper (level3Index va) _ _ (by simp) (entryAt_cons_of_some h3)
  obtain ⟨k₂, hi₂⟩ : ∃ k₂, ZeldaOS.installTable k₁ (tableAddress (k₁.mem.read (k.pml4Base +
      8 * level4Index va) 8) + 8 * level3Index va) = (.ok, k₂) := by
    refine installTable_ok fun hpres => ?_
    by_cases hpres₄ : present (k.mem.read (k.pml4Base + 8 * level4Index va) 8) = 0
    · rw [installTable_alloc hpres₄ hi₁, nthPage, ← advance_add]
      exact hpages 1 (by rw [if_pos hpres₄]; decide)
    · cases installTable_of_present hpres₄ hi₁
      exact hpages 0 (by rw [if_neg hpres₄, if_pos hpres]; decide)
  have hext₂ := h₁.installTable_extends (by simp) h3 hl3 (List.suffix_refl _) hi₂
  obtain ⟨hq₂, hrc | ⟨-, -, h2⟩⟩ := h₁.installTable (by simp) h3 hl3 hi₂
  · cases hrc
  have hempty₂ := (hext₁.trans hext₂).slotEmpty (by simp)
    (fun hv => hq₁.large _ (hq₂.large _ hv)) hempty
  have hpres₂ := hempty₂ _ (entryAt_cons_of_some h2)
  have hmask : phy &&& 0x1fffff = 0 := by
    rw [show 0x1fffff = 2 ^ 21 - 1 from rfl, and_mask_eq_mod]
    exact hphy
  rw [ZeldaOS.mapStep, mapAddress, if_neg (by simp)]
  simp only [hi₁, hi₂]
  rw [if_pos trivial, ZeldaOS.installLargePage, if_neg (by simpa using hpres₂),
    if_neg (by simpa using hmask)]
  exact ⟨_, rfl⟩

/-- A 2 MiB page leaves the other slots empty. -/
theorem KernelInv.slotEmpty_of_mapStep (h : KernelInv k used) {va phy : Nat} (hphy : phy < 2 ^ 40)
    (hr : ZeldaOS.mapStep k ⟨va, phy, 0x200000⟩ = some (rc, k'))
    (hempty : SlotEmpty k.mem k.pml4Base v) (hne : slotPath v ≠ slotPath va) :
    SlotEmpty k'.mem k'.pml4Base v := by
  obtain ⟨n, -, -, hext⟩ := h.mapStep_extends (.inl rfl) hr
  refine hext.slotEmpty (by simp [MapRequest.tablePath]) (fun hlarge => ?_) hempty
  rcases (h.mapStep hphy (.inl rfl) hr).large hlarge with hlarge | ⟨-, hslot⟩
  · exact hlarge
  · exact absurd hslot hne

end

end ZeldaOS
