import ZeldaOS.Memory.Paging

/-!
# Correctness of kernel paging

The kernel's tables are a radix tree of four levels (`KernelInv`), and `pa` reads the two entries
that the path of an address names: the one of its 2 MiB slot and the one of its page
(`pa_eq_translate`). Installing a table leaves every translation as it was (`translate_link`),
because the new table is empty; storing a leaf changes the translations of its own slot or page
only. `KernelInv.mapStep` puts these together: it says what one call of `map_address` can do, as
long as it does not descend through a 2 MiB page.

That last case is a defect of the source. `map_address` takes the entry of a 2 MiB page for a
pointer to a page table, stores the new entry in the data of that page and reports success
(`mapAddress_large_slot_fails`). In the runs that avoid it a successful call maps its page
(`mapAddress_maps`), a failed call changes no translation and a successful one only those of its
page (`mapAddress_frame`).
-/

namespace ZeldaOS

/-- The table an entry of the upper levels points to. -/
def tableChild (w : Nat) : Option Nat :=
  if present w = 1 ∧ pageSizeBit w = 0 then some (tableAddress w) else none

/-! ## The walk -/

section
variable {m : Memory} {base a : Nat} {p : Path} {i : Fin 512}

/-- A present entry without the size bit leads to the table of its address, -/
theorem tableAt_of_present (ha : tableAt tableChild m base p = some a)
    (hpres : present (m.read (a + 8 * i) 8) = 1) (hps : pageSizeBit (m.read (a + 8 * i) 8) = 0) :
    tableAt tableChild m base (i :: p) = some (tableAddress (m.read (a + 8 * i) 8)) := by
  rw [tableAt_cons_of_some ha, tableChild, if_pos ⟨hpres, hps⟩]

/-- and an absent one leads nowhere. -/
theorem tableAt_of_not_present (ha : tableAt tableChild m base p = some a)
    (hpres : present (m.read (a + 8 * i) 8) = 0) : tableAt tableChild m base (i :: p) = none := by
  rw [tableAt_cons_of_some ha, tableChild, if_neg (by omega)]

/-- The translation of `va` by the entry of its page. -/
def translateEntry (w va : Nat) : Nat :=
  if present w = 0 then translationError else translatePage w va

/-- The translation of `va` by the entry of its slot and, below a page table, the one of its
page. -/
def translateSlot (w : Nat) (page : Option Nat) (va : Nat) : Nat :=
  if present w ≠ 0 ∧ pageSizeBit w ≠ 0 then translateLarge w va
  else if present w = 0 then translationError
  else page.elim translationError (translateEntry · va)

/-- The translation of `va` by the entries of its slot and of its page. -/
def translate (slot page : Option Nat) (va : Nat) : Nat :=
  slot.elim translationError (translateSlot · page va)

/-- The entries of the two upper levels are never 2 MiB pages. -/
def UpperTables (m : Memory) (base : Nat) : Prop :=
  ∀ i p w, p.length ≤ 1 → entryAt tableChild m base (i :: p) = some w → present w = 1 →
    pageSizeBit w = 0

/-- **`pa` reads the entries of the slot and of the page.** -/
theorem pa_eq_translate (hu : UpperTables m base) (va : Nat) :
    pa m base va = translate (entryAt tableChild m base (slotPath va))
      (entryAt tableChild m base (pagePath va)) va := by
  have h4 : tableAt tableChild m base [] = some base := rfl
  simp only [pa]
  generalize hw4 : m.read (base + 8 * level4Index va) 8 = w4
  split
  · next hn =>
    rw [← hw4] at hn
    have hnone := tableAt_of_not_present h4 hn
    rw [slotPath, entryAt_cons_of_none (tableAt_cons_of_none hnone)]
    rfl
  next hp4 =>
  rw [← hw4] at hp4
  have hp4 := present_ne_zero_iff.1 hp4
  have h3 := tableAt_of_present h4 hp4 (hu _ [] _ (by simp) (entryAt_cons_of_some h4) hp4)
  rw [hw4] at h3
  generalize hw3 : m.read (tableAddress w4 + 8 * level3Index va) 8 = w3
  split
  · next hn =>
    rw [← hw3] at hn
    rw [slotPath, entryAt_cons_of_none (tableAt_of_not_present h3 hn)]
    rfl
  next hp3 =>
  rw [← hw3] at hp3
  have hp3 := present_ne_zero_iff.1 hp3
  have h2 := tableAt_of_present h3 hp3 (hu _ _ _ (by simp) (entryAt_cons_of_some h3) hp3)
  rw [hw3] at h2
  rw [slotPath, entryAt_cons_of_some h2, translate, Option.elim_some, translateSlot]
  generalize hw2 : m.read (tableAddress w3 + 8 * level2Index va) 8 = w2
  split
  · rfl
  next hl =>
  split
  · rfl
  next hp2 =>
  have hps : pageSizeBit w2 = 0 := by
    by_contra hne
    exact hl ⟨hp2, hne⟩
  rw [← hw2] at hp2 hps
  have h1 := tableAt_of_present h2 (present_ne_zero_iff.1 hp2) hps
  rw [hw2] at h1
  rw [pagePath, slotPath, entryAt_cons_of_some h1, Option.elim_some, translateEntry]

/-- The slot of `v` holds a 2 MiB page. -/
def HoldsLarge (m : Memory) (base v : Nat) : Prop :=
  ∃ w, entryAt tableChild m base (slotPath v) = some w ∧ present w = 1 ∧ pageSizeBit w ≠ 0

/-- The walk of `holdsLargePage` finds the page. -/
theorem HoldsLarge.holdsLargePage (hu : UpperTables m base) {v : Nat}
    (h : HoldsLarge m base v) : holdsLargePage m base v = true := by
  obtain ⟨w, hw, hpres, hps⟩ := h
  have h4 : tableAt tableChild m base [] = some base := rfl
  by_cases hp4 : present (m.read (base + 8 * level4Index v) 8) = 0
  · rw [slotPath, entryAt_cons_of_none (tableAt_cons_of_none (tableAt_of_not_present h4 hp4))] at hw
    cases hw
  have hp4' := present_ne_zero_iff.1 hp4
  have h3 := tableAt_of_present h4 hp4' (hu _ [] _ (by simp) (entryAt_cons_of_some h4) hp4')
  by_cases hp3 : present (m.read (tableAddress (m.read (base + 8 * level4Index v) 8) +
      8 * level3Index v) 8) = 0
  · rw [slotPath, entryAt_cons_of_none (tableAt_of_not_present h3 hp3)] at hw
    cases hw
  have hp3' := present_ne_zero_iff.1 hp3
  have h2 := tableAt_of_present h3 hp3' (hu _ _ _ (by simp) (entryAt_cons_of_some h3) hp3')
  rw [slotPath, entryAt_cons_of_some h2, Option.some.injEq] at hw
  simp [ZeldaOS.holdsLargePage, hp4, hp3, hw, hpres, hps]

end

/-! ## Installing a table -/

section
variable {m m' : Memory} {base a b : Nat} {used : Set Nat} {p : Path} {i : Fin 512}

/-- An entry 0 leads nowhere. -/
theorem tableChild_zero : tableChild 0 = none := by decide

/-- The entry for a table leads to it. -/
theorem tableChild_tableEntry (h₁ : b % 4096 = 0) (h₂ : b < 2 ^ 52) :
    tableChild (tableEntry b) = some b := by
  rw [tableChild, if_pos ⟨present_tableEntry b, pageSizeBit_tableEntry b⟩,
    tableAddress_tableEntry h₁ h₂]

/-- A slot that is not present translates nothing. -/
theorem translateSlot_of_not_present {w : Nat} (hw : present w = 0) (page : Option Nat) (va : Nat) :
    translateSlot w page va = translationError := by
  rw [translateSlot, if_neg (fun h => h.1 hw), if_pos hw]

/-- Nor does a slot with a new page table. -/
theorem translateSlot_tableEntry_zero (b va : Nat) :
    translateSlot (tableEntry b) (some 0) va = translationError := by
  rw [translateSlot, pageSizeBit_tableEntry, present_tableEntry, if_neg (by decide),
    if_neg (by decide), Option.elim_some, translateEntry, if_pos (by decide)]

/-- **A new table changes no translation**: the addresses below it had none, and have none. -/
theorem translate_link (h : Linkable tableChild m m' base 4 used p a i b)
    (hpres : present (m.read (a + 8 * i) 8) = 0)
    (hentry : m'.read (a + 8 * i) 8 = tableEntry b) (va : Nat) :
    translate (entryAt tableChild m' base (slotPath va)) (entryAt tableChild m' base (pagePath va))
      va = translate (entryAt tableChild m base (slotPath va))
        (entryAt tableChild m base (pagePath va)) va := by
  have hslot := h.entryAt_eq (q := slotPath va) (by simp [slotPath])
  have hpage := h.entryAt_eq (q := pagePath va) (by simp [pagePath, slotPath])
  by_cases heq : slotPath va = i :: p
  · -- the slot's own entry: before not present, now an empty page table
    have hne : pagePath va ≠ i :: p := heq ▸ List.cons_ne_self _ (slotPath va)
    have hold : entryAt tableChild m base (slotPath va) = some (m.read (a + 8 * i) 8) := by
      rw [heq, entryAt_cons_of_some h.table]
    have htail : (pagePath va).tail = i :: p := heq
    rw [if_pos heq, hentry] at hslot
    rw [if_neg hne, if_pos htail] at hpage
    rw [hslot, hpage, hold, translate, translate, Option.elim_some, Option.elim_some,
      translateSlot_tableEntry_zero, translateSlot_of_not_present hpres]
  · have hpage' : entryAt tableChild m' base (pagePath va)
        = entryAt tableChild m base (pagePath va) := by
      have hlen : pagePath va ≠ i :: p := fun h' => by
        have := congrArg List.length h'
        have := h.length
        simp only [pagePath, slotPath, List.length_cons, List.length_nil] at *
        omega
      rw [hpage, if_neg hlen, pagePath, List.tail_cons, if_neg heq]
    rw [if_neg heq] at hslot
    split at hslot
    · next htail =>
      -- an entry of the new table: before there was none
      have hold : entryAt tableChild m base (slotPath va) = none := by
        rw [slotPath] at htail ⊢
        rw [List.tail_cons] at htail
        rw [entryAt_cons_of_none (htail ▸ h.tableAt_old)]
      rw [hslot, hold, translate, translate, Option.elim_some,
        translateSlot_of_not_present (by decide),
        Option.elim_none]
    · rw [hslot, hpage']

/-- A new table holds no 2 MiB page. -/
theorem holdsLarge_link (h : Linkable tableChild m m' base 4 used p a i b)
    (hentry : m'.read (a + 8 * i) 8 = tableEntry b) {v : Nat} (hv : HoldsLarge m' base v) :
    HoldsLarge m base v := by
  obtain ⟨w, hw, hpres, hps⟩ := hv
  rw [h.entryAt_eq (by simp [slotPath]), hentry] at hw
  split at hw
  · cases hw
    simp at hps
  · split at hw
    · cases hw
      exact absurd hpres (by decide)
    · exact ⟨w, hw, hpres, hps⟩

/-- A new table is no 2 MiB page. -/
theorem upperTables_link (h : Linkable tableChild m m' base 4 used p a i b)
    (hentry : m'.read (a + 8 * i) 8 = tableEntry b) (hu : UpperTables m base) :
    UpperTables m' base := by
  intro j q w hq hw hpres
  rw [h.entryAt_eq (by simp only [List.length_cons]; omega), hentry] at hw
  split at hw
  · cases hw
    exact pageSizeBit_tableEntry b
  · split at hw
    · cases hw
      exact absurd hpres (by decide)
    · exact hu j q w hq hw hpres

end

section
variable {A : Type} [PageAllocator A] {k k' k'' : Kernel A} {used : Set Nat} {a : Nat} {p : Path}
  {i : Fin 512} {rc : ErrorCode}

/-- The invariant of the kernel's tables: a radix tree of four levels over the pages `used`, with
fresh pages to come. -/
structure KernelInv (k : Kernel A) (used : Set Nat) : Prop where
  tables : Tables tableChild k.mem k.pml4Base 4 used
  upper : UpperTables k.mem k.pml4Base
  fresh : Fresh k.alloc used (2 ^ 52)

/-- A step that changes no translation: it may only grow the tree by empty tables. -/
structure Quiet (k k' : Kernel A) : Prop where
  inv : ∃ used, KernelInv k' used
  base : k'.pml4Base = k.pml4Base
  pa_eq : ∀ v, pa k'.mem k'.pml4Base v = pa k.mem k.pml4Base v
  large : ∀ v, HoldsLarge k'.mem k'.pml4Base v → HoldsLarge k.mem k.pml4Base v

/-- Nothing happened. -/
theorem Quiet.refl (h : KernelInv k used) : Quiet k k := ⟨⟨_, h⟩, rfl, fun _ => rfl, fun _ => id⟩

/-- One thing after the other. -/
theorem Quiet.trans (h : Quiet k k') (h' : Quiet k' k'') : Quiet k k'' :=
  ⟨h'.inv, h'.base.trans h.base, fun v => (h'.pa_eq v).trans (h.pa_eq v),
    fun v hv => h.large v (h'.large v hv)⟩

/-- Linking the page just allocated under an entry that is not present. -/
theorem KernelInv.linkable (h : KernelInv k used) (hp : p.length ≤ 2)
    (ha : tableAt tableChild k.mem k.pml4Base p = some a)
    (hpres : present (k.mem.read (a + 8 * i) 8) = 0) {b : Nat} (hal : b % 4096 = 0)
    (hlt : b < 2 ^ 52) (hfresh : b ∉ used) :
    Linkable tableChild k.mem ((k.mem.fill b 4096 0).write (a + 8 * i) 8 (tableEntry b))
      k.pml4Base 4 used p a i b := by
  have hau := h.tables.mem_used p a (by omega) ha
  have hne : a ≠ b := fun heq => hfresh (heq ▸ hau)
  refine ⟨h.tables, by omega, ha, ?_, hfresh, hal,
    links_fill_write _ (entry_page_disjoint (h.tables.aligned a hau) hal hne i), ?_,
    tableChild_zero⟩
  · rw [tableChild, if_neg (by omega)]
  · rw [Memory.read_write_self, Nat.mod_eq_of_lt (tableEntry_lt b), tableChild_tableEntry hal hlt]

/-- **Installing a table** under an entry that is no 2 MiB page changes no translation; on success
the entry points to a table. -/
theorem KernelInv.installTable (h : KernelInv k used) (hp : p.length ≤ 2)
    (ha : tableAt tableChild k.mem k.pml4Base p = some a)
    (hlarge : present (k.mem.read (a + 8 * i) 8) = 1 → pageSizeBit (k.mem.read (a + 8 * i) 8) = 0)
    (hr : installTable k (a + 8 * i) = (rc, k')) :
    Quiet k k' ∧ (rc = .outOfMemory ∨ (rc = .ok ∧
      tableAt tableChild k'.mem k'.pml4Base p = some a ∧
      tableAt tableChild k'.mem k'.pml4Base (i :: p)
        = some (tableAddress (k'.mem.read (a + 8 * i) 8)))) := by
  rcases installTable_inv hr with ⟨hpres, rfl, rfl⟩ | ⟨-, rfl, rfl⟩ | ⟨hpres, hne, rfl, rfl⟩
  · have hpres := present_ne_zero_iff.1 hpres
    exact ⟨.refl h, .inr ⟨rfl, ha, tableAt_of_present ha hpres (hlarge hpres)⟩⟩
  · exact ⟨⟨⟨used, h.tables, h.upper, h.fresh.next⟩, rfl, fun _ => rfl, fun _ => id⟩, .inl rfl⟩
  obtain ⟨hal, hlt, hfresh⟩ := h.fresh.head hne
  have hl := h.linkable hp ha hpres hal hlt hfresh
  have hentry : ((k.mem.fill (PageAllocator.getPhysicalPage k.alloc).1 4096 0).write (a + 8 * i) 8
      (tableEntry (PageAllocator.getPhysicalPage k.alloc).1)).read (a + 8 * i) 8
      = tableEntry (PageAllocator.getPhysicalPage k.alloc).1 := by
    rw [Memory.read_write_self, Nat.mod_eq_of_lt (tableEntry_lt _)]
  have hupper := upperTables_link hl hentry h.upper
  refine ⟨⟨⟨_, hl.tables', hupper, h.fresh.next_insert⟩, rfl, fun v => ?_,
    fun v => holdsLarge_link hl hentry⟩, .inr ⟨rfl, ?_, ?_⟩⟩
  · dsimp only
    rw [pa_eq_translate hupper, pa_eq_translate h.upper, translate_link hl hpres hentry]
  · dsimp only
    rw [hl.tableAt_eq (by omega), if_neg (List.cons_ne_self i p).symm, ha]
  · dsimp only
    rw [hentry, hl.tableAt_eq (by simp only [List.length_cons]; omega), if_pos rfl,
      tableAddress_tableEntry hal hlt]

/-! ## Storing a leaf -/

/-- A request to `map_address`. -/
structure MapRequest where
  virtAddr : Nat
  phyAddr : Nat
  pageSize : Nat
deriving DecidableEq, Repr

/-- Two addresses agree in the bits that a page of the given size translates. -/
def SamePage (pageSize v va : Nat) : Prop :=
  v / pageSize % (2 ^ 48 / pageSize) = va / pageSize % (2 ^ 48 / pageSize)

instance (pageSize v va : Nat) : Decidable (SamePage pageSize v va) :=
  inferInstanceAs (Decidable (_ = _))

/-- Two addresses are in one 2 MiB page exactly if they have the same slot, -/
theorem samePage_large {v va : Nat} : SamePage 0x200000 v va ↔ slotPath v = slotPath va :=
  slotPath_inj.symm

/-- and in one 4 KiB page exactly if they have the same path. -/
theorem samePage_small {v va : Nat} : SamePage 0x1000 v va ↔ pagePath v = pagePath va :=
  pagePath_inj.symm

/-- The request `c` took effect: the addresses of its page translate to its frame, and the others
as before. -/
structure Maps (k : Kernel A) (c : MapRequest) (k' : Kernel A) : Prop where
  inv : ∃ used, KernelInv k' used
  base : k'.pml4Base = k.pml4Base
  pa_eq : ∀ v, pa k'.mem k'.pml4Base v =
    if SamePage c.pageSize v c.virtAddr then c.phyAddr + v % c.pageSize
    else pa k.mem k.pml4Base v
  large : ∀ v, HoldsLarge k'.mem k'.pml4Base v →
    HoldsLarge k.mem k.pml4Base v ∨ (c.pageSize = 0x200000 ∧ slotPath v = slotPath c.virtAddr)

/-- What a call of `map_address` does: it fails and changes no translation, or it takes effect. -/
inductive MapEffect (k : Kernel A) (c : MapRequest) : ErrorCode → Kernel A → Prop
  | failed {rc : ErrorCode} {k' : Kernel A} : rc ≠ .ok → Quiet k k' → MapEffect k c rc k'
  | mapped {k' : Kernel A} : Maps k c k' → MapEffect k c .ok k'

/-- Steps that change no translation may come first. -/
theorem MapEffect.after {c : MapRequest} (h : MapEffect k' c rc k'') (hq : Quiet k k') :
    MapEffect k c rc k'' := by
  cases h with
  | failed hrc h => exact .failed hrc (hq.trans h)
  | mapped h =>
    refine .mapped ⟨h.inv, h.base.trans hq.base, fun v => ?_, fun v hv => ?_⟩
    · rw [h.pa_eq, hq.pa_eq]
    · rcases h.large v hv with hl | hl
      · exact .inl (hq.large v hl)
      · exact .inr hl

/-- A store below the two upper levels puts no 2 MiB page in them. -/
theorem upperTables_store {m m' : Memory} {base : Nat} (h : Tables tableChild m base 4 used)
    (hp : 2 ≤ p.length) (hp' : p.length < 4) (ha : tableAt tableChild m base p = some a)
    (hs : Stores m m' (a + 8 * i))
    (hleaf : p.length + 1 < 4 → tableChild (m.read (a + 8 * i) 8) = none ∧
      tableChild (m'.read (a + 8 * i) 8) = none)
    (hu : UpperTables m base) : UpperTables m' base := by
  intro j q w hq hw hpres
  have hne : j :: q ≠ i :: p := by
    rintro heq
    cases heq
    omega
  rw [h.entryAt_store hp' ha hs hleaf (by simp only [List.length_cons]; omega), if_neg hne] at hw
  exact hu j q w hq hw hpres

/-- The entry of a slot with a page table. -/
theorem slot_of_table {m : Memory} {base v : Nat}
    (h : tableAt tableChild m base (slotPath v) = some a) :
    ∃ w, entryAt tableChild m base (slotPath v) = some w ∧ present w = 1 ∧ pageSizeBit w = 0 := by
  rw [slotPath, tableAt_cons] at h
  obtain ⟨w, hw, hc⟩ := Option.bind_eq_some_iff.1 h
  rw [tableChild] at hc
  split at hc
  · next hw' => exact ⟨w, hw, hw'⟩
  · cases hc

/-- The entry of a slot without a 2 MiB page. -/
theorem pageSizeBit_of_not_holdsLarge {m : Memory} {base v : Nat}
    (h : tableAt tableChild m base [level3Index v, level4Index v] = some a)
    (hn : ¬ HoldsLarge m base v) (hpres : present (m.read (a + 8 * level2Index v) 8) = 1) :
    pageSizeBit (m.read (a + 8 * level2Index v) 8) = 0 := by
  by_contra hps
  exact hn ⟨_, entryAt_cons_of_some h, hpres, hps⟩

/-- A slot is no page: the paths differ in length. -/
theorem slot_ne_page {v va : Nat} : slotPath v ≠ pagePath va := by
  intro h
  simpa [slotPath, pagePath] using congrArg List.length h

/-- **Installing a 2 MiB page** in the slot's entry. -/
theorem KernelInv.installLargePage (h : KernelInv k used) {va phy : Nat} (hphy : phy < 2 ^ 40)
    (ha : tableAt tableChild k.mem k.pml4Base [level3Index va, level4Index va] = some a)
    (hr : installLargePage k (a + 8 * level2Index va) phy = some (rc, k')) :
    MapEffect k ⟨va, phy, 0x200000⟩ rc k' := by
  rcases installLargePage_inv hr with ⟨rfl, rfl⟩ | ⟨hpres, hal, rfl, rfl⟩
  · exact .failed (by decide) (.refl h)
  have hs := stores_write k.mem (a + 8 * level2Index va) (largeEntry phy)
  have hread := Memory.read_write_self k.mem (a + 8 * level2Index va) 8 (largeEntry phy)
  rw [Nat.mod_eq_of_lt (largeEntry_lt phy)] at hread
  generalize k.mem.write (a + 8 * level2Index va) 8 (largeEntry phy) = m' at hs hread
  have hleaf : tableChild (k.mem.read (a + 8 * level2Index va) 8) = none ∧
      tableChild (m'.read (a + 8 * level2Index va) 8) = none := by
    rw [hread, tableChild, tableChild, if_neg (by omega), if_neg (by simp)]
    exact ⟨rfl, rfl⟩
  have hentry : ∀ {q : Path}, q.length ≤ 4 → entryAt tableChild m' k.pml4Base q =
      if q = slotPath va then some (largeEntry phy) else entryAt tableChild k.mem k.pml4Base q := by
    intro q hq
    rw [h.tables.entryAt_store (by simp) ha hs (fun _ => hleaf) hq, hread]
    rfl
  have hupper := upperTables_store h.tables (by simp) (by simp) ha hs (fun _ => hleaf) h.upper
  refine .mapped ⟨⟨used, h.tables.store (by simp) ha hs fun _ => hleaf, hupper, h.fresh⟩, rfl,
    fun v => ?_, fun v hv => ?_⟩
  · dsimp only
    rw [pa_eq_translate hupper, pa_eq_translate h.upper, hentry (by simp [slotPath]),
      hentry (by simp [pagePath, slotPath]), if_neg slot_ne_page.symm]
    simp only [samePage_large]
    split
    · rw [translate, Option.elim_some, translateSlot, if_pos (by simp),
        translateLarge_largeEntry hal (by omega)]
    · rfl
  · obtain ⟨w, hw, hpres, hps⟩ := hv
    rw [hentry (by simp [slotPath])] at hw
    split at hw
    · next heq => exact .inr ⟨rfl, heq⟩
    · exact .inl ⟨w, hw, hpres, hps⟩

/-- **Installing a 4 KiB page** in the entry of a page table. -/
theorem KernelInv.installPage (h : KernelInv k used) {va phy : Nat} (hphy : phy < 2 ^ 40)
    (ha : tableAt tableChild k.mem k.pml4Base (slotPath va) = some a)
    (hr : installPage k (a + 8 * level1Index va) phy = some (rc, k')) :
    MapEffect k ⟨va, phy, 0x1000⟩ rc k' := by
  rcases installPage_inv hr with ⟨rfl, rfl⟩ | ⟨-, hal, rfl, rfl⟩
  · exact .failed (by decide) (.refl h)
  have hs := stores_write k.mem (a + 8 * level1Index va) (pageEntry phy)
  have hread := Memory.read_write_self k.mem (a + 8 * level1Index va) 8 (pageEntry phy)
  rw [Nat.mod_eq_of_lt (pageEntry_lt phy)] at hread
  generalize k.mem.write (a + 8 * level1Index va) 8 (pageEntry phy) = m' at hs hread
  -- the entries of a page table point to no table of the tree
  have hleaf : (slotPath va).length + 1 < 4 →
      tableChild (k.mem.read (a + 8 * level1Index va) 8) = none ∧
      tableChild (m'.read (a + 8 * level1Index va) 8) = none := by simp [slotPath]
  have hentry : ∀ {q : Path}, q.length ≤ 4 → entryAt tableChild m' k.pml4Base q =
      if q = pagePath va then some (pageEntry phy) else entryAt tableChild k.mem k.pml4Base q := by
    intro q hq
    rw [h.tables.entryAt_store (by simp [slotPath]) ha hs hleaf hq, hread]
    rfl
  have hupper := upperTables_store h.tables (by simp [slotPath]) (by simp [slotPath]) ha hs hleaf
    h.upper
  refine .mapped ⟨⟨used, h.tables.store (by simp [slotPath]) ha hs hleaf, hupper, h.fresh⟩, rfl,
    fun v => ?_, fun v hv => ?_⟩
  · dsimp only
    rw [pa_eq_translate hupper, pa_eq_translate h.upper, hentry (by simp [slotPath]),
      hentry (by simp [pagePath, slotPath]), if_neg slot_ne_page]
    simp only [samePage_small]
    split
    · next heq =>
      obtain ⟨w, hw, hpres, hps⟩ := slot_of_table ((List.cons.inj heq).2 ▸ ha)
      rw [hw, translate, Option.elim_some, translateSlot, hps, hpres, if_neg (by decide),
        if_neg (by decide), Option.elim_some, translateEntry, present_pageEntry,
        if_neg (by decide), translatePage_pageEntry hal (by omega)]
    · rfl
  · obtain ⟨w, hw, hpres, hps⟩ := hv
    rw [hentry (by simp [slotPath]), if_neg slot_ne_page] at hw
    exact .inl ⟨w, hw, hpres, hps⟩

/-! ## A call -/

/-- `map_address` as a step on requests. -/
def mapStep (k : Kernel A) (c : MapRequest) : Option (ErrorCode × Kernel A) :=
  mapAddress k c.virtAddr c.phyAddr c.pageSize

/-- **What one call does**, unless it asks for a 4 KiB page in a slot that holds a 2 MiB page. -/
theorem KernelInv.mapStep (h : KernelInv k used) {c : MapRequest} (hphy : c.phyAddr < 2 ^ 40)
    (hslot : c.pageSize = 0x200000 ∨ ¬ HoldsLarge k.mem k.pml4Base c.virtAddr)
    (hr : mapStep k c = some (rc, k')) : MapEffect k c rc k' := by
  obtain ⟨va, phy, size⟩ := c
  dsimp only at hphy hslot
  rw [ZeldaOS.mapStep, mapAddress] at hr
  split at hr
  · cases hr
  next hsize =>
  dsimp only at hr hsize
  have h4 : tableAt tableChild k.mem k.pml4Base [] = some k.pml4Base := rfl
  have hl4 := h.upper (level4Index va) [] _ (by simp) (entryAt_cons_of_some h4)
  split at hr
  case h_2 rc₁ k₁ hne hi =>
    cases hr
    exact .failed hne (h.installTable (by simp) h4 hl4 hi).1
  next k₁ hi₁ =>
  obtain ⟨hq₁, hrc | ⟨-, -, h3⟩⟩ := h.installTable (by simp) h4 hl4 hi₁
  · cases hrc
  obtain ⟨used₁, h₁⟩ := hq₁.inv
  refine MapEffect.after ?_ hq₁
  have hl3 := h₁.upper (level3Index va) _ _ (by simp) (entryAt_cons_of_some h3)
  split at hr
  case h_2 rc₂ k₂ hne hi =>
    cases hr
    exact .failed hne (h₁.installTable (by simp) h3 hl3 hi).1
  next k₂ hi₂ =>
  obtain ⟨hq₂, hrc | ⟨-, -, h2⟩⟩ := h₁.installTable (by simp) h3 hl3 hi₂
  · cases hrc
  obtain ⟨used₂, h₂⟩ := hq₂.inv
  refine MapEffect.after ?_ hq₂
  split at hr
  · next hsz => exact hsz ▸ h₂.installLargePage hphy h2 hr
  next hsz =>
  have hnot : ¬ HoldsLarge k₂.mem k₂.pml4Base va := fun hv =>
    hslot.resolve_left hsz (hq₁.large va (hq₂.large va hv))
  have hl2 := pageSizeBit_of_not_holdsLarge h2 hnot
  split at hr
  case h_2 rc₃ k₃ hne hi =>
    cases hr
    exact .failed hne (h₂.installTable (by simp) h2 hl2 hi).1
  next k₃ hi₃ =>
  obtain ⟨hq₃, hrc | ⟨-, -, h1⟩⟩ := h₂.installTable (by simp) h2 hl2 hi₃
  · cases hrc
  obtain ⟨used₃, h₃⟩ := hq₃.inv
  refine MapEffect.after ?_ hq₃
  obtain rfl : size = 0x1000 := by omega
  exact h₃.installPage hphy h1 hr

/-! ## Runs -/

/-- The states a run starts from: an empty PML4 table, and an allocator of fresh pages. -/
structure ZeroedPml4 (k : Kernel A) : Prop where
  aligned : k.pml4Base % 4096 = 0
  zero : ∀ x, k.pml4Base ≤ x → x < k.pml4Base + 4096 → k.mem x = 0
  fresh : Fresh k.alloc {k.pml4Base} (2 ^ 52)

/-- The invariant holds at the start. -/
theorem ZeroedPml4.kernelInv (h : ZeroedPml4 k) : KernelInv k {k.pml4Base} := by
  refine ⟨.of_zero h.zero tableChild_zero h.aligned, fun j q w _ hw hpres => ?_, h.fresh⟩
  cases q with
  | nil =>
    rw [entryAt_of_zero h.zero] at hw
    cases hw
    exact absurd hpres (by decide)
  | cons i q =>
    rw [entryAt_cons_of_none (tableAt_cons_of_zero h.zero tableChild_zero i q)] at hw
    cases hw

/-- No slot holds a 2 MiB page at the start. -/
theorem ZeroedPml4.not_holdsLarge (h : ZeroedPml4 k) (v : Nat) :
    ¬ HoldsLarge k.mem k.pml4Base v := by
  rintro ⟨w, hw, -⟩
  rw [slotPath, entryAt_cons_of_none (tableAt_cons_of_zero h.zero tableChild_zero _ _)] at hw
  cases hw

/-- One call keeps the invariant. -/
theorem MapEffect.inv {c : MapRequest} (h : MapEffect k c rc k') : ∃ used, KernelInv k' used := by
  cases h with
  | failed _ h => exact h.inv
  | mapped h => exact h.inv

/-- The 2 MiB pages after a call: the old ones and the requested one. -/
theorem MapEffect.large {c : MapRequest} (h : MapEffect k c rc k') {v : Nat}
    (hv : HoldsLarge k'.mem k'.pml4Base v) :
    HoldsLarge k.mem k.pml4Base v ∨ (c.pageSize = 0x200000 ∧ slotPath v = slotPath c.virtAddr) := by
  cases h with
  | failed _ h => exact .inl (h.large v hv)
  | mapped h => exact h.large v hv

/-- The requests that `map_address` serves: for a 2 MiB page, or in a slot without one. -/
def Mappable (k : Kernel A) (c : MapRequest) : Prop :=
  c.phyAddr < 2 ^ 40 ∧
    (c.pageSize = 0x200000 ∨ holdsLargePage k.mem k.pml4Base c.virtAddr = false)

/-- What a mappable request does. -/
theorem KernelInv.mapStep_of_mappable (h : KernelInv k used) {c : MapRequest} (hc : Mappable k c)
    (hr : ZeldaOS.mapStep k c = some (rc, k')) : MapEffect k c rc k' := by
  refine h.mapStep hc.1 (hc.2.imp_right fun hf hv => ?_) hr
  rw [hv.holdsLargePage h.upper] at hf
  cases hf

/-- **A successful `map_address` maps its page**, in every run whose requests for 4 KiB pages avoid
the slots that hold a 2 MiB page. -/
theorem mapAddress_maps {k₀ : Kernel A} {t : List (MapRequest × ErrorCode)} {c : MapRequest}
    (h₀ : ZeroedPml4 k₀) (hrun : Run ZeldaOS.mapStep Mappable k₀ t k) (hc : Mappable k c)
    (hr : ZeldaOS.mapStep k c = some (.ok, k')) :
    ∀ v, v / c.pageSize = c.virtAddr / c.pageSize →
      pa k'.mem k'.pml4Base v = c.phyAddr + v % c.pageSize := by
  obtain ⟨used, hinv⟩ : ∃ used, KernelInv k used :=
    hrun.inv (fun _ k => ∃ used, KernelInv k used) ⟨_, h₀.kernelInv⟩
      fun _ _ _ _ _ ⟨_, h⟩ hok hst => (h.mapStep_of_mappable hok hst).inv
  intro v hv
  cases hinv.mapStep_of_mappable hc hr with
  | failed hne _ => exact absurd rfl hne
  | mapped h => rw [h.pa_eq v, if_pos (by rw [SamePage, hv])]

/-- A kernel whose PML4 is the first page of the sample machine. -/
def sampleKernel : Kernel PhysicalMemory :=
  ⟨Memory.zero, (getPhysicalPage (initialMemory 0x200000 sampleSegments)).2, 0x401000⟩

/-- The sample starts with an empty table. -/
theorem zeroedPml4_sample : ZeroedPml4 sampleKernel := by
  have hinv : AllocInv 0x401000 [] (initialMemory 0x200000 sampleSegments) :=
    allocInv_initialMemory (by decide) (by decide) mapOk_sample
  refine ⟨by decide, fun _ _ _ => rfl, fresh_of_frontier hinv.frontierOk.getPhysicalPage.1 ?_⟩
  rintro _ rfl
  decide

/-- A page is mapped next to a large one. -/
theorem mapAddress_maps_sample :
    ∃ k k', Run ZeldaOS.mapStep Mappable sampleKernel [(⟨0, 0x600000, 0x200000⟩, .ok)] k ∧
      ZeldaOS.mapStep k ⟨0x200000, 0x5000, 0x1000⟩ = some (.ok, k') ∧
      pa k'.mem k'.pml4Base 0x200123 = 0x5123 := by
  have hex : (exec ZeldaOS.mapStep sampleKernel [⟨0, 0x600000, 0x200000⟩]).map (fun r => (r.1,
      holdsLargePage r.2.mem r.2.pml4Base 0x200000,
      (ZeldaOS.mapStep r.2 ⟨0x200000, 0x5000, 0x1000⟩).map Prod.fst))
      = some ([(⟨0, 0x600000, 0x200000⟩, .ok)], false, some .ok) := by decide +kernel
  obtain ⟨⟨t, k⟩, hk, heq⟩ := Option.map_eq_some_iff.1 hex
  simp only [Prod.mk.injEq] at heq
  obtain ⟨rfl, hslot, hst⟩ := heq
  obtain ⟨⟨rc, k'⟩, hk', rfl⟩ := Option.map_eq_some_iff.1 hst
  have hrun : Run ZeldaOS.mapStep Mappable sampleKernel _ k :=
    Run.nil.exec (by simp [Mappable]) hk
  have hc : Mappable k ⟨0x200000, 0x5000, 0x1000⟩ := ⟨by decide, .inr hslot⟩
  have hpa := mapAddress_maps zeroedPml4_sample hrun hc hk' 0x200123 (by decide)
  exact ⟨k, k', hrun, hk', hpa.trans (by decide)⟩

/-- **A 4 KiB page in a slot that holds a 2 MiB page**: the call succeeds, the 2 MiB page still
translates the address, and its data now holds the entry. -/
theorem mapAddress_large_slot_fails : ZeroedPml4 sampleKernel ∧ ∃ k,
    exec ZeldaOS.mapStep sampleKernel [⟨0, 0x600000, 0x200000⟩, ⟨0x1000, 0x5000, 0x1000⟩] =
      some ([(⟨0, 0x600000, 0x200000⟩, .ok), (⟨0x1000, 0x5000, 0x1000⟩, .ok)], k) ∧
    pa k.mem k.pml4Base 0x1000 = 0x601000 ∧ k.mem.read 0x600008 8 = 0x5003 := by
  have hex : (exec ZeldaOS.mapStep sampleKernel
      [⟨0, 0x600000, 0x200000⟩, ⟨0x1000, 0x5000, 0x1000⟩]).map (fun r => (r.1,
        pa r.2.mem r.2.pml4Base 0x1000, r.2.mem.read 0x600008 8))
      = some ([(⟨0, 0x600000, 0x200000⟩, .ok), (⟨0x1000, 0x5000, 0x1000⟩, .ok)], 0x601000, 0x5003)
      := by decide +kernel
  obtain ⟨⟨t, k⟩, hk, heq⟩ := Option.map_eq_some_iff.1 hex
  simp only [Prod.mk.injEq] at heq
  obtain ⟨rfl, hpa, hmem⟩ := heq
  exact ⟨zeroedPml4_sample, k, hk, hpa, hmem⟩

/-- The requests of callers that use each 2 MiB slot with one page size. -/
def OneSize (sizeOf : Nat → Nat) (_ : Kernel A) (c : MapRequest) : Prop :=
  c.phyAddr < 2 ^ 40 ∧ c.pageSize = sizeOf (c.virtAddr / 2 ^ 21 % 2 ^ 27)

/-- The invariant of such runs: the slots that hold a 2 MiB page are used for 2 MiB pages. -/
def OneSizeInv (sizeOf : Nat → Nat) (k : Kernel A) : Prop :=
  (∃ used, KernelInv k used) ∧
    ∀ v, HoldsLarge k.mem k.pml4Base v → sizeOf (v / 2 ^ 21 % 2 ^ 27) = 0x200000

/-- What a request does in such a run. -/
theorem OneSizeInv.mapStep {sizeOf : Nat → Nat} (h : OneSizeInv sizeOf k) {c : MapRequest}
    (hc : OneSize sizeOf k c) (hr : ZeldaOS.mapStep k c = some (rc, k')) : MapEffect k c rc k' := by
  obtain ⟨⟨used, hinv⟩, hlarge⟩ := h
  refine hinv.mapStep hc.1 ?_ hr
  by_cases hv : HoldsLarge k.mem k.pml4Base c.virtAddr
  · exact .inl (hc.2.trans (hlarge _ hv))
  · exact .inr hv

/-- One request keeps the invariant of such runs. -/
theorem OneSizeInv.step {sizeOf : Nat → Nat} (h : OneSizeInv sizeOf k) {c : MapRequest}
    (hc : OneSize sizeOf k c) (hr : ZeldaOS.mapStep k c = some (rc, k')) :
    OneSizeInv sizeOf k' := by
  have heff := h.mapStep hc hr
  refine ⟨heff.inv, fun v hv => ?_⟩
  rcases heff.large hv with hold | ⟨hsz, hslot⟩
  · exact h.2 v hold
  · rw [slotPath_inj.1 hslot, ← hc.2, hsz]

/-- **Frame and atomicity of `map_address`.** In every run that uses each 2 MiB slot with one page
size, a call that fails leaves every translation as it was, and one that succeeds leaves the
translations outside its page. -/
theorem mapAddress_frame {sizeOf : Nat → Nat} {k₀ : Kernel A} {t : List (MapRequest × ErrorCode)}
    {c : MapRequest} (h₀ : ZeroedPml4 k₀) (hrun : Run ZeldaOS.mapStep (OneSize sizeOf) k₀ t k)
    (hc : OneSize sizeOf k c) (hr : ZeldaOS.mapStep k c = some (rc, k')) :
    (rc ≠ .ok → ∀ v, pa k'.mem k'.pml4Base v = pa k.mem k.pml4Base v) ∧
    (rc = .ok → ∀ v, ¬ SamePage c.pageSize v c.virtAddr →
      pa k'.mem k'.pml4Base v = pa k.mem k.pml4Base v) := by
  have hinv : OneSizeInv sizeOf k :=
    hrun.inv (fun _ k => OneSizeInv sizeOf k)
      ⟨⟨_, h₀.kernelInv⟩, fun v hv => absurd hv (h₀.not_holdsLarge v)⟩
      fun _ _ _ _ _ h hok hst => h.step hok hst
  cases hinv.mapStep hc hr with
  | failed hne h => exact ⟨fun _ => h.pa_eq, fun heq => absurd heq hne⟩
  | mapped h =>
    refine ⟨fun hne => absurd rfl hne, fun _ v hv => ?_⟩
    rw [h.pa_eq v, if_neg hv]

/-- A page that is mapped stays as it is. -/
theorem mapAddress_frame_sample :
    ∃ k k', Run ZeldaOS.mapStep (OneSize fun _ => 0x1000) sampleKernel
        [(⟨0x1000, 0x5000, 0x1000⟩, .ok)] k ∧
      ZeldaOS.mapStep k ⟨0x1000, 0x6000, 0x1000⟩ = some (.duplication, k') ∧
      pa k'.mem k'.pml4Base 0x1000 = pa k.mem k.pml4Base 0x1000 := by
  have hex : (exec ZeldaOS.mapStep sampleKernel [⟨0x1000, 0x5000, 0x1000⟩]).map (fun r => (r.1,
      (ZeldaOS.mapStep r.2 ⟨0x1000, 0x6000, 0x1000⟩).map Prod.fst))
      = some ([(⟨0x1000, 0x5000, 0x1000⟩, .ok)], some .duplication) := by decide +kernel
  obtain ⟨⟨t, k⟩, hk, heq⟩ := Option.map_eq_some_iff.1 hex
  simp only [Prod.mk.injEq] at heq
  obtain ⟨rfl, hst⟩ := heq
  obtain ⟨⟨rc, k'⟩, hk', rfl⟩ := Option.map_eq_some_iff.1 hst
  have hrun : Run ZeldaOS.mapStep (OneSize fun _ => 0x1000) sampleKernel _ k :=
    Run.nil.exec (by simp [OneSize]) hk
  exact ⟨k, k', hrun, hk',
    (mapAddress_frame zeroedPml4_sample hrun ⟨by decide, rfl⟩ hk').1 (by decide) 0x1000⟩

end

end ZeldaOS
