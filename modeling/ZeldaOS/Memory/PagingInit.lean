import ZeldaOS.Memory.PagingTables

/-!
# Initialisation of the kernel's paging

Model of `paging_init`: a cleared page becomes the PML4, and the first 2 GiB are mapped to
themselves by 1024 calls of `map_address`, each asserted to succeed.

The invariant of the loop (`BootInv`) says that the addresses below the loop counter are mapped to
themselves, that the slots from the counter on are empty, and which tables there are. The tables are
three: one for the PML4's first entry and one for each GiB; so `paging_init` takes four pages and
returns if they are there (`pagingInit_returns`).
-/

namespace ZeldaOS

/-- `INITIAL_VA_CEILING`. -/
def initialVaCeiling : Nat := 0x80000000

section
variable {A : Type} [PageAllocator A]

/-- The loop of `paging_init`, for at most `fuel` iterations. -/
def pagingInitLoop : Nat → Kernel A → Nat → Option (Kernel A)
  | 0, _, _ => none
  | fuel + 1, k, virtAddr =>
    if virtAddr < initialVaCeiling then
      match mapAddress k virtAddr virtAddr 0x200000 with
      | some (.ok, k) => pagingInitLoop fuel k (virtAddr + 0x200000)
      | _ => none
    else some k

/-- `paging_init`. The loop takes 1024 iterations, and the page of the PML4 is not checked. -/
def pagingInit (k : Kernel A) : Option (Kernel A) :=
  let page := PageAllocator.getPhysicalPage k.alloc
  pagingInitLoop 1025 { mem := k.mem.fill page.1 4096 0, alloc := page.2, pml4Base := page.1 } 0

/-- How many tables there are below the PML4 when the loop has reached `virtAddr`. -/
def bootTables (virtAddr : Nat) : Nat :=
  if virtAddr = 0 then 0 else if virtAddr ≤ 2 ^ 30 then 2 else 3

/-- The state of the loop at `virtAddr`, for an allocator that was `a₀` when it began. -/
structure BootInv (a₀ : A) (base virtAddr : Nat) (k : Kernel A) : Prop where
  inv : ∃ used, KernelInv k used
  base : k.pml4Base = base
  identity : ∀ v < virtAddr, pa k.mem k.pml4Base v = v
  empty : ∀ v, virtAddr ≤ v → v < 2 ^ 48 → SlotEmpty k.mem k.pml4Base v
  alloc : k.alloc = advance a₀ (bootTables virtAddr)
  tables : ∀ q a, q.length < 4 → tableAt tableChild k.mem k.pml4Base q = some a → q ≠ [] →
    (∃ u < virtAddr, q <:+ [level3Index u, level4Index u]) ∧ a ≠ 0 ∧
      ∃ i < bootTables virtAddr, nthPage a₀ i = a

end

/-! ## The tables of the loop -/

section
variable {A : Type} {k : Kernel A}

theorem bootTables_le (virtAddr : Nat) : bootTables virtAddr ≤ 3 := by
  rw [bootTables]
  split_ifs <;> omega

/-- An address below 2^48 is no translation error. -/
theorem ne_translationError {v : Nat} (hv : v < 2 ^ 48) : v ≠ translationError := by
  rw [translationError]
  omega

/-- The upper tables of a mapped address are there. -/
theorem exists_tables_of_pa {m : Memory} {base v : Nat} (h : UpperTables m base)
    (hv : pa m base v ≠ translationError) :
    ∃ a b, tableAt tableChild m base [level4Index v] = some a ∧
      tableAt tableChild m base [level3Index v, level4Index v] = some b := by
  obtain ⟨w, hw, -⟩ := pa_ne_error h hv
  obtain ⟨b, hb⟩ := exists_tables_of_slot hw
  have hb' := hb
  rw [tableAt, Option.bind_eq_some_iff] at hb'
  obtain ⟨a, ha, -⟩ := hb'
  exact ⟨a, b, ha, hb⟩

/-- An entry of the upper levels without a table is not present. -/
theorem not_present_of_tableAt {m : Memory} {base a : Nat} {p : Path} {i : Fin 512}
    (h : UpperTables m base) (hp : p.length ≤ 1) (ha : tableAt tableChild m base p = some a)
    (hnone : tableAt tableChild m base (i :: p) = none) : present (m.read (a + 8 * i) 8) = 0 := by
  by_contra hpres
  have hpres := present_ne_zero_iff.1 hpres
  rw [tableAt_of_present ha hpres (h i p _ hp (entryAt_cons_of_some ha) hpres)] at hnone
  cases hnone

/-- The tables that a 2 MiB page needs, below a table of the second level. -/
theorem tablesNeeded_of_upper {va phy a : Nat}
    (ha : tableAt tableChild k.mem k.pml4Base [level4Index va] = some a) :
    tablesNeeded k ⟨va, phy, 0x200000⟩ = missing k.mem (a + 8 * level3Index va) := by
  obtain ⟨hpres, rfl⟩ := present_of_tableAt tableAt_nil ha
  simp only [tablesNeeded, if_true, missing]
  rw [if_neg (by omega)]

/-- The first two GiB have one table at level 3, and each of them one at level 2. -/
theorem level4Index_eq {u v : Nat} (hu : u < 2 ^ 39) (hv : v < 2 ^ 39) :
    level4Index u = level4Index v := by
  rw [level4Index, level4Index, levelIndex_inj]
  omega

theorem level3Index_eq_iff {u v : Nat} (hu : u < 2 ^ 39) (hv : v < 2 ^ 39) :
    level3Index u = level3Index v ↔ u / 2 ^ 30 = v / 2 ^ 30 := by
  rw [level3Index, level3Index, levelIndex_inj]
  omega

/-- The first 2 MiB page of a GiB needs one table, when another GiB is mapped. -/
theorem tablesNeeded_gib {u va phy : Nat} (h : UpperTables k.mem k.pml4Base) (hu : u < 2 ^ 39)
    (hva : va < 2 ^ 39) (hmapped : pa k.mem k.pml4Base u ≠ translationError)
    (hnone : tableAt tableChild k.mem k.pml4Base [level3Index va, level4Index va] = none) :
    tablesNeeded k ⟨va, phy, 0x200000⟩ = 1 := by
  obtain ⟨a, -, ha, -⟩ := exists_tables_of_pa h hmapped
  rw [level4Index_eq hu hva] at ha
  rw [tablesNeeded_of_upper ha, missing, if_pos (not_present_of_tableAt h (by simp) ha hnone)]

end

section
variable {A : Type} [PageAllocator A] {k k' : Kernel A} {a₀ : A} {base virtAddr : Nat}

/-- Where the loop has not been yet, there is no table for a GiB. -/
theorem BootInv.tableAt_eq_none (h : BootInv a₀ base virtAddr k) {v : Nat} (hv : v < 2 ^ 39)
    (hnew : ∀ u < virtAddr, u / 2 ^ 30 ≠ v / 2 ^ 30) (hlt : virtAddr ≤ 2 ^ 39) :
    tableAt tableChild k.mem k.pml4Base [level3Index v, level4Index v] = none := by
  rw [Option.eq_none_iff_forall_ne_some]
  intro a ha
  obtain ⟨⟨u, hu, hsuffix⟩, -⟩ := h.tables _ a (by simp) ha (by simp)
  have heq := hsuffix.eq_of_length (by simp)
  rw [List.cons.injEq, eq_comm, level3Index_eq_iff (by omega) hv] at heq
  exact hnew u hu heq.1

/-- The number of tables that one iteration adds. -/
theorem BootInv.tablesNeeded (h : BootInv a₀ base virtAddr k) (hal : virtAddr % 0x200000 = 0)
    (hlt : virtAddr < initialVaCeiling) :
    bootTables virtAddr + tablesNeeded k ⟨virtAddr, virtAddr, 0x200000⟩ =
      bootTables (virtAddr + 0x200000) := by
  rw [initialVaCeiling] at hlt
  obtain ⟨used, hinv⟩ := h.inv
  rcases Nat.eq_zero_or_pos virtAddr with rfl | hpos
  · -- the PML4 is empty
    have hnone : tableAt tableChild k.mem k.pml4Base [level4Index 0] = none := by
      rw [Option.eq_none_iff_forall_ne_some]
      intro a ha
      obtain ⟨⟨u, hu, -⟩, -⟩ := h.tables _ a (by simp) ha (by simp)
      omega
    have hpres := not_present_of_tableAt hinv.upper (by simp) tableAt_nil hnone
    simp only [ZeldaOS.tablesNeeded, if_pos hpres]
    decide
  · -- the slot before is mapped, so its tables are there
    have hlt' : virtAddr < 2 ^ 39 := by omega
    have hprev' : virtAddr - 0x200000 < 2 ^ 39 := by omega
    have hprev : pa k.mem k.pml4Base (virtAddr - 0x200000) ≠ translationError := by
      rw [h.identity (virtAddr - 0x200000) (by omega)]
      exact ne_translationError (by omega)
    by_cases hgib : virtAddr % 2 ^ 30 = 0
    · have hnone := h.tableAt_eq_none hlt' (fun u hu => by omega) (by omega)
      rw [tablesNeeded_gib hinv.upper hprev' hlt' hprev hnone]
      obtain rfl : virtAddr = 2 ^ 30 := by omega
      decide
    · obtain ⟨a, b, ha, hb⟩ := exists_tables_of_pa hinv.upper hprev
      rw [level4Index_eq hprev' hlt'] at ha hb
      rw [(level3Index_eq_iff hprev' hlt').2 (by omega)] at hb
      obtain ⟨hpres, -⟩ := present_of_tableAt ha hb
      rw [tablesNeeded_of_upper ha, missing_of_present (by omega), bootTables, bootTables,
        if_neg (by omega), if_neg (show virtAddr + 0x200000 ≠ 0 by omega)]
      by_cases hlow : virtAddr ≤ 2 ^ 30
      · rw [if_pos hlow, if_pos (by omega)]
      · rw [if_neg hlow, if_neg (by omega)]

/-- **One iteration** maps the slot at the counter to itself. -/
theorem BootInv.step (h : BootInv a₀ base virtAddr k) (hal : virtAddr % 0x200000 = 0)
    (hlt : virtAddr < initialVaCeiling)
    (hr : mapStep k ⟨virtAddr, virtAddr, 0x200000⟩ = some (.ok, k')) :
    BootInv a₀ base (virtAddr + 0x200000) k' := by
  have hneed := h.tablesNeeded hal hlt
  rw [initialVaCeiling] at hlt
  obtain ⟨used, hinv⟩ := h.inv
  obtain ⟨n, -, hn, hext⟩ := hinv.mapStep_extends (.inl rfl) hr
  rw [hn (by decide)] at hext
  have hpath : MapRequest.tablePath ⟨virtAddr, virtAddr, 0x200000⟩ =
      [level3Index virtAddr, level4Index virtAddr] := if_pos rfl
  rw [hpath] at hext
  cases hinv.mapStep (by dsimp only; omega) (.inl rfl) hr with
  | failed hne _ => exact absurd rfl hne
  | mapped hmaps =>
  refine ⟨hmaps.inv, hmaps.base.trans h.base, fun v hv => ?_, fun v hv hv' => ?_, ?_,
    fun q a hq ha hne => ?_⟩
  · rw [hmaps.pa_eq v]
    dsimp only
    split
    · next hsame =>
      rw [SamePage] at hsame
      omega
    · next hsame =>
      rw [SamePage] at hsame
      exact h.identity v (by omega)
  · refine hinv.slotEmpty_of_mapStep (by omega) hr (h.empty v (by omega) hv') fun hslot => ?_
    rw [slotPath_inj] at hslot
    omega
  · rw [hext.alloc, h.alloc, ← advance_add, hneed]
  · rcases hext.tables q a hq ha with ha | ⟨-, hsuffix, hane, i, hi, heq⟩
    · obtain ⟨⟨u, hu, hsuffix⟩, hane, i, hi, heq⟩ := h.tables q a hq ha hne
      exact ⟨⟨u, by omega, hsuffix⟩, hane, i, by omega, heq⟩
    · refine ⟨⟨virtAddr, by omega, hsuffix⟩, hane, bootTables virtAddr + i, by omega, ?_⟩
      rw [nthPage, advance_add, ← h.alloc]
      exact heq

/-- **The loop** maps the first 2 GiB to themselves. -/
theorem BootInv.pagingInitLoop {fuel : Nat} (h : BootInv a₀ base virtAddr k)
    (hal : virtAddr % 0x200000 = 0) (hle : virtAddr ≤ initialVaCeiling)
    (hr : pagingInitLoop fuel k virtAddr = some k') : BootInv a₀ base initialVaCeiling k' := by
  induction fuel generalizing k virtAddr with
  | zero => cases hr
  | succ fuel ih =>
    rw [ZeldaOS.pagingInitLoop] at hr
    split at hr
    · next hlt =>
      split at hr
      · next k₁ hst =>
        rw [initialVaCeiling] at hlt ih
        exact ih (h.step hal hlt hst) (by omega) (by omega) hr
      · cases hr
    · next hge =>
      cases hr
      obtain rfl : virtAddr = initialVaCeiling := by omega
      exact h

/-- The loop returns if the pages of the tables are there. -/
theorem BootInv.pagingInitLoop_returns {fuel : Nat} (h : BootInv a₀ base virtAddr k)
    (hal : virtAddr % 0x200000 = 0) (hle : virtAddr ≤ initialVaCeiling)
    (hpages : ∀ i < 3, nthPage a₀ i ≠ 0)
    (hfuel : initialVaCeiling + 0x200000 ≤ virtAddr + 0x200000 * fuel) :
    ∃ k', ZeldaOS.pagingInitLoop fuel k virtAddr = some k' := by
  induction fuel generalizing k virtAddr with
  | zero => omega
  | succ fuel ih =>
    rw [ZeldaOS.pagingInitLoop]
    split
    · next hlt =>
      obtain ⟨used, hinv⟩ := h.inv
      have hneed := h.tablesNeeded hal hlt
      have hmax := bootTables_le (virtAddr + 0x200000)
      have hempty := h.empty virtAddr (Nat.le_refl _) (by rw [initialVaCeiling] at hlt; omega)
      obtain ⟨k₁, hst⟩ := hinv.mapStep_large hal hempty fun i hi => by
        rw [nthPage, h.alloc, ← advance_add, ← nthPage]
        exact hpages _ (by omega)
      have hnext := h.step hal hlt hst
      have hle' : virtAddr + 0x200000 ≤ initialVaCeiling := by
        rw [initialVaCeiling] at hlt ⊢
        omega
      rw [mapStep] at hst
      simp only [hst]
      exact ih hnext (by omega) hle' (by omega)
    · exact ⟨k, rfl⟩

/-- The state in which the loop begins. -/
theorem bootInv_zero (hfresh : Fresh k.alloc ∅ (2 ^ 52))
    (hne : (PageAllocator.getPhysicalPage k.alloc).1 ≠ 0) :
    BootInv (PageAllocator.getPhysicalPage k.alloc).2 (PageAllocator.getPhysicalPage k.alloc).1 0
      ⟨k.mem.fill (PageAllocator.getPhysicalPage k.alloc).1 4096 0,
        (PageAllocator.getPhysicalPage k.alloc).2, (PageAllocator.getPhysicalPage k.alloc).1⟩ := by
  obtain ⟨hal, -, -⟩ := hfresh.head hne
  have hnext := hfresh.next_insert
  rw [insert_empty_eq] at hnext
  have hzero : ZeroedPml4
      (⟨k.mem.fill (PageAllocator.getPhysicalPage k.alloc).1 4096 0,
        (PageAllocator.getPhysicalPage k.alloc).2, (PageAllocator.getPhysicalPage k.alloc).1⟩ :
        Kernel A) := ⟨hal, fun x h₁ h₂ => Memory.fill_apply_of_mem h₁ h₂, hnext⟩
  refine ⟨⟨_, hzero.kernelInv⟩, rfl, fun v hv => absurd hv (Nat.not_lt_zero v),
    fun v _ _ => ?_, rfl,
    fun q a _ ha hq => absurd (tableAt_of_zero hzero.zero tableChild_zero ha).1 hq⟩
  exact slotEmpty_of_not (hzero.not_holdsLarge v)
    (tableAt_cons_of_zero hzero.zero tableChild_zero _ _)

/-- **What `paging_init` leaves**: the first 2 GiB mapped to themselves by three tables below the
PML4. -/
theorem pagingInit_boot (hfresh : Fresh k.alloc ∅ (2 ^ 52)) (hne : nthPage k.alloc 0 ≠ 0)
    (hr : pagingInit k = some k') :
    BootInv (PageAllocator.getPhysicalPage k.alloc).2 (nthPage k.alloc 0) initialVaCeiling k' := by
  rw [pagingInit] at hr
  exact (bootInv_zero hfresh hne).pagingInitLoop rfl (Nat.zero_le _) hr

/-- **`paging_init` returns** if there are four pages. -/
theorem pagingInit_returns (hfresh : Fresh k.alloc ∅ (2 ^ 52))
    (hpages : ∀ i < 4, nthPage k.alloc i ≠ 0) : ∃ k', pagingInit k = some k' := by
  rw [pagingInit]
  refine (bootInv_zero hfresh (hpages 0 (by omega))).pagingInitLoop_returns rfl (Nat.zero_le _)
    (fun i hi => hpages (i + 1) (by omega)) ?_
  rw [initialVaCeiling]

end

end ZeldaOS
