import ZeldaOS.Memory.PagingInit

/-!
# The kernel's tables and the identity map

`pa` and `map_address` walk the tables in software and use the physical address of a table as a
pointer. That is right for the tables that the kernel's paging maps to themselves. `paging_init`
maps the first 2 GiB so, but `map_address` takes the pages of later tables from the frontier of the
page allocator, wherever it is, and does not check them as `map_ept_page` does.

`TableSafe` is the condition under which a step is safe: the pages that a call of `map_address`
takes for its tables are mapped to themselves when it takes them. In the runs whose steps are safe
every table stays mapped to itself (`kernelTables_mapped_to_themselves`). On a machine with more
than 2 GiB below the hole the frontier leaves the identity map (`kernelTables_leave_identity_map`).
-/

namespace ZeldaOS

/-- The calls of the kernel's memory management. -/
inductive KernelEvent
  /-- `get_physical_pages`. -/
  | pages (nrPages : Int)
  /-- `map_address`. -/
  | map (c : MapRequest)
deriving DecidableEq, Repr

/-- What they return. -/
inductive KernelReply
  | page (addr : Nat)
  | code (rc : ErrorCode)
deriving DecidableEq, Repr

/-- One call. -/
def kernelStep (k : Kernel PhysicalMemory) :
    KernelEvent → Option (KernelReply × Kernel PhysicalMemory)
  | .pages n => (getPhysicalPages k.alloc n).map fun r => (.page r.1, { k with alloc := r.2 })
  | .map c => (mapStep k c).map fun r => (.code r.1, r.2)

/-- The calls that keep the tables mapped to themselves: requests of fewer than 2^19 pages, and
mappings that do not ask for a 4 KiB page in a slot that holds a 2 MiB page and whose tables come
from pages mapped to themselves. -/
def TableSafe (k : Kernel PhysicalMemory) : KernelEvent → Prop
  | .pages n => RequestOk n
  | .map c => (c.pageSize = 0x200000 ∨ holdsLargePage k.mem k.pml4Base c.virtAddr = false) ∧
      ∀ i < tablesNeeded k c, nthPage k.alloc i ≠ 0 →
        pa k.mem k.pml4Base (nthPage k.alloc i) = nthPage k.alloc i

/-- Every table below the PML4 is mapped to itself. -/
def TablesReachable (m : Memory) (base : Nat) : Prop :=
  ∀ q a, 1 ≤ q.length → q.length < 4 → tableAt tableChild m base q = some a → pa m base a = a

/-- The invariant of safe runs. -/
structure IdentityInv (k : Kernel PhysicalMemory) : Prop where
  tables : ∃ used, Tables tableChild k.mem k.pml4Base 4 used
  upper : UpperTables k.mem k.pml4Base
  frontier : FrontierOk k.alloc
  below : ∀ q a, q.length < 4 → tableAt tableChild k.mem k.pml4Base q = some a →
    a < k.alloc.currentAvailPage
  reachable : TablesReachable k.mem k.pml4Base

section
variable {k k' : Kernel PhysicalMemory} {c : MapRequest} {e : KernelEvent} {reply : KernelReply}
  {rc : ErrorCode}

/-- A call of `get_physical_pages` is a step, -/
theorem kernelStep_pages {n : Int} {r : Nat} {s : PhysicalMemory}
    (h : getPhysicalPages k.alloc n = some (r, s)) :
    kernelStep k (.pages n) = some (.page r, { k with alloc := s }) := by
  rw [kernelStep, h, Option.map_some]

/-- and so is one of `map_address`. -/
theorem kernelStep_map (h : mapStep k c = some (rc, k')) :
    kernelStep k (.map c) = some (.code rc, k') := by
  rw [kernelStep, h, Option.map_some]

/-- The pages of a tree may be taken to be its tables. -/
theorem Tables.shrink {child : Nat → Option Nat} {m : Memory} {base depth : Nat} {used : Set Nat}
    (h : Tables child m base depth used) :
    Tables child m base depth {a | ∃ q, q.length < depth ∧ tableAt child m base q = some a} :=
  ⟨fun a ⟨q, hq, ha⟩ => h.aligned a (h.mem_used q a hq ha), fun q _ hq ha => ⟨q, hq, ha⟩, h.inj⟩

/-- The tables lie below the frontier, so the pages to come are fresh. -/
theorem IdentityInv.kernelInv (h : IdentityInv k) : ∃ used, KernelInv k used := by
  obtain ⟨used, htables⟩ := h.tables
  refine ⟨_, htables.shrink, h.upper, fresh_of_frontier h.frontier ?_⟩
  rintro a ⟨q, hq, ha⟩
  exact h.below q a hq ha

/-- A table page is no translation error. -/
theorem IdentityInv.ne_error (h : IdentityInv k) {q : Path} {a : Nat} (hq : q.length < 4)
    (ha : tableAt tableChild k.mem k.pml4Base q = some a) : a ≠ translationError := by
  have := h.below q a hq ha
  have := h.frontier.bound
  rw [translationError]
  omega

/-- A request of pages moves the frontier. -/
theorem IdentityInv.pages (h : IdentityInv k) {n : Int} {r : Nat} {s : PhysicalMemory}
    (hn : RequestOk n) (hst : getPhysicalPages k.alloc n = some (r, s)) :
    IdentityInv { k with alloc := s } := by
  rcases getPhysicalPages_cases h.frontier.map h.frontier.bound h.frontier.aligned hn hst with
    ⟨-, rfl⟩ | ⟨next, -, rfl, hnext, hbound, hal⟩
  · exact h
  · have hmap := h.frontier.map
    refine ⟨h.tables, h.upper, ⟨⟨hmap.1, hmap.2, hmap.3, hmap.4⟩, hal, hbound⟩,
      fun q a hq ha => ?_, h.reachable⟩
    have := h.below q a hq ha
    dsimp only
    omega

/-- A safe mapping extends the tree by tables from the next pages of the allocator. -/
theorem IdentityInv.map_extends (h : IdentityInv k) (hc : TableSafe k (.map c))
    (hst : mapStep k c = some (rc, k')) :
    ∃ top n, n ≤ tablesNeeded k c ∧ Extends top n k k' := by
  obtain ⟨used, hinv⟩ := h.kernelInv
  have hslot : c.pageSize = 0x200000 ∨ ¬ HoldsLarge k.mem k.pml4Base c.virtAddr := by
    refine hc.1.imp_right fun hf hv => ?_
    rw [hv.holdsLargePage h.upper] at hf
    cases hf
  obtain ⟨n, hn, -, hext⟩ := hinv.mapStep_extends hslot hst
  exact ⟨_, n, hn, hext⟩

/-- A mapping whose new tables are mapped to themselves. -/
theorem IdentityInv.map (h : IdentityInv k) (hc : TableSafe k (.map c))
    (hst : mapStep k c = some (rc, k')) : IdentityInv k' := by
  obtain ⟨top, n, hn, hext⟩ := h.map_extends hc hst
  obtain ⟨used', hinv'⟩ := hext.inv
  have hreach : Reaches k.alloc k'.alloc := ⟨n, hext.alloc⟩
  have hle : k.alloc.currentAvailPage ≤ k'.alloc.currentAvailPage := by
    rw [hext.alloc]
    exact (h.frontier.advance n).2
  refine ⟨⟨used', hinv'.tables⟩, hinv'.upper, by rw [hext.alloc]; exact (h.frontier.advance n).1,
    fun q a hq ha => ?_, fun q a hq hq' ha => ?_⟩
  · rcases hext.tables q a hq ha with ha | ⟨-, -, hne, i, hi, heq⟩
    · have := h.below q a hq ha
      omega
    · have := (h.frontier.handed ⟨n, i, hext.alloc, hi, heq⟩ hne).2
      omega
  · -- old tables keep their translation, and new ones had theirs before they were taken
    have hpa : pa k.mem k.pml4Base a = a ∧ a ≠ translationError := by
      rcases hext.tables q a hq' ha with ha | ⟨-, -, hne, i, hi, heq⟩
      · exact ⟨h.reachable q a hq hq' ha, h.ne_error hq' ha⟩
      · have hfresh : Fresh k.alloc ∅ (2 ^ 52) := fresh_of_frontier h.frontier (by simp)
        have hlt := hfresh.handed ⟨n, i, hext.alloc, hi, heq⟩ hne
        have hsafe := hc.2 i (by omega) (heq ▸ hne)
        rw [heq] at hsafe
        refine ⟨hsafe, ?_⟩
        rw [translationError]
        omega
    rw [hext.pa_eq h.upper (by rw [hpa.1]; exact hpa.2), hpa.1]

/-- **One safe step** keeps the tables mapped to themselves. -/
theorem IdentityInv.step (h : IdentityInv k) (hok : TableSafe k e)
    (hst : kernelStep k e = some (reply, k')) : IdentityInv k' := by
  cases e with
  | pages n =>
    obtain ⟨⟨r, s⟩, hpages, heq⟩ := Option.map_eq_some_iff.1 hst
    cases heq
    exact h.pages hok hpages
  | map c =>
    obtain ⟨⟨rc, k₁⟩, hmap, heq⟩ := Option.map_eq_some_iff.1 hst
    cases heq
    exact h.map hok hmap

/-- A mapped address keeps its translation in a safe step. -/
theorem IdentityInv.step_pa (h : IdentityInv k) (hok : TableSafe k e)
    (hst : kernelStep k e = some (reply, k')) {v : Nat}
    (hv : pa k.mem k.pml4Base v ≠ translationError) :
    pa k'.mem k'.pml4Base v = pa k.mem k.pml4Base v := by
  cases e with
  | pages n =>
    obtain ⟨⟨r, s⟩, -, heq⟩ := Option.map_eq_some_iff.1 hst
    cases heq
    rfl
  | map c =>
    obtain ⟨⟨rc, k₁⟩, hmap, heq⟩ := Option.map_eq_some_iff.1 hst
    cases heq
    obtain ⟨top, n, -, hext⟩ := h.map_extends hok hmap
    exact hext.pa_eq h.upper hv

/-- `paging_init` begins with the tables mapped to themselves, if its pages lie in the identity
map. -/
theorem identityInv_pagingInit (hf : FrontierOk k.alloc)
    (hpages : ∀ i < 4, nthPage k.alloc i ≠ 0 ∧ nthPage k.alloc i < initialVaCeiling)
    (hr : pagingInit k = some k') : IdentityInv k' := by
  have hboot := pagingInit_boot (fresh_of_frontier hf (by simp)) (hpages 0 (by decide)).1 hr
  obtain ⟨used, hinv⟩ := hboot.inv
  have halloc : k'.alloc = advance k.alloc 4 := hboot.alloc
  have hhanded : ∀ i < 4, Handed k.alloc k'.alloc (nthPage k.alloc i) := fun i hi =>
    ⟨4, i, halloc, hi, rfl⟩
  refine ⟨⟨used, hinv.tables⟩, hinv.upper, by rw [halloc]; exact (hf.advance 4).1,
    fun q a hq ha => ?_, fun q a hq hq' ha => ?_⟩
  · have hpage : ∃ i < 4, nthPage k.alloc i = a := by
      cases q with
      | nil =>
        cases ha
        exact ⟨0, by decide, hboot.base.symm⟩
      | cons j q =>
        obtain ⟨-, -, i, hi, heq⟩ := hboot.tables _ a hq ha (by simp)
        have hi : i < 3 := hi
        exact ⟨i + 1, by omega, heq⟩
    obtain ⟨i, hi, rfl⟩ := hpage
    have := (hf.handed (hhanded i hi) (hpages i hi).1).2
    omega
  · obtain ⟨-, -, i, hi, heq⟩ := hboot.tables q a hq' ha (by rintro rfl; simp at hq)
    have hi : i < 3 := hi
    have heq : nthPage k.alloc (i + 1) = a := heq
    exact hboot.identity a (heq ▸ (hpages (i + 1) (by omega)).2)

/-- **The identity map stays** in every safe run after `paging_init`. So a later mapping is safe, as
far as its tables are concerned, while the allocator hands out pages below the ceiling of that
map. -/
theorem tableSafe_of_below {k₀ k₁ : Kernel PhysicalMemory} {t : List (KernelEvent × KernelReply)}
    (hf : FrontierOk k₀.alloc)
    (hpages : ∀ i < 4, nthPage k₀.alloc i ≠ 0 ∧ nthPage k₀.alloc i < initialVaCeiling)
    (hinit : pagingInit k₀ = some k₁) (hrun : Run kernelStep TableSafe k₁ t k)
    (hsize : c.pageSize = 0x200000 ∨ holdsLargePage k.mem k.pml4Base c.virtAddr = false)
    (hbelow : ∀ i < tablesNeeded k c, nthPage k.alloc i < initialVaCeiling) :
    TableSafe k (.map c) := by
  have hboot := pagingInit_boot (fresh_of_frontier hf (by simp)) (hpages 0 (by decide)).1 hinit
  have hinv : IdentityInv k ∧ ∀ v < initialVaCeiling, pa k.mem k.pml4Base v = v := by
    refine hrun.inv (fun _ k => IdentityInv k ∧ ∀ v < initialVaCeiling, pa k.mem k.pml4Base v = v)
      ⟨identityInv_pagingInit hf hpages hinit, hboot.identity⟩ ?_
    rintro - k e reply k' ⟨h, hidentity⟩ hok hst
    refine ⟨h.step hok hst, fun v hv => ?_⟩
    have herror : pa k.mem k.pml4Base v ≠ translationError := by
      rw [hidentity v hv, translationError]
      rw [initialVaCeiling] at hv
      omega
    rw [h.step_pa hok hst herror, hidentity v hv]
  exact ⟨hsize, fun i hi _ => hinv.2 _ (hbelow i hi)⟩

/-- **The kernel's tables stay mapped to themselves** in every run after `paging_init` whose steps
are safe, if the four pages that `paging_init` takes lie in the identity map. -/
theorem kernelTables_mapped_to_themselves {imageEnd : Nat} {segs : List PhysicalMemorySegment}
    {k₀ k₁ : Kernel PhysicalMemory} {t : List (KernelEvent × KernelReply)}
    (himg : imageEnd % 4096 = 0) (hlt : imageEnd < 2 ^ 32)
    (hmap : (initialMemory imageEnd segs).MapOk) (hk₀ : k₀.alloc = initialMemory imageEnd segs)
    (hpages : ∀ i < 4, nthPage k₀.alloc i ≠ 0 ∧ nthPage k₀.alloc i < initialVaCeiling)
    (hinit : pagingInit k₀ = some k₁) (hrun : Run kernelStep TableSafe k₁ t k) :
    ∀ q a, 1 ≤ q.length → q.length < 4 → tableAt tableChild k.mem k.pml4Base q = some a →
      pa k.mem k.pml4Base a = a := by
  have hf : FrontierOk k₀.alloc := hk₀ ▸ (allocInv_initialMemory himg hlt hmap).frontierOk
  exact (hrun.inv (fun _ k => IdentityInv k) (identityInv_pagingInit hf hpages hinit)
    fun _ _ _ _ _ h hok hst => h.step hok hst).reachable

end

/-! ## A machine with 3 GiB below the hole -/

/-- The memory list of the machine. -/
def largeSegments : List PhysicalMemorySegment :=
  [⟨0, 0x9f000, 1⟩, ⟨0x100000, 0xbff00000, 1⟩, ⟨0x100000000, 0x40000000, 1⟩, ⟨0, 0, 0⟩]

/-- The machine when `paging_init` is called. -/
def largeKernel : Kernel PhysicalMemory := ⟨Memory.zero, initialMemory 0x200000 largeSegments, 0⟩

/-- The map of the sample is a good one. -/
theorem mapOk_large : (initialMemory 0x200000 largeSegments).MapOk :=
  ⟨by decide, by decide, by decide, by decide⟩

/-- Its allocator is at its start, -/
theorem frontierOk_large : FrontierOk largeKernel.alloc :=
  (allocInv_initialMemory (by decide) (by decide) mapOk_large).frontierOk

/-- and the pages for `paging_init` are below the ceiling. -/
theorem pages_large : ∀ i < 4, nthPage largeKernel.alloc i ≠ 0 ∧
    nthPage largeKernel.alloc i < initialVaCeiling := by decide

/-- `paging_init` returns, with the frontier at 0x405000. -/
theorem pagingInit_large : ∃ k₁, pagingInit largeKernel = some k₁ ∧ IdentityInv k₁ ∧
    BootInv (PageAllocator.getPhysicalPage largeKernel.alloc).2 0x401000 initialVaCeiling k₁ ∧
    k₁.alloc = { largeKernel.alloc with currentAvailPage := 0x405000 } := by
  have hfresh : Fresh largeKernel.alloc ∅ (2 ^ 52) := fresh_of_frontier frontierOk_large (by simp)
  obtain ⟨k₁, hr⟩ := pagingInit_returns hfresh fun i hi => (pages_large i hi).1
  have hboot := pagingInit_boot hfresh (pages_large 0 (by decide)).1 hr
  exact ⟨k₁, hr, identityInv_pagingInit frontierOk_large pages_large hr, hboot,
    hboot.alloc.trans (by decide)⟩

/-- The translation of a large page that was mapped. -/
theorem pa_of_mapStep {k k' : Kernel PhysicalMemory} {used : Set Nat} {va phy : Nat}
    (h : KernelInv k used) (hphy : phy < 2 ^ 40)
    (hst : mapStep k ⟨va, phy, 0x200000⟩ = some (.ok, k')) :
    pa k'.mem k'.pml4Base va = phy + va % 0x200000 := by
  cases h.mapStep hphy (.inl rfl) hst with
  | failed hne _ => exact absurd rfl hne
  | mapped hmaps =>
    rw [hmaps.pa_eq va]
    exact if_pos rfl

/-- The machine after a 2 MiB page at 2 GiB was mapped, an alias of the first one. Its table lies in
the identity map. -/
theorem alias_large {k₁ : Kernel PhysicalMemory} (h : IdentityInv k₁)
    (hboot : BootInv (PageAllocator.getPhysicalPage largeKernel.alloc).2 0x401000
      initialVaCeiling k₁)
    (halloc : k₁.alloc = { largeKernel.alloc with currentAvailPage := 0x405000 }) :
    TableSafe k₁ (.map ⟨0x80000000, 0, 0x200000⟩) ∧
      ∃ k₂, mapStep k₁ ⟨0x80000000, 0, 0x200000⟩ = some (.ok, k₂) ∧
        k₂.alloc = { largeKernel.alloc with currentAvailPage := 0x406000 } ∧
        pa k₂.mem k₂.pml4Base 0x80000000 = 0 ∧ pa k₂.mem k₂.pml4Base 0 = 0 ∧
        SlotEmpty k₂.mem k₂.pml4Base 0xc0000000 ∧
        tableAt tableChild k₂.mem k₂.pml4Base [level3Index 0xc0000000, level4Index 0xc0000000] =
          none := by
  obtain ⟨used, hinv⟩ := h.kernelInv
  have hzero : pa k₁.mem k₁.pml4Base 0 = 0 := hboot.identity 0 (by decide)
  have hnone : ∀ v, 0x80000000 ≤ v → v < 2 ^ 39 →
      tableAt tableChild k₁.mem k₁.pml4Base [level3Index v, level4Index v] = none :=
    fun v hv hv' => hboot.tableAt_eq_none hv' (fun u hu => by rw [initialVaCeiling] at hu; omega)
      (by decide)
  have hneed : tablesNeeded k₁ ⟨0x80000000, 0, 0x200000⟩ = 1 :=
    tablesNeeded_gib hinv.upper (show 0 < 2 ^ 39 by decide) (by decide) (by rw [hzero]; decide)
      (hnone 0x80000000 (by decide) (by decide))
  have hpage : nthPage k₁.alloc 0 = 0x405000 := by
    rw [halloc]
    decide
  refine ⟨⟨.inl rfl, fun i hi _ => ?_⟩, ?_⟩
  · obtain rfl : i = 0 := by omega
    rw [hpage]
    exact hboot.identity 0x405000 (by decide)
  obtain ⟨k₂, hst⟩ : ∃ k₂, mapStep k₁ ⟨0x80000000, 0, 0x200000⟩ = some (.ok, k₂) := by
    refine hinv.mapStep_large (by decide)
      (hboot.empty 0x80000000 (by decide) (by decide)) fun i hi => ?_
    obtain rfl : i = 0 := by omega
    rw [hpage]
    decide
  obtain ⟨n, -, hn, hext⟩ := hinv.mapStep_extends (.inl rfl) hst
  rw [hn (by decide), hneed] at hext
  refine ⟨k₂, hst, ?_, ?_, ?_, ?_, ?_⟩
  · rw [hext.alloc, halloc]
    decide
  · exact (pa_of_mapStep hinv (by decide) hst).trans (by decide)
  · rw [hext.pa_eq h.upper (by rw [hzero]; decide), hzero]
  · exact hinv.slotEmpty_of_mapStep (by decide) hst (hboot.empty 0xc0000000 (by decide) (by decide))
      (by decide)
  · rw [Option.eq_none_iff_forall_ne_some]
    intro a ha
    rcases hext.tables _ a (by simp) ha with ha | ⟨-, hsuffix, -⟩
    · rw [hnone 0xc0000000 (by decide) (by decide)] at ha
      cases ha
    · exact absurd (hsuffix.eq_of_length (by decide)) (by decide)

/-- One page is mapped, with its tables below the ceiling. -/
theorem kernelTables_mapped_to_themselves_sample : ∃ k₁ k₂,
    pagingInit largeKernel = some k₁ ∧
      Run kernelStep TableSafe k₁ [(.map ⟨0x80000000, 0, 0x200000⟩, .code .ok)] k₂ ∧
      ∀ q a, 1 ≤ q.length → q.length < 4 → tableAt tableChild k₂.mem k₂.pml4Base q = some a →
        pa k₂.mem k₂.pml4Base a = a := by
  obtain ⟨k₁, hinit, hinv, hboot, halloc⟩ := pagingInit_large
  obtain ⟨hsafe, k₂, hst, -⟩ := alias_large hinv hboot halloc
  have hrun : Run kernelStep TableSafe k₁ [(.map ⟨0x80000000, 0, 0x200000⟩, .code .ok)] k₂ :=
    Run.nil.snoc hsafe (kernelStep_map hst)
  exact ⟨k₁, k₂, hinit, hrun, kernelTables_mapped_to_themselves (by decide) (by decide)
    mapOk_large rfl pages_large hinit hrun⟩

/-- **The frontier leaves the identity map.** After `paging_init` the kernel maps a 2 MiB page at 2
GiB to physical 0 and takes pages up to the frontier 0x80000000. The next mapping takes its table
there, at an address that is mapped to 0. -/
theorem kernelTables_leave_identity_map : ∃ k₁ k t, pagingInit largeKernel = some k₁ ∧
    Run kernelStep (fun _ _ => True) k₁ t k ∧
      t.map Prod.fst = [.map ⟨0x80000000, 0, 0x200000⟩, .pages 0x7fbfa,
        .map ⟨0xc0000000, 0, 0x200000⟩] ∧
      tableAt tableChild k.mem k.pml4Base [level3Index 0xc0000000, level4Index 0xc0000000] =
        some 0x80000000 ∧ pa k.mem k.pml4Base 0x80000000 = 0 := by
  obtain ⟨k₁, hinit, hinv₁, hboot, halloc₁⟩ := pagingInit_large
  obtain ⟨hsafe, k₂, hst₂, halloc₂, halias, hzero, hempty, hnone⟩ := alias_large hinv₁ hboot halloc₁
  have hpages : getPhysicalPages k₂.alloc 0x7fbfa =
      some (0x406000, { largeKernel.alloc with currentAvailPage := 0x80000000 }) := by
    rw [halloc₂]
    decide
  have htable : nthPage ({ largeKernel.alloc with currentAvailPage := 0x80000000 } : PhysicalMemory)
      0 = 0x80000000 := by decide
  -- the state before the second mapping
  set k₃ : Kernel PhysicalMemory :=
    { k₂ with alloc := { largeKernel.alloc with currentAvailPage := 0x80000000 } } with hk₃
  have hinv₃ : IdentityInv k₃ := (hinv₁.map hsafe hst₂).pages (by rw [RequestOk]; omega) hpages
  obtain ⟨used, hkernel⟩ := hinv₃.kernelInv
  have hneed : tablesNeeded k₃ ⟨0xc0000000, 0, 0x200000⟩ = 1 :=
    tablesNeeded_gib hkernel.upper (show 0 < 2 ^ 39 by decide) (by decide)
      (by rw [hk₃, hzero]; decide) hnone
  have hpage : nthPage k₃.alloc 0 = 0x80000000 := htable
  obtain ⟨k, hst⟩ : ∃ k, mapStep k₃ ⟨0xc0000000, 0, 0x200000⟩ = some (.ok, k) := by
    refine hkernel.mapStep_large (by decide) hempty fun i hi => ?_
    obtain rfl : i = 0 := by omega
    rw [hpage]
    decide
  obtain ⟨n, hn, -, hext⟩ := hkernel.mapStep_extends (.inl rfl) hst
  obtain ⟨used', hkernel'⟩ := hext.inv
  have hrun : Run kernelStep (fun _ _ => True) k₁ _ k :=
    ((Run.nil.snoc trivial (kernelStep_map hst₂)).snoc trivial (kernelStep_pages hpages)).snoc
      trivial (kernelStep_map hst)
  refine ⟨k₁, k, _, hinit, hrun, rfl, ?_, ?_⟩
  · have hmapped : pa k.mem k.pml4Base 0xc0000000 ≠ translationError := by
      rw [pa_of_mapStep hkernel (by decide) hst]
      decide
    obtain ⟨-, b, -, hb⟩ := exists_tables_of_pa hkernel'.upper hmapped
    rcases hext.tables _ b (by simp) hb with hb | ⟨-, -, -, i, hi, heq⟩
    · rw [hk₃, hnone] at hb
      cases hb
    · obtain rfl : i = 0 := by omega
      rw [hb, ← heq, hpage]
  · rw [hext.pa_eq hkernel.upper (by rw [hk₃, halias]; decide), hk₃, halias]

end ZeldaOS
