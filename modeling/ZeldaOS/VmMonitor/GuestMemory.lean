import ZeldaOS.VmMonitor.EptCorrect

/-!
# Isolation of guest memory

`setup_basic_physical_memory` gives a guest its memory: for each page it allocates a page of the
host and maps it, and `map_ept_page` allocates the tables from the same frontier in between. The
invariant of its loop (`GuestPages`) says that the guest pages mapped so far have distinct host
pages, which were handed out during the call and are no tables; a page handed out later is neither.
With the frontier of the page allocator this gives isolation: no page of a guest belongs to anything
allocated before or after (`setupBasicPhysicalMemory_isolates`).

The assertions of the call go through the kernel's own tables. Nothing the call writes is one of
them, so it returns when there are enough pages and the kernel maps them to themselves
(`setupBasicPhysicalMemory_returns`).
-/

namespace ZeldaOS

/-- `g` is a page of a guest whose memory goes from `lo` to `hi`. -/
structure GuestPage (lo hi g : Nat) : Prop where
  aligned : g % 4096 = 0
  low : lo ≤ g
  high : g ≤ hi

/-- A page below the next one is below this one or this one. -/
theorem GuestPage.lt_or_eq {lo hi g cur : Nat} (hg : GuestPage lo hi g) (hcur : cur % 4096 = 0)
    (hgc : g < cur + 4096) : g < cur ∨ g = cur := by
  have := hg.aligned
  omega

section
variable {A : Type} [PageAllocator A] {k k' k'' : Kernel A} {a₀ : A} {base b lo hi cur limit : Nat}
  {tbl used : Set Nat} {rc : ErrorCode}

/-! ## Allocation -/

/-- What allocating and clearing a page does. -/
theorem getClearPage_cases (hr : getClearPage k = some (b, k')) :
    b ≠ 0 ∧ b = (PageAllocator.getPhysicalPage k.alloc).1 ∧
      k' = { k with
        mem := k.mem.fill b 4096 0
        alloc := (PageAllocator.getPhysicalPage k.alloc).2 } := by
  rw [getClearPage] at hr
  split at hr
  · next h =>
    cases hr
    exact ⟨h.1, rfl, rfl⟩
  · cases hr

/-- A cleared page is one that the allocator hands out, -/
theorem getClearPage_handed (hr : getClearPage k = some (b, k')) : Handed k.alloc k'.alloc b := by
  obtain ⟨-, rfl, rfl⟩ := getClearPage_cases hr
  exact .single _

/-- one call of it. -/
theorem getClearPage_reaches (hr : getClearPage k = some (b, k')) : Reaches k.alloc k'.alloc := by
  obtain ⟨-, -, rfl⟩ := getClearPage_cases hr
  exact .single _

/-- A page cleared outside the tables changes no leaf. -/
theorem EptTree.getClearPage (h : EptTree base k tbl used limit)
    (hr : getClearPage k = some (b, k')) :
    b ∉ used ∧ b % 4096 = 0 ∧ EptTree base k' tbl (insert b used) limit ∧
      ∀ g, entryAt eptChild k'.mem base (pagePath g) =
        entryAt eptChild k.mem base (pagePath g) := by
  obtain ⟨hne, rfl, rfl⟩ := getClearPage_cases hr
  obtain ⟨hal, hlt, hfresh⟩ := h.fresh.head hne
  have hagree : ∀ a ∈ tbl, Memory.AgreeOn
      (k.mem.fill (PageAllocator.getPhysicalPage k.alloc).1 4096 0) k.mem a 4096 := by
    intro a ha
    exact Memory.fill_agreeOn (h.fresh.head_disjoint hne (h.subset ha) (h.tables.aligned a ha))
  exact ⟨hfresh, hal,
    ⟨h.tables.frame hagree, h.subset.trans (Set.subset_insert _ _), h.fresh.next_insert⟩,
    fun g => h.tables.entryAt_congr hagree (by simp [pagePath, slotPath])⟩

/-- The tables come from the allocator too. -/
theorem mapEptPage_reaches {guestPa phyPa : Nat} {backing : Backing}
    (hr : mapEptPage k base guestPa phyPa backing = some (rc, k')) : Reaches k.alloc k'.alloc := by
  simp only [mapEptPage, Option.bind_eq_bind, Option.bind_eq_some_iff] at hr
  obtain ⟨k₁, hr₁, k₂, hr₂, k₃, hr₃, hr⟩ := hr
  have halloc : k'.alloc = k₃.alloc := by split at hr <;> cases hr <;> rfl
  rw [halloc]
  exact ((installEptTable_reaches hr₁).trans (installEptTable_reaches hr₂)).trans
    (installEptTable_reaches hr₃)

/-! ## The loop -/

/-- The state of the loop at `cur`, for an allocator that was `a₀` when the call began. -/
structure GuestPages (base : Nat) (a₀ : A) (lo hi cur : Nat) (k : Kernel A) (tbl used : Set Nat) :
    Prop where
  tree : EptTree base k tbl used (2 ^ 52)
  reaches : Reaches a₀ k.alloc
  todo : ∀ g, cur ≤ g → g < 2 ^ 48 → EptAbsent ((entryAt eptChild k.mem base (pagePath g)).getD 0)
  leaf : ∀ g, GuestPage lo hi g → g < cur →
    (entryAt eptChild k.mem base (pagePath g)).isSome = true
  host : ∀ g, GuestPage lo hi g → g < cur →
    guestpaToHostpa k.mem base g ∈ used ∧ guestpaToHostpa k.mem base g ∉ tbl ∧
      guestpaToHostpa k.mem base g ≠ 0 ∧ Handed a₀ k.alloc (guestpaToHostpa k.mem base g)
  inj : ∀ g g', GuestPage lo hi g → g < cur → GuestPage lo hi g' → g' < cur →
    guestpaToHostpa k.mem base g = guestpaToHostpa k.mem base g' → g = g'

/-- A new table adds no leaf. -/
theorem getD_leafBelow (q : Path) (g : Nat) (old : Option Nat) :
    (leafBelow q g old).getD 0 = old.getD 0 := by
  rw [leafBelow]
  split <;> rfl

/-- A leaf that exists is kept. -/
theorem leafBelow_of_isSome {q : Path} {g : Nat} {old : Option Nat} (hold : old.isSome = true) :
    leafBelow q g old = old := by
  obtain ⟨w, rfl⟩ := Option.isSome_iff_exists.1 hold
  rw [leafBelow]
  split <;> rfl

/-- A memory leaf translates the page itself to the host page. -/
theorem translateLeaf_eptLeaf {g : Nat} (hg : g % 4096 = 0) (hal : b % 4096 = 0)
    (hlt : b < 2 ^ 40) : translateLeaf (eptLeaf b .systemMemory) g = b := by
  have hoff : g &&& 0xfff = 0 := by
    rw [show 0xfff = 2 ^ 12 - 1 from rfl, and_mask_eq_mod]
    exact hg
  rw [translateLeaf, readAccess_eptLeaf_systemMemory, if_neg (by simp),
    eptAddress_eptLeaf hal hlt, hoff, Nat.or_zero]

/-- What one iteration does to the leaves: it stores that of the page at `cur` and lets the leaves
of its 2 MiB region exist. -/
structure PageMapped (base cur b : Nat) (k k' : Kernel A) : Prop where
  aligned : cur % 4096 = 0
  lt : cur < 2 ^ 48
  self : entryAt eptChild k'.mem base (pagePath cur) = some (eptLeaf b .systemMemory)
  other : ∀ g, pagePath g ≠ pagePath cur → entryAt eptChild k'.mem base (pagePath g) =
    leafBelow (slotPath cur) g (entryAt eptChild k.mem base (pagePath g))
  host : guestpaToHostpa k'.mem base cur = b

/-- A page of the guest is mapped to the page that was cleared for it. -/
theorem GuestPages.pageMapped (h : GuestPages base a₀ lo hi cur k tbl used) (hcur : cur % 4096 = 0)
    (hlt : cur < 2 ^ 48) (hr₁ : ZeldaOS.getClearPage k = some (b, k'))
    (hr₂ : mapEptPage k' base cur b .systemMemory = some (rc, k''))
    (hlim : ∀ r, Handed k.alloc k''.alloc r → r < 2 ^ 40) : PageMapped base cur b k k'' := by
  obtain ⟨-, hal, htree₁, hent₁⟩ := h.tree.getClearPage hr₁
  have hblt : b < 2 ^ 40 := hlim b ((getClearPage_handed hr₁).append (mapEptPage_reaches hr₂))
  obtain ⟨-, -, -, -, hent₂⟩ := htree₁.mapEptPage hr₂
    fun r hr => hlim r (hr.prepend (getClearPage_reaches hr₁))
  have hself : entryAt eptChild k''.mem base (pagePath cur) = some (eptLeaf b .systemMemory) := by
    rw [hent₂, hent₁, leafAfter, if_pos ⟨rfl, h.todo cur (Nat.le_refl _) hlt⟩]
  refine ⟨hcur, hlt, hself, fun g hne => ?_, ?_⟩
  · rw [hent₂, hent₁, leafAfter, if_neg fun h => hne h.1]
  · rw [guestpaToHostpa_eq, hself, Option.elim_some, translateLeaf_eptLeaf hcur hal hblt]

/-- The leaves mapped before are kept. -/
theorem PageMapped.entryAt_eq (hm : PageMapped base cur b k k')
    (h : GuestPages base a₀ lo hi cur k tbl used) {g : Nat} (hg : GuestPage lo hi g)
    (hgc : g < cur) :
    entryAt eptChild k'.mem base (pagePath g) = entryAt eptChild k.mem base (pagePath g) := by
  have hlt := hm.lt
  have hne : pagePath g ≠ pagePath cur := by
    rw [ne_eq, pagePath_eq_iff (by omega) hlt]
    have := hg.aligned
    have := hm.aligned
    omega
  rw [hm.other g hne, leafBelow_of_isSome (h.leaf g hg hgc)]

/-- The host pages of before are kept. -/
theorem PageMapped.host_eq (hm : PageMapped base cur b k k')
    (h : GuestPages base a₀ lo hi cur k tbl used) {g : Nat} (hg : GuestPage lo hi g)
    (hgc : g < cur) :
    guestpaToHostpa k'.mem base g = guestpaToHostpa k.mem base g := by
  rw [guestpaToHostpa_eq, guestpaToHostpa_eq, hm.entryAt_eq h hg hgc]

/-- **One iteration** maps the page at `cur`. -/
theorem GuestPages.step (h : GuestPages base a₀ lo hi cur k tbl used) (hcur : cur % 4096 = 0)
    (hlt : cur < 2 ^ 48) (hr₁ : getClearPage k = some (b, k'))
    (hr₂ : mapEptPage k' base cur b .systemMemory = some (rc, k''))
    (hlim : ∀ r, Handed k.alloc k''.alloc r → r < 2 ^ 40) :
    ∃ tbl' used', GuestPages base a₀ lo hi (cur + 4096) k'' tbl' used' := by
  have hm := h.pageMapped hcur hlt hr₁ hr₂ hlim
  obtain ⟨hfresh, -, htree₁, -⟩ := h.tree.getClearPage hr₁
  have hre₁ := getClearPage_reaches hr₁
  have hre₂ := mapEptPage_reaches hr₂
  obtain ⟨tbl', used', htree₂, hgrows, -⟩ := htree₁.mapEptPage hr₂
    fun r hr => hlim r (hr.prepend hre₁)
  have hbtbl : b ∉ tbl' := by
    intro hb
    rcases hgrows.fresh b hb with hb | hb
    · exact hfresh (h.tree.subset hb)
    · exact hb (Set.mem_insert b used)
  have hbne : b ≠ 0 := (getClearPage_cases hr₁).1
  have hbnot : ∀ g, GuestPage lo hi g → g < cur → guestpaToHostpa k''.mem base g ≠ b := by
    intro g hg hgc heq
    rw [hm.host_eq h hg hgc] at heq
    exact hfresh (heq ▸ (h.host g hg hgc).1)
  refine ⟨tbl', used', htree₂, (h.reaches.trans hre₁).trans hre₂, fun g hg hlt' => ?_,
    fun g hg hgc => ?_, fun g hg hgc => ?_, fun g g' hg hgc hg' hgc' heq => ?_⟩
  · have hne : pagePath g ≠ pagePath cur := by
      rw [ne_eq, pagePath_eq_iff hlt' hlt]
      omega
    rw [hm.other g hne, getD_leafBelow]
    exact h.todo g (by omega) hlt'
  · rcases hg.lt_or_eq hcur hgc with hgc | rfl
    · rw [hm.entryAt_eq h hg hgc]
      exact h.leaf g hg hgc
    · rw [hm.self]
      rfl
  · rcases hg.lt_or_eq hcur hgc with hgc | rfl
    · obtain ⟨hu, ht, hne, hh⟩ := h.host g hg hgc
      rw [hm.host_eq h hg hgc]
      refine ⟨hgrows.subset (Set.mem_insert_of_mem b hu), fun hb => ?_, hne,
        hh.append (hre₁.trans hre₂)⟩
      rcases hgrows.fresh _ hb with hb | hb
      · exact ht hb
      · exact hb (Set.mem_insert_of_mem b hu)
    · rw [hm.host]
      exact ⟨hgrows.subset (Set.mem_insert b used), hbtbl, hbne,
        ((getClearPage_handed hr₁).append hre₂).prepend h.reaches⟩
  · rcases hg.lt_or_eq hcur hgc with hgc | rfl <;> rcases hg'.lt_or_eq hcur hgc' with hgc' | rfl
    · rw [hm.host_eq h hg hgc, hm.host_eq h hg' hgc'] at heq
      exact h.inj g g' hg hgc hg' hgc' heq
    · exact absurd (heq.trans hm.host) (hbnot g hg hgc)
    · exact absurd (heq.symm.trans hm.host) (hbnot g' hg' hgc')
    · rfl

/-- One iteration of the loop, taken apart. -/
theorem setupLoop_succ {fuel : Nat} (hcur : cur ≤ hi)
    (hr : setupLoop base hi (fuel + 1) k cur = some k') :
    ∃ b k₁ rc k₂, getClearPage k = some (b, k₁) ∧
      mapEptPage k₁ base cur b .systemMemory = some (rc, k₂) ∧
      setupLoop base hi fuel k₂ ((cur + 4096) % 2 ^ 64) = some k' := by
  rw [setupLoop, if_pos hcur] at hr
  simp only [Option.bind_eq_bind, Option.bind_eq_some_iff] at hr
  obtain ⟨⟨b, k₁⟩, hr₁, ⟨rc, k₂⟩, hr₂, hr⟩ := hr
  exact ⟨b, k₁, rc, k₂, hr₁, hr₂, hr⟩

/-- All pages of the guest come from the allocator. -/
theorem setupLoop_reaches {fuel : Nat} (hr : setupLoop base hi fuel k cur = some k') :
    Reaches k.alloc k'.alloc := by
  induction fuel generalizing k cur with
  | zero => cases hr
  | succ fuel ih =>
    by_cases hcur : cur ≤ hi
    · obtain ⟨b, k₁, rc, k₂, hr₁, hr₂, hr⟩ := setupLoop_succ hcur hr
      exact ((getClearPage_reaches hr₁).trans (mapEptPage_reaches hr₂)).trans (ih hr)
    · rw [setupLoop, if_neg hcur] at hr
      cases hr
      exact .refl _

/-- The rule of the loop: what every iteration keeps holds at its end. The pages that the loop takes
are those of its iterations. -/
theorem setupLoop_inv {fuel : Nat} {P : Nat → Prop} (I : Nat → Kernel A → Prop)
    (hcur : cur % 4096 = 0) (hhi : hi < 2 ^ 48 - 4096)
    (hr : setupLoop base hi fuel k cur = some k') (hP : ∀ r, Handed k.alloc k'.alloc r → P r)
    (hI : I cur k)
    (hstep : ∀ cur k b k₁ rc k₂, I cur k → cur % 4096 = 0 → cur ≤ hi →
      getClearPage k = some (b, k₁) → mapEptPage k₁ base cur b .systemMemory = some (rc, k₂) →
      (∀ r, Handed k.alloc k₂.alloc r → P r) → I (cur + 4096) k₂) :
    ∃ cur', hi < cur' ∧ I cur' k' := by
  induction fuel generalizing k cur with
  | zero => cases hr
  | succ fuel ih =>
    by_cases hle : cur ≤ hi
    · obtain ⟨b, k₁, rc, k₂, hr₁, hr₂, hr⟩ := setupLoop_succ hle hr
      have hre := setupLoop_reaches hr
      have hre₂ := (getClearPage_reaches hr₁).trans (mapEptPage_reaches hr₂)
      have hI' := hstep cur k b k₁ rc k₂ hI hcur hle hr₁ hr₂ fun r hr => hP r (hr.append hre)
      rw [Nat.mod_eq_of_lt (by omega)] at hr
      exact ih (by omega) hr (fun r hr => hP r (hr.prepend hre₂)) hI'
    · rw [setupLoop, if_neg hle] at hr
      cases hr
      exact ⟨cur, by omega, hI⟩

/-- The rule of a call: an invariant of the iterations, on top of that of the pages. It begins with
an empty PML4. -/
theorem setupBasicPhysicalMemory_inv (J : Nat → Kernel A → Prop) (hfresh : Fresh k.alloc ∅ (2 ^ 52))
    (hlo : lo % 4096 = 0) (hhi : hi < 2 ^ 48 - 4096)
    (hr : setupBasicPhysicalMemory k lo hi = some (base, k'))
    (hlim : ∀ r, Handed k.alloc k'.alloc r → r < 2 ^ 40)
    (hinit : ∀ k₁, getClearPage k = some (base, k₁) →
      (∀ i q, tableAt eptChild k₁.mem base (i :: q) = none) → J lo k₁)
    (hstep : ∀ cur k₁ b k₂ rc k₃ tbl used, GuestPages base k.alloc lo hi cur k₁ tbl used →
      J cur k₁ → cur % 4096 = 0 → cur ≤ hi → getClearPage k₁ = some (b, k₂) →
      mapEptPage k₂ base cur b .systemMemory = some (rc, k₃) →
      (∀ r, Handed k₁.alloc k₃.alloc r → r < 2 ^ 40) → J (cur + 4096) k₃) :
    ∃ cur tbl used, hi < cur ∧ GuestPages base k.alloc lo hi cur k' tbl used ∧ J cur k' := by
  simp only [setupBasicPhysicalMemory, Option.bind_eq_bind, Option.bind_eq_some_iff] at hr
  obtain ⟨⟨base, k₁⟩, hr₁, k₂, hr₂, heq⟩ := hr
  cases heq
  have hre₁ := getClearPage_reaches hr₁
  obtain ⟨hne, hbase, hk₁⟩ := getClearPage_cases hr₁
  obtain ⟨hal, -, -⟩ := hfresh.head (hbase ▸ hne)
  rw [← hbase] at hal
  have hzero : ∀ x, base ≤ x → x < base + 4096 → k₁.mem x = 0 := by
    rw [hk₁]
    exact fun x h₁ h₂ => Memory.fill_apply_of_mem h₁ h₂
  have hnext := hfresh.next_insert
  rw [← hbase, insert_empty_eq] at hnext
  have hnone := fun i q => tableAt_cons_of_zero hzero eptChild_zero i q
  have hpages : GuestPages base k.alloc lo hi lo k₁ {base} {base} := by
    refine ⟨⟨.of_zero hzero eptChild_zero hal, fun _ => id, by rw [hk₁]; exact hnext⟩, hre₁,
      fun g _ _ => ?_, fun g hg hlt => ?_, fun g hg hlt => ?_, fun g g' hg hlt => ?_⟩
    · rw [pagePath, slotPath, entryAt_cons_of_none (hnone _ _)]
      exact eptAbsent_zero
    all_goals exact absurd hg.low (by omega)
  obtain ⟨cur, hcur, ⟨tbl, used, hg⟩, hJ⟩ := setupLoop_inv
    (fun cur k₁ => (∃ tbl used, GuestPages base k.alloc lo hi cur k₁ tbl used) ∧
      J cur k₁) hlo hhi hr₂
    (fun r hr => hlim r (hr.prepend hre₁)) ⟨⟨_, _, hpages⟩, hinit k₁ hr₁ hnone⟩ <| by
      rintro cur k₁ b k₂ rc k₃ ⟨⟨tbl, used, hg⟩, hJ⟩ hcur hle hr₁ hr₂ hlim
      exact ⟨hg.step hcur (by omega) hr₁ hr₂ hlim,
        hstep _ _ _ _ _ _ _ _ hg hJ hcur hle hr₁ hr₂ hlim⟩
  exact ⟨cur, tbl, used, hcur, hg, hJ⟩

/-- **A call** of `setup_basic_physical_memory` maps every page of the guest. -/
theorem setupBasicPhysicalMemory_guestPages (hfresh : Fresh k.alloc ∅ (2 ^ 52))
    (hlo : lo % 4096 = 0) (hhi : hi < 2 ^ 48 - 4096)
    (hr : setupBasicPhysicalMemory k lo hi = some (base, k'))
    (hlim : ∀ r, Handed k.alloc k'.alloc r → r < 2 ^ 40) :
    ∃ cur tbl used, hi < cur ∧ GuestPages base k.alloc lo hi cur k' tbl used := by
  obtain ⟨cur, tbl, used, hcur, h, -⟩ :=
    setupBasicPhysicalMemory_inv (fun _ _ => True) hfresh hlo hhi
    hr hlim (fun _ _ _ => trivial) fun _ _ _ _ _ _ _ _ _ _ _ _ _ _ _ => trivial
  exact ⟨cur, tbl, used, hcur, h⟩

end

/-! ## The call returns -/

section
variable {A : Type} [PageAllocator A] {k k' : Kernel A} {base lo hi cur : Nat}
  {tbl used kpt : Set Nat} {m m' : Memory}

/-- The kernel's own tables, over the pages `kpt`. -/
structure KernelTables (m : Memory) (pml4Base : Nat) (kpt : Set Nat) : Prop where
  tables : Tables tableChild m pml4Base 4 kpt
  upper : UpperTables m pml4Base

/-- A change outside the kernel's tables is not seen by `pa`. -/
theorem KernelTables.congr (h : KernelTables m base kpt)
    (hm : ∀ a ∈ kpt, Memory.AgreeOn m' m a 4096) :
    KernelTables m' base kpt ∧ ∀ v, pa m' base v = pa m base v := by
  have hupper : UpperTables m' base := by
    intro i q w hq hw
    rw [h.tables.entryAt_congr hm (by simp only [List.length_cons]; omega)] at hw
    exact h.upper i q w hq hw
  refine ⟨⟨h.tables.frame hm, hupper⟩, fun v => ?_⟩
  rw [pa_eq_translate hupper, pa_eq_translate h.upper,
    h.tables.entryAt_congr hm (by simp [slotPath]),
    h.tables.entryAt_congr hm (by simp [pagePath, slotPath])]

/-- The next `n` pages are there and mapped to themselves, by tables of the kernel that no page of
the guest's tables belongs to. -/
structure Ready (base : Nat) (k : Kernel A) (tbl used kpt : Set Nat) (n : Nat) : Prop where
  tree : EptTree base k tbl used (2 ^ 40)
  kernel : KernelTables k.mem k.pml4Base kpt
  subset : kpt ⊆ used
  disjoint : ∀ a ∈ kpt, a ∉ tbl
  pages : ∀ i < n, nthPage k.alloc i ≠ 0 ∧
    pa k.mem k.pml4Base (nthPage k.alloc i) = nthPage k.alloc i

variable {n : Nat}

/-- The next page may stay unused. -/
theorem Ready.weaken (h : Ready base k tbl used kpt (n + 1)) : Ready base k tbl used kpt n :=
  ⟨h.tree, h.kernel, h.subset, h.disjoint, fun i hi => h.pages i (by omega)⟩

/-- After an allocation, with a memory that agrees on the kernel's tables. -/
theorem Ready.next {tbl' used' : Set Nat} (h : Ready base k tbl used kpt (n + 1))
    (htree : EptTree base ⟨m', (PageAllocator.getPhysicalPage k.alloc).2, k.pml4Base⟩ tbl' used'
      (2 ^ 40)) (hsub : used ⊆ used') (hfresh : ∀ b ∈ tbl', b ∈ tbl ∨ b ∉ used)
    (hm : ∀ a ∈ kpt, Memory.AgreeOn m' k.mem a 4096) :
    Ready base ⟨m', (PageAllocator.getPhysicalPage k.alloc).2, k.pml4Base⟩ tbl' used' kpt n := by
  obtain ⟨hkernel, hpa⟩ := h.kernel.congr hm
  refine ⟨htree, hkernel, h.subset.trans hsub, fun a ha ht => ?_, fun i hi => ?_⟩
  · rcases hfresh a ht with ht | hu
    · exact h.disjoint a ha ht
    · exact hu (h.subset ha)
  · obtain ⟨hne, hid⟩ := h.pages (i + 1) (by omega)
    rw [nthPage_succ] at hne hid
    exact ⟨hne, (hpa _).trans hid⟩

/-- A page of the guest is allocated. -/
theorem Ready.getClearPage (h : Ready base k tbl used kpt (n + 1)) :
    ∃ b k', getClearPage k = some (b, k') ∧ Ready base k' tbl (insert b used) kpt n := by
  obtain ⟨hne, hid⟩ := h.pages 0 (by omega)
  have hr : ZeldaOS.getClearPage k = some (_, _) := if_pos ⟨hne, hid⟩
  obtain ⟨-, -, htree, -⟩ := h.tree.getClearPage hr
  refine ⟨_, _, hr, h.next htree (Set.subset_insert _ _) (fun _ => .inl) fun a ha => ?_⟩
  exact Memory.fill_agreeOn (h.tree.fresh.head_disjoint hne (h.subset ha)
    (h.kernel.tables.aligned a ha))

/-- A table of the guest is installed, from a new page or not at all. -/
theorem Ready.installEptTable {p : Path} {i : Fin 512} {a : Nat}
    (h : Ready base k tbl used kpt (n + 1)) (hp : p.length ≤ 2)
    (ha : tableAt eptChild k.mem base p = some a) :
    ∃ k' tbl' used', installEptTable k (a + 8 * i) = some k' ∧
      Ready base k' tbl' used' kpt n ∧
      tableAt eptChild k'.mem base (i :: p) = some (eptAddress (k'.mem.read (a + 8 * i) 8)) := by
  obtain ⟨hne, hid⟩ := h.pages 0 (by omega)
  obtain ⟨hal, hlt, hfresh⟩ := h.tree.fresh.head hne
  have hau := h.tree.tables.mem_used p a (by omega) ha
  have hala := h.tree.tables.aligned a hau
  have hd := entry_page_disjoint hala hal (fun heq => hfresh (h.tree.subset (heq ▸ hau))) i
  have hentry : ∀ c ∈ kpt, a + 8 * i + 8 ≤ c ∨ c + 4096 ≤ a + 8 * i := fun c hc =>
    entry_page_disjoint hala (h.kernel.tables.aligned c hc)
      (fun heq => h.disjoint c hc (heq ▸ hau)) i
  have hpa : pa (k.mem.write (a + 8 * i) 8 eptFlags) k.pml4Base
      (PageAllocator.getPhysicalPage k.alloc).1 = (PageAllocator.getPhysicalPage k.alloc).1 :=
    ((h.kernel.congr fun c hc => Memory.write_agreeOn (hentry c hc).symm).2 _).trans hid
  have hr : ∃ k', ZeldaOS.installEptTable k (a + 8 * i) = some k' := by
    rw [ZeldaOS.installEptTable]
    split
    · have hread := read_installedMemory (m := k.mem) hd
      rw [installedMemory] at hread
      dsimp only at hread ⊢
      rw [if_pos ⟨hne, hpa⟩, hread, if_neg (not_eptAbsent_eptTableEntry _)]
      exact ⟨_, rfl⟩
    · exact ⟨k, rfl⟩
  obtain ⟨k', hr⟩ := hr
  obtain ⟨tbl', used', htree', hgrows, ht, -⟩ := h.tree.installEptTable hp ha hr
    fun _ hr => h.tree.fresh.handed_lt (by decide) hr
  rcases installEptTable_cases hr with ⟨hab, rfl⟩ | ⟨-, -, rfl⟩
  · exact ⟨_, tbl, used, hr, h.weaken, ht⟩
  · refine ⟨_, tbl', used', hr, h.next htree' hgrows.subset hgrows.fresh fun c hc x h₁ h₂ => ?_, ht⟩
    refine (links_installedMemory hd).frame x ?_ ?_
    · have := hentry c hc
      omega
    · have := h.tree.fresh.head_disjoint hne (h.subset hc) (h.kernel.tables.aligned c hc)
      omega

/-- A call of `map_ept_page` returns; it takes at most three pages. -/
theorem Ready.mapEptPage (h : Ready base k tbl used kpt (n + 3)) (guestPa phyPa : Nat)
    (backing : Backing) :
    ∃ rc k' tbl' used', mapEptPage k base guestPa phyPa backing = some (rc, k') ∧
      Ready base k' tbl' used' kpt n := by
  obtain ⟨k₁, _, _, hr₁, h₁, ht₁⟩ :=
    h.installEptTable (i := level4Index guestPa) (by simp) tableAt_nil
  obtain ⟨k₂, _, _, hr₂, h₂, ht₂⟩ :=
    h₁.installEptTable (i := level3Index guestPa) (by simp) ht₁
  obtain ⟨k₃, tbl₃, used₃, hr₃, h₃, ht₃⟩ :=
    h₂.installEptTable (i := level2Index guestPa) (by simp) ht₂
  have hau := h₃.tree.tables.mem_used _ _ (by simp) ht₃
  have hstore := (h₃.tree.storeLeaf ht₃ (eptLeaf_lt phyPa backing)).1
  have hagree : ∀ c ∈ kpt, Memory.AgreeOn (k₃.mem.write _ 8 (eptLeaf phyPa backing))
    k₃.mem c 4096 :=
    fun c hc => Memory.write_agreeOn (entry_page_disjoint (h₃.tree.tables.aligned _ hau)
      (h₃.kernel.tables.aligned c hc) (fun heq => h₃.disjoint c hc (heq ▸ hau))
      (level1Index guestPa)).symm
  obtain ⟨hkernel, hpa⟩ := h₃.kernel.congr hagree
  simp only [ZeldaOS.mapEptPage, Option.bind_eq_bind, hr₁, hr₂, hr₃, Option.bind_some]
  split
  · exact ⟨_, _, tbl₃, used₃, rfl, hstore, hkernel, h₃.subset, h₃.disjoint,
      fun i hi => ⟨(h₃.pages i hi).1, (hpa _).trans (h₃.pages i hi).2⟩⟩
  · exact ⟨_, _, tbl₃, used₃, rfl, h₃⟩

/-- The loop returns when there are four pages for each page of the guest. -/
theorem Ready.setupLoop {fuel : Nat} (h : Ready base k tbl used kpt (4 * n))
    (hn : hi < cur + 4096 * n) (hfuel : n < fuel) (hhi : hi < 2 ^ 48 - 4096) :
    ∃ k', setupLoop base hi fuel k cur = some k' := by
  induction n generalizing k tbl used cur fuel with
  | zero =>
    obtain ⟨fuel, rfl⟩ := Nat.exists_eq_succ_of_ne_zero (Nat.ne_of_gt hfuel)
    exact ⟨k, by rw [ZeldaOS.setupLoop, if_neg (by omega)]⟩
  | succ n ih =>
    obtain ⟨fuel, rfl⟩ := Nat.exists_eq_succ_of_ne_zero (Nat.ne_of_gt (Nat.zero_lt_of_lt hfuel))
    rw [ZeldaOS.setupLoop]
    split
    · obtain ⟨b, k₁, hr₁, h₁⟩ := h.getClearPage
      obtain ⟨rc, k₂, _, _, hr₂, h₂⟩ := h₁.mapEptPage cur b .systemMemory
      simp only [Option.bind_eq_bind, hr₁, hr₂, Option.bind_some]
      rw [Nat.mod_eq_of_lt (by omega)]
      exact ih h₂ (by omega) (by omega)
    · exact ⟨k, rfl⟩

/-- **The call returns** when the allocator has fresh pages for the guest and its tables, and the
kernel maps them to themselves. -/
theorem setupBasicPhysicalMemory_returns (hkernel : KernelTables k.mem k.pml4Base kpt)
    (hfresh : Fresh k.alloc kpt (2 ^ 40)) (hhi : hi < 2 ^ 48 - 4096)
    (hpages : ∀ i < 4 * ((hi - lo) / 4096 + 1) + 1, nthPage k.alloc i ≠ 0 ∧
      pa k.mem k.pml4Base (nthPage k.alloc i) = nthPage k.alloc i) :
    ∃ base k', setupBasicPhysicalMemory k lo hi = some (base, k') := by
  obtain ⟨hne, hid⟩ := hpages 0 (by omega)
  have hr : getClearPage k = some (_, _) := if_pos ⟨hne, hid⟩
  obtain ⟨hal, hlt, hnot⟩ := hfresh.head hne
  have hagree : ∀ c ∈ kpt, Memory.AgreeOn
      (k.mem.fill (PageAllocator.getPhysicalPage k.alloc).1 4096 0) k.mem c 4096 := by
    intro c hc
    exact Memory.fill_agreeOn (hfresh.head_disjoint hne hc (hkernel.tables.aligned c hc))
  obtain ⟨hkernel', hpa⟩ := hkernel.congr hagree
  have hzero : ∀ x, (PageAllocator.getPhysicalPage k.alloc).1 ≤ x →
      x < (PageAllocator.getPhysicalPage k.alloc).1 + 4096 →
      k.mem.fill (PageAllocator.getPhysicalPage k.alloc).1 4096 0 x = 0 :=
    fun x h₁ h₂ => Memory.fill_apply_of_mem h₁ h₂
  have hready : Ready (PageAllocator.getPhysicalPage k.alloc).1
      ⟨k.mem.fill (PageAllocator.getPhysicalPage k.alloc).1 4096 0,
        (PageAllocator.getPhysicalPage k.alloc).2, k.pml4Base⟩
      {(PageAllocator.getPhysicalPage k.alloc).1}
      (insert (PageAllocator.getPhysicalPage k.alloc).1 kpt) kpt (4 * ((hi - lo) / 4096 + 1)) := by
    refine ⟨⟨.of_zero hzero eptChild_zero hal, by simp, hfresh.next_insert⟩, hkernel',
      Set.subset_insert _ _, fun c hc heq => ?_, fun i hi => ?_⟩
    · exact hnot (Set.mem_singleton_iff.1 heq ▸ hc)
    · obtain ⟨hne, hid⟩ := hpages (i + 1) (by omega)
      rw [nthPage_succ] at hne hid
      exact ⟨hne, (hpa _).trans hid⟩
  obtain ⟨k', hk'⟩ : ∃ k', setupLoop _ hi ((hi - lo) / 4096 + 2) _ lo = some k' :=
    hready.setupLoop (by omega) (by omega) hhi
  refine ⟨(PageAllocator.getPhysicalPage k.alloc).1, k', ?_⟩
  rw [setupBasicPhysicalMemory, hr]
  simp only [Option.bind_eq_bind, Option.bind_some, hk']

end

/-! ## Isolation -/

section
variable {k k' : Kernel PhysicalMemory} {base lo hi : Nat}

/-- The host pages of a call lie between the frontiers before and after it. -/
theorem GuestPages.frontier {cur : Nat} {tbl used : Set Nat} (hf : FrontierOk k.alloc)
    (h : GuestPages base k.alloc lo hi cur k' tbl used) (hcur : hi < cur) {g : Nat}
    (hg : GuestPage lo hi g) :
    k.alloc.currentAvailPage ≤ guestpaToHostpa k'.mem base g ∧
      guestpaToHostpa k'.mem base g + 4096 ≤ k'.alloc.currentAvailPage := by
  obtain ⟨-, -, hne, hh⟩ := h.host g hg (Nat.lt_of_le_of_lt hg.high hcur)
  exact hf.handed hh hne

/-- The frontier after a call. -/
theorem FrontierOk.reaches {s s' : PhysicalMemory} (h : FrontierOk s) (hr : Reaches s s') :
    FrontierOk s' := by
  obtain ⟨n, rfl⟩ := hr
  exact (h.advance n).1

/-- The blocks of a run of requests lie above the frontier it starts from. -/
theorem FrontierOk.allocInv {s s' : PhysicalMemory} (h : FrontierOk s) {t : List (Int × Nat)}
    (hrun : Run getPhysicalPages (fun _ n => RequestOk n) s t s') :
    AllocInv s.currentAvailPage t s' :=
  hrun.inv (AllocInv s.currentAvailPage)
    ⟨h.map, h.aligned, h.bound, Nat.le_refl _, by simp, List.Pairwise.nil⟩
    fun _ _ _ _ _ h hn hst => h.step hn hst

/-- **Guest memory is isolated.** Let the allocator be in a state reached from its initialisation by
the requests `t`, and let a call of `setup_basic_physical_memory` return, with pages below 2^40.
Then every page of the guest translates to a host page of its own, which is no table of the guest,
which no earlier request got and no later request gets; so a second guest shares none of them. -/
theorem setupBasicPhysicalMemory_isolates {imageEnd : Nat} {segs : List PhysicalMemorySegment}
    {t : List (Int × Nat)} (himg : imageEnd % 4096 = 0) (hlt : imageEnd < 2 ^ 32)
    (hmap : (initialMemory imageEnd segs).MapOk)
    (hrun : Run getPhysicalPages (fun _ n => RequestOk n) (initialMemory imageEnd segs) t k.alloc)
    (hlo : lo % 4096 = 0) (hhi : hi < 2 ^ 48 - 4096)
    (hr : setupBasicPhysicalMemory k lo hi = some (base, k'))
    (hlim : ∀ r, Handed k.alloc k'.alloc r → r < 2 ^ 40) :
    (∀ g, GuestPage lo hi g → guestpaToHostpa k'.mem base g ≠ 0 ∧
      guestpaToHostpa k'.mem base g % 4096 = 0 ∧ guestpaToHostpa k'.mem base g < 2 ^ 40) ∧
    (∀ g g', GuestPage lo hi g → GuestPage lo hi g' →
      guestpaToHostpa k'.mem base g = guestpaToHostpa k'.mem base g' → g = g') ∧
    (∀ g, GuestPage lo hi g → ∀ p a, p.length < 4 → tableAt eptChild k'.mem base p = some a →
      guestpaToHostpa k'.mem base g ≠ a) ∧
    (∀ g, GuestPage lo hi g → ∀ b ∈ t, BlocksDisjoint b (1, guestpaToHostpa k'.mem base g)) ∧
    (∀ t' s', Run getPhysicalPages (fun _ n => RequestOk n) k'.alloc t' s' →
      (∀ g, GuestPage lo hi g → ∀ b ∈ t', BlocksDisjoint (1, guestpaToHostpa k'.mem base g) b) ∧
      ∀ (k₂ k₂' : Kernel PhysicalMemory) (lo₂ hi₂ base₂ : Nat), k₂.alloc = s' →
        lo₂ % 4096 = 0 → hi₂ < 2 ^ 48 - 4096 →
        setupBasicPhysicalMemory k₂ lo₂ hi₂ = some (base₂, k₂') →
        (∀ r, Handed k₂.alloc k₂'.alloc r → r < 2 ^ 40) →
        ∀ g g', GuestPage lo hi g → GuestPage lo₂ hi₂ g' →
          guestpaToHostpa k'.mem base g ≠ guestpaToHostpa k₂'.mem base₂ g') := by
  have hinv := allocInv_of_run himg hlt hmap hrun
  have hf := hinv.frontierOk
  obtain ⟨cur, tbl, used, hcur, h⟩ :=
    setupBasicPhysicalMemory_guestPages (fresh_of_frontier hf (by simp)) hlo hhi hr hlim
  have hlt : ∀ {g}, GuestPage lo hi g → g < cur := fun hg => Nat.lt_of_le_of_lt hg.high hcur
  refine ⟨fun g hg => ?_, fun g g' hg hg' => h.inj g g' hg (hlt hg) hg' (hlt hg'),
    fun g hg p a hp ha heq => ?_, fun g hg b hb hne _ => ?_, fun t' s' hrun' =>
    ⟨fun g hg b hb _ hne => ?_, ?_⟩⟩
  · obtain ⟨-, -, hne, hh⟩ := h.host g hg (hlt hg)
    have hfresh : Fresh k.alloc ∅ (2 ^ 52) := fresh_of_frontier hf (by simp)
    exact ⟨hne, (hfresh.handed hh hne).1, hlim _ hh⟩
  · exact (h.host g hg (hlt hg)).2.1 (heq ▸ h.tree.tables.mem_used p a hp ha)
  · have hblock := (hinv.blocks b hb hne).2.2
    exact .inl (hblock.trans (h.frontier hf hcur hg).1)
  · have hblock := ((hf.reaches h.reaches).allocInv hrun').blocks b hb hne
    exact .inl ((h.frontier hf hcur hg).2.trans hblock.2.1)
  · rintro k₂ k₂' lo₂ hi₂ base₂ rfl hlo₂ hhi₂ hr₂ hlim₂ g g' hg hg' heq
    have hinv₂ := (hf.reaches h.reaches).allocInv hrun'
    obtain ⟨cur₂, tbl₂, used₂, hcur₂, h₂⟩ := setupBasicPhysicalMemory_guestPages
      (fresh_of_frontier hinv₂.frontierOk (by simp)) hlo₂ hhi₂ hr₂ hlim₂
    have h₁ := (h.frontier hf hcur hg).2
    have h₃ := (h₂.frontier hinv₂.frontierOk hcur₂ hg').1
    have hlow := hinv₂.low
    omega

end

/-- The run of requests that the sample machine has behind it. -/
theorem run_identityKernel : ∃ t, Run getPhysicalPages (fun _ n => RequestOk n)
    (initialMemory 0x200000 sampleSegments) t identityKernel.alloc := by
  have hex : exec getPhysicalPages (initialMemory 0x200000 sampleSegments) [1, 1, 1, 1] =
      some ([(1, 0x401000), (1, 0x402000), (1, 0x403000), (1, 0x404000)],
        identityKernel.alloc) := by decide
  exact ⟨_, Run.nil.exec (by simp [RequestOk]) hex⟩

/-- Two pages of a guest are different pages of the host. -/
theorem setupBasicPhysicalMemory_isolates_sample :
    ∃ k', setupBasicPhysicalMemory identityKernel 0 0x1000 = some (0x405000, k') ∧
      guestpaToHostpa k'.mem 0x405000 0 ≠ guestpaToHostpa k'.mem 0x405000 0x1000 := by
  obtain ⟨t, hrun⟩ := run_identityKernel
  have hset : (setupBasicPhysicalMemory identityKernel 0 0x1000).map Prod.fst = some 0x405000 := by
    decide +kernel
  obtain ⟨⟨base, k'⟩, hk, rfl⟩ := Option.map_eq_some_iff.1 hset
  have hfresh : Fresh identityKernel.alloc ∅ (2 ^ 40) := fresh_identityKernel (by simp)
  have hlim : ∀ r, Handed identityKernel.alloc k'.alloc r → r < 2 ^ 40 := fun _ hr =>
    hfresh.handed_lt (by decide) hr
  obtain ⟨-, hinj, -⟩ := setupBasicPhysicalMemory_isolates (by decide) (by decide) mapOk_sample hrun
    (by decide) (by decide) hk hlim
  refine ⟨k', hk, fun heq => ?_⟩
  exact absurd
    (hinj 0 0x1000 ⟨by decide, by decide, by decide⟩ ⟨by decide, by decide, by decide⟩ heq)
    (by decide)

end ZeldaOS
