import ZeldaOS.VmMonitor.GuestMemory

/-!
# What the setup of a guest writes

`map_ept_page` writes entries of the guest's tables and pages that it is handed out for new ones,
and nothing else (`EptWrites`). So in `setup_basic_physical_memory` a page of the guest keeps the
zeros it was cleared to, whatever is mapped after it, and the memory outside the pages handed out is
left as it was (`SetupFrame`, `setupBasicPhysicalMemory_frame`). In particular the kernel's own
tables are, and the host pages stay mapped to themselves.
-/

namespace ZeldaOS

section
variable {A : Type} [PageAllocator A] {k k' k'' : Kernel A} {base a limit : Nat}
  {tbl used : Set Nat} {p : Path} {i : Fin 512} {rc : ErrorCode}

/-- A step that writes only tables of the guest and pages that it is handed out. -/
structure EptWrites (base : Nat) (k k' : Kernel A) : Prop where
  reaches : Reaches k.alloc k'.alloc
  pml4Base : k'.pml4Base = k.pml4Base
  tables : ∀ q a, q.length < 4 → tableAt eptChild k'.mem base q = some a →
    tableAt eptChild k.mem base q = some a ∨ (a ≠ 0 ∧ Handed k.alloc k'.alloc a)
  frame : ∀ c, c % 4096 = 0 → (∀ q, q.length < 4 → tableAt eptChild k.mem base q ≠ some c) →
    (c ≠ 0 → ¬ Handed k.alloc k'.alloc c) → Memory.AgreeOn k'.mem k.mem c 4096

theorem EptWrites.refl (base : Nat) (k : Kernel A) : EptWrites base k k :=
  ⟨.refl _, rfl, fun _ _ _ => .inl, fun _ _ _ _ _ _ _ => rfl⟩

theorem EptWrites.trans (h : EptWrites base k k') (h' : EptWrites base k' k'') :
    EptWrites base k k'' := by
  refine ⟨h.reaches.trans h'.reaches, h'.pml4Base.trans h.pml4Base, fun q a hq ha => ?_,
    fun c hc htable hh => ?_⟩
  · rcases h'.tables q a hq ha with ha | ⟨hne, hh⟩
    · exact (h.tables q a hq ha).imp_right fun ⟨hne, hh⟩ => ⟨hne, hh.append h'.reaches⟩
    · exact .inr ⟨hne, hh.prepend h.reaches⟩
  · have hh₁ : c ≠ 0 → ¬ Handed k.alloc k'.alloc c := fun hne h₁ => hh hne (h₁.append h'.reaches)
    have hh₂ : c ≠ 0 → ¬ Handed k'.alloc k''.alloc c := fun hne h₂ => hh hne (h₂.prepend h.reaches)
    have htable' : ∀ q, q.length < 4 → tableAt eptChild k'.mem base q ≠ some c := by
      intro q hq heq
      rcases h.tables q c hq heq with heq | ⟨hne, h₁⟩
      · exact htable q hq heq
      · exact hh₁ hne h₁
    intro x h₁ h₂
    rw [h'.frame c hc htable' hh₂ x h₁ h₂, h.frame c hc htable hh₁ x h₁ h₂]

/-- **Installing a table.** -/
theorem EptTree.installEptTable_writes (h : EptTree base k tbl used limit) (hp : p.length ≤ 2)
    (ha : tableAt eptChild k.mem base p = some a)
    (hr : ZeldaOS.installEptTable k (a + 8 * i) = some k')
    (hlim : ∀ r, Handed k.alloc k'.alloc r → r < 2 ^ 40) : EptWrites base k k' := by
  rcases installEptTable_cases hr with ⟨-, rfl⟩ | ⟨hab, hne, rfl⟩
  · exact .refl base _
  · have hh := Handed.single k.alloc
    have hl := h.linkable hp ha hab hne (hlim _ hh)
    refine ⟨.single _, rfl, fun q c hq hc => ?_, fun c hc htable hnot x h₁ h₂ => ?_⟩
    · dsimp only at hc
      rw [hl.tableAt_eq hq] at hc
      split at hc
      · cases hc
        exact .inr ⟨hne, hh⟩
      · exact .inl hc
    · have hal := h.tables.aligned a hl.mem_used
      have hca : a ≠ c := fun heq => htable p (by omega) (heq ▸ ha)
      have hcb : c ≠ (PageAllocator.getPhysicalPage k.alloc).1 := by
        rintro rfl
        exact hnot hne hh
      have hbal := hl.aligned
      have hentry := entry_page_disjoint hal hc hca i
      exact hl.links.frame x (by omega) (by omega)

/-- A leaf is an entry of a table. -/
theorem EptTree.storeLeaf_writes {guestPa : Nat} (h : EptTree base k tbl used limit)
    (ha : tableAt eptChild k.mem base (slotPath guestPa) = some a) (w : Nat) :
    EptWrites base k { k with mem := k.mem.write (a + 8 * level1Index guestPa) 8 w } := by
  have hlen : (slotPath guestPa).length < 4 := by simp [slotPath]
  refine ⟨.refl _, rfl, fun q c hq hc => ?_, fun c hc htable _ x h₁ h₂ => ?_⟩
  · have hs := stores_write k.mem (a + 8 * level1Index guestPa) w
    dsimp only at hc
    rw [h.tables.tableAt_store hlen ha hs (by simp [slotPath]) hq] at hc
    exact .inl hc
  · have hal := h.tables.aligned a (h.tables.mem_used _ a hlen ha)
    have hentry := entry_page_disjoint hal hc (fun heq => htable _ hlen (heq ▸ ha))
      (level1Index guestPa)
    exact Memory.write_apply_of_not_mem (by omega)

/-- **A call of `map_ept_page`.** -/
theorem EptTree.mapEptPage_writes {guestPa phyPa : Nat} {backing : Backing}
    (h : EptTree base k tbl used limit)
    (hr : ZeldaOS.mapEptPage k base guestPa phyPa backing = some (rc, k'))
    (hlim : ∀ r, Handed k.alloc k'.alloc r → r < 2 ^ 40) : EptWrites base k k' := by
  simp only [ZeldaOS.mapEptPage, Option.bind_eq_bind, Option.bind_eq_some_iff] at hr
  obtain ⟨k₁, hr₁, k₂, hr₂, k₃, hr₃, hr⟩ := hr
  have halloc : k'.alloc = k₃.alloc := by split at hr <;> cases hr <;> rfl
  have hre₁ := installEptTable_reaches hr₁
  have hre₂ := installEptTable_reaches hr₂
  have hre₃ := installEptTable_reaches hr₃
  rw [halloc] at hlim
  have hlim₁ : ∀ r, Handed k.alloc k₁.alloc r → r < 2 ^ 40 :=
    fun r hr => hlim r (hr.append (hre₂.trans hre₃))
  have hlim₂ : ∀ r, Handed k₁.alloc k₂.alloc r → r < 2 ^ 40 :=
    fun r hr => hlim r ((hr.append hre₃).prepend hre₁)
  have hlim₃ : ∀ r, Handed k₂.alloc k₃.alloc r → r < 2 ^ 40 :=
    fun r hr => hlim r (hr.prepend (hre₁.trans hre₂))
  obtain ⟨_, _, h₁, -, ht₁, -⟩ := h.installEptTable (by simp) tableAt_nil hr₁ hlim₁
  obtain ⟨_, _, h₂, -, ht₂, -⟩ := h₁.installEptTable (by simp) ht₁ hr₂ hlim₂
  obtain ⟨_, _, h₃, -, ht₃, -⟩ := h₂.installEptTable (by simp) ht₂ hr₃ hlim₃
  have hw₃ := ((h.installEptTable_writes (by simp) tableAt_nil hr₁ hlim₁).trans
    (h₁.installEptTable_writes (by simp) ht₁ hr₂ hlim₂)).trans
    (h₂.installEptTable_writes (by simp) ht₂ hr₃ hlim₃)
  split at hr
  · cases hr
    exact hw₃.trans (h₃.storeLeaf_writes ht₃ (eptLeaf phyPa backing))
  · cases hr
    exact hw₃

/-! ## The setup of a guest -/

variable {b lo hi cur : Nat} {kpt : Set Nat} {k₀ : Kernel A}

/-- **Allocating and clearing a page.** -/
theorem EptTree.getClearPage_writes (h : EptTree base k tbl used limit)
    (hr : ZeldaOS.getClearPage k = some (b, k')) : EptWrites base k k' := by
  have hh := getClearPage_handed hr
  obtain ⟨hne, rfl, rfl⟩ := getClearPage_cases hr
  refine ⟨.single _, rfl, fun q c hq hc => ?_, fun c hc _ hnot => ?_⟩
  · dsimp only at hc
    rw [h.tables.tableAt_congr (fun a ha => Memory.fill_agreeOn
      (h.fresh.head_disjoint hne (h.subset ha) (h.tables.aligned a ha))) hq] at hc
    exact .inl hc
  · have hcb : c ≠ (PageAllocator.getPhysicalPage k.alloc).1 := by
      rintro rfl
      exact hnot hne hh
    have hal := (h.fresh.head hne).1
    exact Memory.fill_agreeOn (by omega)

/-- The assertion on a new page. -/
theorem getClearPage_pa (hr : getClearPage k = some (b, k')) : pa k.mem k.pml4Base b = b := by
  rw [getClearPage] at hr
  split at hr
  · next h =>
    cases hr
    exact h.2
  · cases hr

/-- The invariant of the loop, for a call that began in `k₀`: the tables are pages handed out, the
memory outside the pages handed out is as it was, and the pages of the guest are zero and were
mapped to themselves. -/
structure SetupFrame (k₀ : Kernel A) (base lo hi cur : Nat) (k : Kernel A) : Prop where
  pml4Base : k.pml4Base = k₀.pml4Base
  tables : ∀ q a, q.length < 4 → tableAt eptChild k.mem base q = some a →
    a ≠ 0 ∧ Handed k₀.alloc k.alloc a
  frame : ∀ c, c % 4096 = 0 → (c ≠ 0 → ¬ Handed k₀.alloc k.alloc c) →
    Memory.AgreeOn k.mem k₀.mem c 4096
  zero : ∀ g, GuestPage lo hi g → g < cur → ∀ x, guestpaToHostpa k.mem base g ≤ x →
    x < guestpaToHostpa k.mem base g + 4096 → k.mem x = 0
  mapped : ∀ g, GuestPage lo hi g → g < cur →
    pa k₀.mem k₀.pml4Base (guestpaToHostpa k.mem base g) = guestpaToHostpa k.mem base g

/-- The kernel's own tables, which are none of the pages handed out, translate as at the
beginning. -/
theorem SetupFrame.kernel (h : SetupFrame k₀ base lo hi cur k)
    (hkernel : KernelTables k₀.mem k₀.pml4Base kpt) (hfresh : Fresh k₀.alloc kpt limit) :
    KernelTables k.mem k.pml4Base kpt ∧
      ∀ v, pa k.mem k.pml4Base v = pa k₀.mem k₀.pml4Base v := by
  rw [h.pml4Base]
  exact hkernel.congr fun a ha => h.frame a (hkernel.tables.aligned a ha)
    fun hne hh => (hfresh.handed hh hne).2.2 ha

/-- **One iteration** keeps the invariant. -/
theorem SetupFrame.step (h : SetupFrame k₀ base lo hi cur k)
    (hkernel : KernelTables k₀.mem k₀.pml4Base kpt) (hfresh : Fresh k₀.alloc kpt limit)
    (hg : GuestPages base k₀.alloc lo hi cur k tbl used) (hcur : cur % 4096 = 0)
    (hlt : cur < 2 ^ 48) (hr₁ : getClearPage k = some (b, k'))
    (hr₂ : mapEptPage k' base cur b .systemMemory = some (rc, k''))
    (hlim : ∀ r, Handed k.alloc k''.alloc r → r < 2 ^ 40) :
    SetupFrame k₀ base lo hi (cur + 4096) k'' := by
  have hm := hg.pageMapped hcur hlt hr₁ hr₂ hlim
  obtain ⟨hnot, hal, htree₁, -⟩ := hg.tree.getClearPage hr₁
  have hbne := (getClearPage_cases hr₁).1
  have hw₂ := htree₁.mapEptPage_writes hr₂ fun r hr => hlim r
    (hr.prepend (getClearPage_reaches hr₁))
  have hw := (hg.tree.getClearPage_writes hr₁).trans hw₂
  refine ⟨hw.pml4Base.trans h.pml4Base, fun q a hq ha => ?_, fun c hc hnot x h₁ h₂ => ?_,
    fun g hgp hgc x h₁ h₂ => ?_, fun g hgp hgc => ?_⟩
  · rcases hw.tables q a hq ha with ha | ⟨hne, hh⟩
    · obtain ⟨hne, hh⟩ := h.tables q a hq ha
      exact ⟨hne, hh.append hw.reaches⟩
    · exact ⟨hne, hh.prepend hg.reaches⟩
  · have htable : ∀ q, q.length < 4 → tableAt eptChild k.mem base q ≠ some c := fun q hq heq =>
      hnot (h.tables q c hq heq).1 ((h.tables q c hq heq).2.append hw.reaches)
    rw [hw.frame c hc htable (fun hne hh => hnot hne (hh.prepend hg.reaches)) x h₁ h₂]
    exact h.frame c hc (fun hne hh => hnot hne (hh.append hw.reaches)) x h₁ h₂
  · rcases hgp.lt_or_eq hcur hgc with hgc | rfl
    · -- a page mapped before is neither a table nor handed out again
      rw [hm.host_eq hg hgp hgc] at h₁ h₂
      obtain ⟨hu, ht, hne, hh⟩ := hg.host g hgp hgc
      have hfix := hw.frame _ (hfresh.handed hh hne).1
        (fun q hq heq => ht (hg.tree.tables.mem_used q _ hq heq))
        (fun hne hh => (hg.tree.fresh.handed hh hne).2.2 hu)
      rw [hfix x h₁ h₂]
      exact h.zero g hgp hgc x h₁ h₂
    · rw [hm.host] at h₁ h₂
      have hfix := hw₂.frame b hal
        (fun q hq heq => hnot (hg.tree.subset (htree₁.tables.mem_used q _ hq heq)))
        (fun hne hh => (htree₁.fresh.handed hh hne).2.2 (Set.mem_insert b used))
      rw [hfix x h₁ h₂]
      obtain ⟨-, -, rfl⟩ := getClearPage_cases hr₁
      exact Memory.fill_apply_of_mem h₁ h₂
  · rcases hgp.lt_or_eq hcur hgc with hgc | rfl
    · rw [hm.host_eq hg hgp hgc]
      exact h.mapped g hgp hgc
    · rw [hm.host, ← (h.kernel hkernel hfresh).2 b]
      exact getClearPage_pa hr₁

/-- **What the setup of a guest leaves.** -/
theorem setupBasicPhysicalMemory_frame (hkernel : KernelTables k₀.mem k₀.pml4Base kpt)
    (hfresh : Fresh k₀.alloc kpt (2 ^ 52)) (hlo : lo % 4096 = 0) (hhi : hi < 2 ^ 48 - 4096)
    (hr : setupBasicPhysicalMemory k₀ lo hi = some (base, k))
    (hlim : ∀ r, Handed k₀.alloc k.alloc r → r < 2 ^ 40) :
    ∃ cur tbl used, hi < cur ∧ GuestPages base k₀.alloc lo hi cur k tbl used ∧
      SetupFrame k₀ base lo hi cur k := by
  refine setupBasicPhysicalMemory_inv (SetupFrame k₀ base lo hi)
    (hfresh.mono (Set.empty_subset kpt)) hlo hhi hr hlim ?_
    fun cur k₁ b k₂ rc k₃ tbl used hg h hcur hle hr₁ hr₂ hlim =>
      h.step hkernel hfresh hg hcur (by omega) hr₁ hr₂ hlim
  intro k₁ hr₁ hnone
  have hh := getClearPage_handed hr₁
  obtain ⟨hne, hb, rfl⟩ := getClearPage_cases hr₁
  refine ⟨rfl, fun q a hq ha => ?_, fun c hc hnot => ?_, fun g hg hgc => ?_, fun g hg hgc => ?_⟩
  · cases q with
    | nil =>
      cases ha
      exact ⟨hne, hh⟩
    | cons i q =>
      rw [hnone] at ha
      cases ha
  · have hcb : c ≠ base := by
      rintro rfl
      exact hnot hne hh
    have hal := (hfresh.handed hh hne).1
    exact Memory.fill_agreeOn (by omega)
  all_goals exact absurd hg.low (by omega)

end

end ZeldaOS
