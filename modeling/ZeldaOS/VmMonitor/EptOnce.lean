import ZeldaOS.VmMonitor.GuestMemory

/-!
# The leaves of the extended page tables are written once

The tables of one guest are built by `map_ept_page`, which is called from the loop of
`setup_basic_physical_memory`, from `setup_io_memory` and directly. `EptEvent` has these calls and
the allocation of a cleared page that the loop makes before each of its calls; a call of
`setup_basic_physical_memory` is a run of such events on the PML4 it allocates
(`setupBasicPhysicalMemory_eptHistory`).

The invariant is again that every leaf is the one of the first call for its page (`EptLeaves`). So a
leaf, once stored, stays (`EptEvent.leaf_kept`), a call for its page finds every table on its way
and changes nothing (`mapEptPage_of_leaf`), and its access bits are those of the backing of that
first call (`eptLeaves_written_once`).
-/

namespace ZeldaOS

/-- The word of the leaf of `g`, 0 where there is no table for it. -/
def eptLeafAt (m : Memory) (base g : Nat) : Nat := (entryAt eptChild m base (pagePath g)).getD 0

/-- The page of `g` has a leaf, for memory or for a device. -/
def HasLeaf (m : Memory) (base g : Nat) : Prop := ¬ EptAbsent (eptLeafAt m base g)

/-- What happens to the tables of a guest. -/
inductive EptEvent
  /-- A page is allocated and cleared. -/
  | page
  /-- A call of `map_ept_page`. -/
  | map (c : EptCall)
  /-- A call of `setup_io_memory`. -/
  | io (guestPa : Nat)
deriving DecidableEq, Repr

namespace EptEvent

/-- The call of `map_ept_page` that an event makes. -/
def call? : EptEvent → Option EptCall
  | page => none
  | map c => some c
  | io guestPa => some ⟨guestPa, 0, .systemIomemory⟩

/-- The events whose call is for a guest page below 2^48 and a host address below 2^40. -/
def Ok (e : EptEvent) : Prop := ∀ c ∈ e.call?, c.guestPa < 2 ^ 48 ∧ c.phyPa < 2 ^ 40

end EptEvent

section
variable {A : Type} [PageAllocator A]

/-- One event. The assertion of `setup_io_memory` leaves only successful calls. -/
def eptEventStep (base : Nat) (k : Kernel A) : EptEvent → Option (ErrorCode × Kernel A)
  | .page => (getClearPage k).map fun r => (.ok, r.2)
  | .map c => eptStep base k c
  | .io guestPa => (setupIoMemory k base guestPa).map fun k' => (.ok, k')

/-- The calls of a history, with what they returned. -/
def eptCalls (t : List (EptEvent × ErrorCode)) : List (EptCall × ErrorCode) :=
  t.filterMap fun x => x.1.call?.map fun c => (c, x.2)

/-- The tables at `base` have come about by the events `t`, from an empty PML4. -/
def EptHistory (base : Nat) (t : List (EptEvent × ErrorCode)) (k : Kernel A) : Prop :=
  ∃ k₀ : Kernel A, ZeroedEpt base k₀ ∧ Run (eptEventStep base) (fun _ e => e.Ok) k₀ t k

/-- The invariant: every leaf is the one of the first call for its page. -/
structure EptLeaves (base : Nat) (t : List (EptCall × ErrorCode)) (k : Kernel A) : Prop where
  tree : ∃ tbl used, EptTree base k tbl used (2 ^ 40)
  leaf : ∀ g, g < 2 ^ 48 → entryAt eptChild k.mem base (pagePath g) = leafOf t g

end

section
variable {A : Type} [PageAllocator A] {k k₀ k' : Kernel A} {base b g : Nat} {e : EptEvent}
  {t : List (EptEvent × ErrorCode)} {c : EptCall} {rc : ErrorCode}

/-- An event without a call adds none, -/
theorem eptCalls_snoc_of_none (he : e.call? = none) :
    eptCalls (t ++ [(e, rc)]) = eptCalls t := by
  simp [eptCalls, he]

/-- and a call is added. -/
theorem eptCalls_snoc_of_some (he : e.call? = some c) :
    eptCalls (t ++ [(e, rc)]) = eptCalls t ++ [(c, rc)] := by
  simp [eptCalls, he]

/-- An event that makes a call is that call. -/
theorem eptEventStep_of_call (he : e.call? = some c)
    (hst : eptEventStep base k e = some (rc, k')) : eptStep base k c = some (rc, k') := by
  cases e with
  | page => cases he
  | map c' =>
    cases he
    exact hst
  | io guestPa =>
    cases he
    obtain ⟨k₁, hio, heq⟩ := Option.map_eq_some_iff.1 hst
    cases heq
    rw [setupIoMemory] at hio
    split at hio
    · next hmap =>
      cases hio
      exact hmap
    · cases hio

/-- An event that makes no call clears a page. -/
theorem eptEventStep_of_none (he : e.call? = none)
    (hst : eptEventStep base k e = some (rc, k')) : ∃ b, getClearPage k = some (b, k') := by
  cases e with
  | page =>
    obtain ⟨⟨b, k₁⟩, hpage, heq⟩ := Option.map_eq_some_iff.1 hst
    cases heq
    exact ⟨b, hpage⟩
  | map c => cases he
  | io guestPa => cases he

/-- The leaves at the start. -/
theorem ZeroedEpt.eptLeaves (h : ZeroedEpt base k) : EptLeaves base [] k :=
  ⟨h.eptInv.tree, h.eptInv.leaf⟩

/-- **One event** keeps the invariant. -/
theorem EptLeaves.step (h : EptLeaves base (eptCalls t) k) (hok : e.Ok)
    (hst : eptEventStep base k e = some (rc, k')) :
    EptLeaves base (eptCalls (t ++ [(e, rc)])) k' := by
  obtain ⟨tbl, used, htree⟩ := h.tree
  cases he : e.call? with
  | none =>
    obtain ⟨b, hpage⟩ := eptEventStep_of_none he hst
    obtain ⟨-, -, htree', hent⟩ := htree.getClearPage hpage
    rw [eptCalls_snoc_of_none he]
    exact ⟨⟨_, _, htree'⟩, fun g hg => (hent g).trans (h.leaf g hg)⟩
  | some c =>
    obtain ⟨tbl', used', htree', -, hleaf⟩ := htree.mapEptPage (eptEventStep_of_call he hst)
      fun _ hr => htree.fresh.handed_lt (by decide) hr
    rw [eptCalls_snoc_of_some he]
    refine ⟨⟨tbl', used', htree'⟩, fun g hg => ?_⟩
    rw [hleaf g, h.leaf g hg, leafOf_snoc hg (hok c he).1]

/-- The leaves after any history. -/
theorem EptHistory.eptLeaves (h : EptHistory base t k) : EptLeaves base (eptCalls t) k := by
  obtain ⟨k₀, h₀, hrun⟩ := h
  exact hrun.inv (fun t k => EptLeaves base (eptCalls t) k) h₀.eptLeaves
    fun _ _ _ _ _ h hok hst => h.step hok hst

/-- A history goes on. -/
theorem EptHistory.append {t' : List (EptEvent × ErrorCode)} (h : EptHistory base t k)
    (hrun : Run (eptEventStep base) (fun _ e => e.Ok) k t' k') : EptHistory base (t ++ t') k' := by
  obtain ⟨k₀, h₀, hrun₀⟩ := h
  refine ⟨k₀, h₀, ?_⟩
  induction hrun with
  | nil => rwa [List.append_nil]
  | snoc _ hok hst ih =>
    rw [← List.append_assoc]
    exact ih.snoc hok hst

/-! ## Leaves stay -/

/-- A page keeps its first mapping. -/
theorem firstMapping_append {t t' : List (EptCall × ErrorCode)} (h : firstMapping t g = some c) :
    firstMapping (t ++ t') g = some c := by
  rw [firstMapping, Option.map_eq_some_iff] at h
  obtain ⟨x, hx, rfl⟩ := h
  rw [firstMapping, List.find?_append, hx, Option.some_or, Option.map_some]

/-- The leaf of an address. -/
theorem EptLeaves.leafAt {t : List (EptCall × ErrorCode)} (h : EptLeaves base t k)
    (hg : g < 2 ^ 48) : eptLeafAt k.mem base g = leafWord t g := by
  rw [eptLeafAt, h.leaf g hg, getD_leafOf]

/-- A page has a leaf exactly if there was a call for it. -/
theorem EptLeaves.hasLeaf_iff {t : List (EptCall × ErrorCode)} (h : EptLeaves base t k)
    (hg : g < 2 ^ 48) : HasLeaf k.mem base g ↔ ∃ c, firstMapping t g = some c := by
  rw [HasLeaf, h.leafAt hg, eptAbsent_leafWord, ← ne_eq, Option.ne_none_iff_exists']

/-- **A leaf stays** whatever happens later. -/
theorem EptHistory.leaf_kept {t' : List (EptEvent × ErrorCode)} (h : EptHistory base t k)
    (hg : g < 2 ^ 48) (hleaf : HasLeaf k.mem base g)
    (hrun : Run (eptEventStep base) (fun _ e => e.Ok) k t' k') :
    eptLeafAt k'.mem base g = eptLeafAt k.mem base g := by
  obtain ⟨c, hc⟩ := (h.eptLeaves.hasLeaf_iff hg).1 hleaf
  have hc' : firstMapping (eptCalls (t ++ t')) g = some c := by
    rw [eptCalls, List.filterMap_append]
    exact firstMapping_append hc
  rw [(h.append hrun).eptLeaves.leafAt hg, h.eptLeaves.leafAt hg, leafWord, leafWord, hc, hc']

/-- **A call for a page with a leaf** finds every table on its way and changes nothing. -/
theorem mapEptPage_of_leaf (hleaf : HasLeaf k.mem base g) (phyPa : Nat) (backing : Backing) :
    mapEptPage k base g phyPa backing = some (.duplication, k) := by
  rw [HasLeaf, eptLeafAt, pagePath] at hleaf
  cases ha : tableAt eptChild k.mem base (slotPath g) with
  | none =>
    rw [entryAt_cons_of_none ha] at hleaf
    exact absurd eptAbsent_zero hleaf
  | some a =>
    rw [entryAt_cons_of_some ha, Option.getD_some] at hleaf
    rw [mapEptPage_of_table ha, if_neg hleaf]

/-- **A call for another page** changes no leaf. -/
theorem EptHistory.leaf_other (h : EptHistory base t k) (hg : g < 2 ^ 48)
    (hc : c.guestPa < 2 ^ 48) (hne : c.guestPa / 4096 ≠ g / 4096)
    (hst : eptStep base k c = some (rc, k')) :
    eptLeafAt k'.mem base g = eptLeafAt k.mem base g := by
  obtain ⟨tbl, used, htree⟩ := h.eptLeaves.tree
  obtain ⟨-, -, -, -, hleaf⟩ := htree.mapEptPage hst
    fun _ hr => htree.fresh.handed_lt (by decide) hr
  rw [eptLeafAt, eptLeafAt, hleaf g, leafAfter, if_neg, getD_leafBelow]
  rintro ⟨heq, -⟩
  exact hne ((pagePath_eq_iff hg hc).1 heq)

/-! ## The memory of a guest -/

/-- The events of a memory that is given to the guest. -/
def EptEvent.ForMemory (e : EptEvent) : Prop := ∀ c ∈ e.call?, c.backing = .systemMemory

/-- The loop of `setup_basic_physical_memory` is a run of events. -/
theorem setupLoop_exec {hi fuel cur : Nat} {tbl used : Set Nat}
    (h : EptTree base k tbl used (2 ^ 40)) (hhi : hi < 2 ^ 48 - 4096)
    (hr : setupLoop base hi fuel k cur = some k') :
    ∃ es t, exec (eptEventStep base) k es = some (t, k') ∧ (∀ e ∈ es, e.Ok) ∧
      ∀ x ∈ t, x.1.ForMemory := by
  induction fuel generalizing k cur tbl used with
  | zero => cases hr
  | succ fuel ih =>
    by_cases hle : cur ≤ hi
    · obtain ⟨b, k₁, rc, k₂, hr₁, hr₂, hr⟩ := setupLoop_succ hle hr
      obtain ⟨-, -, htree₁, -⟩ := h.getClearPage hr₁
      obtain ⟨tbl₂, used₂, htree₂, -⟩ := htree₁.mapEptPage hr₂
        fun _ hr => htree₁.fresh.handed_lt (by decide) hr
      have hb := h.fresh.handed_lt (by decide) (getClearPage_handed hr₁)
      have hcur : cur < 2 ^ 48 := by omega
      obtain ⟨es, t, hex, hok, hmem⟩ := ih htree₂ hr
      refine ⟨.page :: .map ⟨cur, b, .systemMemory⟩ :: es,
        (.page, .ok) :: (.map ⟨cur, b, .systemMemory⟩, rc) :: t, ?_, ?_, ?_⟩
      · simp only [exec, eptEventStep, hr₁, Option.map_some, eptStep, hr₂, hex]
      · simpa [EptEvent.Ok, EptEvent.call?] using ⟨⟨hcur, hb⟩, hok⟩
      · simpa [EptEvent.ForMemory, EptEvent.call?] using hmem
    · rw [setupLoop, if_neg hle] at hr
      cases hr
      exact ⟨[], [], rfl, by simp, by simp⟩

/-- **A call of `setup_basic_physical_memory`** is a history of the PML4 it returns. -/
theorem setupBasicPhysicalMemory_eptHistory {lo hi : Nat} (hfresh : Fresh k.alloc ∅ (2 ^ 40))
    (hhi : hi < 2 ^ 48 - 4096) (hr : setupBasicPhysicalMemory k lo hi = some (base, k')) :
    ∃ t, EptHistory base t k' ∧ ∀ x ∈ t, x.1.ForMemory := by
  simp only [setupBasicPhysicalMemory, Option.bind_eq_bind, Option.bind_eq_some_iff] at hr
  obtain ⟨⟨base, k₁⟩, hr₁, k₂, hr₂, heq⟩ := hr
  cases heq
  obtain ⟨hne, hbase, rfl⟩ := getClearPage_cases hr₁
  obtain ⟨hal, -, -⟩ := hfresh.head (hbase ▸ hne)
  have hnext := hfresh.next_insert
  rw [← hbase] at hal
  rw [← hbase, insert_empty_eq] at hnext
  have h₀ : ZeroedEpt base
      { k with
        mem := k.mem.fill base 4096 0
        alloc := (PageAllocator.getPhysicalPage k.alloc).2 } :=
    ⟨hal, fun x h₁ h₂ => Memory.fill_apply_of_mem h₁ h₂, hnext⟩
  obtain ⟨tbl, used, htree⟩ := h₀.eptInv.tree
  obtain ⟨es, t, hex, hok, hmem⟩ := setupLoop_exec htree hhi hr₂
  exact ⟨t, ⟨_, h₀, Run.nil.exec (fun e he _ => hok e he) hex⟩, hmem⟩

/-- The access bits of a leaf of memory, and of a leaf of a device. -/
def BackingBits (w : Nat) : Backing → Prop
  | .systemMemory => readAccess w = 1 ∧ writeAccess w = 1
  | .systemIomemory => readAccess w = 0 ∧ writeAccess w = 1

/-- A leaf has the bits of its backing. -/
theorem backingBits_eptLeaf (phyPa : Nat) (backing : Backing) :
    BackingBits (eptLeaf phyPa backing) backing := by
  cases backing with
  | systemMemory => exact ⟨readAccess_eptLeaf_systemMemory phyPa, writeAccess_eptLeaf phyPa _⟩
  | systemIomemory =>
    refine ⟨?_, writeAccess_eptLeaf phyPa _⟩
    rw [eptLeaf_systemIomemory]
    decide

/-- **The leaves are written once.** A call of `setup_basic_physical_memory` that returns leaves a
history of memory mappings on its PML4. In any history on one PML4, through any of the callers of
`map_ept_page`, and for every page with a leaf:
- the leaf stays the same through any later events;
- a call for the page returns `-ERROR_DUPLICATION` and changes nothing;
- the page was mapped before, and the access bits are those of the backing of its first mapping.
A call for any other page does not change the leaf of a page. -/
theorem eptLeaves_written_once {A : Type} [PageAllocator A] :
    (∀ (k k' : Kernel A) (lo hi base : Nat), Fresh k.alloc ∅ (2 ^ 40) → hi < 2 ^ 48 - 4096 →
      setupBasicPhysicalMemory k lo hi = some (base, k') →
      ∃ t, EptHistory base t k' ∧ ∀ x ∈ t, x.1.ForMemory) ∧
    ∀ (k : Kernel A) (base : Nat) (t : List (EptEvent × ErrorCode)), EptHistory base t k →
      ∀ g < 2 ^ 48,
        (HasLeaf k.mem base g →
          (∀ t' k', Run (eptEventStep base) (fun _ e => e.Ok) k t' k' →
            eptLeafAt k'.mem base g = eptLeafAt k.mem base g) ∧
          (∀ phyPa backing, mapEptPage k base g phyPa backing = some (.duplication, k)) ∧
          ∃ c, firstMapping (eptCalls t) g = some c ∧
            BackingBits (eptLeafAt k.mem base g) c.backing) ∧
        ∀ (c : EptCall) (rc : ErrorCode) (k' : Kernel A), c.guestPa < 2 ^ 48 →
          c.guestPa / 4096 ≠ g / 4096 → eptStep base k c = some (rc, k') →
          eptLeafAt k'.mem base g = eptLeafAt k.mem base g := by
  refine ⟨fun k k' lo hi base hfresh hhi hr => setupBasicPhysicalMemory_eptHistory hfresh hhi hr,
    fun k base t h g hg => ⟨fun hleaf => ⟨?_, mapEptPage_of_leaf hleaf, ?_⟩, ?_⟩⟩
  · intro t' k' hrun
    exact h.leaf_kept hg hleaf hrun
  · obtain ⟨c, hc⟩ := (h.eptLeaves.hasLeaf_iff hg).1 hleaf
    refine ⟨c, hc, ?_⟩
    rw [h.eptLeaves.leafAt hg, leafWord, hc, Option.elim_some]
    exact backingBits_eptLeaf c.phyPa c.backing
  · intro c rc k' hc hne hst
    exact h.leaf_other hg hc hne hst

/-- A page that is mapped cannot be mapped again. -/
theorem eptLeaves_written_once_sample : ∃ t, ∃ k : Kernel PhysicalMemory, EptHistory 0x404000 t k ∧
    HasLeaf k.mem 0x404000 0x1000 ∧
      ∀ phyPa backing, mapEptPage k 0x404000 0x1000 phyPa backing = some (.duplication, k) := by
  have hex : (exec (eptEventStep 0x404000) identityKernel
      [.page, .map ⟨0, 0x405000, .systemMemory⟩, .io 0x1000]).map
        (fun r => eptLeafAt r.2.mem 0x404000 0x1000) = some 0x476 := by decide +kernel
  obtain ⟨⟨t, k⟩, hk, heq⟩ := Option.map_eq_some_iff.1 hex
  have hrun : Run (eptEventStep 0x404000) (fun _ e => e.Ok) identityKernel t k :=
    Run.nil.exec (by simp [EptEvent.Ok, EptEvent.call?]) hk
  have hist : EptHistory 0x404000 t k := ⟨_, zeroedEpt_sample, hrun⟩
  have hleaf : HasLeaf k.mem 0x404000 0x1000 := by
    rw [HasLeaf, heq]
    decide
  exact ⟨t, k, hist, hleaf, ((eptLeaves_written_once.2 k _ t hist 0x1000 (by decide)).1 hleaf).2.1⟩

end

end ZeldaOS
