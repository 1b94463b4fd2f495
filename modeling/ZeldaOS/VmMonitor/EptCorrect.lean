import ZeldaOS.Memory.PagingCorrect
import ZeldaOS.VmMonitor.Ept

/-!
# Correctness of the extended page tables

The tables of a guest are a radix tree of four levels, and `guestpa_to_hostpa` reads one leaf of it
(`guestpaToHostpa_eq`). One call of `map_ept_page` has a local effect on the leaves
(`EptTree.mapEptPage`): the leaf of its page is stored if it was empty, and the leaves that share
its last-level table come to exist.

Over a run of calls each leaf is therefore determined by the first call for its page (`EptInv`).
The lookup is exact for the pages that were mapped and for the regions of 2 MiB that were not
touched; for a page that was not mapped next to one that was, the walker takes the empty leaf for a
mapping (`guestpaToHostpa_exact_iff`).
-/

namespace ZeldaOS

/-! ## The walk -/

/-- The table an entry of the upper levels points to. -/
def eptChild (w : Nat) : Option Nat := if EptAbsent w then none else some (eptAddress w)

/-- An entry 0 leads nowhere. -/
theorem eptChild_zero : eptChild 0 = none := if_pos eptAbsent_zero

/-- The translation of `g` by its leaf. -/
def translateLeaf (w g : Nat) : Nat :=
  if readAccess w = 0 ∧ writeAccess w ≠ 0 then translationError
  else eptAddress w ||| (g &&& 0xfff)

section
variable {m : Memory} {base a : Nat} {p : Path} {i : Fin 512}

/-- Below an absent entry there is no table, -/
theorem tableAt_of_eptAbsent (ha : tableAt eptChild m base p = some a)
    (h : EptAbsent (m.read (a + 8 * i) 8)) : tableAt eptChild m base (i :: p) = none := by
  rw [tableAt_cons_of_some ha, eptChild, if_pos h]

/-- and below another entry there is the table of its address. -/
theorem tableAt_of_not_eptAbsent (ha : tableAt eptChild m base p = some a)
    (h : ¬ EptAbsent (m.read (a + 8 * i) 8)) :
    tableAt eptChild m base (i :: p) = some (eptAddress (m.read (a + 8 * i) 8)) := by
  rw [tableAt_cons_of_some ha, eptChild, if_neg h]

/-- An entry that points to a table is present. -/
theorem not_eptAbsent_of_tableAt {a' : Nat} (ha : tableAt eptChild m base p = some a)
    (ha' : tableAt eptChild m base (i :: p) = some a') :
    ¬ EptAbsent (m.read (a + 8 * i) 8) ∧ a' = eptAddress (m.read (a + 8 * i) 8) := by
  rw [tableAt_cons_of_some ha, eptChild] at ha'
  split at ha'
  · cases ha'
  · next hab => exact ⟨hab, (Option.some.inj ha').symm⟩

/-- **`guestpa_to_hostpa` reads the leaf of the page.** -/
theorem guestpaToHostpa_eq (m : Memory) (base g : Nat) :
    guestpaToHostpa m base g =
      (entryAt eptChild m base (pagePath g)).elim translationError (translateLeaf · g) := by
  have h4 : tableAt eptChild m base [] = some base := rfl
  simp only [guestpaToHostpa, pagePath, slotPath]
  split
  · next hab =>
    have hnone := tableAt_of_eptAbsent h4 hab
    rw [entryAt_cons_of_none (tableAt_cons_of_none (tableAt_cons_of_none hnone)), Option.elim_none]
  next hab =>
  have h3 := tableAt_of_not_eptAbsent h4 hab
  split
  · next hab =>
    have hnone := tableAt_of_eptAbsent h3 hab
    rw [entryAt_cons_of_none (tableAt_cons_of_none hnone), Option.elim_none]
  next hab =>
  have h2 := tableAt_of_not_eptAbsent h3 hab
  split
  · next hab => rw [entryAt_cons_of_none (tableAt_of_eptAbsent h2 hab), Option.elim_none]
  next hab =>
  have h1 := tableAt_of_not_eptAbsent h2 hab
  rw [entryAt_cons_of_some h1, Option.elim_some, translateLeaf]

end

/-! ## Installing a table -/

/-- The memory after the page `b` is installed as a table under the entry at `e`. -/
def installedMemory (m : Memory) (e b : Nat) : Memory :=
  let m := (m.write e 8 eptFlags).fill b 4096 0
  m.write e 8 (setBitField (m.read e 8) 12 40 (b >>> 12))

section
variable {m : Memory} {e b : Nat} (hd : e + 8 ≤ b ∨ b + 4096 ≤ e)
include hd

/-- A table that is installed is linked by its entry. -/
theorem links_installedMemory : Links m (installedMemory m e b) e b := by
  refine ⟨fun x h₁ h₂ => ?_, fun x h₁ h₂ => ?_⟩
  · rw [installedMemory, Memory.write_apply_of_not_mem (by omega), Memory.fill_apply_of_mem h₁ h₂]
  · rw [installedMemory, Memory.write_apply_of_not_mem h₁, Memory.fill_apply_of_not_mem h₂,
      Memory.write_apply_of_not_mem h₁]

/-- The entry is read back. -/
theorem read_installedMemory : (installedMemory m e b).read e 8 = eptTableEntry b := by
  have hflags : ((m.write e 8 eptFlags).fill b 4096 0).read e 8 = eptFlags := by
    rw [Memory.read_fill_of_disjoint hd, Memory.read_write_self, eptFlags_eq]
    rfl
  rw [installedMemory, Memory.read_write_self, hflags]
  exact Nat.mod_eq_of_lt (eptTableEntry_lt b)

end

section
variable {A : Type} [PageAllocator A] {k k' k'' : Kernel A} {base a limit : Nat}
  {tbl used tbl' used' tbl'' used'' : Set Nat} {p : Path} {i : Fin 512} {rc : ErrorCode}

/-- What installing a table does. -/
theorem installEptTable_cases {e : Nat} (hr : installEptTable k e = some k') :
    (¬ EptAbsent (k.mem.read e 8) ∧ k' = k) ∨
    (EptAbsent (k.mem.read e 8) ∧ (PageAllocator.getPhysicalPage k.alloc).1 ≠ 0 ∧
      k' = { k with
        mem := installedMemory k.mem e (PageAllocator.getPhysicalPage k.alloc).1
        alloc := (PageAllocator.getPhysicalPage k.alloc).2 }) := by
  rw [installEptTable] at hr
  split at hr
  · next hab =>
    dsimp only at hr
    split at hr
    · next hpage =>
      split at hr
      · cases hr
      · exact .inr ⟨hab, hpage.1, (Option.some.inj hr).symm⟩
    · cases hr
  · next hab => exact .inl ⟨hab, (Option.some.inj hr).symm⟩

/-- The state of a guest's tables: a radix tree over the pages `tbl`, among the pages `used`, with
fresh pages to come. -/
structure EptTree (base : Nat) (k : Kernel A) (tbl used : Set Nat) (limit : Nat) : Prop where
  tables : Tables eptChild k.mem base 4 tbl
  subset : tbl ⊆ used
  fresh : Fresh k.alloc used limit

/-- A step that uses no page but those it is handed out, and builds tables from those only. -/
structure EptGrows (k k' : Kernel A) (tbl used tbl' used' : Set Nat) : Prop where
  reaches : Reaches k.alloc k'.alloc
  subset : used ⊆ used'
  fresh : ∀ b ∈ tbl', b ∈ tbl ∨ b ∉ used

/-- Nothing happened. -/
theorem EptGrows.refl (k : Kernel A) (tbl used : Set Nat) : EptGrows k k tbl used tbl used :=
  ⟨.refl _, fun _ => id, fun _ => .inl⟩

/-- One thing after the other. -/
theorem EptGrows.trans (h : EptGrows k k' tbl used tbl' used')
    (h' : EptGrows k' k'' tbl' used' tbl'' used'') : EptGrows k k'' tbl used tbl'' used'' := by
  refine ⟨h.reaches.trans h'.reaches, fun b hb => h'.subset (h.subset hb), fun b hb => ?_⟩
  rcases h'.fresh b hb with hb | hb
  · exact h.fresh b hb
  · exact .inr fun hu => hb (h.subset hu)

/-- A table is taken from the allocator. -/
theorem installEptTable_reaches {e : Nat} (hr : installEptTable k e = some k') :
    Reaches k.alloc k'.alloc := by
  rcases installEptTable_cases hr with ⟨-, rfl⟩ | ⟨-, -, rfl⟩
  · exact .refl _
  · exact .single _

/-- The leaf of `g` once the last-level table at `q` exists. -/
def leafBelow (q : Path) (g : Nat) (old : Option Nat) : Option Nat :=
  if slotPath g = q then some (old.getD 0) else old

/-- The next page can be linked under an absent entry. -/
theorem EptTree.linkable (h : EptTree base k tbl used limit) (hp : p.length ≤ 2)
    (ha : tableAt eptChild k.mem base p = some a) (hab : EptAbsent (k.mem.read (a + 8 * i) 8))
    (hne : (PageAllocator.getPhysicalPage k.alloc).1 ≠ 0)
    (hlt : (PageAllocator.getPhysicalPage k.alloc).1 < 2 ^ 40) :
    Linkable eptChild k.mem
      (installedMemory k.mem (a + 8 * i) (PageAllocator.getPhysicalPage k.alloc).1) base 4 tbl p a i
      (PageAllocator.getPhysicalPage k.alloc).1 := by
  obtain ⟨hal, -, hfresh⟩ := h.fresh.head hne
  have hau := h.tables.mem_used p a (by omega) ha
  have hnt : (PageAllocator.getPhysicalPage k.alloc).1 ∉ tbl := fun hb => hfresh (h.subset hb)
  have hd := entry_page_disjoint (h.tables.aligned a hau) hal (fun heq => hnt (heq ▸ hau)) i
  refine ⟨h.tables, by omega, ha, if_pos hab, hnt, hal, links_installedMemory hd, ?_, eptChild_zero⟩
  rw [read_installedMemory hd, eptChild, if_neg (not_eptAbsent_eptTableEntry _),
    eptAddress_eptTableEntry hal hlt]

/-- **Installing a table.** The entry then points to a table, and the leaves below it exist. -/
theorem EptTree.installEptTable (h : EptTree base k tbl used limit) (hp : p.length ≤ 2)
    (ha : tableAt eptChild k.mem base p = some a)
    (hr : installEptTable k (a + 8 * i) = some k')
    (hlim : ∀ r, Handed k.alloc k'.alloc r → r < 2 ^ 40) :
    ∃ tbl' used', EptTree base k' tbl' used' limit ∧ EptGrows k k' tbl used tbl' used' ∧
      tableAt eptChild k'.mem base (i :: p) = some (eptAddress (k'.mem.read (a + 8 * i) 8)) ∧
      ∀ g, entryAt eptChild k'.mem base (pagePath g) =
        leafBelow (i :: p) g (entryAt eptChild k.mem base (pagePath g)) := by
  rcases installEptTable_cases hr with ⟨hab, rfl⟩ | ⟨hab, hne, rfl⟩
  · have ht := tableAt_of_not_eptAbsent ha hab
    refine ⟨tbl, used, h, .refl _ _ _, ht, fun g => ?_⟩
    rw [leafBelow]
    split
    · next heq => rw [pagePath, heq, entryAt_cons_of_some ht, Option.getD_some]
    · rfl
  · obtain ⟨-, -, hfresh⟩ := h.fresh.head hne
    have hl := h.linkable hp ha hab hne (hlim _ (.single k.alloc))
    refine ⟨insert _ tbl, insert _ used,
      ⟨hl.tables', Set.insert_subset_insert h.subset, h.fresh.next_insert⟩,
      ⟨.single _, Set.subset_insert _ _, fun b hb => ?_⟩, ?_, fun g => ?_⟩
    · rcases hb with rfl | hb
      · exact .inr hfresh
      · exact .inl hb
    · have hentry := hl.entry
      rw [eptChild] at hentry
      split at hentry
      · cases hentry
      · dsimp only
        rw [hl.tableAt_eq (by simp only [List.length_cons]; omega), if_pos rfl]
        exact hentry.symm
    · have hlen : pagePath g ≠ i :: p := fun heq => by
        have := congrArg List.length heq
        simp only [pagePath, slotPath, List.length_cons, List.length_nil] at this
        omega
      dsimp only
      rw [hl.entryAt_eq (by simp [pagePath, slotPath]), if_neg hlen, leafBelow, pagePath,
        List.tail_cons]
      split
      · next heq =>
        -- the leaves of the new table did not exist before
        rw [heq, entryAt_cons_of_none hl.tableAt_old, Option.getD_none]
      · rfl

/-! ## A call -/

/-- The leaf of `g` after a call for the page of `guestPa`. -/
def leafAfter (guestPa phyPa : Nat) (backing : Backing) (g : Nat) (old : Option Nat) : Option Nat :=
  if pagePath g = pagePath guestPa ∧ EptAbsent (old.getD 0) then some (eptLeaf phyPa backing)
  else leafBelow (slotPath guestPa) g old

/-- **A call that finds every table on its way** allocates nothing; it stores the leaf or not. -/
theorem mapEptPage_of_table {g phyPa : Nat} {backing : Backing}
    (ha : tableAt eptChild k.mem base (slotPath g) = some a) :
    mapEptPage k base g phyPa backing =
      if EptAbsent (k.mem.read (a + 8 * level1Index g) 8) then
        some (.ok, { k with mem := k.mem.write (a + 8 * level1Index g) 8 (eptLeaf phyPa backing) })
      else some (.duplication, k) := by
  rw [slotPath] at ha
  obtain ⟨a₂, h₂⟩ := exists_tableAt_of_cons ha
  obtain ⟨a₃, h₃⟩ := exists_tableAt_of_cons h₂
  obtain ⟨hp₃, rfl⟩ := not_eptAbsent_of_tableAt tableAt_nil h₃
  obtain ⟨hp₂, rfl⟩ := not_eptAbsent_of_tableAt h₃ h₂
  obtain ⟨hp₁, rfl⟩ := not_eptAbsent_of_tableAt h₂ ha
  simp only [mapEptPage, Option.bind_eq_bind, installEptTable, if_neg hp₃, if_neg hp₂, if_neg hp₁,
    Option.bind_some]

/-- **A call that misses a table** takes the next page. -/
theorem mapEptPage_takes {g phyPa : Nat} {backing : Backing}
    (hr : mapEptPage k base g phyPa backing = some (rc, k'))
    (hnone : tableAt eptChild k.mem base (slotPath g) = none) :
    (PageAllocator.getPhysicalPage k.alloc).1 ≠ 0 ∧
      Reaches (PageAllocator.getPhysicalPage k.alloc).2 k'.alloc := by
  simp only [mapEptPage, Option.bind_eq_bind, Option.bind_eq_some_iff] at hr
  obtain ⟨k₁, hr₁, k₂, hr₂, k₃, hr₃, hr⟩ := hr
  have halloc : k'.alloc = k₃.alloc := by split at hr <;> cases hr <;> rfl
  have hre₂ := installEptTable_reaches hr₂
  have hre₃ := installEptTable_reaches hr₃
  rw [halloc]
  -- the first table that is missing takes the page
  rcases installEptTable_cases hr₁ with ⟨hp₃, rfl⟩ | ⟨-, hne, rfl⟩
  · have h₃ := tableAt_of_not_eptAbsent tableAt_nil hp₃
    rcases installEptTable_cases hr₂ with ⟨hp₂, rfl⟩ | ⟨-, hne, rfl⟩
    · have h₂ := tableAt_of_not_eptAbsent h₃ hp₂
      rcases installEptTable_cases hr₃ with ⟨hp₁, rfl⟩ | ⟨-, hne, rfl⟩
      · rw [slotPath, tableAt_of_not_eptAbsent h₂ hp₁] at hnone
        cases hnone
      · exact ⟨hne, .refl _⟩
    · exact ⟨hne, hre₃⟩
  · exact ⟨hne, hre₂.trans hre₃⟩

/-- A table of the upper levels has no leaves. -/
theorem leafBelow_of_length {g : Nat} {q : Path} (h : q.length ≤ 2) (old : Option Nat) :
    leafBelow q g old = old := by
  refine if_neg ?_
  rintro rfl
  simp [slotPath] at h

/-- Storing a leaf changes that leaf only. -/
theorem EptTree.storeLeaf {guestPa w : Nat} (h : EptTree base k tbl used limit)
    (ha : tableAt eptChild k.mem base (slotPath guestPa) = some a) (hw : w < 256 ^ 8) :
    EptTree base { k with mem := k.mem.write (a + 8 * level1Index guestPa) 8 w } tbl used limit ∧
      ∀ g, entryAt eptChild (k.mem.write (a + 8 * level1Index guestPa) 8 w) base (pagePath g) =
        if pagePath g = pagePath guestPa then some w
        else entryAt eptChild k.mem base (pagePath g) := by
  have hs := stores_write k.mem (a + 8 * level1Index guestPa) w
  have hread := Memory.read_write_self k.mem (a + 8 * level1Index guestPa) 8 w
  rw [Nat.mod_eq_of_lt hw] at hread
  refine ⟨⟨h.tables.store (by simp [slotPath]) ha hs (by simp [slotPath]), h.subset, h.fresh⟩,
    fun g => ?_⟩
  rw [h.tables.entryAt_store (by simp [slotPath]) ha hs (by simp [slotPath])
    (by simp [pagePath, slotPath]), hread]
  rfl

/-- **What one call does to the leaves.** -/
theorem EptTree.mapEptPage {guestPa phyPa : Nat} {backing : Backing}
    (h : EptTree base k tbl used limit)
    (hr : mapEptPage k base guestPa phyPa backing = some (rc, k'))
    (hlim : ∀ r, Handed k.alloc k'.alloc r → r < 2 ^ 40) :
    ∃ tbl' used', EptTree base k' tbl' used' limit ∧ EptGrows k k' tbl used tbl' used' ∧
      ∀ g, entryAt eptChild k'.mem base (pagePath g) =
        leafAfter guestPa phyPa backing g (entryAt eptChild k.mem base (pagePath g)) := by
  simp only [ZeldaOS.mapEptPage, Option.bind_eq_bind, Option.bind_eq_some_iff] at hr
  obtain ⟨k₁, hr₁, k₂, hr₂, k₃, hr₃, hr⟩ := hr
  have halloc : k'.alloc = k₃.alloc := by split at hr <;> cases hr <;> rfl
  have hre₂ := installEptTable_reaches hr₂
  have hre₃ := installEptTable_reaches hr₃
  rw [halloc] at hlim
  obtain ⟨tbl₁, used₁, h₁, hg₁, ht₁, he₁⟩ := h.installEptTable (by simp) tableAt_nil hr₁
    fun r hr => hlim r (hr.append (hre₂.trans hre₃))
  obtain ⟨tbl₂, used₂, h₂, hg₂, ht₂, he₂⟩ := h₁.installEptTable (by simp) ht₁ hr₂
    fun r hr => hlim r ((hr.append hre₃).prepend hg₁.reaches)
  obtain ⟨tbl₃, used₃, h₃, hg₃, ht₃, he₃⟩ := h₂.installEptTable (by simp) ht₂ hr₃
    fun r hr => hlim r ((hr.prepend hg₂.reaches).prepend hg₁.reaches)
  have hgrows := (hg₁.trans hg₂).trans hg₃
  have hent : ∀ g, entryAt eptChild k₃.mem base (pagePath g) =
      leafBelow (slotPath guestPa) g (entryAt eptChild k.mem base (pagePath g)) := by
    intro g
    have he₁' := (he₁ g).trans (leafBelow_of_length (by simp) _)
    have he₂' := (he₂ g).trans (leafBelow_of_length (by simp) _)
    rw [he₃, he₂', he₁', slotPath]
  have hleaf := (entryAt_cons_of_some ht₃).symm.trans ((hent guestPa).trans (if_pos rfl))
  rw [Option.some.inj hleaf] at hr
  split at hr
  · next hab =>
    cases hr
    obtain ⟨htree, hst⟩ := h₃.storeLeaf ht₃ (eptLeaf_lt phyPa backing)
    refine ⟨tbl₃, used₃, htree, ⟨hgrows.reaches, hgrows.subset, hgrows.fresh⟩, fun g => ?_⟩
    rw [hst g, hent g, leafAfter]
    by_cases heq : pagePath g = pagePath guestPa
    · rw [if_pos heq, if_pos ⟨heq, heq ▸ hab⟩]
    · rw [if_neg heq, if_neg fun h => heq h.1]
  · next hab =>
    cases hr
    refine ⟨tbl₃, used₃, h₃, hgrows, fun g => ?_⟩
    rw [hent g, leafAfter, if_neg]
    rintro ⟨heq, hab'⟩
    exact hab (heq ▸ hab')

end

/-! ## Runs of calls -/

/-- A call of `map_ept_page`. -/
structure EptCall where
  guestPa : Nat
  phyPa : Nat
  backing : Backing
deriving DecidableEq, Repr

namespace EptCall

/-- The calls with a guest page below 2^48 and, for memory, an aligned host page below 2^40. -/
def Ok (c : EptCall) : Prop :=
  c.guestPa < 2 ^ 48 ∧ (c.backing = .systemMemory → c.phyPa % 4096 = 0 ∧ c.phyPa < 2 ^ 40)

end EptCall

/-- The first call for the page of `g`. -/
def firstMapping (t : List (EptCall × ErrorCode)) (g : Nat) : Option EptCall :=
  (t.find? fun e => e.1.guestPa / 4096 = g / 4096).map Prod.fst

/-- What a lookup of `g` should give after the calls `t`: the host page of the first mapping of its
page, if that is one to memory, and the error value otherwise. -/
def expectedHostpa (t : List (EptCall × ErrorCode)) (g : Nat) : Nat :=
  match firstMapping t g with
  | some ⟨_, phyPa, .systemMemory⟩ => phyPa ||| (g &&& 0xfff)
  | _ => translationError

/-- Some call was for a page of the 2 MiB region of `g`. -/
def Touched (t : List (EptCall × ErrorCode)) (g : Nat) : Prop :=
  ∃ e ∈ t, e.1.guestPa / 2 ^ 21 = g / 2 ^ 21

instance (t : List (EptCall × ErrorCode)) (g : Nat) : Decidable (Touched t g) :=
  inferInstanceAs (Decidable (∃ e ∈ t, _))

/-- The word of the leaf of `g` after the calls `t`. -/
def leafWord (t : List (EptCall × ErrorCode)) (g : Nat) : Nat :=
  (firstMapping t g).elim 0 fun c => eptLeaf c.phyPa c.backing

section
variable {t : List (EptCall × ErrorCode)} {c : EptCall} {rc : ErrorCode} {g : Nat}

/-- A call touches the slot of its address. -/
theorem touched_snoc :
    Touched (t ++ [(c, rc)]) g ↔ Touched t g ∨ c.guestPa / 2 ^ 21 = g / 2 ^ 21 := by
  simp [Touched, or_and_right, exists_or]

/-- An address is not mapped if no call was for its page. -/
theorem firstMapping_eq_none :
    firstMapping t g = none ↔ ∀ e ∈ t, e.1.guestPa / 4096 ≠ g / 4096 := by
  simp [firstMapping]

/-- The first call for a page counts, -/
theorem firstMapping_snoc_self (h : firstMapping t g = none)
    (hc : c.guestPa / 4096 = g / 4096) : firstMapping (t ++ [(c, rc)]) g = some c := by
  rw [firstMapping, Option.map_eq_none_iff] at h
  simp [firstMapping, List.find?_append, h, hc]

/-- and no call after it nor one for another page. -/
theorem firstMapping_snoc_of_ne (hc : firstMapping t g ≠ none ∨ c.guestPa / 4096 ≠ g / 4096) :
    firstMapping (t ++ [(c, rc)]) g = firstMapping t g := by
  rw [firstMapping, firstMapping, List.find?_append]
  rw [firstMapping, ne_eq, Option.map_eq_none_iff] at hc
  cases hf : t.find? fun e => e.1.guestPa / 4096 = g / 4096 with
  | some e => rw [Option.some_or]
  | none => simp [(hc.resolve_left (by simp [hf]))]

/-- A page that was mapped is in a region that was touched. -/
theorem firstMapping_of_not_touched (h : ¬ Touched t g) : firstMapping t g = none := by
  refine firstMapping_eq_none.2 fun e he heq => h ⟨e, he, ?_⟩
  omega

/-- The first mapping is one of the calls. -/
theorem firstMapping_mem (h : firstMapping t g = some c) : ∃ e ∈ t, e.1 = c := by
  obtain ⟨e, he, rfl⟩ := Option.map_eq_some_iff.1 h
  exact ⟨e, List.mem_of_find?_eq_some he, rfl⟩

/-- The entry of a page that was never mapped is 0. -/
theorem leafWord_of_none (h : firstMapping t g = none) : leafWord t g = 0 := by
  rw [leafWord, h, Option.elim_none]

/-- A leaf is empty exactly if its page was not mapped. -/
theorem eptAbsent_leafWord : EptAbsent (leafWord t g) ↔ firstMapping t g = none := by
  cases h : firstMapping t g with
  | none => simp [leafWord_of_none h, eptAbsent_zero]
  | some c => simp [leafWord, h, not_eptAbsent_eptLeaf]

/-- Below 2^48 the paths of two addresses tell their pages and regions apart. -/
theorem pagePath_eq_iff {v va : Nat} (hv : v < 2 ^ 48) (hva : va < 2 ^ 48) :
    pagePath v = pagePath va ↔ va / 4096 = v / 4096 := by
  rw [pagePath_inj]
  omega

/-- Two addresses are in one slot exactly if they are in the same 2 MiB. -/
theorem slotPath_eq_iff {v va : Nat} (hv : v < 2 ^ 48) (hva : va < 2 ^ 48) :
    slotPath v = slotPath va ↔ va / 2 ^ 21 = v / 2 ^ 21 := by
  rw [slotPath_inj]
  omega

/-- The leaf of `g` after the calls `t`. -/
def leafOf (t : List (EptCall × ErrorCode)) (g : Nat) : Option Nat :=
  if Touched t g then some (leafWord t g) else none

/-- An absent leaf is an entry 0. -/
theorem getD_leafOf : (leafOf t g).getD 0 = leafWord t g := by
  rw [leafOf]
  split
  · rfl
  · next h => rw [leafWord_of_none (firstMapping_of_not_touched h), Option.getD_none]

/-- One more call changes the leaves as `map_ept_page` does. -/
theorem leafOf_snoc (hg : g < 2 ^ 48) (hc : c.guestPa < 2 ^ 48) :
    leafOf (t ++ [(c, rc)]) g = leafAfter c.guestPa c.phyPa c.backing g (leafOf t g) := by
  simp only [leafAfter, leafBelow, getD_leafOf, eptAbsent_leafWord, pagePath_eq_iff hg hc,
    slotPath_eq_iff hg hc]
  by_cases hpage : c.guestPa / 4096 = g / 4096 ∧ firstMapping t g = none
  · have htouch : Touched (t ++ [(c, rc)]) g := touched_snoc.2 (.inr (by omega))
    rw [if_pos hpage, leafOf, if_pos htouch, leafWord, firstMapping_snoc_self hpage.2 hpage.1,
      Option.elim_some]
  · have hfirst : firstMapping (t ++ [(c, rc)]) g = firstMapping t g :=
      firstMapping_snoc_of_ne (by tauto)
    have hword : leafWord (t ++ [(c, rc)]) g = leafWord t g := by rw [leafWord, leafWord, hfirst]
    rw [if_neg hpage, leafOf, hword]
    split
    · next htouch =>
      split
      · rfl
      · next hne => rw [leafOf, if_pos ((touched_snoc.1 htouch).resolve_right hne)]
    · next htouch =>
      rw [touched_snoc, not_or] at htouch
      rw [if_neg htouch.2, leafOf, if_neg htouch.1]

end

section
variable {A : Type} [PageAllocator A] {k k₀ k' : Kernel A} {base : Nat}
  {t : List (EptCall × ErrorCode)} {c : EptCall} {rc : ErrorCode}

/-- `map_ept_page` as a step on calls. -/
def eptStep (base : Nat) (k : Kernel A) (c : EptCall) : Option (ErrorCode × Kernel A) :=
  mapEptPage k base c.guestPa c.phyPa c.backing

/-- The states a run starts from: an empty PML4 table, and an allocator of fresh pages that fit the
address field of an entry. -/
structure ZeroedEpt (base : Nat) (k : Kernel A) : Prop where
  aligned : base % 4096 = 0
  zero : ∀ x, base ≤ x → x < base + 4096 → k.mem x = 0
  fresh : Fresh k.alloc {base} (2 ^ 40)

/-- The invariant of a run: every leaf is the one of the first call for its page. -/
structure EptInv (base : Nat) (t : List (EptCall × ErrorCode)) (k : Kernel A) : Prop where
  tree : ∃ tbl used, EptTree base k tbl used (2 ^ 40)
  leaf : ∀ g, g < 2 ^ 48 → entryAt eptChild k.mem base (pagePath g) = leafOf t g
  calls : ∀ e ∈ t, e.1.Ok

/-- The invariant at the start. -/
theorem ZeroedEpt.eptInv (h : ZeroedEpt base k) : EptInv base [] k := by
  refine ⟨⟨{base}, {base}, .of_zero h.zero eptChild_zero h.aligned, fun _ => id, h.fresh⟩,
    fun g _ => ?_, by simp⟩
  rw [pagePath, slotPath, entryAt_cons_of_none (tableAt_cons_of_zero h.zero eptChild_zero _ _),
    leafOf, if_neg (by simp [Touched])]

/-- One call keeps the invariant. -/
theorem EptInv.step (h : EptInv base t k) (hc : c.Ok) (hr : eptStep base k c = some (rc, k')) :
    EptInv base (t ++ [(c, rc)]) k' := by
  obtain ⟨tbl, used, htree⟩ := h.tree
  obtain ⟨tbl', used', htree', -, hleaf⟩ := htree.mapEptPage hr
    fun _ hr => htree.fresh.handed_lt (by decide) hr
  refine ⟨⟨tbl', used', htree'⟩, fun g hg => ?_, fun e he => ?_⟩
  · rw [hleaf g, h.leaf g hg, leafOf_snoc hg hc.1]
  · rcases List.mem_append.1 he with he | he
    · exact h.calls e he
    · rw [List.mem_singleton] at he
      exact he ▸ hc

/-- The empty leaf of a table passes the walker's test. -/
theorem translateLeaf_zero_ne (g : Nat) : translateLeaf 0 g ≠ translationError := by
  have hzero : translateLeaf 0 g = g &&& 0xfff := by
    rw [translateLeaf, if_neg (by decide), show eptAddress 0 = 0 from by decide, Nat.zero_or]
  have hle : g &&& 0xfff ≤ 0xfff := Nat.and_le_right
  rw [hzero, translationError]
  omega

/-- A stored leaf translates as its call asked. -/
theorem translateLeaf_leafWord {g : Nat} (hcalls : ∀ e ∈ t, e.1.Ok)
    (hne : firstMapping t g ≠ none) :
    translateLeaf (leafWord t g) g = expectedHostpa t g := by
  obtain ⟨c, hc⟩ := Option.ne_none_iff_exists'.1 hne
  obtain ⟨e, he, rfl⟩ := firstMapping_mem hc
  obtain ⟨-, hok⟩ := hcalls e he
  obtain ⟨⟨guestPa, phyPa, backing⟩, rc⟩ := e
  rw [leafWord, expectedHostpa, hc, Option.elim_some, translateLeaf]
  cases backing with
  | systemMemory =>
    obtain ⟨hal, hlt⟩ := hok rfl
    dsimp only at hal hlt ⊢
    rw [readAccess_eptLeaf_systemMemory, if_neg (by simp), eptAddress_eptLeaf hal hlt]
  | systemIomemory =>
    dsimp only
    rw [eptLeaf_systemIomemory, if_pos (by decide)]

/-- **When the lookup is exact.** After any run of `map_ept_page` calls from an empty PML4, the
lookup of `g` is the expected one exactly if the page of `g` was mapped, or no page of its 2 MiB
region was. -/
theorem guestpaToHostpa_exact_iff (h₀ : ZeroedEpt base k₀)
    (hrun : Run (eptStep base) (fun _ c => c.Ok) k₀ t k) (g : Nat) (hg : g < 2 ^ 48) :
    guestpaToHostpa k.mem base g = expectedHostpa t g ↔
      (∃ e ∈ t, e.1.guestPa / 4096 = g / 4096) ∨ ∀ e ∈ t, e.1.guestPa / 2 ^ 21 ≠ g / 2 ^ 21 := by
  have hinv : EptInv base t k :=
    hrun.inv (EptInv base) h₀.eptInv fun _ _ _ _ _ h hok hst => h.step hok hst
  have hmapped : (∃ e ∈ t, e.1.guestPa / 4096 = g / 4096) ↔ firstMapping t g ≠ none := by
    simp [firstMapping_eq_none]
  have huntouched : (∀ e ∈ t, e.1.guestPa / 2 ^ 21 ≠ g / 2 ^ 21) ↔ ¬ Touched t g := by
    simp [Touched]
  rw [guestpaToHostpa_eq, hinv.leaf g hg, hmapped, huntouched, leafOf]
  split
  · next htouch =>
    rw [Option.elim_some]
    by_cases hfirst : firstMapping t g = none
    · -- an empty leaf next to a mapped page
      rw [leafWord_of_none hfirst, expectedHostpa, hfirst]
      simp [htouch, translateLeaf_zero_ne]
    · simp [hfirst, translateLeaf_leafWord hinv.calls hfirst]
  · next htouch =>
    rw [Option.elim_none, expectedHostpa, firstMapping_of_not_touched htouch]
    simp [htouch]

end

/-! ## A guest of the sample machine -/

/-- Kernel tables at 0x401000 that map the 2 MiB from 0x400000 on to themselves. -/
def identityMemory : Memory :=
  ((Memory.zero.write 0x401000 8 (tableEntry 0x402000)).write 0x402000 8
    (tableEntry 0x403000)).write 0x403010 8 (largeEntry 0x400000)

/-- The memory of the sample is zero where the tables are taken from. -/
theorem identityMemory_apply {x : Nat} (hx : 0x404000 ≤ x) : identityMemory x = 0 := by
  rw [identityMemory, Memory.write_apply_of_not_mem (by omega),
    Memory.write_apply_of_not_mem (by omega), Memory.write_apply_of_not_mem (by omega), Memory.zero]

/-- The sample machine with these tables; the page at 0x404000 is an empty PML4 for a guest. -/
def identityKernel : Kernel PhysicalMemory :=
  ⟨identityMemory, { initialMemory 0x200000 sampleSegments with currentAvailPage := 0x405000 },
    0x401000⟩

/-- The pages of the sample machine fit the address field of an entry. -/
theorem fresh_identityKernel {used : Set Nat} (hused : ∀ a ∈ used, a < 0x405000) :
    Fresh identityKernel.alloc used (2 ^ 40) := by
  have hf : FrontierOk identityKernel.alloc :=
    ⟨⟨by decide, by decide, by decide, by decide⟩, by decide, by decide⟩
  refine (fresh_of_frontier hf hused).of_pageValid fun addr hv => ?_
  have halloc : identityKernel.alloc = ⟨0x100000, 0x100000000, 0x7fe00000, 0x40000000, 0x405000⟩ :=
    by decide
  rw [halloc] at hv
  simp only [PhysicalMemory.pageValid, Bool.or_eq_true, Bool.and_eq_true, decide_eq_true_eq] at hv
  omega

/-- The sample starts with an empty table. -/
theorem zeroedEpt_sample : ZeroedEpt 0x404000 identityKernel :=
  ⟨by decide, fun _ hx _ => identityMemory_apply hx,
    fresh_identityKernel (by rintro _ rfl; decide)⟩

/-- One page is mapped and translated. -/
theorem guestpaToHostpa_exact_iff_sample :
    ∃ k, Run (eptStep 0x404000) (fun _ c => c.Ok) identityKernel
        [(⟨0, 0x500000, .systemMemory⟩, .ok)] k ∧
      guestpaToHostpa k.mem 0x404000 0x123 = 0x500123 := by
  have hex : (exec (eptStep 0x404000) identityKernel [⟨0, 0x500000, .systemMemory⟩]).map Prod.fst
      = some [(⟨0, 0x500000, .systemMemory⟩, .ok)] := by decide +kernel
  obtain ⟨⟨t, k⟩, hk, rfl⟩ := Option.map_eq_some_iff.1 hex
  have hrun : Run (eptStep 0x404000) (fun _ c => c.Ok) identityKernel _ k :=
    Run.nil.exec (by simp [EptCall.Ok]) hk
  have hiff := guestpaToHostpa_exact_iff zeroedEpt_sample hrun 0x123 (by decide)
  exact ⟨k, hrun, (hiff.2 (by decide)).trans (by decide)⟩

/-- **An unmapped page next to a mapped one**: its lookup gives host page 0 instead of the error. -/
theorem guestpaToHostpa_unmapped_neighbour : ZeroedEpt 0x404000 identityKernel ∧ ∃ k,
    exec (eptStep 0x404000) identityKernel [⟨0, 0x500000, .systemMemory⟩] =
      some ([(⟨0, 0x500000, .systemMemory⟩, .ok)], k) ∧
    guestpaToHostpa k.mem 0x404000 0x1000 = 0 ∧
    expectedHostpa [(⟨0, 0x500000, .systemMemory⟩, .ok)] 0x1000 = 2 ^ 64 - 1 := by
  have hex : (exec (eptStep 0x404000) identityKernel [⟨0, 0x500000, .systemMemory⟩]).map
      (fun r => (r.1, guestpaToHostpa r.2.mem 0x404000 0x1000))
      = some ([(⟨0, 0x500000, .systemMemory⟩, .ok)], 0) := by decide +kernel
  obtain ⟨⟨t, k⟩, hk, heq⟩ := Option.map_eq_some_iff.1 hex
  simp only [Prod.mk.injEq] at heq
  obtain ⟨rfl, hpa⟩ := heq
  exact ⟨zeroedEpt_sample, k, hk, hpa, by decide⟩

end ZeldaOS
