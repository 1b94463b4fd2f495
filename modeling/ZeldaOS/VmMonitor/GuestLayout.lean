import ZeldaOS.VmMonitor.GuestMemory

/-!
# Where the pages of a guest lie

The loop of `setup_basic_physical_memory` takes the pages of a guest from a frontier, and
`map_ept_page` takes the tables from the same frontier in between. The host page of the next guest
page follows that of a page `q` exactly if no table was allocated between the two and the frontier
did not jump to the upper segment: `q` is neither the first page nor the first of its 2 MiB region,
and the host page after it lies in the memory map (`Followed`, `setupBasicPhysicalMemory_followed`).

What the later code needs of the setup is less: within a page, consecutive guest addresses are
consecutive in the host, and the translation does not depend on what the guest stores
(`GuestMapped`).
-/

namespace ZeldaOS

/-! ## The frontier -/

/-- Two pages allocated in a row are adjacent exactly if the page after the first is in the memory
map. -/
theorem getPhysicalPage_twice {s : PhysicalMemory} (h : FrontierOk s)
    (hne : (getPhysicalPage s).1 ≠ 0) (hne' : (getPhysicalPage (getPhysicalPage s).2).1 ≠ 0) :
    (getPhysicalPage (getPhysicalPage s).2).1 = (getPhysicalPage s).1 + 4096 ↔
      s.pageValid ((getPhysicalPage s).1 + 4096) = true := by
  obtain ⟨h₁, -, hpage⟩ := h.getPhysicalPage
  obtain ⟨heq, hlt, -⟩ := hpage hne
  constructor
  · intro heq'
    rw [← heq', ← pageValid_getPhysicalPage]
    exact pageValid_of_ne_zero hne'
  · intro hv
    obtain ⟨-, -, hpage'⟩ := h₁.getPhysicalPage
    have hvalid := pageValid_of_ne_zero hne
    rw [heq] at hv hvalid ⊢
    rw [(hpage' hne').1, getPhysicalPage_snd hvalid hv hlt]

section
variable {k k' k'' : Kernel PhysicalMemory} {base b lo hi cur : Nat} {tbl used : Set Nat}
  {s : PhysicalMemory} {rc : ErrorCode}

/-- The host page `host` of the guest page `q` is followed by that of the next guest page. -/
def Followed (s : PhysicalMemory) (lo q host : Nat) : Prop :=
  q ≠ lo ∧ q % 2 ^ 21 ≠ 0 ∧ s.pageValid (host + 4096) = true

/-- The invariant of the loop: the next page to be mapped finds its last-level table exactly if it
is in the 2 MiB region of the page before it, and each host page is followed as `Followed` says. The
last page mapped is compared with the page that the allocator has next. -/
structure Spacing (s : PhysicalMemory) (base lo hi cur : Nat) (k : Kernel PhysicalMemory) :
    Prop where
  low : lo ≤ cur
  frontier : FrontierOk k.alloc
  valid : ∀ addr, k.alloc.pageValid addr = s.pageValid addr
  touched : ∀ g, cur ≤ g → g < 2 ^ 48 →
    ((entryAt eptChild k.mem base (pagePath g)).isSome = true ↔
      lo < cur ∧ (cur - 4096) / 2 ^ 21 = g / 2 ^ 21)
  pairs : ∀ q, GuestPage lo hi q → GuestPage lo hi (q + 4096) → q + 4096 < cur →
    (guestpaToHostpa k.mem base (q + 4096) = guestpaToHostpa k.mem base q + 4096 ↔
      Followed s lo q (guestpaToHostpa k.mem base q))
  next : lo < cur → (getPhysicalPage k.alloc).1 ≠ 0 →
    ((getPhysicalPage k.alloc).1 = guestpaToHostpa k.mem base (cur - 4096) + 4096 ↔
      Followed s lo (cur - 4096) (guestpaToHostpa k.mem base (cur - 4096)))

theorem pageValid_advance (s : PhysicalMemory) (n addr : Nat) :
    (advance s n).pageValid addr = s.pageValid addr := by
  induction n generalizing s with
  | zero => rfl
  | succ n ih => exact (ih _).trans (pageValid_getPhysicalPage s addr)

theorem isSome_leafBelow (q : Path) (g : Nat) (old : Option Nat) :
    (leafBelow q g old).isSome = true ↔ slotPath g = q ∨ old.isSome = true := by
  rw [leafBelow]
  split
  · next h => simp [h]
  · next h => simp [h]

/-- The page after the one just mapped. -/
theorem Spacing.next_step (h : Spacing s base lo hi cur k) (hcur : cur % 4096 = 0)
    (hlt : cur < 2 ^ 48) (hr₁ : getClearPage k = some (b, k'))
    (hr₂ : mapEptPage k' base cur b .systemMemory = some (rc, k''))
    (hent : entryAt eptChild k'.mem base (pagePath cur) =
      entryAt eptChild k.mem base (pagePath cur))
    (hne : (getPhysicalPage k''.alloc).1 ≠ 0) :
    (getPhysicalPage k''.alloc).1 = b + 4096 ↔ Followed s lo cur b := by
  have htouched := h.touched cur (Nat.le_refl _) hlt
  rw [← hent] at htouched
  obtain ⟨hbne, hb, hk'⟩ := getClearPage_cases hr₁
  have hb : b = (getPhysicalPage k.alloc).1 := hb
  have halloc : k'.alloc = (getPhysicalPage k.alloc).2 := by rw [hk']; rfl
  have hlow := h.low
  cases ha : tableAt eptChild k'.mem base (slotPath cur) with
  | some a =>
    -- no table was allocated
    rw [pagePath, entryAt_cons_of_some ha] at htouched
    obtain ⟨hlo, hregion⟩ := htouched.1 rfl
    have hsame : k''.alloc = k'.alloc := by
      rw [mapEptPage_of_table ha] at hr₂
      split at hr₂ <;> cases hr₂ <;> rfl
    rw [hsame, halloc] at hne ⊢
    rw [hb] at hbne ⊢
    rw [getPhysicalPage_twice h.frontier hbne hne, h.valid, Followed]
    constructor
    · exact fun hv => ⟨by omega, by omega, hv⟩
    · exact fun hv => hv.2.2
  | none =>
    rw [pagePath, entryAt_cons_of_none ha] at htouched
    obtain ⟨hne', hre⟩ := mapEptPage_takes hr₂ ha
    rw [halloc] at hne' hre
    obtain ⟨h₁, -, hpage₁⟩ := h.frontier.getPhysicalPage
    obtain ⟨h₂, -, hpage₂⟩ := h₁.getPhysicalPage
    obtain ⟨n, hn⟩ := hre
    obtain ⟨h₃, hle⟩ := h₂.advance n
    have hn : k''.alloc = advance (getPhysicalPage (getPhysicalPage k.alloc).2).2 n := hn
    rw [← hn] at h₃ hle
    have e₁ := hpage₁ (hb ▸ hbne)
    have e₂ := hpage₂ hne'
    have e₃ := h₃.getPhysicalPage.2.2 hne
    constructor
    · omega
    · rintro ⟨hlo, hregion, -⟩
      exact absurd (htouched.2 ⟨by omega, by omega⟩) (by simp)

/-- **One iteration** keeps the invariant. -/
theorem Spacing.step {a₀ : PhysicalMemory} (h : Spacing s base lo hi cur k)
    (hg : GuestPages base a₀ lo hi cur k tbl used) (hcur : cur % 4096 = 0) (hlt : cur < 2 ^ 48)
    (hr₁ : getClearPage k = some (b, k'))
    (hr₂ : mapEptPage k' base cur b .systemMemory = some (rc, k''))
    (hlim : ∀ r, Handed k.alloc k''.alloc r → r < 2 ^ 40) :
    Spacing s base lo hi (cur + 4096) k'' := by
  have hm := hg.pageMapped hcur hlt hr₁ hr₂ hlim
  obtain ⟨-, -, -, hent⟩ := hg.tree.getClearPage hr₁
  have hlow := h.low
  obtain ⟨n, hn⟩ := (getClearPage_reaches hr₁).trans (mapEptPage_reaches hr₂)
  refine ⟨by omega, ?_, fun addr => ?_, fun g hgc hg48 => ?_, fun q hq hq' hqc => ?_,
    fun _ hne => ?_⟩
  · rw [hn]
    exact (h.frontier.advance n).1
  · rw [hn, pageValid_advance, h.valid]
  · have hne : pagePath g ≠ pagePath cur := by
      rw [ne_eq, pagePath_eq_iff hg48 hlt]
      omega
    rw [hm.other g hne, isSome_leafBelow, slotPath_eq_iff hg48 hlt, h.touched g (by omega) hg48]
    omega
  · have hqlt : q < cur := by omega
    rw [hm.host_eq hg hq hqlt]
    by_cases hlast : q + 4096 = cur
    · have hb : b = (getPhysicalPage k.alloc).1 := (getClearPage_cases hr₁).2.1
      have hnext := h.next (by have := hq.low; omega) (hb ▸ (getClearPage_cases hr₁).1)
      rw [hlast, hm.host, hb]
      rwa [← hlast, Nat.add_sub_cancel] at hnext
    · have hqc' : q + 4096 < cur := by
        have := hq.aligned
        omega
      rw [hm.host_eq hg hq' hqc']
      exact h.pairs q hq hq' hqc'
  · rw [Nat.add_sub_cancel, hm.host]
    exact h.next_step hcur hlt hr₁ hr₂ (hent cur) hne

/-- **The layout of a call.** The host page of the next guest page follows exactly if `Followed`
says so. -/
theorem setupBasicPhysicalMemory_followed (hf : FrontierOk k.alloc) (hlo : lo % 4096 = 0)
    (hhi : hi < 2 ^ 48 - 4096) (hr : setupBasicPhysicalMemory k lo hi = some (base, k'))
    (hlim : ∀ r, Handed k.alloc k'.alloc r → r < 2 ^ 40) {q : Nat} (hq : GuestPage lo hi q)
    (hq' : GuestPage lo hi (q + 4096)) :
    guestpaToHostpa k'.mem base (q + 4096) = guestpaToHostpa k'.mem base q + 4096 ↔
      Followed k.alloc lo q (guestpaToHostpa k'.mem base q) := by
  -- nothing is mapped at the beginning
  have hinit : ∀ k₁, getClearPage k = some (base, k₁) →
      (∀ i q, tableAt eptChild k₁.mem base (i :: q) = none) → Spacing k.alloc base lo hi lo k₁ := by
    intro k₁ hr₁ hnone
    obtain ⟨n, hn⟩ := getClearPage_reaches hr₁
    refine ⟨Nat.le_refl _, by rw [hn]; exact (hf.advance n).1, fun addr => ?_, fun g _ _ => ?_,
      fun q hq _ hlt => ?_, fun hlt => absurd hlt (Nat.lt_irrefl _)⟩
    · rw [hn, pageValid_advance]
    · rw [pagePath, slotPath, entryAt_cons_of_none (hnone _ _)]
      simp
    · have := hq.low
      omega
  obtain ⟨cur, -, -, hcur, -, h⟩ := setupBasicPhysicalMemory_inv
    (Spacing k.alloc base lo hi) (fresh_of_frontier hf (by simp)) hlo hhi hr hlim hinit
    fun cur k₁ b k₂ rc k₃ tbl used hg h hcur hle hr₁ hr₂ hlim =>
      h.step hg hcur (by omega) hr₁ hr₂ hlim
  exact h.pairs q hq hq' (Nat.lt_of_le_of_lt hq'.high hcur)

end

/-! ## The memory after the setup -/

/-- The address `a` is in the memory of the guest. -/
def GuestRam (lo hi a : Nat) : Prop := GuestPage lo hi (a / 4096 * 4096)

theorem eptAddress_mod (w : Nat) : eptAddress w % 4096 = 0 := by
  simp only [eptAddress, shlBitField]
  omega

/-- A leaf that translates its page to an aligned address translates the rest of the page along. -/
theorem translateLeaf_offset {w a : Nat} (h : translateLeaf w (a / 4096 * 4096) % 4096 = 0) :
    translateLeaf w a = translateLeaf w (a / 4096 * 4096) + a % 4096 := by
  have hmask : ∀ x, x &&& 0xfff = x % 4096 := fun x => and_mask_eq_mod x 12
  rw [translateLeaf] at h ⊢
  rw [translateLeaf]
  split
  · next herr =>
    rw [if_pos herr] at h
    cases h
  · rw [hmask, hmask, Nat.mul_mod_left, Nat.or_zero]
    exact or_offset_eq_add (k := 12) (eptAddress_mod w) (Nat.mod_lt _ (by decide))

/-- The memory of the host with some content of the guest's memory: outside the host pages of the
guest it is as in `k`. -/
def GuestContent {A : Type} (k : Kernel A) (base lo hi : Nat) (m : Memory) : Prop :=
  ∀ x, (∀ g, GuestPage lo hi g → x < guestpaToHostpa k.mem base g ∨
    guestpaToHostpa k.mem base g + 4096 ≤ x) → m x = k.mem x

/-- The memory of a guest after its setup. The addresses of a page are consecutive in the host, and
the host pages are distinct. The content does not matter for the translation. -/
structure GuestMapped {A : Type} (base lo hi : Nat) (k : Kernel A) : Prop where
  aligned : ∀ g, GuestPage lo hi g → guestpaToHostpa k.mem base g % 4096 = 0
  inj : ∀ g g', GuestPage lo hi g → GuestPage lo hi g' →
    guestpaToHostpa k.mem base g = guestpaToHostpa k.mem base g' → g = g'
  offset : ∀ a, GuestRam lo hi a →
    guestpaToHostpa k.mem base a = guestpaToHostpa k.mem base (a / 4096 * 4096) + a % 4096
  content : ∀ m, GuestContent k base lo hi m →
    ∀ a, guestpaToHostpa m base a = guestpaToHostpa k.mem base a

section
variable {A : Type} [PageAllocator A] {k : Kernel A} {a₀ : A} {base lo hi cur : Nat}
  {tbl used : Set Nat}

theorem GuestPages.guestMapped (h : GuestPages base a₀ lo hi cur k tbl used)
    (hfresh : Fresh a₀ ∅ (2 ^ 52)) (hhi : hi < cur) : GuestMapped base lo hi k := by
  have hlt : ∀ {g}, GuestPage lo hi g → g < cur := fun hg => Nat.lt_of_le_of_lt hg.high hhi
  have hal : ∀ g, GuestPage lo hi g → guestpaToHostpa k.mem base g % 4096 = 0 := by
    intro g hg
    obtain ⟨-, -, hne, hh⟩ := h.host g hg (hlt hg)
    exact (hfresh.handed hh hne).1
  refine ⟨hal, fun g g' hg hg' => h.inj g g' hg (hlt hg) hg' (hlt hg'), fun a ha => ?_,
    fun m hm a => ?_⟩
  · have hpath : pagePath a = pagePath (a / 4096 * 4096) := by
      rw [pagePath_inj]
      omega
    obtain ⟨w, hw⟩ := Option.isSome_iff_exists.1 (h.leaf _ ha (hlt ha))
    have hpage : guestpaToHostpa k.mem base (a / 4096 * 4096) =
        translateLeaf w (a / 4096 * 4096) := by
      rw [guestpaToHostpa_eq, hw, Option.elim_some]
    have hal := hal _ ha
    rw [hpage] at hal ⊢
    rw [guestpaToHostpa_eq, hpath, hw, Option.elim_some]
    exact translateLeaf_offset hal
  · -- no table lies in a host page
    have hagree : ∀ b ∈ tbl, Memory.AgreeOn m k.mem b 4096 := by
      intro b hb x h₁ h₂
      refine hm x fun g hg => ?_
      have hbne : b ≠ guestpaToHostpa k.mem base g :=
        fun heq => (h.host g hg (hlt hg)).2.1 (heq ▸ hb)
      have := hal g hg
      have := h.tree.tables.aligned b hb
      omega
    rw [guestpaToHostpa_eq, guestpaToHostpa_eq,
      h.tree.tables.entryAt_congr hagree (by simp [pagePath, slotPath])]

end

end ZeldaOS
