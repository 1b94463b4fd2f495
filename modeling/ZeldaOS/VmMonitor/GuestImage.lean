import ZeldaOS.Memory.PagingIdentity
import ZeldaOS.VmMonitor.EptWrites
import ZeldaOS.VmMonitor.GuestLayout

/-!
# The image of a guest

Model of `initialize_vmcs_ept` and `initialize_vmcs_guest_image` of `vm_monitor/vmx_vmcs.c`: a guest
gets 16 MiB of memory, and its image, which is a part of the kernel's own image, is copied to it
from the guest's second page on. The copy goes page by page through `guestpa_to_hostpa`, a whole
page each time.

The invariant of the copy (`ImageCopied`) says that the pages done so far hold the bytes of the host
from the image's start on, and that nothing else has changed. So the memory of the guest is the
image, then the bytes that follow the image in the host up to the end of the last page, and zeros
(`guestImage_loaded`). The guest sees its image and nothing else exactly if those bytes are zeros
(`guestImage_iff`).
-/

namespace ZeldaOS

/-! ## `memcpy` -/

/-- `memcpy`: the bytes are copied one by one, from the first on. -/
def memcpy (m : Memory) (dst src : Nat) : Nat → Memory
  | 0 => m
  | n + 1 => (memcpy m dst src n).fill (dst + n) 1 (memcpy m dst src n (src + n))

section
variable {m : Memory} {dst src n x : Nat}

theorem memcpy_apply_of_not_mem (hx : x < dst ∨ dst + n ≤ x) : memcpy m dst src n x = m x := by
  induction n with
  | zero => rfl
  | succ n ih => rw [memcpy, Memory.fill_apply_of_not_mem (by omega), ih (by omega)]

/-- A copy to a place apart from its source. -/
theorem memcpy_apply (hd : src + n ≤ dst ∨ dst + n ≤ src) {j : Nat} (hj : j < n) :
    memcpy m dst src n (dst + j) = m (src + j) := by
  induction n with
  | zero => omega
  | succ n ih =>
    rw [memcpy]
    by_cases hlast : j = n
    · subst hlast
      rw [Memory.fill_apply_of_mem (by omega) (by omega), memcpy_apply_of_not_mem (by omega)]
    · rw [Memory.fill_apply_of_not_mem (by omega), ih (by omega) (by omega)]

end

/-! ## The code -/

section
variable {A : Type} [PageAllocator A]

/-- What `initialize_vmcs_ept` leaves in the VMCS blob and in the VMCS: `regions.ept_pml4_base`,
`CTLS_EPTP` and `CTLS_VPID`. -/
structure VmcsEpt where
  eptPml4Base : Nat
  ctlsEptp : Nat
  ctlsVpid : Nat
deriving DecidableEq, Repr

/-- The memory of a guest: `16*1024*1024`. -/
def guestMemorySize : Nat := 16 * 1024 * 1024

/-- The EPT pointer: the memory type, the length of a page walk, and accessed and dirty flags. -/
def eptp (base : Nat) : Nat := base ||| 6 ||| (4 - 1) <<< 3 ||| 1 <<< 6

/-- `initialize_vmcs_ept`. -/
def initializeVmcsEpt (k : Kernel A) (vpid : Nat) : Option (VmcsEpt × Kernel A) := do
  let (base, k) ← setupBasicPhysicalMemory k 0 guestMemorySize
  if vpid ≠ 0 then some (⟨base, eptp base, vpid⟩, k) else none

/-- The loop of `initialize_vmcs_guest_image`, for at most `fuel` iterations. -/
def copyImageLoop (base guestImageEndAddr : Nat) :
    Nat → Kernel A → Nat → Nat → Option (Kernel A)
  | 0, _, _, _ => none
  | fuel + 1, k, imgAddr, guestAddr =>
    if imgAddr < guestImageEndAddr then
      let hostPa := guestpaToHostpa k.mem base guestAddr
      if pa k.mem k.pml4Base hostPa = hostPa then
        copyImageLoop base guestImageEndAddr fuel
          { k with mem := memcpy k.mem hostPa imgAddr 4096 } ((imgAddr + 4096) % 2 ^ 64)
          ((guestAddr + 4096) % 2 ^ 64)
      else none
    else some k

/-- `initialize_vmcs_guest_image`, for an image between two addresses of the host. -/
def initializeVmcsGuestImage (k : Kernel A) (base guestImageStartAddr guestImageEndAddr : Nat) :
    Option (Kernel A) :=
  copyImageLoop base guestImageEndAddr ((guestImageEndAddr - guestImageStartAddr) / 4096 + 2) k
    guestImageStartAddr 4096

end

/-! ## The copy -/

/-- The number of pages that an image of `n` bytes takes. -/
def imagePages (n : Nat) : Nat := (n + 4095) / 4096

section
variable {A : Type} {k k₁ : Kernel A} {base hi start n i : Nat} {kpt : Set Nat}

/-- What the copy of `pages` pages from `start` on needs: the memory of a guest from 0 to `hi`, with
room for them from its second page on; the kernel's own tables, and the source, apart from the host
pages; and the host pages mapped to themselves. -/
structure Loadable (k : Kernel A) (base hi start pages : Nat) (kpt : Set Nat) : Prop where
  mapped : GuestMapped base 0 hi k
  room : 4096 * pages ≤ hi
  high : hi < 2 ^ 48
  kernel : KernelTables k.mem k.pml4Base kpt
  apart : ∀ a ∈ kpt, ∀ g, GuestPage 0 hi g → guestpaToHostpa k.mem base g ≠ a
  identity : ∀ g, GuestPage 0 hi g →
    pa k.mem k.pml4Base (guestpaToHostpa k.mem base g) = guestpaToHostpa k.mem base g
  source : ∀ g, GuestPage 0 hi g → start + 4096 * pages ≤ guestpaToHostpa k.mem base g
  below : start + 4096 * pages < 2 ^ 64

/-- The host page of the page number `p` of the image. -/
def imageHost (k : Kernel A) (base p : Nat) : Nat := guestpaToHostpa k.mem base (4096 + 4096 * p)

/-- The state of a copy that began in `k`, after `i` pages. -/
structure ImageCopied (k : Kernel A) (base start i : Nat) (k₁ : Kernel A) : Prop where
  alloc : k₁.alloc = k.alloc
  pml4Base : k₁.pml4Base = k.pml4Base
  pages : ∀ p < i, ∀ o < 4096, k₁.mem (imageHost k base p + o) = k.mem (start + 4096 * p + o)
  frame : ∀ x, (∀ p < i, x < imageHost k base p ∨ imageHost k base p + 4096 ≤ x) →
    k₁.mem x = k.mem x

theorem Loadable.guestPage {pages p : Nat} (h : Loadable k base hi start pages kpt)
    (hp : p < pages) :
    GuestPage 0 hi (4096 + 4096 * p) := by
  have := h.room
  exact ⟨by omega, by omega, by omega⟩

/-- Only the memory of the guest has changed. -/
theorem ImageCopied.content {pages : Nat} (h : Loadable k base hi start pages kpt)
    (hc : ImageCopied k base start i k₁) (hi' : i ≤ pages) : GuestContent k base 0 hi k₁.mem :=
  fun x hx => hc.frame x fun p hp => hx _ (h.guestPage (by omega))

/-- The kernel translates as before. -/
theorem ImageCopied.pa_eq {pages : Nat} (h : Loadable k base hi start pages kpt)
    (hc : ImageCopied k base start i k₁) (hi' : i ≤ pages) (v : Nat) :
    pa k₁.mem k₁.pml4Base v = pa k.mem k.pml4Base v := by
  rw [hc.pml4Base]
  refine (h.kernel.congr fun a ha x h₁ h₂ => hc.content h hi' x fun g hg => ?_).2 v
  have := h.apart a ha g hg
  have := h.kernel.tables.aligned a ha
  have := h.mapped.aligned g hg
  omega

/-- **One iteration** copies one page. -/
theorem ImageCopied.step {pages : Nat} (h : Loadable k base hi start pages kpt)
    (hc : ImageCopied k base start i k₁) (hi' : i < pages) :
    ImageCopied k base start (i + 1)
      { k₁ with mem := memcpy k₁.mem (imageHost k base i) (start + 4096 * i) 4096 } := by
  have hsrc := h.source _ (h.guestPage hi')
  have hsource : ∀ o < 4096, k₁.mem (start + 4096 * i + o) = k.mem (start + 4096 * i + o) := by
    intro o ho
    refine hc.frame _ fun p hp => ?_
    have hlow := h.source _ (h.guestPage (Nat.lt_trans hp hi'))
    rw [imageHost]
    omega
  refine ⟨hc.alloc, hc.pml4Base, fun p hp o ho => ?_, fun x hx => ?_⟩
  · rcases Nat.lt_succ_iff_lt_or_eq.1 hp with hp | rfl
    · -- a page copied before
      have hne : imageHost k base p ≠ imageHost k base i := fun heq => by
        have := h.mapped.inj _ _ (h.guestPage (Nat.lt_trans hp hi')) (h.guestPage hi') heq
        omega
      have hal := h.mapped.aligned _ (h.guestPage (Nat.lt_trans hp hi'))
      have hal' := h.mapped.aligned _ (h.guestPage hi')
      rw [imageHost] at hne ⊢
      rw [imageHost] at hne ⊢
      dsimp only
      rw [memcpy_apply_of_not_mem (by omega)]
      exact hc.pages p hp o ho
    · rw [← hsource o ho]
      exact memcpy_apply (.inl (by rw [imageHost]; omega)) ho
  · have hlast := hx i (Nat.lt_succ_self i)
    exact (memcpy_apply_of_not_mem hlast).trans
      (hc.frame x fun p hp => hx p (Nat.lt_succ_of_lt hp))

/-- **The loop** copies every page of the image. -/
theorem Loadable.copyImageLoop (h : Loadable k base hi start (imagePages n) kpt) (fuel : Nat)
    (hfuel : imagePages n < fuel + i) (hi' : i ≤ imagePages n)
    (hc : ImageCopied k base start i k₁) :
    ∃ k₂, copyImageLoop base (start + n) fuel k₁ (start + 4096 * i) (4096 + 4096 * i) = some k₂ ∧
      ImageCopied k base start (imagePages n) k₂ := by
  induction fuel generalizing i k₁ with
  | zero => omega
  | succ fuel ih =>
    have hroom := h.room
    have hhigh := h.high
    have hbelow := h.below
    rw [ZeldaOS.copyImageLoop]
    by_cases hlt : i < imagePages n
    · have hpage := h.guestPage hlt
      have hhost := h.mapped.content _ (hc.content h hi') (4096 + 4096 * i)
      have hid : pa k₁.mem k₁.pml4Base (imageHost k base i) = imageHost k base i :=
        (hc.pa_eq h hi' _).trans (h.identity _ hpage)
      obtain ⟨k₂, hr, hc₂⟩ := ih (i := i + 1) (by omega) hlt (hc.step h hlt)
      refine ⟨k₂, ?_, hc₂⟩
      rw [if_pos (by rw [imagePages] at hlt; omega)]
      dsimp only
      rw [hhost]
      rw [imageHost] at hid hr
      rw [if_pos hid, Nat.mod_eq_of_lt (by omega), Nat.mod_eq_of_lt (by omega), Nat.add_assoc start,
        Nat.add_assoc 4096, ← Nat.mul_succ]
      exact hr
    · obtain rfl : i = imagePages n := by omega
      refine ⟨k₁, ?_, hc⟩
      rw [if_neg (by rw [imagePages]; omega)]

/-- The byte at the guest's address `a`. -/
def guestByte (m : Memory) (base a : Nat) : UInt8 := m (guestpaToHostpa m base a)

/-- **The memory of the guest after the copy.** -/
theorem ImageCopied.guestByte {pages a : Nat} (h : Loadable k base hi start pages kpt)
    (hc : ImageCopied k base start pages k₁) (ha : GuestRam 0 hi a) :
    guestByte k₁.mem base a =
      if 4096 ≤ a ∧ a < 4096 + 4096 * pages then k.mem (start + (a - 4096))
      else k.mem (guestpaToHostpa k.mem base a) := by
  rw [ZeldaOS.guestByte, h.mapped.content _ (hc.content h (Nat.le_refl _)), h.mapped.offset a ha]
  split
  · next hin =>
    have hpage : a / 4096 * 4096 = 4096 + 4096 * (a / 4096 - 1) := by omega
    rw [hpage]
    refine (hc.pages (a / 4096 - 1) (by omega) (a % 4096) (by omega)).trans ?_
    rw [show start + 4096 * (a / 4096 - 1) + a % 4096 = start + (a - 4096) by omega]
  · next hout =>
    refine hc.frame _ fun p hp => ?_
    have hne : imageHost k base p ≠ guestpaToHostpa k.mem base (a / 4096 * 4096) := fun heq => by
      have := h.mapped.inj _ _ (h.guestPage hp) ha heq
      omega
    have hal := h.mapped.aligned _ ha
    have hal' : imageHost k base p % 4096 = 0 := h.mapped.aligned _ (h.guestPage hp)
    omega

end

/-! ## A guest with an image -/

section
variable {k k₁ : Kernel PhysicalMemory} {base hi start n : Nat} {kpt : Set Nat}

/-- **The memory of a guest with an image**, for an image below the frontier of the allocator. -/
theorem guestImage_loaded (hf : FrontierOk k.alloc) (hkernel : KernelTables k.mem k.pml4Base kpt)
    (hkpt : ∀ a ∈ kpt, a < k.alloc.currentAvailPage) (hhi : hi < 2 ^ 48 - 4096)
    (hr : setupBasicPhysicalMemory k 0 hi = some (base, k₁))
    (hlim : ∀ r, Handed k.alloc k₁.alloc r → r < 2 ^ 40) (hroom : 4096 * imagePages n ≤ hi)
    (hsource : start + 4096 * imagePages n ≤ k.alloc.currentAvailPage) :
    ∃ k₂, initializeVmcsGuestImage k₁ base start (start + n) = some k₂ ∧
      GuestContent k₁ base 0 hi k₂.mem ∧
      (∀ c, c % 4096 = 0 → (c ≠ 0 → ¬ Handed k.alloc k₁.alloc c) →
        Memory.AgreeOn k₁.mem k.mem c 4096) ∧
      ∀ a, GuestRam 0 hi a → guestByte k₂.mem base a =
        if 4096 ≤ a ∧ a < 4096 + 4096 * imagePages n then k.mem (start + (a - 4096)) else 0 := by
  have hfresh := fresh_of_frontier hf hkpt
  obtain ⟨cur, tbl, used, hcur, hg, h⟩ :=
    setupBasicPhysicalMemory_frame hkernel hfresh (by decide) hhi hr hlim
  have hmapped := hg.guestMapped (fresh_of_frontier hf (by simp)) hcur
  obtain ⟨hkernel₁, hpa⟩ := h.kernel hkernel hfresh
  have hlt : ∀ {g}, GuestPage 0 hi g → g < cur := fun hg => Nat.lt_of_le_of_lt hg.high hcur
  have hbound := hf.bound
  have hload : Loadable k₁ base hi start (imagePages n) kpt := by
    refine ⟨hmapped, hroom, by omega, hkernel₁, fun a ha g hgp heq => ?_, fun g hgp => ?_,
      fun g hgp => ?_, by omega⟩
    · obtain ⟨-, -, hne, hh⟩ := hg.host g hgp (hlt hgp)
      exact (hfresh.handed hh hne).2.2 (heq ▸ ha)
    · rw [hpa]
      exact h.mapped g hgp (hlt hgp)
    · have := (hg.frontier hf hcur hgp).1
      omega
  have hstart : ImageCopied k₁ base start 0 k₁ :=
    ⟨rfl, rfl, fun p hp => absurd hp (Nat.not_lt_zero p), fun _ _ => rfl⟩
  obtain ⟨k₂, hr₂, hc⟩ := hload.copyImageLoop (n / 4096 + 2) (by rw [imagePages]; omega)
    (Nat.zero_le _) hstart
  refine ⟨k₂, ?_, hc.content hload (Nat.le_refl _), h.frame, fun a ha => ?_⟩
  · rw [initializeVmcsGuestImage, Nat.add_sub_cancel_left]
    exact hr₂
  · rw [hc.guestByte hload ha]
    split
    · next hin =>
      -- the source lies below the frontier
      refine h.frame ((start + (a - 4096)) / 4096 * 4096) (by omega) (fun hne hh => ?_) _ (by omega)
        (by omega)
      have := (hf.handed hh hne).1
      omega
    · rw [hmapped.offset a ha]
      exact h.zero _ ha (hlt ha) _ (by omega) (by omega)

/-- The guest sees its image, the `n` bytes from `start` on in the host's memory `host`, from its
second page on, and zeros elsewhere. -/
structure SeesImageOnly (host m : Memory) (base start n : Nat) : Prop where
  image : ∀ i < n, guestByte m base (4096 + i) = host (start + i)
  rest : ∀ a, GuestRam 0 guestMemorySize a → a < 4096 ∨ 4096 + n ≤ a → guestByte m base a = 0

theorem initializeVmcsEpt_eq_some {vpid : Nat} {e : VmcsEpt}
    (hr : initializeVmcsEpt k vpid = some (e, k₁)) :
    setupBasicPhysicalMemory k 0 guestMemorySize = some (e.eptPml4Base, k₁) := by
  simp only [initializeVmcsEpt, Option.bind_eq_bind, Option.bind_eq_some_iff] at hr
  obtain ⟨⟨base, k₁⟩, hset, hr⟩ := hr
  dsimp only at hr
  split at hr
  · cases hr
    exact hset
  · cases hr

/-- **The guest sees its image and nothing else** exactly if the bytes that follow the image in the
host, up to a whole number of pages, are zeros. The copy returns whenever the setup of the guest's
memory did; it writes nothing but the host pages of the guest, and the setup nothing but pages it
was handed out. -/
theorem guestImage_iff {imageEnd vpid : Nat} {segs : List PhysicalMemorySegment}
    {t : List (Int × Nat)} {e : VmcsEpt} (himg : imageEnd % 4096 = 0) (hlt : imageEnd < 2 ^ 32)
    (hmap : (initialMemory imageEnd segs).MapOk)
    (hrun : Run getPhysicalPages (fun _ n => RequestOk n) (initialMemory imageEnd segs) t k.alloc)
    (hkernel : KernelTables k.mem k.pml4Base kpt) (hkpt : ∀ a ∈ kpt, a < k.alloc.currentAvailPage)
    (hr : initializeVmcsEpt k vpid = some (e, k₁))
    (hlim : ∀ r, Handed k.alloc k₁.alloc r → r < 2 ^ 40) (hstart : start + n ≤ imageEnd)
    (hn : 4096 + n ≤ guestMemorySize + 4096) :
    ∃ k₂, initializeVmcsGuestImage k₁ e.eptPml4Base start (start + n) = some k₂ ∧
      GuestContent k₁ e.eptPml4Base 0 guestMemorySize k₂.mem ∧
      (∀ c, c % 4096 = 0 → (c ≠ 0 → ¬ Handed k.alloc k₁.alloc c) →
        Memory.AgreeOn k₁.mem k.mem c 4096) ∧
      (SeesImageOnly k.mem k₂.mem e.eptPml4Base start n ↔
        ∀ i, n ≤ i → i < 4096 * imagePages n → k.mem (start + i) = 0) := by
  have hinv := allocInv_of_run himg hlt hmap hrun
  have hlow := hinv.low
  have hpages : 4096 * imagePages n ≤ guestMemorySize := by
    rw [guestMemorySize] at hn ⊢
    rw [imagePages]
    omega
  have hlen : n ≤ 4096 * imagePages n ∧ 4096 * imagePages n < n + 4096 := by
    rw [imagePages]
    omega
  have hsource : start + 4096 * imagePages n ≤ k.alloc.currentAvailPage := by omega
  obtain ⟨k₂, hcopy, hcontent, hframe, hbyte⟩ := guestImage_loaded hinv.frontierOk hkernel hkpt
    (by decide) (initializeVmcsEpt_eq_some hr) hlim hpages hsource
  have hram : ∀ i < 4096 * imagePages n, GuestRam 0 guestMemorySize (4096 + i) :=
    fun i hi => ⟨by omega, by omega, by omega⟩
  have htail : ∀ i < 4096 * imagePages n,
      guestByte k₂.mem e.eptPml4Base (4096 + i) = k.mem (start + i) := by
    intro i hi
    rw [hbyte _ (hram i hi), if_pos ⟨by omega, by omega⟩, Nat.add_sub_cancel_left]
  refine ⟨k₂, hcopy, hcontent, hframe, fun h i hle hi => ?_, fun h =>
    ⟨fun i hi => ?_, fun a ha hout => ?_⟩⟩
  · rw [← htail i hi]
    exact h.rest _ (hram i hi) (.inr (by omega))
  · exact htail i (by omega)
  · by_cases hin : 4096 ≤ a ∧ a < 4096 + 4096 * imagePages n
    · rw [hbyte a ha, if_pos hin]
      exact h _ (by omega) (by omega)
    · rw [hbyte a ha, if_neg hin]

end

/-! ## An image of one byte -/

/-- The tables of the machine with 3 GiB below the hole after `paging_init` are the pages that it
was handed. -/
theorem kernelTables_large {k₁ : Kernel PhysicalMemory} (hinv : IdentityInv k₁)
    (hboot : BootInv (PageAllocator.getPhysicalPage largeKernel.alloc).2 0x401000
      initialVaCeiling k₁)
    (halloc : k₁.alloc = { largeKernel.alloc with currentAvailPage := 0x405000 }) :
    ∃ kpt, KernelTables k₁.mem k₁.pml4Base kpt ∧ ∀ a ∈ kpt, 0x401000 ≤ a ∧ a + 4096 ≤ 0x405000 := by
  obtain ⟨used, htables⟩ := hinv.tables
  have hfirst : ∀ i < bootTables initialVaCeiling,
      0x401000 ≤ nthPage (PageAllocator.getPhysicalPage largeKernel.alloc).2 i := by decide
  refine ⟨_, ⟨htables.shrink, hinv.upper⟩, ?_⟩
  rintro a ⟨q, hq, ha⟩
  have hlt := hinv.below q a hq ha
  have hal := htables.aligned a (htables.mem_used q a hq ha)
  rw [halloc] at hlt
  dsimp only at hlt
  refine ⟨?_, by omega⟩
  by_cases hnil : q = []
  · subst hnil
    cases ha
    rw [hboot.base]
  · obtain ⟨-, -, i, hi, rfl⟩ := hboot.tables q a hq ha hnil
    exact hfirst i hi

/-- The machine with 3 GiB below the hole after `paging_init`, with the byte `v` in the page at
0x100000 of the kernel's image. -/
theorem imageKernel_large (v : UInt8) : ∃ (k : Kernel PhysicalMemory) (kpt : Set Nat),
    k.alloc = { largeKernel.alloc with currentAvailPage := 0x405000 } ∧
      KernelTables k.mem k.pml4Base kpt ∧ (∀ a ∈ kpt, a < 0x405000) ∧
      (∀ i < 4096, k.mem (0x100000 + i) = v) ∧
      ∀ u < initialVaCeiling, pa k.mem k.pml4Base u = u := by
  obtain ⟨k₁, -, hinv, hboot, halloc⟩ := pagingInit_large
  obtain ⟨kpt, hkernel, hkpt⟩ := kernelTables_large hinv hboot halloc
  have hagree : ∀ a ∈ kpt, Memory.AgreeOn (k₁.mem.fill 0x100000 4096 v) k₁.mem a 4096 := by
    intro a ha
    have hlow := (hkpt a ha).1
    exact Memory.fill_agreeOn (by omega)
  obtain ⟨hkernel', hpa⟩ := hkernel.congr hagree
  refine ⟨{ k₁ with mem := k₁.mem.fill 0x100000 4096 v }, kpt, halloc, hkernel', fun a ha => ?_,
    fun i hi => Memory.fill_apply_of_mem (by omega) (by omega),
    fun u hu => (hpa u).trans (hboot.identity u hu)⟩
  have hhigh := (hkpt a ha).2
  omega

/-- Its allocator, after the four requests of `paging_init`. -/
theorem run_large : ∃ t, Run getPhysicalPages (fun _ n => RequestOk n)
    (initialMemory 0x200000 largeSegments) t
    { largeKernel.alloc with currentAvailPage := 0x405000 } := by
  have hex : exec getPhysicalPages (initialMemory 0x200000 largeSegments) [1, 1, 1, 1] =
      some ([(1, 0x401000), (1, 0x402000), (1, 0x403000), (1, 0x404000)],
        { largeKernel.alloc with currentAvailPage := 0x405000 }) := by decide
  exact ⟨_, Run.nil.exec (by simp [RequestOk]) hex⟩

/-- The machine sets up the memory of a guest. -/
theorem setup_large {k : Kernel PhysicalMemory} {kpt : Set Nat}
    (halloc : k.alloc = { largeKernel.alloc with currentAvailPage := 0x405000 })
    (hkernel : KernelTables k.mem k.pml4Base kpt) (hkpt : ∀ a ∈ kpt, a < 0x405000)
    (hid : ∀ u < initialVaCeiling, pa k.mem k.pml4Base u = u) :
    ∃ e k₁, initializeVmcsEpt k 1 = some (e, k₁) ∧ ∀ r, Handed k.alloc k₁.alloc r → r < 2 ^ 40 := by
  have heq : k.alloc = ⟨0x100000, 0x100000000, 0xbff00000, 0x40000000, 0x405000⟩ :=
    halloc.trans (by decide)
  have hf : FrontierOk k.alloc := by
    rw [heq]
    exact ⟨⟨by decide, by decide, by decide, by decide⟩, by decide, by decide⟩
  have hvalid : ∀ addr, k.alloc.pageValid addr = true ↔
      (0x100000 ≤ addr ∧ addr < 0xc0000000) ∨ (0x100000000 ≤ addr ∧ addr < 0x140000000) := by
    intro addr
    rw [heq]
    simp [PhysicalMemory.pageValid]
  have hfresh : Fresh k.alloc kpt (2 ^ 40) := by
    refine (fresh_of_frontier hf fun a ha => ?_).of_pageValid fun addr hv => ?_
    · rw [heq]
      exact hkpt a ha
    · have := (hvalid addr).1 hv
      omega
  have hnth : ∀ i < 4 * (guestMemorySize / 4096 + 1) + 1, nthPage k.alloc i =
      0x405000 + 4096 * i := by
    intro i hi
    have hi : i < 16389 := hi
    have hcur : k.alloc.currentAvailPage = 0x405000 := by rw [heq]
    rw [← hcur]
    refine nthPage_eq (by omega) fun j hj => (hvalid _).2 (by omega)
  have hpages : ∀ i < 4 * ((guestMemorySize - 0) / 4096 + 1) + 1, nthPage k.alloc i ≠ 0 ∧
      pa k.mem k.pml4Base (nthPage k.alloc i) = nthPage k.alloc i := by
    intro i hi
    have hi : i < 16389 := hi
    rw [hnth i hi, hid _ (by rw [initialVaCeiling]; omega)]
    omega
  obtain ⟨base, k₁, hr⟩ := setupBasicPhysicalMemory_returns hkernel hfresh (by decide) hpages
  refine ⟨⟨base, eptp base, 1⟩, k₁, ?_, fun _ hr => hfresh.handed_lt (by decide) hr⟩
  rw [initializeVmcsEpt, hr]
  rfl

/-- An image of one byte that zeros follow. -/
theorem guestImage_iff_sample : ∃ (k k₁ k₂ : Kernel PhysicalMemory) (e : VmcsEpt),
    initializeVmcsEpt k 1 = some (e, k₁) ∧
      initializeVmcsGuestImage k₁ e.eptPml4Base 0x100000 0x100001 = some k₂ ∧
      SeesImageOnly k.mem k₂.mem e.eptPml4Base 0x100000 1 := by
  obtain ⟨k, kpt, halloc, hkernel, hkpt, hbytes, hid⟩ := imageKernel_large 0
  obtain ⟨t, hrun⟩ := run_large
  obtain ⟨e, k₁, hr, hlim⟩ := setup_large halloc hkernel hkpt hid
  rw [← halloc] at hrun
  have hstart : 0x100000 + 1 ≤ 0x200000 := by decide
  obtain ⟨k₂, hcopy, -, -, hsees⟩ := guestImage_iff (by decide) (by decide) mapOk_large hrun hkernel
    (by rw [halloc]; exact hkpt) hr hlim hstart (by decide)
  refine ⟨k, k₁, k₂, e, hr, hcopy, hsees.2 fun i _ hi => hbytes i ?_⟩
  have hi : i < 4096 := hi
  exact hi

/-- **A guest sees more than its image.** After `paging_init` the page at 0x100000 of the kernel's
image is full of the byte 0xaa, and the guest's image is the first byte of it. The guest finds the
second one at 0x1001. -/
theorem guestImage_tail_visible : ∃ (k k₁ k₂ : Kernel PhysicalMemory) (e : VmcsEpt),
    k.alloc = { largeKernel.alloc with currentAvailPage := 0x405000 } ∧
      (∀ u < initialVaCeiling, pa k.mem k.pml4Base u = u) ∧
      (∀ i < 4096, k.mem (0x100000 + i) = 0xaa) ∧
      initializeVmcsEpt k 1 = some (e, k₁) ∧
      initializeVmcsGuestImage k₁ e.eptPml4Base 0x100000 0x100001 = some k₂ ∧
      GuestRam 0 guestMemorySize 0x1001 ∧ guestByte k₂.mem e.eptPml4Base 0x1001 = 0xaa := by
  obtain ⟨k, kpt, halloc, hkernel, hkpt, hbytes, hid⟩ := imageKernel_large 0xaa
  obtain ⟨e, k₁, hr, hlim⟩ := setup_large halloc hkernel hkpt hid
  have hf : FrontierOk k.alloc := by
    rw [halloc]
    exact ⟨⟨by decide, by decide, by decide, by decide⟩, by decide, by decide⟩
  have hsource : 0x100000 + 4096 * imagePages 1 ≤ k.alloc.currentAvailPage := by
    rw [halloc]
    decide
  obtain ⟨k₂, hcopy, -, -, hbyte⟩ := guestImage_loaded hf hkernel (by rw [halloc]; exact hkpt)
    (by decide) (initializeVmcsEpt_eq_some hr) hlim (by decide) hsource
  have hram : GuestRam 0 guestMemorySize 0x1001 := ⟨by decide, by decide, by decide⟩
  refine ⟨k, k₁, k₂, e, halloc, hid, hbytes, hr, hcopy, hram, ?_⟩
  rw [hbyte _ hram, if_pos (by decide)]
  exact hbytes 1 (by decide)

end ZeldaOS
