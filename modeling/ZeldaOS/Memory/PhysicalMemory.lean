import Mathlib.Data.List.Pairwise
import Mathlib.Data.Int.Init
import ZeldaOS.Lib.Memory
import ZeldaOS.Lib.Run

/-!
# The physical page allocator

Model of `memory/physical_memory.c`. The allocator never frees: `get_physical_pages` cuts the
requested block off the frontier `current_avail_page` and moves the frontier up, jumping from the
segment below 4 GiB to the one above it when the low one is exhausted. The page bitmap behind the
kernel image is initialised and then not consulted.

The frontier only grows (`getPhysicalPages_cases`), and every block handed out lies below it
(`AllocInv`); so no page is handed out twice, whatever the sizes requested and whichever of the
requests fail (`getPhysicalPages_disjoint`).
-/

namespace ZeldaOS

/-! ## Machine arithmetic -/

/-- The value of `x` as an `int32_t`, with the wraparound of the machine multiplication. -/
def int32 (x : Int) : Int := Int.bmod x (2 ^ 32)

/-- The conversion of a signed integer to `uint64_t`. -/
def toUInt64 (x : Int) : Nat := (x % 2 ^ 64).toNat

theorem int32_eq {x : Int} (h₁ : -2 ^ 31 ≤ x) (h₂ : x < 2 ^ 31) : int32 x = x := by
  rw [int32, Int.bmod_eq_of_le] <;> omega

theorem toUInt64_eq {x : Int} (h₁ : 0 ≤ x) (h₂ : x < 2 ^ 64) : toUInt64 x = x.toNat := by
  rw [toUInt64, Int.emod_eq_of_lt h₁ h₂]

/-! ## The allocator's state -/

/-- An entry of the memory list that the boot loader leaves for the kernel
(`struct physical_memory_segment`). -/
structure PhysicalMemorySegment where
  address : Nat
  length : Nat
  type : Nat
deriving DecidableEq, Repr

/-- The static variables of the allocator: the two usable segments and the frontier. -/
structure PhysicalMemory where
  addrLow4G : Nat := 0
  addrHigh4G : Nat := 0
  lengthLow4G : Nat := 0
  lengthHigh4G : Nat := 0
  currentAvailPage : Nat := 0
deriving DecidableEq, Repr

namespace PhysicalMemory

/-- The segments are aligned to pages and end below the physical address limit. -/
structure MapOk (s : PhysicalMemory) : Prop where
  lowAligned : s.addrLow4G % 4096 = 0 ∧ s.lengthLow4G % 4096 = 0
  highAligned : s.addrHigh4G % 4096 = 0 ∧ s.lengthHigh4G % 4096 = 0
  lowEnd : s.addrLow4G + s.lengthLow4G < 2 ^ 52
  highEnd : s.addrHigh4G + s.lengthHigh4G < 2 ^ 52

/-- `PHYSICAL_PAGE_VALID`: the address lies in one of the two segments. -/
def pageValid (s : PhysicalMemory) (addr : Nat) : Bool :=
  (s.addrLow4G ≤ addr && addr < (s.addrLow4G + s.lengthLow4G) % 2 ^ 64) ||
  (s.addrHigh4G ≤ addr && addr < (s.addrHigh4G + s.lengthHigh4G) % 2 ^ 64)

/-- A valid page of a well-formed map lies below the physical address limit. -/
theorem MapOk.lt_of_pageValid {s : PhysicalMemory} (h : s.MapOk) {addr : Nat}
    (hv : s.pageValid addr = true) : addr < 2 ^ 52 := by
  have h₁ := h.lowEnd
  have h₂ := h.highEnd
  simp only [pageValid, Bool.or_eq_true, Bool.and_eq_true, decide_eq_true_eq] at hv
  omega

end PhysicalMemory

/-! ## Allocation -/

/-- `get_physical_pages` after its assertion: the first page of the block, 0 upon failure. The
products are C `int` products. -/
def allocPages (s : PhysicalMemory) (nrPages : Int) : Nat × PhysicalMemory :=
  let firstPage := s.currentAvailPage
  let lastPage := (s.currentAvailPage + toUInt64 (int32 (4096 * int32 (nrPages - 1)))) % 2 ^ 64
  if !s.pageValid firstPage || !s.pageValid lastPage then (0, s)
  else
    let nextPage := (s.currentAvailPage + toUInt64 (int32 (4096 * nrPages))) % 2 ^ 64
    let nextPage :=
      if !s.pageValid nextPage && nextPage < s.addrHigh4G then s.addrHigh4G else nextPage
    (firstPage, { s with currentAvailPage := nextPage })

/-- `get_physical_pages`: halts on a request of no pages. -/
def getPhysicalPages (s : PhysicalMemory) (nrPages : Int) : Option (Nat × PhysicalMemory) :=
  if nrPages > 0 then some (allocPages s nrPages) else none

/-- `get_physical_page`; its request of one page passes the assertion. -/
def getPhysicalPage (s : PhysicalMemory) : Nat × PhysicalMemory := allocPages s 1

/-- The requests whose products fit an `int`. -/
def RequestOk (n : Int) : Prop := 1 ≤ n ∧ n < 2 ^ 19

/-- `current_avail_page` plus an `int`. -/
def frontierPlus (s : PhysicalMemory) (x : Int) : Nat :=
  (s.currentAvailPage + toUInt64 (int32 x)) % 2 ^ 64

/-- The frontier behind a block of `n` pages, with the jump over the hole. -/
def frontierAfter (s : PhysicalMemory) (n : Int) : Nat :=
  let nextPage := frontierPlus s (4096 * n)
  if !s.pageValid nextPage && nextPage < s.addrHigh4G then s.addrHigh4G else nextPage

section
variable {s s' : PhysicalMemory} {n : Int} {r : Nat}

/-- **What one request does**, whatever its size. -/
theorem getPhysicalPages_inv (h : getPhysicalPages s n = some (r, s')) :
    (r = 0 ∧ s' = s) ∨
    (r = s.currentAvailPage ∧ s.pageValid s.currentAvailPage = true ∧
      s.pageValid (frontierPlus s (4096 * int32 (n - 1))) = true ∧
      s' = { s with currentAvailPage := frontierAfter s n }) := by
  rw [getPhysicalPages] at h
  split at h
  · rw [Option.some.injEq, allocPages] at h
    dsimp only at h
    split at h
    · cases h
      exact .inl ⟨rfl, rfl⟩
    · next hv =>
      simp only [Bool.or_eq_true, not_or, Bool.not_eq_true', Bool.not_eq_false] at hv
      cases h
      exact .inr ⟨rfl, hv.1, hv.2, rfl⟩
  · cases h

/-- A product that does not wrap. -/
theorem frontierPlus_eq {x : Int} (h₀ : 0 ≤ x) (h₁ : x < 2 ^ 31)
    (hlt : s.currentAvailPage + x.toNat < 2 ^ 64) :
    frontierPlus s x = s.currentAvailPage + x.toNat := by
  rw [frontierPlus, int32_eq (by omega) h₁, toUInt64_eq h₀ (by omega), Nat.mod_eq_of_lt hlt]

/-- **What one request does.** It fails and leaves the allocator as it was, or it returns the
frontier and moves it past the block, to an aligned page. -/
theorem getPhysicalPages_cases (hs : s.MapOk) (hcur : s.currentAvailPage ≤ 2 ^ 52)
    (hal : s.currentAvailPage % 4096 = 0) (hn : RequestOk n)
    (h : getPhysicalPages s n = some (r, s')) :
    (r = 0 ∧ s' = s) ∨
    ∃ next, r = s.currentAvailPage ∧ s' = { s with currentAvailPage := next } ∧
      s.currentAvailPage + 4096 * n.toNat ≤ next ∧ next ≤ 2 ^ 52 ∧ next % 4096 = 0 := by
  obtain ⟨h₁, h₂⟩ := hn
  rcases getPhysicalPages_inv h with h | ⟨rfl, -, hlast, rfl⟩
  · exact .inl h
  · refine .inr ⟨_, rfl, rfl, ?_⟩
    have hend := hs.lt_of_pageValid hlast
    rw [int32_eq (by omega) (by omega), frontierPlus_eq (by omega) (by omega) (by omega)] at hend
    have hhigh := hs.highAligned.1
    have hhighEnd := hs.highEnd
    rw [frontierAfter, frontierPlus_eq (by omega) (by omega) (by omega)]
    split
    · next hj =>
      simp only [Bool.and_eq_true, decide_eq_true_eq] at hj
      omega
    · omega

end

/-! ## Initialisation -/

/-- The body of the scan over the memory list: a usable segment that starts at 1 MiB is the low
one, one that starts at or above 4 GiB is the high one. -/
def recordSegment (s : PhysicalMemory) (seg : PhysicalMemorySegment) : PhysicalMemory :=
  if seg.type ≠ 1 then s
  else if seg.address = 0x100000 then
    { s with addrLow4G := seg.address, lengthLow4G := seg.length }
  else if seg.address ≥ 0x100000000 then
    { s with addrHigh4G := seg.address, lengthHigh4G := seg.length }
  else s

/-- The scan over the memory list, which ends at a segment of length 0. -/
def scanSegments (s : PhysicalMemory) : List PhysicalMemorySegment → PhysicalMemory
  | [] => s
  | seg :: segs => if seg.length = 0 then s else scanSegments (recordSegment s seg) segs

/-- `PAGING_BITMAP_LENGTH_IN_BYTE`: one bit for each page of 64 GiB. -/
def bitmapLength : Nat := 64 * 1024 * 1024 / 4 / 8

/-- `is_page_free`, with the bitmap at `imageEnd`. -/
def isPageFree (m : Memory) (imageEnd addr : Nat) : Bool :=
  let byteIndex := addr >>> 12 >>> 3
  let bitIndex := (addr >>> 12) &&& 7
  if byteIndex ≥ bitmapLength then false
  else !(m (imageEnd + byteIndex)).toNat.testBit bitIndex

/-- `mark_page_as_occupied`, with the bitmap at `imageEnd`. -/
def markPageAsOccupied (m : Memory) (imageEnd addr : Nat) : Memory :=
  let byteIndex := addr >>> 12 >>> 3
  let bitIndex := (addr >>> 12) &&& 7
  m.write (imageEnd + byteIndex) 1 ((m (imageEnd + byteIndex)).toNat ||| 1 <<< bitIndex)

/-- The body of the marking loop: mark the page, then assert that it is no longer free. -/
def markPage (imageEnd : Nat) (m : Memory) (page : Nat) : Option Memory :=
  let m := markPageAsOccupied m imageEnd page
  if isPageFree m imageEnd page then none else some m

/-- `physical_page_bitmap_init`: clear the bitmap, mark every page below its end and start the
frontier one page above it. -/
def physicalPageBitmapInit (m : Memory) (imageEnd : Nat) (s : PhysicalMemory) :
    Option (Memory × PhysicalMemory) :=
  let basePagesEnd := bitmapLength / 4096 * 4096 + imageEnd
  let pages := (List.range ((basePagesEnd + 4095) / 4096)).map (4096 * ·)
  (pages.foldlM (markPage imageEnd) (m.fill imageEnd bitmapLength 0)).map fun m =>
    (m, { s with currentAvailPage := basePagesEnd + 4096 })

/-- `physical_memory_init` on the boot loader's memory list. -/
def physicalMemoryInit (m : Memory) (imageEnd : Nat) (segs : List PhysicalMemorySegment) :
    Option (Memory × PhysicalMemory) :=
  physicalPageBitmapInit m imageEnd (scanSegments {} segs)

/-- A page that was just marked is not free. -/
theorem markPage_isSome (imageEnd : Nat) (m : Memory) (page : Nat) :
    (markPage imageEnd m page).isSome = true := by
  have hfree : isPageFree (markPageAsOccupied m imageEnd page) imageEnd page = false := by
    simp only [isPageFree, markPageAsOccupied]
    split
    · rfl
    · have hbit : (page >>> 12) &&& 7 < 8 := by
        rw [show 7 = 2 ^ 3 - 1 from rfl, Nat.and_two_pow_sub_one_eq_mod]
        omega
      rw [Memory.write_apply_of_mem (Nat.le_refl _) (by omega), Nat.sub_self, Nat.pow_zero,
        Nat.div_one, UInt8.toNat_ofNat', Nat.testBit_mod_two_pow, Nat.testBit_or,
        Nat.testBit_shiftLeft]
      simp [hbit]
  simp [markPage, hfree]

/-- The marking loop does not halt. -/
theorem foldlM_markPage_isSome (imageEnd : Nat) : ∀ (pages : List Nat) (m : Memory),
    (pages.foldlM (markPage imageEnd) m).isSome = true
  | [], _ => rfl
  | page :: pages, m => by
    obtain ⟨m', hm⟩ := Option.isSome_iff_exists.1 (markPage_isSome imageEnd m page)
    rw [List.foldlM_cons, hm]
    exact foldlM_markPage_isSome imageEnd pages m'

/-- The allocator's state that initialisation leaves. -/
def initialMemory (imageEnd : Nat) (segs : List PhysicalMemorySegment) : PhysicalMemory :=
  { scanSegments {} segs with currentAvailPage := imageEnd + bitmapLength + 4096 }

/-- Initialisation returns, whatever the memory list. -/
theorem physicalMemoryInit_eq (m : Memory) (imageEnd : Nat) (segs : List PhysicalMemorySegment) :
    ∃ m', physicalMemoryInit m imageEnd segs = some (m', initialMemory imageEnd segs) := by
  obtain ⟨m', hm⟩ := Option.isSome_iff_exists.1 (foldlM_markPage_isSome imageEnd
    ((List.range ((bitmapLength / 4096 * 4096 + imageEnd + 4095) / 4096)).map (4096 * ·))
    (m.fill imageEnd bitmapLength 0))
  refine ⟨m', ?_⟩
  rw [physicalMemoryInit, physicalPageBitmapInit, hm]
  simp only [Option.map_some, initialMemory, bitmapLength, Option.some.injEq, Prod.mk.injEq,
    true_and, PhysicalMemory.mk.injEq]
  omega

/-! ## No page is handed out twice -/

/-- The blocks of two answered requests do not overlap. -/
def BlocksDisjoint (a b : Int × Nat) : Prop :=
  a.2 ≠ 0 → b.2 ≠ 0 → a.2 + 4096 * a.1.toNat ≤ b.2 ∨ b.2 + 4096 * b.1.toNat ≤ a.2

/-- The invariant of the allocator over the trace `t` of its requests, for a frontier that started
at `lo`: every block handed out lies between `lo` and the frontier, and the blocks are disjoint. -/
structure AllocInv (lo : Nat) (t : List (Int × Nat)) (s : PhysicalMemory) : Prop where
  map : s.MapOk
  aligned : s.currentAvailPage % 4096 = 0
  bound : s.currentAvailPage ≤ 2 ^ 52
  low : lo ≤ s.currentAvailPage
  blocks : ∀ b ∈ t, b.2 ≠ 0 → b.2 % 4096 = 0 ∧ lo ≤ b.2 ∧
    b.2 + 4096 * b.1.toNat ≤ s.currentAvailPage
  disjoint : t.Pairwise BlocksDisjoint

/-- One request keeps the invariant. -/
theorem AllocInv.step {lo : Nat} {t : List (Int × Nat)} {s s' : PhysicalMemory} {n : Int} {r : Nat}
    (h : AllocInv lo t s) (hn : RequestOk n) (hst : getPhysicalPages s n = some (r, s')) :
    AllocInv lo (t ++ [(n, r)]) s' := by
  rcases getPhysicalPages_cases h.map h.bound h.aligned hn hst with
    ⟨rfl, rfl⟩ | ⟨next, rfl, rfl, hnext, hbound, hal⟩
  · refine ⟨h.map, h.aligned, h.bound, h.low, fun b hb hne => ?_, ?_⟩
    · rcases List.mem_append.1 hb with hb | hb
      · exact h.blocks b hb hne
      · rw [List.mem_singleton] at hb
        exact absurd (congrArg Prod.snd hb) hne
    · refine List.pairwise_append.2 ⟨h.disjoint, List.pairwise_singleton _ _, ?_⟩
      intro a _ b hb _ hne
      rw [List.mem_singleton] at hb
      exact absurd (congrArg Prod.snd hb) hne
  · have hlow := h.low
    refine ⟨⟨h.map.1, h.map.2, h.map.3, h.map.4⟩, hal, hbound, by dsimp only; omega,
      fun b hb hne => ?_, ?_⟩
    · rcases List.mem_append.1 hb with hb | hb
      · have := h.blocks b hb hne
        dsimp only
        omega
      · rw [List.mem_singleton] at hb
        subst hb
        exact ⟨h.aligned, hlow, hnext⟩
    · refine List.pairwise_append.2 ⟨h.disjoint, List.pairwise_singleton _ _, ?_⟩
      intro a ha b hb hne _
      rw [List.mem_singleton] at hb
      subst hb
      exact .inl (h.blocks a ha hne).2.2

/-- The allocator that initialisation leaves satisfies the invariant. -/
theorem allocInv_initialMemory {imageEnd : Nat} {segs : List PhysicalMemorySegment}
    (himg : imageEnd % 4096 = 0) (hlt : imageEnd < 2 ^ 32)
    (hmap : (initialMemory imageEnd segs).MapOk) :
    AllocInv (imageEnd + bitmapLength + 4096) [] (initialMemory imageEnd segs) := by
  refine ⟨hmap, ?_, ?_, Nat.le_refl _, by simp, List.Pairwise.nil⟩ <;>
    simp only [initialMemory, bitmapLength] <;> omega

/-- The invariant holds in every run of requests after initialisation. -/
theorem allocInv_of_run {imageEnd : Nat} {segs : List PhysicalMemorySegment} {t : List (Int × Nat)}
    {s : PhysicalMemory} (himg : imageEnd % 4096 = 0) (hlt : imageEnd < 2 ^ 32)
    (hmap : (initialMemory imageEnd segs).MapOk)
    (hrun : Run getPhysicalPages (fun _ n => RequestOk n) (initialMemory imageEnd segs) t s) :
    AllocInv (imageEnd + bitmapLength + 4096) t s :=
  hrun.inv (AllocInv (imageEnd + bitmapLength + 4096)) (allocInv_initialMemory himg hlt hmap)
    fun _ _ _ _ _ h hn hst => h.step hn hst

/-- **The page allocator never hands out a page twice.** From the state that `physical_memory_init`
leaves for a page-aligned memory map, in every run of requests the blocks handed out are aligned,
pairwise disjoint and above the kernel image and the page bitmap, and a request that fails leaves
the allocator as it was. -/
theorem getPhysicalPages_disjoint (m : Memory) (imageEnd : Nat)
    (segs : List PhysicalMemorySegment) (himg : imageEnd % 4096 = 0) (hlt : imageEnd < 2 ^ 32) :
    ∃ m' s₀, physicalMemoryInit m imageEnd segs = some (m', s₀) ∧
      (s₀.MapOk → ∀ t s, Run getPhysicalPages (fun _ n => RequestOk n) s₀ t s →
        (∀ b ∈ t, b.2 ≠ 0 → b.2 % 4096 = 0 ∧ imageEnd + bitmapLength ≤ b.2) ∧
        t.Pairwise BlocksDisjoint ∧
        ∀ n s', RequestOk n → getPhysicalPages s n = some (0, s') → s' = s) := by
  obtain ⟨m', hm⟩ := physicalMemoryInit_eq m imageEnd segs
  refine ⟨m', _, hm, fun hmap t s hrun => ?_⟩
  have hinv := allocInv_of_run himg hlt hmap hrun
  refine ⟨fun b hb hne => ?_, hinv.disjoint, fun n s' hn hst => ?_⟩
  · have := hinv.blocks b hb hne
    omega
  · have hlow := hinv.low
    rcases getPhysicalPages_cases hinv.map hinv.bound hinv.aligned hn hst with
      ⟨-, rfl⟩ | ⟨_, h0, -⟩
    · rfl
    · omega

/-- A machine with 2 GiB below the hole and 1 GiB above 4 GiB. -/
def sampleSegments : List PhysicalMemorySegment :=
  [⟨0, 0x9f000, 1⟩, ⟨0x100000, 0x7fe00000, 1⟩, ⟨0xfffc0000, 0x40000, 2⟩,
    ⟨0x100000000, 0x40000000, 1⟩, ⟨0, 0, 0⟩]

theorem mapOk_sample : (initialMemory 0x200000 sampleSegments).MapOk :=
  ⟨by decide, by decide, by decide, by decide⟩

theorem getPhysicalPages_disjoint_sample :
    ∃ m' s₀ s, physicalMemoryInit (fun _ => 0) 0x200000 sampleSegments = some (m', s₀) ∧
      Run getPhysicalPages (fun _ n => RequestOk n) s₀ [(8, 0x401000), (1, 0x409000)] s ∧
      [((8 : Int), 0x401000), (1, 0x409000)].Pairwise BlocksDisjoint := by
  obtain ⟨m₁, h₁⟩ := physicalMemoryInit_eq (fun _ => 0) 0x200000 sampleSegments
  obtain ⟨m', s₀, h, hrun⟩ :=
    getPhysicalPages_disjoint (fun _ => 0) 0x200000 sampleSegments (by decide) (by decide)
  obtain ⟨rfl, rfl⟩ : m₁ = m' ∧ initialMemory 0x200000 sampleSegments = s₀ := by
    simpa using h₁.symm.trans h
  have hex : exec getPhysicalPages (initialMemory 0x200000 sampleSegments) [8, 1] =
      some ([(8, 0x401000), (1, 0x409000)],
        { initialMemory 0x200000 sampleSegments with currentAvailPage := 0x40a000 }) := by decide
  have hr : Run getPhysicalPages (fun _ n => RequestOk n) (initialMemory 0x200000 sampleSegments)
      [(8, 0x401000), (1, 0x409000)] _ :=
    Run.nil.exec (by simp [RequestOk]) hex
  exact ⟨m₁, _, _, h, hr, (hrun mapOk_sample _ _ hr).2.1⟩

end ZeldaOS
