import ZeldaOS.Memory.PhysicalMemory

/-!
# Blocks and the memory hole

Whether a block that `get_physical_pages` hands out is memory. The allocator tests the first and the
last page of a request, each against either segment, and computes the last page and the next
frontier with `int` products. So it may hand out a block that starts below the hole and ends above
it, and for requests of 2 GiB and more it may test the wrong page and move the frontier to the wrong
place.

On a map with a hole below 4 GiB (`HoleMap`) a block is memory, and the next one starts behind it,
exactly when one of the two pages that the allocator tests is not valid, or the block lies in the
low segment, or it lies in the high segment and its products do not wrap
(`getPhysicalPages_keeps_iff`).
-/

namespace ZeldaOS

namespace PhysicalMemory

/-- A map of pages with a low segment from 1 MiB on that ends below 4 GiB, and a high segment at or
above 4 GiB. -/
structure HoleMap (s : PhysicalMemory) : Prop extends s.MapOk where
  lowStart : s.addrLow4G = 0x100000
  lowBelow : s.addrLow4G + s.lengthLow4G < 2 ^ 32
  highStart : 2 ^ 32 ≤ s.addrHigh4G

/-- The `n` pages from `a` on lie in the low segment. -/
def InLow (s : PhysicalMemory) (a n : Nat) : Prop :=
  s.addrLow4G ≤ a ∧ a + 4096 * n ≤ s.addrLow4G + s.lengthLow4G

/-- The `n` pages from `a` on lie in the high segment. -/
def InHigh (s : PhysicalMemory) (a n : Nat) : Prop :=
  s.addrHigh4G ≤ a ∧ a + 4096 * n ≤ s.addrHigh4G + s.lengthHigh4G

/-- The page at `a` lies in one of the segments. -/
def PageUsable (s : PhysicalMemory) (a : Nat) : Prop := s.InLow a 1 ∨ s.InHigh a 1

end PhysicalMemory

/-- The arguments of `get_physical_pages` that pass its assertion. -/
def IntRequest (n : Int) : Prop := 0 < n ∧ n < 2 ^ 31

/-- A request gets memory: all pages of the block lie in the segments, and the next block that is
handed out starts behind it. -/
def KeepsToSegments (s : PhysicalMemory) (n : Int) : Prop :=
  ∀ r s', getPhysicalPages s n = some (r, s') → r ≠ 0 →
    (∀ i < n.toNat, s.PageUsable (r + 4096 * i)) ∧
    ∀ n' r' s'', IntRequest n' → getPhysicalPages s' n' = some (r', s'') → r' ≠ 0 →
      r + 4096 * n.toNat ≤ r'

/-! ## The step -/

section
variable {s s' : PhysicalMemory} {n : Int} {r a : Nat}

/-- One page is handed out whenever the frontier is a valid page. -/
theorem getPhysicalPages_one (hv : s.pageValid s.currentAvailPage = true)
    (hlt : s.currentAvailPage < 2 ^ 64) :
    ∃ s', getPhysicalPages s 1 = some (s.currentAvailPage, s') := by
  have hlast : (s.currentAvailPage + toUInt64 (int32 (4096 * int32 (1 - 1)))) % 2 ^ 64 =
      s.currentAvailPage := Nat.mod_eq_of_lt hlt
  refine ⟨{ s with currentAvailPage := frontierAfter s 1 }, ?_⟩
  rw [getPhysicalPages, if_pos (by decide), allocPages]
  dsimp only
  rw [hlast, hv]
  rfl

/-- A page is valid exactly if it begins in one of the segments. -/
theorem PhysicalMemory.HoleMap.pageValid_iff (h : s.HoleMap) :
    s.pageValid a = true ↔
      (s.addrLow4G ≤ a ∧ a < s.addrLow4G + s.lengthLow4G) ∨
      (s.addrHigh4G ≤ a ∧ a < s.addrHigh4G + s.lengthHigh4G) := by
  have h₁ := h.lowEnd
  have h₂ := h.highEnd
  simp only [PhysicalMemory.pageValid, Bool.or_eq_true, Bool.and_eq_true, decide_eq_true_eq]
  rw [Nat.mod_eq_of_lt (by omega), Nat.mod_eq_of_lt (by omega)]

/-- The last page of a request as the allocator computes it, with an `int` product. -/
def lastPage (s : PhysicalMemory) (n : Int) : Nat := frontierPlus s (4096 * int32 (n - 1))

/-- A request that passes the assertion fails exactly when the first page or the last page, as the
allocator computes it, is not valid. -/
theorem PhysicalMemory.HoleMap.allocPages_eq_zero_iff (h : s.HoleMap) :
    (allocPages s n).1 = 0 ↔
      s.pageValid s.currentAvailPage = false ∨ s.pageValid (lastPage s n) = false := by
  have hstart := h.lowStart
  have hhole := h.highStart
  have hlast : (s.currentAvailPage + toUInt64 (int32 (4096 * int32 (n - 1)))) % 2 ^ 64 =
      lastPage s n := rfl
  simp only [allocPages, hlast]
  cases hv : s.pageValid s.currentAvailPage with
  | false => simp
  | true =>
    -- a valid page is not the page at 0
    have hpos : s.currentAvailPage ≠ 0 := by
      have := h.pageValid_iff.1 hv
      omega
    cases hl : s.pageValid (lastPage s n) with
    | false => simp
    | true => simpa using hpos

/-! ## Reachable states -/

/-- What requests of any size keep: the map, and a frontier at the start of a page. -/
structure FrontierInv (s : PhysicalMemory) : Prop where
  map : s.HoleMap
  aligned : s.currentAvailPage % 4096 = 0

/-- The frontier is page aligned, -/
theorem frontierAfter_aligned (h : FrontierInv s) : frontierAfter s n % 4096 = 0 := by
  have hal := h.aligned
  have hhigh := h.map.highAligned.1
  have hplus : frontierPlus s (4096 * n) % 4096 = 0 := by
    rw [frontierPlus, toUInt64, int32, Int.bmod_def]
    split <;> omega
  rw [frontierAfter]
  split
  · exact hhigh
  · exact hplus

/-- and stays so. -/
theorem FrontierInv.step (h : FrontierInv s) (hst : getPhysicalPages s n = some (r, s')) :
    FrontierInv s' := by
  rcases getPhysicalPages_inv hst with ⟨-, rfl⟩ | ⟨-, -, -, rfl⟩
  · exact h
  · exact ⟨⟨⟨h.map.1.1, h.map.1.2, h.map.1.3, h.map.1.4⟩, h.map.2, h.map.3, h.map.4⟩,
      frontierAfter_aligned h⟩

/-- The invariant holds in every run of requests of any size. -/
theorem frontierInv_of_run {imageEnd : Nat} {segs : List PhysicalMemorySegment}
    {t : List (Int × Nat)} (himg : imageEnd % 4096 = 0)
    (hmap : (initialMemory imageEnd segs).HoleMap)
    (hrun : Run getPhysicalPages (fun _ n => IntRequest n) (initialMemory imageEnd segs) t s) :
    FrontierInv s := by
  refine hrun.inv (fun _ s => FrontierInv s) ⟨hmap, ?_⟩ fun _ _ _ _ _ h _ hst => h.step hst
  simp only [initialMemory, bitmapLength]
  omega

/-! ## Where the frontier goes -/

/-- A product that fits an `int` moves the frontier behind the block. -/
theorem le_frontierAfter (hcur : s.currentAvailPage < 2 ^ 52) (h₀ : 0 < n)
    (hn : n < 2 ^ 19) : s.currentAvailPage + 4096 * n.toNat ≤ frontierAfter s n := by
  rw [frontierAfter, frontierPlus_eq (by omega) (by omega) (by omega)]
  split
  · next hjump =>
    simp only [Bool.and_eq_true, decide_eq_true_eq] at hjump
    omega
  · omega

/-- A block of 2 GiB or more in the low segment leaves the frontier below 0, where no page is. -/
theorem frontierAfter_low (hs : s.HoleMap) (hlow : s.InLow s.currentAvailPage n.toNat)
    (hn : 2 ^ 19 ≤ n) : s.pageValid (frontierAfter s n) = false := by
  obtain ⟨-, hend⟩ := hlow
  have hbelow := hs.lowBelow
  have hhigh := hs.highEnd
  have hprod : int32 (4096 * n) = 4096 * n - 2 ^ 32 := by
    rw [int32, Int.bmod_def]
    split <;> omega
  have hplus : 2 ^ 63 ≤ frontierPlus s (4096 * n) := by
    rw [frontierPlus, hprod, toUInt64]
    omega
  have hinvalid : ¬ s.pageValid (frontierPlus s (4096 * n)) = true := by
    rw [hs.pageValid_iff]
    omega
  have hstay : frontierAfter s n = frontierPlus s (4096 * n) := by
    rw [frontierAfter]
    rw [if_neg]
    simp only [Bool.and_eq_true, decide_eq_true_eq]
    omega
  rw [hstay]
  exact Bool.eq_false_iff.2 hinvalid

/-- A block of 2 GiB or more in the high segment leaves the frontier at a valid page that is not
behind the block. -/
theorem frontierAfter_high (hs : s.HoleMap) (hhigh : s.InHigh s.currentAvailPage n.toNat)
    (hn : 2 ^ 19 ≤ n) :
    s.pageValid (frontierAfter s n) = true ∧
      frontierAfter s n < s.currentAvailPage + 4096 * n.toNat := by
  obtain ⟨hstart, hend⟩ := hhigh
  have hhole := hs.highStart
  have hlimit := hs.highEnd
  have hlt : int32 (4096 * n) < 2 ^ 31 := by
    have := Int.bmod_lt (x := 4096 * n) (m := 2 ^ 32) (by decide)
    rw [int32]
    omega
  have hge : -2 ^ 31 ≤ int32 (4096 * n) := by
    have := Int.le_bmod (x := 4096 * n) (m := 2 ^ 32) (by decide)
    rw [int32]
    omega
  have hplus : (frontierPlus s (4096 * n) : Int) = s.currentAvailPage + int32 (4096 * n) := by
    rw [frontierPlus, toUInt64]
    omega
  rw [frontierAfter]
  split
  · exact ⟨hs.pageValid_iff.2 (.inr (by omega)), by omega⟩
  · next hjump =>
    simp only [Bool.and_eq_true, decide_eq_true_eq, not_and, Bool.not_eq_true'] at hjump
    refine ⟨?_, by omega⟩
    by_cases hv : s.pageValid (frontierPlus s (4096 * n)) = true
    · exact hv
    · exact hs.pageValid_iff.2 (.inr (by have := hjump (Bool.eq_false_iff.2 hv); omega))

/-! ## Blocks -/

/-- A block that ends outside the segment it starts in has a page outside both. -/
theorem exists_page_not_usable (h : FrontierInv s) (hv : s.pageValid s.currentAvailPage = true)
    {k : Nat} (hlow : ¬ s.InLow s.currentAvailPage k) (hhigh : ¬ s.InHigh s.currentAvailPage k) :
    ∃ i < k, ¬ s.PageUsable (s.currentAvailPage + 4096 * i) := by
  have hal := h.aligned
  have hl := h.map.lowAligned
  have hh := h.map.highAligned
  have hbelow := h.map.lowBelow
  have hstart := h.map.highStart
  simp only [PhysicalMemory.InLow, PhysicalMemory.InHigh] at hlow hhigh
  simp only [PhysicalMemory.PageUsable, PhysicalMemory.InLow, PhysicalMemory.InHigh]
  -- the page at the end of the segment
  rcases h.map.pageValid_iff.1 hv with hin | hin
  · refine ⟨(s.addrLow4G + s.lengthLow4G - s.currentAvailPage) / 4096, by omega, by omega⟩
  · refine ⟨(s.addrHigh4G + s.lengthHigh4G - s.currentAvailPage) / 4096, by omega, by omega⟩

/-- The pages of a block in one segment are usable. -/
theorem pageUsable_of_block {k i : Nat} (hin : s.InLow a k ∨ s.InHigh a k) (hi : i < k) :
    s.PageUsable (a + 4096 * i) := by
  simp only [PhysicalMemory.PageUsable, PhysicalMemory.InLow, PhysicalMemory.InHigh] at hin ⊢
  omega

/-- A request that passes the assertion. -/
theorem getPhysicalPages_eq (h₀ : 0 < n) :
    getPhysicalPages s n = some ((allocPages s n).1, (allocPages s n).2) := by
  rw [getPhysicalPages, if_pos h₀]

/-- A block that is handed out and gets memory lies in one segment, and below 2 GiB in the high
one: otherwise it has a page outside, or the frontier is not behind it. -/
theorem FrontierInv.block_of_keeps (h : FrontierInv s) (hn : IntRequest n)
    (hr : (allocPages s n).1 ≠ 0) (hkeeps : KeepsToSegments s n) :
    s.InLow s.currentAvailPage n.toNat ∨ (s.InHigh s.currentAvailPage n.toNat ∧ n < 2 ^ 19) := by
  have hs := h.map
  have hcall := getPhysicalPages_eq (s := s) hn.1
  obtain ⟨husable, hnext⟩ := hkeeps _ _ hcall hr
  rcases getPhysicalPages_inv hcall with ⟨hzero, -⟩ | ⟨hfirst, hv, -, hs'⟩
  · exact absurd hzero hr
  rw [hfirst] at husable hnext
  by_cases hlow : s.InLow s.currentAvailPage n.toNat
  · exact .inl hlow
  by_cases hhigh : s.InHigh s.currentAvailPage n.toNat
  · refine .inr ⟨hhigh, ?_⟩
    by_contra hbig
    obtain ⟨hvalid, hlt⟩ := frontierAfter_high hs hhigh (by omega)
    have hpos := hs.lt_of_pageValid hvalid
    have hne := hs.pageValid_iff.1 hvalid
    have hstart := hs.lowStart
    have hhole := hs.highStart
    -- the next page handed out is the frontier
    obtain ⟨s'', hone⟩ := getPhysicalPages_one (s := (allocPages s n).2)
      (by rw [hs']; exact hvalid) (by rw [hs']; dsimp only; omega)
    have := hnext 1 _ s'' ⟨by decide, by decide⟩ hone (by rw [hs']; dsimp only; omega)
    rw [hs'] at this
    dsimp only at this
    omega
  · obtain ⟨i, hi, hnot⟩ := exists_page_not_usable h hv hlow hhigh
    exact absurd (husable i hi) hnot

/-- Such a block gets memory. -/
theorem FrontierInv.keeps_of_block (h : FrontierInv s) (hn : IntRequest n)
    (hblock : (allocPages s n).1 ≠ 0 → s.InLow s.currentAvailPage n.toNat ∨
      (s.InHigh s.currentAvailPage n.toNat ∧ n < 2 ^ 19)) : KeepsToSegments s n := by
  intro r s' hst hr
  have hcall := getPhysicalPages_eq (s := s) hn.1
  rw [hcall, Option.some.injEq, Prod.mk.injEq] at hst
  obtain ⟨rfl, rfl⟩ := hst
  rcases getPhysicalPages_inv hcall with ⟨hzero, -⟩ | ⟨hfirst, hv, -, hs'⟩
  · exact absurd hzero hr
  have hin := hblock hr
  rw [hfirst]
  refine ⟨fun i hi => pageUsable_of_block (hin.imp id And.left) hi, ?_⟩
  intro n' r' s'' _ hst' hr'
  rcases getPhysicalPages_inv hst' with ⟨hzero, -⟩ | ⟨hfirst', hv', -, -⟩
  · exact absurd hzero hr'
  rw [hs'] at hfirst' hv'
  dsimp only at hfirst' hv'
  rw [hfirst']
  by_cases hbig : n < 2 ^ 19
  · exact le_frontierAfter (h.map.lt_of_pageValid hv) hn.1 hbig
  · rcases hin with hlow | ⟨-, hsmall⟩
    · have hinvalid := frontierAfter_low h.map hlow (by omega)
      have hsame : s.pageValid (frontierAfter s n) = true := hv'
      rw [hinvalid] at hsame
      cases hsame
    · exact absurd hsmall hbig

end

/-- **Which blocks are memory.** In every reachable state, and for every number of pages that passes
the assertion, a block gets memory exactly when the page at the frontier or the last page, as the
allocator computes it, is not valid, or the block lies in the low segment, or it lies in the high
segment and is smaller than 2 GiB. -/
theorem getPhysicalPages_keeps_iff {imageEnd : Nat} {segs : List PhysicalMemorySegment}
    {t : List (Int × Nat)} {s : PhysicalMemory} {n : Int} (himg : imageEnd % 4096 = 0)
    (hmap : (initialMemory imageEnd segs).HoleMap)
    (hrun : Run getPhysicalPages (fun _ n => IntRequest n) (initialMemory imageEnd segs) t s)
    (hn : IntRequest n) :
    KeepsToSegments s n ↔
      (s.pageValid s.currentAvailPage = false ∨ s.pageValid (lastPage s n) = false) ∨
        s.InLow s.currentAvailPage n.toNat ∨
        (s.InHigh s.currentAvailPage n.toNat ∧ n < 2 ^ 19) := by
  have hinv := frontierInv_of_run himg hmap hrun
  rw [← hinv.map.allocPages_eq_zero_iff]
  constructor
  · intro hkeeps
    by_cases hr : (allocPages s n).1 = 0
    · exact .inl hr
    · exact .inr (hinv.block_of_keeps hn hr hkeeps)
  · intro hcond
    exact hinv.keeps_of_block hn hcond.resolve_left

/-- A machine with 3 GiB below the hole and 1 GiB above 4 GiB. -/
def holeSegments : List PhysicalMemorySegment :=
  [⟨0x100000, 0xbff00000, 1⟩, ⟨0x100000000, 0x40000000, 1⟩, ⟨0, 0, 0⟩]

/-- The map of the sample has a hole. -/
theorem holeMap_sample : (initialMemory 0x200000 holeSegments).HoleMap :=
  ⟨⟨by decide, by decide, by decide, by decide⟩, by decide, by decide, by decide⟩

/-- A call that keeps to its segment. -/
theorem getPhysicalPages_keeps_iff_sample :
    (allocPages (initialMemory 0x200000 holeSegments) 8).1 = 0x401000 ∧
      KeepsToSegments (initialMemory 0x200000 holeSegments) 8 := by
  refine ⟨by decide, ?_⟩
  exact (getPhysicalPages_keeps_iff (by decide) holeMap_sample .nil ⟨by decide, by decide⟩).2
    (.inr (.inl ⟨by decide, by decide⟩))

/-- **A block across the hole.** On this machine, after two requests of 1 GiB, a request of 0x7fc00
pages gets the block from 0x80401000 to 0x100001000: its first page is low and its last one high,
and the page at 3 GiB, where the hole starts, is in the middle of it. -/
theorem getPhysicalPages_spans_hole :
    ∃ t s s', Run getPhysicalPages (fun _ n => IntRequest n)
      (initialMemory 0x200000 holeSegments) t s ∧
      getPhysicalPages s 0x7fc00 = some (0x80401000, s') ∧
      0x80401000 + 4096 * 0x3fbff = 0xc0000000 ∧ ¬ s.PageUsable (0x80401000 + 4096 * 0x3fbff) := by
  have hex : exec getPhysicalPages (initialMemory 0x200000 holeSegments) [0x40000, 0x40000] =
      some ([(0x40000, 0x401000), (0x40000, 0x40401000)],
        { initialMemory 0x200000 holeSegments with currentAvailPage := 0x80401000 }) := by decide
  have hrun : Run getPhysicalPages (fun _ n => IntRequest n) (initialMemory 0x200000 holeSegments)
      [(0x40000, 0x401000), (0x40000, 0x40401000)] _ :=
    Run.nil.exec (by simp [IntRequest]) hex
  refine ⟨_, _, { initialMemory 0x200000 holeSegments with currentAvailPage := 0x100001000 }, hrun,
    by decide, by decide, ?_⟩
  simp [PhysicalMemory.PageUsable, PhysicalMemory.InLow, PhysicalMemory.InHigh, initialMemory,
    holeSegments, scanSegments, recordSegment]

end ZeldaOS
