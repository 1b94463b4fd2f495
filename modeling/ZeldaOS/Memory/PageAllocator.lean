import Mathlib.Data.Set.Insert
import ZeldaOS.Memory.PhysicalMemory

/-!
# Fresh pages

The code that builds tables takes its pages from `get_physical_page` one at a time. What it needs of
the allocator is not how the pages are found but that they are fresh: aligned, distinct, and none of
them in use (`Fresh`). An allocation may also fail, which is the result 0. `PageAllocator` is that
interface; the allocator of `memory/physical_memory.c` implements it, and the pages above its
frontier are fresh (`fresh_of_frontier`).
-/

namespace ZeldaOS

/-- An allocator of single pages; it returns 0 upon failure. -/
class PageAllocator (A : Type) where
  /-- The next page, and the allocator after it. -/
  getPhysicalPage : A → Nat × A

instance : PageAllocator PhysicalMemory := ⟨getPhysicalPage⟩

section
variable {A : Type} [PageAllocator A] {a a' b c : A} {used : Set Nat} {limit : Nat}

/-- The allocator after `n` allocations. -/
def advance (a : A) : Nat → A
  | 0 => a
  | n + 1 => advance (PageAllocator.getPhysicalPage a).2 n

/-- The page that the allocation number `n` returns, counted from 0. -/
def nthPage (a : A) (n : Nat) : Nat := (PageAllocator.getPhysicalPage (advance a n)).1

/-- Pages are taken one after the other. -/
theorem advance_add (a : A) : ∀ m n, advance a (m + n) = advance (advance a m) n
  | 0, n => by rw [Nat.zero_add]; rfl
  | m + 1, n => by
    rw [Nat.add_right_comm]
    exact advance_add (PageAllocator.getPhysicalPage a).2 m n

/-- The next page but `n` is the one but `n` after the next. -/
theorem nthPage_succ (a : A) (n : Nat) :
    nthPage a (n + 1) = nthPage (PageAllocator.getPhysicalPage a).2 n := rfl

/-- The pages still to come are aligned, below `limit`, distinct, and not in `used`. -/
structure Fresh (a : A) (used : Set Nat) (limit : Nat) : Prop where
  page : ∀ n, nthPage a n ≠ 0 → nthPage a n % 4096 = 0 ∧ nthPage a n < limit ∧ nthPage a n ∉ used
  inj : ∀ m n, nthPage a m ≠ 0 → nthPage a m = nthPage a n → m = n

/-- The allocator `a'` is reached from `a` by allocations. -/
def Reaches (a a' : A) : Prop := ∃ n, a' = advance a n

/-- The page `r` is handed out on the way from the allocator `a` to `a'`. -/
def Handed (a a' : A) (r : Nat) : Prop := ∃ m n, a' = advance a m ∧ n < m ∧ nthPage a n = r

/-- No page is taken, -/
theorem Reaches.refl (a : A) : Reaches a a := ⟨0, rfl⟩

/-- or one, -/
theorem Reaches.single (a : A) : Reaches a (PageAllocator.getPhysicalPage a).2 := ⟨1, rfl⟩

/-- or some and then others. -/
theorem Reaches.trans (h : Reaches a b) (h' : Reaches b c) : Reaches a c := by
  obtain ⟨m, rfl⟩ := h
  obtain ⟨n, rfl⟩ := h'
  exact ⟨m + n, (advance_add a m n).symm⟩

/-- The page that is taken is handed out. -/
theorem Handed.single (a : A) :
    Handed a (PageAllocator.getPhysicalPage a).2 (PageAllocator.getPhysicalPage a).1 :=
  ⟨1, 0, rfl, Nat.one_pos, rfl⟩

/-- A page handed out early is handed out in the longer run. -/
theorem Handed.append {r : Nat} (h : Handed a b r) (h' : Reaches b c) : Handed a c r := by
  obtain ⟨m, n, rfl, hn, hr⟩ := h
  obtain ⟨k, rfl⟩ := h'
  exact ⟨m + k, n, (advance_add a m k).symm, by omega, hr⟩

/-- A page handed out late is handed out in the longer run. -/
theorem Handed.prepend {r : Nat} (h' : Reaches a b) (h : Handed b c r) : Handed a c r := by
  obtain ⟨k, rfl⟩ := h'
  obtain ⟨m, n, rfl, hn, hr⟩ := h
  refine ⟨k + m, k + n, (advance_add a k m).symm, by omega, ?_⟩
  rw [nthPage, advance_add]
  exact hr

namespace Fresh

/-- Fewer pages may be in use. -/
theorem mono {used' : Set Nat} (h : Fresh a used limit) (hsub : used' ⊆ used) :
    Fresh a used' limit := by
  refine ⟨fun n hne => ?_, h.inj⟩
  obtain ⟨hal, hlt, hnot⟩ := h.page n hne
  exact ⟨hal, hlt, fun hmem => hnot (hsub hmem)⟩

/-- The next page of a fresh allocator. -/
theorem head (h : Fresh a used limit) (hne : (PageAllocator.getPhysicalPage a).1 ≠ 0) :
    (PageAllocator.getPhysicalPage a).1 % 4096 = 0 ∧
      (PageAllocator.getPhysicalPage a).1 < limit ∧ (PageAllocator.getPhysicalPage a).1 ∉ used :=
  h.page 0 hne

/-- The next page lies apart from the pages in use. -/
theorem head_disjoint (h : Fresh a used limit) (hne : (PageAllocator.getPhysicalPage a).1 ≠ 0)
    {c : Nat} (hc : c ∈ used) (hal : c % 4096 = 0) :
    c + 4096 ≤ (PageAllocator.getPhysicalPage a).1 ∨
      (PageAllocator.getPhysicalPage a).1 + 4096 ≤ c := by
  obtain ⟨hpage, -, hnot⟩ := h.head hne
  have hcne : c ≠ (PageAllocator.getPhysicalPage a).1 := fun heq => hnot (heq ▸ hc)
  omega

/-- The allocator stays fresh after an allocation. -/
theorem next (h : Fresh a used limit) : Fresh (PageAllocator.getPhysicalPage a).2 used limit :=
  ⟨fun n => h.page (n + 1), fun m n hne heq => Nat.succ.inj (h.inj (m + 1) (n + 1) hne heq)⟩

/-- The page just allocated is in use from now on. -/
theorem next_insert (h : Fresh a used limit) :
    Fresh (PageAllocator.getPhysicalPage a).2
      (insert (PageAllocator.getPhysicalPage a).1 used) limit := by
  refine ⟨fun n hne => ?_, h.next.inj⟩
  obtain ⟨hal, hlt, hnot⟩ := h.page (n + 1) hne
  refine ⟨hal, hlt, ?_⟩
  rintro (heq | hmem)
  · have := h.inj (n + 1) 0 hne heq
    omega
  · exact hnot hmem

/-- A page still to come is fresh. -/
theorem handed (h : Fresh a used limit) {r : Nat} (hr : Handed a a' r) (hne : r ≠ 0) :
    r % 4096 = 0 ∧ r < limit ∧ r ∉ used := by
  obtain ⟨m, n, -, -, rfl⟩ := hr
  exact h.page n hne

/-- The pages that are handed out are below the limit. -/
theorem handed_lt (h : Fresh a used limit) (hpos : 0 < limit) {r : Nat} (hr : Handed a a' r) :
    r < limit := by
  rcases Nat.eq_zero_or_pos r with rfl | hne
  · exact hpos
  · exact (h.handed hr (Nat.ne_of_gt hne)).2.1

end Fresh

end

/-! ## The frontier allocator -/

/-- The allocator's frontier is an aligned page, within a well-formed memory map. -/
structure FrontierOk (s : PhysicalMemory) : Prop where
  map : s.MapOk
  aligned : s.currentAvailPage % 4096 = 0
  bound : s.currentAvailPage ≤ 2 ^ 52

/-- The frontier of the allocator after any calls. -/
theorem AllocInv.frontierOk {lo : Nat} {t : List (Int × Nat)} {s : PhysicalMemory}
    (h : AllocInv lo t s) : FrontierOk s := ⟨h.map, h.aligned, h.bound⟩

/-- What one allocation of a page does. -/
theorem FrontierOk.getPhysicalPage {s : PhysicalMemory} (h : FrontierOk s) :
    FrontierOk (getPhysicalPage s).2 ∧
    s.currentAvailPage ≤ (getPhysicalPage s).2.currentAvailPage ∧
    ((getPhysicalPage s).1 ≠ 0 → (getPhysicalPage s).1 = s.currentAvailPage ∧
      s.currentAvailPage < 2 ^ 52 ∧
      s.currentAvailPage + 4096 ≤ (getPhysicalPage s).2.currentAvailPage) := by
  have hst : getPhysicalPages s 1 =
      some ((ZeldaOS.getPhysicalPage s).1, (ZeldaOS.getPhysicalPage s).2) := by
    rw [getPhysicalPages, if_pos (by omega)]
    rfl
  rcases getPhysicalPages_cases h.map h.bound h.aligned ⟨by omega, by omega⟩ hst with
    ⟨hr, hs⟩ | ⟨next, hr, hs, hnext, hbound, hal⟩
  · rw [hr, hs]
    exact ⟨h, Nat.le_refl _, fun hne => absurd rfl hne⟩
  · have hle : s.currentAvailPage + 4096 ≤ next := by omega
    rw [hr, hs]
    exact ⟨⟨⟨h.map.1, h.map.2, h.map.3, h.map.4⟩, hal, hbound⟩, Nat.le_of_add_right_le hle,
      fun _ => ⟨rfl, by omega, hle⟩⟩

/-- The frontier is kept by any number of allocations, and only moves up. -/
theorem FrontierOk.advance : ∀ {s : PhysicalMemory} (n : Nat), FrontierOk s →
    FrontierOk (advance s n) ∧ s.currentAvailPage ≤ (advance s n).currentAvailPage
  | _, 0, h => ⟨h, Nat.le_refl _⟩
  | _, n + 1, h => by
    obtain ⟨h₁, hle, -⟩ := h.getPhysicalPage
    obtain ⟨h₂, hle₂⟩ := h₁.advance n
    exact ⟨h₂, Nat.le_trans hle hle₂⟩

/-- The page of an allocation is the frontier it meets, and lies below the frontier it leaves. -/
theorem FrontierOk.nthPage {s : PhysicalMemory} (h : FrontierOk s) {n : Nat}
    (hne : nthPage s n ≠ 0) : nthPage s n = (ZeldaOS.advance s n).currentAvailPage ∧
      nthPage s n < 2 ^ 52 ∧ nthPage s n + 4096 ≤ (ZeldaOS.advance s (n + 1)).currentAvailPage := by
  obtain ⟨-, -, hr⟩ := (h.advance n).1.getPhysicalPage
  obtain ⟨h₁, h₂, h₃⟩ := hr hne
  rw [advance_add]
  exact ⟨h₁, by rw [ZeldaOS.nthPage]; exact h₁ ▸ h₂, by rw [ZeldaOS.nthPage]; exact h₁ ▸ h₃⟩

/-- A page handed out lies between the two frontiers. -/
theorem FrontierOk.handed {s s' : PhysicalMemory} (h : FrontierOk s) {r : Nat}
    (hr : Handed s s' r) (hne : r ≠ 0) :
    s.currentAvailPage ≤ r ∧ r + 4096 ≤ s'.currentAvailPage := by
  obtain ⟨m, n, rfl, hn, rfl⟩ := hr
  obtain ⟨h₁, -, h₃⟩ := h.nthPage hne
  have hle := (h.advance n).2
  have hle₂ := ((h.advance (n + 1)).1.advance (m - (n + 1))).2
  rw [← advance_add, Nat.add_sub_cancel' hn] at hle₂
  omega

/-- **The pages above the frontier are fresh** for whatever lies below it. -/
theorem fresh_of_frontier {s : PhysicalMemory} {used : Set Nat} (h : FrontierOk s)
    (hused : ∀ a ∈ used, a < s.currentAvailPage) : Fresh s used (2 ^ 52) := by
  have hlt : ∀ m n, m < n → nthPage s m ≠ 0 → nthPage s n ≠ 0 → nthPage s m < nthPage s n := by
    intro m n hmn hm hn
    obtain ⟨-, -, h₁⟩ := h.nthPage hm
    obtain ⟨h₂, -, -⟩ := h.nthPage hn
    have hle := ((h.advance (m + 1)).1.advance (n - (m + 1))).2
    rw [← advance_add, Nat.add_sub_cancel' hmn] at hle
    omega
  refine ⟨fun n hne => ?_, fun m n hm heq => ?_⟩
  · obtain ⟨h₁, h₂, -⟩ := h.nthPage hne
    refine ⟨h₁ ▸ (h.advance n).1.aligned, h₂, fun hmem => ?_⟩
    have := hused _ hmem
    have := (h.advance n).2
    omega
  · rcases Nat.lt_trichotomy m n with hmn | rfl | hmn
    · exact absurd heq (Nat.ne_of_lt (hlt m n hmn hm (heq ▸ hm)))
    · rfl
    · exact absurd heq.symm (Nat.ne_of_lt (hlt n m hmn (heq ▸ hm) hm))

/-! ## The pages of the memory map -/

/-- An allocation keeps the segments. -/
theorem pageValid_getPhysicalPage (s : PhysicalMemory) (addr : Nat) :
    (getPhysicalPage s).2.pageValid addr = s.pageValid addr := by
  rw [getPhysicalPage, allocPages]
  dsimp only
  split <;> rfl

/-- The page of a successful allocation lies in one of the segments. -/
theorem pageValid_of_ne_zero {s : PhysicalMemory} (hne : (getPhysicalPage s).1 ≠ 0) :
    s.pageValid (getPhysicalPage s).1 = true := by
  rw [getPhysicalPage, allocPages] at hne ⊢
  dsimp only at hne ⊢
  split
  · next h => exact absurd (by rw [if_pos h]) hne
  · next h =>
    simp only [Bool.or_eq_true, not_or, Bool.not_eq_true', Bool.not_eq_false] at h
    exact h.1

/-- A valid frontier is handed out. -/
theorem getPhysicalPage_fst {s : PhysicalMemory} (hv : s.pageValid s.currentAvailPage = true)
    (hlt : s.currentAvailPage < 2 ^ 52) : (getPhysicalPage s).1 = s.currentAvailPage := by
  have hlast : toUInt64 (int32 (4096 * int32 (1 - 1))) = 0 := by decide
  rw [getPhysicalPage, allocPages, hlast, Nat.add_zero, Nat.mod_eq_of_lt (by omega), hv]
  rfl

/-- A frontier moves on to the next page if that is valid too. -/
theorem getPhysicalPage_snd {s : PhysicalMemory} (hv : s.pageValid s.currentAvailPage = true)
    (hv' : s.pageValid (s.currentAvailPage + 4096) = true) (hlt : s.currentAvailPage < 2 ^ 52) :
    (getPhysicalPage s).2 = { s with currentAvailPage := s.currentAvailPage + 4096 } := by
  have hlast : toUInt64 (int32 (4096 * int32 (1 - 1))) = 0 := by decide
  have hnext : toUInt64 (int32 (4096 * 1)) = 4096 := by decide
  rw [getPhysicalPage, allocPages, hlast, hnext, Nat.add_zero, Nat.mod_eq_of_lt (by omega),
    Nat.mod_eq_of_lt (by omega), hv]
  dsimp only
  rw [hv']
  rfl

/-- **The pages of a segment** are handed out one after the other. -/
theorem nthPage_eq {s : PhysicalMemory} {n : Nat} (hlt : s.currentAvailPage + 4096 * n < 2 ^ 52)
    (hv : ∀ i ≤ n, s.pageValid (s.currentAvailPage + 4096 * i) = true) :
    nthPage s n = s.currentAvailPage + 4096 * n := by
  induction n generalizing s with
  | zero => exact getPhysicalPage_fst (hv 0 (Nat.le_refl _)) hlt
  | succ n ih =>
    have hnext := getPhysicalPage_snd (hv 0 (Nat.zero_le _)) (hv 1 (by omega)) (by omega)
    rw [nthPage_succ]
    change nthPage (getPhysicalPage s).2 n = _
    rw [hnext, ih (by dsimp only; omega) fun i hi => ?_]
    · dsimp only
      omega
    · have := hv (i + 1) (by omega)
      rwa [Nat.mul_succ, Nat.add_comm (4096 * i), ← Nat.add_assoc] at this

/-- A page that is handed out is valid. -/
theorem pageValid_nthPage {s : PhysicalMemory} {n : Nat} (hne : nthPage s n ≠ 0) :
    s.pageValid (nthPage s n) = true := by
  induction n generalizing s with
  | zero => exact pageValid_of_ne_zero hne
  | succ n ih =>
    rw [nthPage_succ] at hne ⊢
    exact (pageValid_getPhysicalPage s _).symm.trans (ih hne)

/-- Fresh pages lie below any bound of the segments. -/
theorem Fresh.of_pageValid {s : PhysicalMemory} {used : Set Nat} {limit limit' : Nat}
    (h : Fresh s used limit) (hv : ∀ addr, s.pageValid addr = true → addr < limit') :
    Fresh s used limit' :=
  ⟨fun n hne => ⟨(h.page n hne).1, hv _ (pageValid_nthPage hne), (h.page n hne).2.2⟩, h.inj⟩

end ZeldaOS
