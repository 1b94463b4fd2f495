import ZeldaOS.VmMonitor.EptMisconfig
import ZeldaOS.VmMonitor.GuestLayout

/-!
# The bytes of a faulting instruction

`ept_misconfig_exit_sub_handler` translates the guest's RIP once and lets the decoder read on from
there in the memory of the host. The bytes it reads are those of the guest as long as the
instruction lies in one page, or goes on in a page whose host page follows that of the page before
(`decodedBytes_iff`). Where a table of the guest was allocated in between, the decoder reads on in
that table (`decodedBytes_in_table`).
-/

namespace ZeldaOS

section
variable {A : Type} {k : Kernel A} {base lo hi rip len : Nat}

/-- The first `len` bytes that the decoder reads for the guest's RIP are those of the guest. -/
def ReadsGuestBytes (m : Memory) (base rip len : Nat) : Prop :=
  ∀ j < len, m (guestpaToHostpa m base rip + j) = m (guestpaToHostpa m base (rip + j))

/-- A byte of the guest's memory may be changed. -/
theorem GuestMapped.update {a : Nat} (h : GuestMapped base lo hi k) (ha : GuestRam lo hi a)
    (v : UInt8) : GuestContent k base lo hi (k.mem.fill (guestpaToHostpa k.mem base a) 1 v) := by
  intro x hx
  have := hx _ ha
  have := h.offset a ha
  exact Memory.fill_apply_of_not_mem (by omega)

/-- Every content is read right exactly if the addresses are consecutive in the host. -/
theorem GuestMapped.readsGuestBytes_iff (h : GuestMapped base lo hi k)
    (hram : ∀ j < len, GuestRam lo hi (rip + j)) :
    (∀ m, GuestContent k base lo hi m → ReadsGuestBytes m base rip len) ↔
      ∀ j < len, guestpaToHostpa k.mem base (rip + j) = guestpaToHostpa k.mem base rip + j := by
  constructor
  · intro hall j hj
    by_contra hne
    -- the content that has another byte at `rip + j`
    let v := k.mem (guestpaToHostpa k.mem base rip + j) + 1
    have hm := h.update (hram j hj) v
    have hread := hall _ hm j hj
    rw [h.content _ hm, h.content _ hm,
      Memory.fill_apply_of_not_mem (by omega), Memory.fill_apply_of_mem (by omega)
        (by omega)] at hread
    exact absurd hread.symm (by simp [v])
  · intro hcons m hm j hj
    rw [h.content _ hm, h.content _ hm, hcons j hj]

/-- The addresses are consecutive in the host exactly if the pages are. -/
theorem GuestMapped.consecutive_iff (h : GuestMapped base lo hi k)
    (hram : ∀ j < len, GuestRam lo hi (rip + j)) :
    (∀ j < len, guestpaToHostpa k.mem base (rip + j) = guestpaToHostpa k.mem base rip + j) ↔
      ∀ g, g % 4096 = 0 → rip < g → g < rip + len →
        guestpaToHostpa k.mem base g = guestpaToHostpa k.mem base (g - 4096) + 4096 := by
  have hoff : ∀ j < len, guestpaToHostpa k.mem base (rip + j) =
      guestpaToHostpa k.mem base ((rip + j) / 4096 * 4096) + (rip + j) % 4096 :=
    fun j hj => h.offset _ (hram j hj)
  constructor
  · intro hcons g hg hlow hhigh
    -- the last byte of the page before `g`
    have hlast := hoff (g - 1 - rip) (by omega)
    rw [hcons (g - 1 - rip) (by omega), show (rip + (g - 1 - rip)) / 4096 * 4096 =
      g - 4096 by omega, show (rip + (g - 1 - rip)) % 4096 = 4095 by omega] at hlast
    have hfirst := hcons (g - rip) (by omega)
    rw [show rip + (g - rip) = g by omega] at hfirst
    omega
  · intro hpages j hj
    induction j with
    | zero => rfl
    | succ j ih =>
      have ih := ih (by omega)
      have hj₀ := hoff j (by omega)
      by_cases hg : (rip + (j + 1)) % 4096 = 0
      · have hnext := hpages (rip + (j + 1)) hg (by omega) (by omega)
        rw [show (rip + j) / 4096 * 4096 = rip + (j + 1) - 4096 by omega] at hj₀
        omega
      · have hj₁ := hoff (j + 1) hj
        rw [show (rip + (j + 1)) / 4096 = (rip + j) / 4096 by omega] at hj₁
        omega

end

/-- **The decoder reads the bytes of the guest** for every content of the guest's memory exactly if
at every page boundary within the bytes, the host page goes on with that of the next guest page: the
page before the boundary is neither the first of the guest's memory nor the first of a 2 MiB region,
and the host page after its own lies in the memory map. The handler then decodes the guest's
bytes. -/
theorem decodedBytes_iff {imageEnd : Nat} {segs : List PhysicalMemorySegment} {t : List (Int × Nat)}
    {k k' : Kernel PhysicalMemory} {base lo hi : Nat} (himg : imageEnd % 4096 = 0)
    (hlt : imageEnd < 2 ^ 32) (hmap : (initialMemory imageEnd segs).MapOk)
    (hrun : Run getPhysicalPages (fun _ n => RequestOk n) (initialMemory imageEnd segs) t k.alloc)
    (hlo : lo % 4096 = 0) (hhi : hi < 2 ^ 48 - 4096)
    (hr : setupBasicPhysicalMemory k lo hi = some (base, k'))
    (hlim : ∀ r, Handed k.alloc k'.alloc r → r < 2 ^ 40) (rip : Nat) :
    (∀ len, (∀ j < len, GuestRam lo hi (rip + j)) →
      ((∀ m, GuestContent k' base lo hi m → ReadsGuestBytes m base rip len) ↔
        ∀ g, g % 4096 = 0 → rip < g → g < rip + len →
          Followed k.alloc lo (g - 4096) (guestpaToHostpa k'.mem base (g - 4096)))) ∧
    ∀ (host : Host) (s : List UInt8) (c : InstructionContext),
      GuestContent k' base lo hi host.mem → host.eptPml4Base = base →
      (∀ g, GuestPage lo hi g → guestpaToHostpa k'.mem base g + 4096 ≤ host.memEnd) →
      instructionStream host rip = some s → decodeX8664Instruction s = some c →
      (∀ j < c.instructionLength, GuestRam lo hi (rip + j)) →
      (∀ g, g % 4096 = 0 → rip < g → g < rip + c.instructionLength →
        Followed k.alloc lo (g - 4096) (guestpaToHostpa k'.mem base (g - 4096))) →
      ∀ j < c.instructionLength,
        s[j]? = some (host.mem (guestpaToHostpa host.mem base (rip + j))) := by
  have hinv := allocInv_of_run himg hlt hmap hrun
  have hf := hinv.frontierOk
  have hfresh : Fresh k.alloc ∅ (2 ^ 52) := fresh_of_frontier hf (by simp)
  obtain ⟨cur, tbl, used, hcur, hg⟩ := setupBasicPhysicalMemory_guestPages hfresh hlo hhi hr hlim
  have h := hg.guestMapped hfresh hcur
  have hpages : ∀ len, (∀ j < len, GuestRam lo hi (rip + j)) →
      ((∀ j < len, guestpaToHostpa k'.mem base (rip + j) = guestpaToHostpa k'.mem base rip + j) ↔
        ∀ g, g % 4096 = 0 → rip < g → g < rip + len →
          Followed k.alloc lo (g - 4096) (guestpaToHostpa k'.mem base (g - 4096))) := by
    intro len hram
    rw [h.consecutive_iff hram]
    refine forall₄_congr fun g hg hlow hhigh => ?_
    have hram₁ := hram (g - rip) (by omega)
    have hram₀ := hram (g - 1 - rip) (by omega)
    rw [GuestRam, show (rip + (g - rip)) / 4096 * 4096 = g - 4096 + 4096 by omega] at hram₁
    rw [GuestRam, show (rip + (g - 1 - rip)) / 4096 * 4096 = g - 4096 by omega] at hram₀
    have hnext := setupBasicPhysicalMemory_followed hf hlo hhi hr hlim hram₀ hram₁
    rwa [show g - 4096 + 4096 = g by omega] at hnext
  refine ⟨fun len hram => (h.readsGuestBytes_iff hram).trans (hpages len hram), ?_⟩
  rintro host s c hm rfl hend hs - hram hfollow j hj
  have hcons := (hpages _ hram).2 hfollow j hj
  rw [instructionStream] at hs
  split at hs
  · cases hs
    have hoff := h.offset _ (hram j hj)
    have hlast := hend _ (hram j hj)
    rw [h.content _ hm, h.content _ hm, hcons,
      Memory.getElem?_bytes (by omega)]
  · cases hs

/-- The second and the third page of a guest are adjacent. -/
theorem decodedBytes_iff_sample :
    ∃ k', setupBasicPhysicalMemory identityKernel 0 0x2000 = some (0x405000, k') ∧
      ∀ m, GuestContent k' 0x405000 0 0x2000 m → ReadsGuestBytes m 0x405000 0x1fff 2 := by
  obtain ⟨t, hrun⟩ := run_identityKernel
  have hset : (setupBasicPhysicalMemory identityKernel 0 0x2000).map
      (fun r => (r.1, guestpaToHostpa r.2.mem r.1 0x1000)) = some (0x405000, 0x40a000) := by
    decide +kernel
  obtain ⟨⟨base, k'⟩, hk, heq⟩ := Option.map_eq_some_iff.1 hset
  rw [Prod.mk.injEq] at heq
  obtain ⟨rfl, hhost⟩ := heq
  have hfresh : Fresh identityKernel.alloc ∅ (2 ^ 40) := fresh_identityKernel (by simp)
  have hram : ∀ j < 2, GuestRam 0 0x2000 (0x1fff + j) := by
    intro j hj
    exact ⟨by omega, by omega, by omega⟩
  refine ⟨k', hk,
    ((decodedBytes_iff (by decide) (by decide) mapOk_sample hrun (by decide) (by decide)
    hk (fun _ hr => hfresh.handed_lt (by decide) hr) 0x1fff).1 2 hram).2 fun g hg hlow hhigh => ?_⟩
  obtain rfl : g = 0x2000 := by omega
  rw [hhost]
  exact ⟨by decide, by decide, by decide⟩

/-- The host when the guest has the instruction `8b 03` at the end of the page at 0x406000, with its
second byte in the page at 0x40a000. -/
def straddlingHost (m : Memory) : Host :=
  ⟨(m.fill 0x406fff 1 0x8b).fill 0x40a000 1 0x03, 0x40b000, 0x401000, 0x405000⟩

/-- **The decoder reads on in a table.** The guest's memory is the two pages 0 and 0x1000, at
0x406000 and 0x40a000 in the host; its tables are in between. Its instruction `8b 03` at 0xfff has
the opcode in the first page and the ModRM byte in the second. The decoder finds the opcode and
takes the first byte of the table at 0x407000 for the ModRM byte, so that it accesses memory through
another register. -/
theorem decodedBytes_in_table :
    ∃ k' s c, setupBasicPhysicalMemory identityKernel 0 0x1000 = some (0x405000, k') ∧
      GuestContent k' 0x405000 0 0x1000 (straddlingHost k'.mem).mem ∧
      instructionStream (straddlingHost k'.mem) 0xfff = some s ∧
      decodeX8664Instruction s = some c ∧ c.instructionLength = 2 ∧ c.rmIndex = 7 ∧
      (∀ j < 2, GuestRam 0 0x1000 (0xfff + j)) ∧ s[1]? = some 0x07 ∧
      (straddlingHost k'.mem).mem (guestpaToHostpa (straddlingHost k'.mem).mem 0x405000 0x1000) =
        0x03 := by
  have hset : (setupBasicPhysicalMemory identityKernel 0 0x1000).map (fun r =>
      (r.1, guestpaToHostpa r.2.mem r.1 0, guestpaToHostpa r.2.mem r.1 0x1000,
        (straddlingHost r.2.mem).mem
          (guestpaToHostpa (straddlingHost r.2.mem).mem 0x405000 0x1000))) =
      some (0x405000, 0x406000, 0x40a000, 0x03) := by
    decide +kernel
  have hdecode : (setupBasicPhysicalMemory identityKernel 0 0x1000).bind (fun r =>
      (instructionStream (straddlingHost r.2.mem) 0xfff).bind fun s =>
        (decodeX8664Instruction s).map fun c => (s[1]?, c.instructionLength, c.rmIndex)) =
      some (some 0x07, 2, 7) := by
    decide +kernel
  obtain ⟨⟨base, k'⟩, hk, heq⟩ := Option.map_eq_some_iff.1 hset
  simp only [Prod.mk.injEq] at heq
  obtain ⟨rfl, h₀, h₁, hbyte⟩ := heq
  rw [hk, Option.bind_some] at hdecode
  obtain ⟨s, hs, hdecode⟩ := Option.bind_eq_some_iff.1 hdecode
  obtain ⟨c, hc, heq⟩ := Option.map_eq_some_iff.1 hdecode
  simp only [Prod.mk.injEq] at heq
  refine ⟨k', s, c, hk, fun x hx => ?_, hs, hc, heq.2.1, heq.2.2, fun j hj => ?_, heq.1, hbyte⟩
  · have hx₀ := hx 0 ⟨by decide, by decide, by decide⟩
    have hx₁ := hx 0x1000 ⟨by decide, by decide, by decide⟩
    exact (Memory.fill_apply_of_not_mem (by omega)).trans (Memory.fill_apply_of_not_mem (by omega))
  · exact ⟨by omega, by omega, by omega⟩

end ZeldaOS
