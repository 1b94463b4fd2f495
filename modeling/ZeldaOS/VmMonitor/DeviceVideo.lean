import ZeldaOS.VmMonitor.GuestImage
import ZeldaOS.VmMonitor.HostStack
import ZeldaOS.VmMonitor.Mmio

/-!
# The video device

Model of `vm_monitor/device_video.c`. The guest's text screen is a page of the monitor, the video
buffer, which the guest reaches by MMIO at `VIDEO_BUFFER_PAGE_FRAME`. A write stores the word in the
buffer and copies the bytes it stored to the same place of the host's screen.

The buffer is the memory of zeros after the stores that the guest made (`VideoInv`): it is zero when
the VM starts, and the pages that the allocator hands out are above the screen
(`preInitializeVmcs_video`), so no copy to the screen changes it. Every call keeps this
(`VideoInv.step`), and what a call returns and changes follows (`video_coherent`).
-/

namespace ZeldaOS

/-- `VIDEO_BUFFER_PAGE_FRAME`. -/
def videoBufferPageFrame : Nat := 0x1000b8000

/-- `VIDEO_BUFFER_BASE`. -/
def videoBufferBase : Nat := 0xb8000

/-- `ACCESS_IN_BYTE`, `ACCESS_IN_WORD`, `ACCESS_IN_DWORD` and `ACCESS_IN_QWORD`. -/
def accessSizes : List Nat := [1, 2, 4, 8]

/-- The offset of an address in the page; the subtraction wraps at 2^64. -/
def videoOffset (addr : Nat) : Nat := (addr + 2 ^ 64 - videoBufferPageFrame) % 2 ^ 64

/-- `video_buffer_mmio_read`, for the buffer of the VM. The sum of the assertion wraps at 2^64. -/
def videoBufferMmioRead (videoBuffer addr accessSize : Nat) (m : Memory) : Option (Nat × Memory) :=
  let offset := videoOffset addr
  if (offset + accessSize) % 2 ^ 64 ≤ 4096 then
    if accessSize ∈ accessSizes then some (m.read ((videoBuffer + offset) % 2 ^ 64) accessSize, m)
    else none
  else none

/-- `incremental_refresh_video`. -/
def incrementalRefreshVideo (videoBuffer : Nat) (m : Memory) (offset : Int) (size : Nat) : Memory :=
  memcpy m (toUInt64 (offset + videoBufferBase)) (toUInt64 (offset + videoBuffer)) size

/-- `video_buffer_mmio_write`, for the buffer of the VM. The offset is handed on as an `int`. -/
def videoBufferMmioWrite (videoBuffer addr accessSize value : Nat) (m : Memory) : Option Memory :=
  let offset := videoOffset addr
  if (offset + accessSize) % 2 ^ 64 ≤ 4096 then
    if accessSize ∈ accessSizes then
      let m := m.write ((videoBuffer + offset) % 2 ^ 64) accessSize value
      some (incrementalRefreshVideo videoBuffer m (int32 offset) accessSize)
    else none
  else none

/-- The region that `device_video_init` registers. -/
def videoMmio (videoBuffer : Nat) : MmioRegion Memory :=
  { addrLow := videoBufferPageFrame
    addrHigh := videoBufferPageFrame + 4096
    callbacks := ⟨some (videoBufferMmioRead videoBuffer), some (videoBufferMmioWrite videoBuffer)⟩ }

/-- `device_video_init`. -/
def deviceVideoInit {A : Type} [PageAllocator A] (k : Kernel A) (eptPml4Base videoBuffer : Nat)
    (mmioOps : List (MmioRegion Memory)) : Option (Kernel A × List (MmioRegion Memory)) :=
  (setupIoMemory k eptPml4Base videoBufferPageFrame).bind fun k =>
    (registerMmioOperation mmioOps (videoMmio videoBuffer)).map fun mmioOps => (k, mmioOps)

/-- The device is the first to register a region: afterwards the lookup of an address finds it
exactly in the page. -/
theorem deviceVideoInit_mmioCallback {A : Type} [PageAllocator A] {k k' : Kernel A}
    {eptPml4Base videoBuffer : Nat} {mmioOps : List (MmioRegion Memory)}
    (h : deviceVideoInit k eptPml4Base videoBuffer [] = some (k', mmioOps)) {g : Nat}
    (hg : g < 2 ^ 64 - 1) :
    ∃ o, mmioCallback mmioOps g = some o ∧
      ∀ op, o = some op ↔ op = videoMmio videoBuffer ∧ (videoMmio videoBuffer).Contains g := by
  rw [deviceVideoInit] at h
  obtain ⟨k₁, -, h⟩ := Option.bind_eq_some_iff.1 h
  obtain ⟨ops, hreg, heq⟩ := Option.map_eq_some_iff.1 h
  cases heq
  have hok : ∀ op ∈ [videoMmio videoBuffer], op.Ok := by
    rintro op hop
    obtain rfl := List.mem_singleton.1 hop
    exact ⟨by simp [videoMmio], by simp [videoMmio, videoBufferPageFrame]⟩
  have hregs : [videoMmio videoBuffer].foldlM registerMmioOperation [] = some mmioOps := by
    rw [List.foldlM_cons, hreg]
    rfl
  obtain ⟨hxs, hperm⟩ := regionsOk_of_enclosesNone hok (List.pairwise_singleton ..) hregs
  obtain ⟨o, ho, hiff⟩ := hxs.mmioCallback hperm hg
  refine ⟨o, ho, fun op => (hiff op).trans ?_⟩
  rw [List.mem_singleton]
  exact and_congr_right fun hop => by rw [hop]

/-! ## Calls -/

/-- A call of the device. -/
inductive VideoAccess where
  | read (addr accessSize : Nat)
  | write (addr accessSize value : Nat)
deriving DecidableEq, Repr

/-- The address of a call. -/
def VideoAccess.addr : VideoAccess → Nat
  | .read addr _ => addr
  | .write addr _ _ => addr

/-- The access size of a call. -/
def VideoAccess.accessSize : VideoAccess → Nat
  | .read _ accessSize => accessSize
  | .write _ accessSize _ => accessSize

/-- A call of one of the four sizes inside the page. -/
def VideoAccess.InPage (e : VideoAccess) : Prop :=
  e.accessSize ∈ accessSizes ∧ videoBufferPageFrame ≤ e.addr ∧
    e.addr - videoBufferPageFrame + e.accessSize ≤ 4096

instance (e : VideoAccess) : Decidable e.InPage := inferInstanceAs (Decidable (_ ∧ _))

/-- A call, with the value it returns. -/
def videoStep (videoBuffer : Nat) (m : Memory) : VideoAccess → Option (Option Nat × Memory)
  | .read addr accessSize =>
    (videoBufferMmioRead videoBuffer addr accessSize m).map fun r => (some r.1, r.2)
  | .write addr accessSize value =>
    (videoBufferMmioWrite videoBuffer addr accessSize value m).map fun m => (none, m)

/-- What a call stores in the page. -/
def VideoAccess.store? : VideoAccess → Option Memory.Store
  | .read .. => none
  | .write addr accessSize value => some ⟨addr - videoBufferPageFrame, accessSize, value⟩

/-- What calls stored in the page, in order. -/
def videoStores (es : List VideoAccess) : List Memory.Store := es.filterMap VideoAccess.store?

section
variable {videoBuffer : Nat} {m m' : Memory} {e : VideoAccess}

/-- The buffer is above the screen, and ends in the address space. -/
structure AboveScreen (videoBuffer : Nat) : Prop where
  low : videoBufferBase + 4096 ≤ videoBuffer
  high : videoBuffer + 4096 ≤ 2 ^ 64

/-- The checks of a call in the page succeed, and its offset is the distance from the page's
start. -/
theorem VideoAccess.InPage.offset (h : e.InPage) :
    videoOffset e.addr = e.addr - videoBufferPageFrame ∧
      (videoOffset e.addr + e.accessSize) % 2 ^ 64 ≤ 4096 ∧
      e.addr - videoBufferPageFrame < 4096 := by
  obtain ⟨hsize, hlow, hhigh⟩ := h
  have hpos : 1 ≤ e.accessSize := (by decide : ∀ n ∈ accessSizes, 1 ≤ n) _ hsize
  have hoff : videoOffset e.addr = e.addr - videoBufferPageFrame := by
    rw [videoOffset, Nat.add_comm, Nat.add_sub_assoc hlow, Nat.add_mod_left,
      Nat.mod_eq_of_lt (by omega)]
  exact ⟨hoff, by omega, by omega⟩

/-- A read in the page. -/
theorem videoStep_read {addr n : Nat} (hp : AboveScreen videoBuffer)
    (h : (VideoAccess.read addr n).InPage) :
    videoStep videoBuffer m (.read addr n) =
      some (some (m.read (videoBuffer + (addr - videoBufferPageFrame)) n), m) := by
  obtain ⟨hoff, hle, hlt⟩ := h.offset
  have hsize : n ∈ accessSizes := h.1
  have hhigh := hp.high
  simp only [VideoAccess.addr, VideoAccess.accessSize] at hoff hle hlt
  rw [videoStep, videoBufferMmioRead, if_pos hle, if_pos hsize, hoff, Nat.mod_eq_of_lt (by omega),
    Option.map_some]

/-- The pointers of `incremental_refresh_video`. -/
theorem toUInt64_int32_add {offset a : Nat} (ho : offset < 4096) (ha : a + 4096 ≤ 2 ^ 64) :
    toUInt64 (int32 offset + a) = a + offset := by
  rw [int32_eq (by omega) (by omega), toUInt64_eq (by omega) (by omega)]
  omega

/-- A write in the page. -/
theorem videoStep_write {addr n value : Nat} (hp : AboveScreen videoBuffer)
    (h : (VideoAccess.write addr n value).InPage) :
    videoStep videoBuffer m (.write addr n value) =
      some (none, memcpy (m.write (videoBuffer + (addr - videoBufferPageFrame)) n value)
        (videoBufferBase + (addr - videoBufferPageFrame))
        (videoBuffer + (addr - videoBufferPageFrame)) n) := by
  obtain ⟨hoff, hle, hlt⟩ := h.offset
  have hsize : n ∈ accessSizes := h.1
  have hhigh := hp.high
  simp only [VideoAccess.addr, VideoAccess.accessSize] at hoff hle hlt
  rw [videoStep, videoBufferMmioWrite, if_pos hle, if_pos hsize, hoff]
  rw [Nat.mod_eq_of_lt (by omega), Option.map_some, incrementalRefreshVideo,
    toUInt64_int32_add hlt hp.high, toUInt64_int32_add hlt (by decide)]

/-- A call in the page returns. -/
theorem videoStep_total (hp : AboveScreen videoBuffer) (h : e.InPage) (m : Memory) :
    ∃ r, videoStep videoBuffer m e = some r := by
  cases e with
  | read addr n => exact ⟨_, videoStep_read hp h⟩
  | write addr n value => exact ⟨_, videoStep_write hp h⟩

/-! ## The buffer and the screen -/

/-- The state after the stores `h`: the buffer is the memory of zeros after them, and the screen
shows every byte that was stored. -/
structure VideoInv (videoBuffer : Nat) (h : List Memory.Store) (m : Memory) : Prop where
  page : ∀ o < 4096, m (videoBuffer + o) = Memory.stored h o
  inPage : ∀ o, (Memory.lastStored h o).isSome → o < 4096
  screen : ∀ o, (Memory.lastStored h o).isSome → m (videoBufferBase + o) = m (videoBuffer + o)

/-- What a store in the page, with its copy to the screen, changes. -/
structure Refreshed (videoBuffer : Nat) (s : Memory.Store) (m m' : Memory) : Prop where
  page : ∀ o < 4096, m' (videoBuffer + o) = m.write (videoBuffer + s.addr) s.size s.value
    (videoBuffer + o)
  screen : ∀ o, s.Reaches o → m' (videoBufferBase + o) = m' (videoBuffer + o)
  frame : ∀ a, (∀ o, s.Reaches o → a ≠ videoBuffer + o ∧ a ≠ videoBufferBase + o) → m' a = m a

/-- A write and its refresh. -/
theorem refreshed_memcpy {s : Memory.Store} (hp : AboveScreen videoBuffer)
    (hs : s.addr + s.size ≤ 4096) :
    Refreshed videoBuffer s m (memcpy (m.write (videoBuffer + s.addr) s.size s.value)
      (videoBufferBase + s.addr) (videoBuffer + s.addr) s.size) := by
  have hlow := hp.low
  refine ⟨fun o ho => ?_, fun o ho => ?_, fun a ha => ?_⟩
  · exact memcpy_apply_of_not_mem (by omega)
  · obtain ⟨h₁, h₂⟩ := ho
    obtain ⟨j, rfl⟩ := Nat.exists_eq_add_of_le h₁
    rw [← Nat.add_assoc, memcpy_apply (by omega) (by omega), memcpy_apply_of_not_mem (by omega),
      Nat.add_assoc]
  · have hscreen : a < videoBufferBase + s.addr ∨ videoBufferBase + s.addr + s.size ≤ a := by
      by_contra hin
      exact (ha (a - videoBufferBase) ⟨by omega, by omega⟩).2 (by omega)
    have hbuffer : a < videoBuffer + s.addr ∨ videoBuffer + s.addr + s.size ≤ a := by
      by_contra hin
      exact (ha (a - videoBuffer) ⟨by omega, by omega⟩).1 (by omega)
    rw [memcpy_apply_of_not_mem hscreen, Memory.write_apply_of_not_mem hbuffer]

/-- A store keeps the invariant. -/
theorem VideoInv.refreshed {h : List Memory.Store} {s : Memory.Store} (hp : AboveScreen videoBuffer)
    (hs : s.addr + s.size ≤ 4096) (hi : VideoInv videoBuffer h m)
    (hr : Refreshed videoBuffer s m m') : VideoInv videoBuffer (h ++ [s]) m' := by
  have hlow := hp.low
  have hcases : ∀ o, (Memory.lastStored (h ++ [s]) o).isSome →
      s.Reaches o ∨ ¬ s.Reaches o ∧ (Memory.lastStored h o).isSome := by
    intro o ho
    by_cases hin : s.Reaches o
    · exact .inl hin
    · rw [Memory.lastStored_snoc_of_not_reaches hin] at ho
      exact .inr ⟨hin, ho⟩
  refine ⟨fun o ho => ?_, fun o ho => ?_, fun o ho => ?_⟩
  · rw [hr.page o ho, Memory.stored_snoc]
    by_cases hin : s.Reaches o
    · obtain ⟨h₁, h₂⟩ := hin
      rw [Memory.write_apply_of_mem (by omega) (by omega), Memory.write_apply_of_mem h₁ h₂,
        Nat.add_sub_add_left]
    · rw [Memory.Store.Reaches] at hin
      rw [Memory.write_apply_of_not_mem (by omega), Memory.write_apply_of_not_mem (by omega),
        hi.page o ho]
  · rcases hcases o ho with ⟨h₁, h₂⟩ | ⟨-, hold⟩
    · omega
    · exact hi.inPage o hold
  · rcases hcases o ho with hin | ⟨hout, hold⟩
    · exact hr.screen o hin
    · -- neither the byte of the buffer nor the one of the screen is touched
      have ho := hi.inPage o hold
      rw [hr.frame _ fun o' ho' => ?_, hr.frame _ fun o' ho' => ?_, hi.screen o hold]
      all_goals
        have hne : o ≠ o' := fun heq => hout (heq ▸ ho')
        obtain ⟨h₁, h₂⟩ := ho'
        omega

/-- **What one call does**, after the calls `before`. A read returns the little-endian word of the
bytes last written. A call changes no byte but those it stores, in the buffer and on the screen.
Afterwards the screen shows every byte ever written. -/
structure CoherentCall (videoBuffer : Nat) (before : List VideoAccess)
    (x : VideoAccess × Observation Memory (Option Nat)) : Prop where
  read : ∀ addr n, x.1 = .read addr n → x.2.output =
    some ((Memory.stored (videoStores before)).read (addr - videoBufferPageFrame) n)
  frame : ∀ a, (∀ s, x.1.store? = some s → ∀ o, s.Reaches o →
    a ≠ videoBuffer + o ∧ a ≠ videoBufferBase + o) → x.2.after a = x.2.before a
  screen : ∀ o, (Memory.lastStored (videoStores (before ++ [x.1])) o).isSome →
    x.2.after (videoBufferBase + o) = x.2.after (videoBuffer + o)

/-- **One call.** -/
theorem VideoInv.step {es : List VideoAccess} {out : Option Nat} (hp : AboveScreen videoBuffer)
    (hi : VideoInv videoBuffer (videoStores es) m) (he : e.InPage)
    (hst : videoStep videoBuffer m e = some (out, m')) :
    VideoInv videoBuffer (videoStores (es ++ [e])) m' ∧
      CoherentCall videoBuffer es (e, ⟨m, out, m'⟩) := by
  cases e with
  | read addr n =>
    have hstores : videoStores (es ++ [.read addr n]) = videoStores es := by
      simp [videoStores, VideoAccess.store?]
    rw [videoStep_read hp he] at hst
    cases hst
    refine ⟨hstores ▸ hi, ?_, fun _ _ => rfl, fun o ho => hi.screen o (hstores ▸ ho)⟩
    rintro addr' n' heq
    cases heq
    have hn : addr - videoBufferPageFrame + n ≤ 4096 := he.2.2
    exact congrArg some (Memory.read_congr_add fun o _ ho => hi.page o (by omega))
  | write addr n value =>
    have hstores : videoStores (es ++ [.write addr n value]) =
        videoStores es ++ [⟨addr - videoBufferPageFrame, n, value⟩] := by
      simp [videoStores, VideoAccess.store?]
    have hs : addr - videoBufferPageFrame + n ≤ 4096 := he.2.2
    rw [videoStep_write hp he] at hst
    cases hst
    have hr := refreshed_memcpy (m := m) (s := ⟨addr - videoBufferPageFrame, n, value⟩) hp hs
    have hi' := hi.refreshed (s := ⟨addr - videoBufferPageFrame, n, value⟩) hp hs hr
    rw [← hstores] at hi'
    exact ⟨hi', nofun, fun a ha => hr.frame a fun o ho => ha _ rfl o ho, hi'.screen⟩

/-- **Every call of a run.** -/
theorem Run.coherentCall {t : List (VideoAccess × Observation Memory (Option Nat))}
    (hp : AboveScreen videoBuffer) (hm : ∀ o < 4096, m (videoBuffer + o) = 0)
    (h : Run (observed (videoStep videoBuffer)) (fun _ e => e.InPage) m t m') :
    ∀ t₁ x t₂, t = t₁ ++ x :: t₂ → CoherentCall videoBuffer (t₁.map Prod.fst) x := by
  have hinv : VideoInv videoBuffer (videoStores (t.map Prod.fst)) m' ∧
      ∀ t₁ x t₂, t = t₁ ++ x :: t₂ → CoherentCall videoBuffer (t₁.map Prod.fst) x := by
    refine h.inv (fun t m' => VideoInv videoBuffer (videoStores (t.map Prod.fst)) m' ∧
      ∀ t₁ x t₂, t = t₁ ++ x :: t₂ → CoherentCall videoBuffer (t₁.map Prod.fst) x) ?_ ?_
    · exact ⟨⟨hm, nofun, nofun⟩, by simp⟩
    · rintro t m₁ e o m₂ ⟨hi, hcalls⟩ he hst
      obtain ⟨rfl, rfl, hst⟩ := observed_eq_some.1 hst
      obtain ⟨hi', hcall⟩ := hi.step hp he hst
      refine ⟨by rwa [List.map_append], fun t₁ x t₂ ht => ?_⟩
      rcases snoc_eq_append_cons ht with ⟨rfl, rfl, -⟩ | ⟨t₃, -, rfl⟩
      · exact hcall
      · exact hcalls t₁ x t₃ rfl
  exact hinv.2

end

/-! ## The buffer when the VM starts -/

section
variable {k k' : Kernel PhysicalMemory} {vm : VmcsBlob}

/-- The buffer is a page that the allocator handed out. -/
theorem preInitializeVmcs_video (hf : FrontierOk k.alloc)
    (hlow : videoBufferBase + 4096 ≤ k.alloc.currentAvailPage)
    (h : preInitializeVmcs k = some (vm, k')) :
    AboveScreen vm.videoBuffer ∧ ∀ o < 4096, k'.mem (vm.videoBuffer + o) = 0 := by
  have hmem : vm.videoBuffer ∈ vm.regions := by simp [VmcsBlob.regions, VmcsBlob.requests]
  obtain ⟨hne, hzero⟩ := preInitializeVmcs_regions h _ hmem
  obtain ⟨⟨s, hrun, -⟩, -⟩ := preInitializeVmcs_inv h
  have hinv := hf.allocInv hrun
  have hblock : ((1, vm.videoBuffer) : Int × Nat) ∈ vm.requests := by simp [VmcsBlob.requests]
  obtain ⟨-, hfrontier, hend⟩ := hinv.blocks _ hblock hne
  have hbound := hinv.bound
  dsimp only at hfrontier hend
  exact ⟨⟨hlow.trans hfrontier, by omega⟩, fun o ho => hzero _ (by omega) (by omega)⟩

/-- **Video MMIO is a byte memory shown on the screen.** Take the buffer as `pre_initialize_vmcs`
left it, and any calls of the four sizes inside the page, overlapping or not. None fails, and each
of them reads the bytes last written, changes only the bytes it writes and leaves the screen showing
every byte ever written. -/
theorem video_coherent {imageEnd : Nat} {segs : List PhysicalMemorySegment}
    {t : List (Int × Nat)} {m : Memory} (himg : imageEnd % 4096 = 0) (hlt : imageEnd < 2 ^ 32)
    (hmap : (initialMemory imageEnd segs).MapOk)
    (hrun : Run getPhysicalPages (fun _ n => RequestOk n) (initialMemory imageEnd segs) t k.alloc)
    (hpre : preInitializeVmcs k = some (vm, k')) (hm : Memory.AgreeOn m k'.mem vm.videoBuffer 4096)
    (es : List VideoAccess) (hes : ∀ e ∈ es, e.InPage) :
    ∃ t m', exec (observed (videoStep vm.videoBuffer)) m es = some (t, m') ∧
      ∀ t₁ x t₂, t = t₁ ++ x :: t₂ → CoherentCall vm.videoBuffer (t₁.map Prod.fst) x := by
  have hinv := allocInv_of_run himg hlt hmap hrun
  have hlow : videoBufferBase + 4096 ≤ imageEnd + bitmapLength + 4096 := by
    rw [videoBufferBase, bitmapLength]
    omega
  obtain ⟨hp, hclear⟩ := preInitializeVmcs_video hinv.frontierOk (hlow.trans hinv.low) hpre
  have hzero : ∀ o < 4096, m (vm.videoBuffer + o) = 0 := fun o ho => by
    rw [hm _ (by omega) (by omega), hclear o ho]
  have htotal : ∀ e ∈ es, ∀ m, ∃ r, observed (videoStep vm.videoBuffer) m e = some r := by
    intro e he m
    obtain ⟨r, hr⟩ := videoStep_total hp (hes e he) m
    exact ⟨_, by rw [observed, hr, Option.map_some]⟩
  obtain ⟨t, m', hex⟩ := exec_of_events htotal m
  have hcalls : Run (observed (videoStep vm.videoBuffer)) (fun _ e => e.InPage) m t m' :=
    Run.nil.exec (fun e he _ => hes e he) hex
  exact ⟨t, m', hex, hcalls.coherentCall hp hzero⟩

end

/-- Two overlapping writes and a read across them. -/
def overlappingAccesses : List VideoAccess :=
  [.write 0x1000b8000 4 0x44332211, .write 0x1000b8003 2 0x6655, .read 0x1000b8002 8]

theorem video_coherent_sample : ∃ vm k', preInitializeVmcs identityKernel = some (vm, k') ∧
    ∃ t m', exec (observed (videoStep vm.videoBuffer)) k'.mem overlappingAccesses = some (t, m') ∧
      (t.getLast?.bind fun x => x.2.output) = some 0x665533 := by
  obtain ⟨vm, k', hk⟩ := preInitializeVmcs_identityKernel
  obtain ⟨_, hrun⟩ := run_identityKernel
  obtain ⟨t, m', hexec, hcalls⟩ := video_coherent (by decide) (by decide) mapOk_sample hrun hk
    (fun _ _ _ => rfl) overlappingAccesses (by decide)
  refine ⟨vm, k', hk, t, m', hexec, ?_⟩
  obtain ⟨x, t₁, rfl, hx, hev⟩ := List.map_eq_cons_iff.1 (exec_events hexec)
  obtain ⟨y, t₂, rfl, hy, hev⟩ := List.map_eq_cons_iff.1 hev
  obtain ⟨z, t₃, rfl, hz, hev⟩ := List.map_eq_cons_iff.1 hev
  obtain rfl := List.map_eq_nil_iff.1 hev
  have hread := (hcalls [x, y] z [] rfl).read _ _ hz
  rw [List.map_cons, List.map_cons, hx, hy] at hread
  exact hread.trans (by decide)

end ZeldaOS
