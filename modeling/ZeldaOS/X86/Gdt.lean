import Mathlib.Data.Nat.ModEq
import ZeldaOS.Lib.Bits
import ZeldaOS.Lib.Memory

/-!
# Task state segments

Model of the global descriptor table of `x86_64/gdt.c` with the descriptors of the task state
segments, and of `load_pl0_task` of `x86_64/tss.c`. The number of processors `MAX_NR_CPUS` is a
parameter.

A descriptor of a segment takes one slot of 8 bytes and a descriptor of a task state segment takes
two, so the descriptor of a processor is at slot `5 + 2 * cpu` of the table
(`systemDescriptor_tss`). But `load_pl0_task` loads the selector of slot `5 + cpu`. For an odd
processor this is the upper half of a descriptor, which is not present, and for an even one it is
the descriptor of another processor, so only processor 0 gets its own (`taskSelector_agrees_iff`).
-/

namespace ZeldaOS

/-! ## The table -/

/-- The descriptor of a segment: the initializer of a `struct gdt_entry`, for its type, its
privilege level and `long_mode`. -/
def segmentDescriptor (segmentType dpl longMode : Nat) : Nat :=
  let segmentLimit := 2 ^ 32 - 1
  let segmentBase := 0
  let w := setBitField 0 0 16 segmentLimit
  let w := setBitField w 16 16 segmentBase
  let w := setBitField w 32 8 segmentBase
  let w := setBitField w 40 4 segmentType
  let w := setBitField w 44 1 1
  let w := setBitField w 45 2 dpl
  let w := setBitField w 47 1 1
  let w := setBitField w 48 4 segmentLimit
  let w := setBitField w 52 1 0
  let w := setBitField w 53 1 longMode
  let w := setBitField w 54 1 0
  let w := setBitField w 55 1 1
  setBitField w 56 8 segmentBase

/-- The five segments of `gdt_entries`. -/
def gdtEntries : List Nat :=
  [ 0,
    segmentDescriptor 0xa 0 1,
    segmentDescriptor 0x2 0 0,
    segmentDescriptor 0xa 3 1,
    segmentDescriptor 0x2 3 1 ]

/-- The bit-fields of a `struct gdt_tss_entry` in its lower 8 bytes, assigned one after the
other. -/
def tssEntryWord (w tssLimit tssAddr : Nat) : Nat :=
  let w := setBitField w 0 16 tssLimit
  let w := setBitField w 16 16 tssAddr
  let w := setBitField w 32 8 (tssAddr >>> 16)
  let w := setBitField w 40 4 0x9
  let w := setBitField w 44 1 0
  let w := setBitField w 45 2 0
  let w := setBitField w 47 1 1
  let w := setBitField w 48 4 (tssLimit >>> 16)
  let w := setBitField w 52 1 0
  let w := setBitField w 55 1 0
  setBitField w 56 8 (tssAddr >>> 24)

/-- The body of the loop of `initialize_tss_entries`. -/
def setTssEntry (m : Memory) (entry tssLimit tssAddr : Nat) : Memory :=
  let m := m.fill entry 16 0
  let m := m.write entry 8 (tssEntryWord (m.read entry 8) tssLimit tssAddr)
  m.write (entry + 8) 4 (tssAddr >>> 32)

/-- `sizeof(struct task_state_segment64)`. -/
def sizeofTss : Nat := 104

/-- The address of `tss_base[idx]`. -/
def tssAddr (tssBase idx : Nat) : Nat := (tssBase + sizeofTss * idx) % 2 ^ 64

/-- The address of the descriptor that `initialize_tss_entries` fills for a processor. -/
def tssEntryAddr (gdt idx : Nat) : Nat := idx * 16 + 5 * 8 + gdt

/-- `initialize_tss_entries`, up to `idx`. -/
def initializeTssEntries (gdt tssBase : Nat) (m : Memory) : Nat → Memory
  | 0 => m
  | idx + 1 =>
    setTssEntry (initializeTssEntries gdt tssBase m idx) (tssEntryAddr gdt idx) (sizeofTss - 1)
      (tssAddr tssBase idx)

/-- `load_pl0_task`: the selector that `ltr %ax` takes, none if the assertion on `cpu` fails. -/
def loadPl0Task (maxNrCpus : Nat) (cpu : Int) : Option Nat :=
  if 0 ≤ cpu ∧ cpu < maxNrCpus then
    let selectorIndex := 5 + cpu
    let selector := selectorIndex * 2 ^ 3
    some (selector % 2 ^ 16).toNat
  else none

/-! ## The descriptors as the processor reads them -/

/-- A system descriptor of 16 bytes. -/
structure SystemDescriptor where
  present : Nat
  segmentType : Nat
  segmetClass : Nat
  base : Nat
  limit : Nat
deriving DecidableEq, Repr

/-- The system descriptor at an address. -/
def systemDescriptor (m : Memory) (a : Nat) : SystemDescriptor :=
  let w := m.read a 8
  { present := bitField w 47 1
    segmentType := bitField w 40 4
    segmetClass := bitField w 44 1
    base := bitField w 16 16 + bitField w 32 8 * 2 ^ 16 + bitField w 56 8 * 2 ^ 24 +
      m.read (a + 8) 4 * 2 ^ 32
    limit := bitField w 0 16 + bitField w 48 4 * 2 ^ 16 }

/-- The descriptor that a selector of the table at `gdt` selects; bits 0 to 2 are the privilege
level and the choice of the table. -/
def selectedDescriptor (m : Memory) (gdt selector : Nat) : SystemDescriptor :=
  systemDescriptor m (gdt + selector / 8 * 8)

/-- The descriptor that the task state segment of a processor should have. -/
def tssDescriptor (tssBase cpu : Nat) : SystemDescriptor :=
  { present := 1
    segmentType := 9
    segmetClass := 0
    base := tssAddr tssBase cpu
    limit := sizeofTss - 1 }

section
variable {m : Memory} {gdt tssBase entry limit addr idx n x : Nat}

/-- The address of a TSS is a quadword. -/
theorem tssAddr_lt (tssBase idx : Nat) : tssAddr tssBase idx < 2 ^ 64 :=
  Nat.mod_lt _ (Nat.two_pow_pos 64)

/-! ## One entry -/

/-- Only the entry is written. -/
theorem setTssEntry_of_not_mem (h : x < entry ∨ entry + 16 ≤ x) :
    setTssEntry m entry limit addr x = m x := by
  rw [setTssEntry, Memory.write_apply_of_not_mem (by omega),
    Memory.write_apply_of_not_mem (by omega), Memory.fill_apply_of_not_mem (by omega)]

/-- Its first quadword, -/
theorem setTssEntry_read_low : (setTssEntry m entry limit addr).read entry 8 =
    tssEntryWord ((m.fill entry 16 0).read entry 8) limit addr % 2 ^ 64 := by
  have hbytes : 256 ^ 8 = 2 ^ 64 := by decide
  rw [setTssEntry, Memory.read_congr (Memory.write_agreeOn (by omega)),
    Memory.read_write_self, hbytes]

/-- the upper part of its base, -/
theorem setTssEntry_read_base : (setTssEntry m entry limit addr).read (entry + 8) 4 =
    addr / 2 ^ 32 % 2 ^ 32 := by
  have hbytes : 256 ^ 4 = 2 ^ 32 := by decide
  rw [setTssEntry, Memory.read_write_self, Nat.shiftRight_eq_div_pow, hbytes]

/-- and its second quadword. -/
theorem setTssEntry_read_high : (setTssEntry m entry limit addr).read (entry + 8) 8 =
    addr / 2 ^ 32 % 2 ^ 32 := by
  have hzero : ∀ x, entry + 8 + 4 ≤ x → x < entry + 8 + 4 + 4 →
      setTssEntry m entry limit addr x = 0 := by
    intro x h₁ h₂
    rw [setTssEntry, Memory.write_apply_of_not_mem (by omega),
      Memory.write_apply_of_not_mem (by omega), Memory.fill_apply_of_mem (by omega) (by omega)]
  rw [Memory.read_add (n := 4) (k := 4), Memory.read_eq_zero hzero, Nat.mul_zero, Nat.add_zero,
    setTssEntry_read_base]

/-- **One entry** is read back as it was meant. -/
theorem systemDescriptor_setTssEntry (haddr : addr < 2 ^ 64) (hlimit : limit < 2 ^ 20) :
    systemDescriptor (setTssEntry m entry limit addr) entry = ⟨1, 9, 0, addr, limit⟩ := by
  simp (disch := decide) only
    [systemDescriptor, setTssEntry_read_low, setTssEntry_read_base, tssEntryWord,
    bitField_mod_two_pow, bitField_setBitField, bitField_setBitField_of_disjoint,
    Nat.shiftRight_eq_div_pow, SystemDescriptor.mk.injEq]
  refine ⟨by decide, by decide, by decide, ?_, ?_⟩
  · omega
  · omega

/-! ## All entries -/

/-- Only the entries of the processors are written. -/
theorem initializeTssEntries_of_not_mem (h : x < gdt + 40 ∨ tssEntryAddr gdt n ≤ x) :
    initializeTssEntries gdt tssBase m n x = m x := by
  induction n with
  | zero => rfl
  | succ n ih =>
    rw [tssEntryAddr] at h
    rw [initializeTssEntries, setTssEntry_of_not_mem (by rw [tssEntryAddr]; omega),
      ih (by rw [tssEntryAddr]; omega)]

/-- A later entry leaves an earlier one as it is. -/
theorem initializeTssEntries_agreeOn (gdt tssBase : Nat) (m : Memory) (h : idx < n) :
    (initializeTssEntries gdt tssBase m n).AgreeOn
      (setTssEntry (initializeTssEntries gdt tssBase m idx) (tssEntryAddr gdt idx) (sizeofTss - 1)
        (tssAddr tssBase idx)) (tssEntryAddr gdt idx) 16 := by
  induction n with
  | zero => omega
  | succ n ih =>
    intro x h₁ h₂
    rcases Nat.lt_or_eq_of_le (Nat.le_of_lt_succ h) with hlt | rfl
    · rw [initializeTssEntries, setTssEntry_of_not_mem, ih hlt x h₁ h₂]
      rw [tssEntryAddr] at h₁ h₂ ⊢
      omega
    · rfl

/-- A descriptor depends on its own 16 bytes only. -/
theorem systemDescriptor_congr {m' : Memory} {a : Nat} (h : m.AgreeOn m' a 16) :
    systemDescriptor m a = systemDescriptor m' a := by
  have hlow : m.read a 8 = m'.read a 8 := Memory.read_congr (h.mono (by omega) (by omega))
  have hhigh : m.read (a + 8) 4 = m'.read (a + 8) 4 :=
    Memory.read_congr (h.mono (by omega) (by omega))
  rw [systemDescriptor, systemDescriptor, hlow, hhigh]

/-- **Every processor has its descriptor** in the table. -/
theorem systemDescriptor_tss (h : idx < n) :
    systemDescriptor (initializeTssEntries gdt tssBase m n) (tssEntryAddr gdt idx) =
      tssDescriptor tssBase idx := by
  rw [systemDescriptor_congr (initializeTssEntries_agreeOn gdt tssBase m h),
    systemDescriptor_setTssEntry (tssAddr_lt tssBase idx) (by decide)]
  rfl

/-- The upper half of a descriptor is not a descriptor that is present. -/
theorem systemDescriptor_upper_half (gdt tssBase : Nat) (m : Memory) (h : idx < n) :
    (systemDescriptor (initializeTssEntries gdt tssBase m n) (tssEntryAddr gdt idx + 8)).present =
      0 := by
  have hagree := initializeTssEntries_agreeOn gdt tssBase m h
  have hread : (initializeTssEntries gdt tssBase m n).read (tssEntryAddr gdt idx + 8) 8 =
      tssAddr tssBase idx / 2 ^ 32 % 2 ^ 32 := by
    rw [Memory.read_congr (hagree.mono (by omega) (by omega)), setTssEntry_read_high]
  have hbit : ∀ addr, bitField (addr / 2 ^ 32 % 2 ^ 32) 47 1 = 0 := by
    intro addr
    rw [bitField]
    omega
  simp only [systemDescriptor, hread, hbit]

/-- A segment is not the descriptor of a task state segment. -/
theorem systemDescriptor_segment {i cpu : Nat} {w : Nat} (hw : gdtEntries[i]? = some w)
    (h : m.read (gdt + 8 * i) 8 = w) :
    systemDescriptor m (gdt + 8 * i) ≠ tssDescriptor tssBase cpu := by
  have htypes : ∀ w ∈ gdtEntries, bitField w 40 4 ≠ 9 := by decide
  intro heq
  have htype := congrArg SystemDescriptor.segmentType heq
  rw [systemDescriptor, h] at htype
  exact htypes w (List.mem_of_getElem? hw) htype

/-- The segments of the table stay as they are. -/
theorem initializeTssEntries_segment {i w : Nat} (hw : gdtEntries[i]? = some w)
    (h : m.read (gdt + 8 * i) 8 = w) :
    (initializeTssEntries gdt tssBase m n).read (gdt + 8 * i) 8 = w := by
  have hi : i < 5 := (List.getElem?_eq_some_iff.1 hw).1
  rw [← h]
  refine Memory.read_congr fun x h₁ h₂ => initializeTssEntries_of_not_mem (.inl ?_)
  omega

/-! ## The selector -/

/-- The selector that is loaded for a processor. -/
theorem loadPl0Task_eq {cpu : Nat} (h : cpu < n) :
    loadPl0Task n cpu = some ((5 + cpu) % 8192 * 8) := by
  rw [loadPl0Task, if_pos (by omega)]
  refine congrArg some ?_
  omega

/-- Different processors have different task state segments. -/
theorem tssAddr_inj {i j : Nat} (hi : i < 2 ^ 31) (hj : j < 2 ^ 31)
    (h : tssAddr tssBase i = tssAddr tssBase j) : i = j := by
  have hmod : sizeofTss * i ≡ sizeofTss * j [MOD 2 ^ 64] := Nat.ModEq.add_left_cancel' tssBase h
  have heq := hmod.eq_of_lt_of_lt (by rw [sizeofTss]; omega) (by rw [sizeofTss]; omega)
  exact Nat.eq_of_mul_eq_mul_left (by decide) heq

/-- **The slot that `load_pl0_task` selects** holds the descriptor of the processor only for
processor
0. -/
theorem selectedDescriptor_iff {cpu : Nat}
    (hgdt : ∀ i w, gdtEntries[i]? = some w → m.read (gdt + 8 * i) 8 = w) (hn : n < 2 ^ 31)
    (h : cpu < n) :
    selectedDescriptor (initializeTssEntries gdt tssBase m n) gdt ((5 + cpu) % 8192 * 8) =
      tssDescriptor tssBase cpu ↔ cpu = 0 := by
  have hslot : (5 + cpu) % 8192 * 8 / 8 * 8 = 8 * ((5 + cpu) % 8192) := by omega
  have hmod : cpu = 0 → (5 + cpu) % 8192 = 5 := by omega
  have hle : (5 + cpu) % 8192 ≤ 5 + cpu := Nat.mod_le _ _
  rw [selectedDescriptor, hslot]
  generalize (5 + cpu) % 8192 = slot at hmod hle ⊢
  by_cases hseg : slot < 5
  · -- the selector has wrapped around to a segment
    have hlen : slot < gdtEntries.length := hseg
    have hw : gdtEntries[slot]? = some gdtEntries[slot] := List.getElem?_eq_getElem hlen
    have hne : systemDescriptor (initializeTssEntries gdt tssBase m n) (gdt + 8 * slot) ≠
        tssDescriptor tssBase cpu :=
      systemDescriptor_segment hw (initializeTssEntries_segment hw (hgdt slot _ hw))
    exact ⟨fun heq => absurd heq hne, fun hcpu => by have := hmod hcpu; omega⟩
  by_cases hodd : (slot - 5) % 2 = 1
  · -- the upper half of a descriptor
    have haddr : gdt + 8 * slot = tssEntryAddr gdt ((slot - 5) / 2) + 8 := by
      rw [tssEntryAddr]
      omega
    rw [haddr]
    refine ⟨fun heq => ?_, fun hcpu => by have := hmod hcpu; omega⟩
    have habsent := systemDescriptor_upper_half gdt tssBase m (show (slot - 5) / 2 < n by omega)
    rw [heq] at habsent
    cases habsent
  · -- the descriptor of the processor at half the slot
    have haddr : gdt + 8 * slot = tssEntryAddr gdt ((slot - 5) / 2) := by
      rw [tssEntryAddr]
      omega
    rw [haddr, systemDescriptor_tss (show (slot - 5) / 2 < n by omega)]
    constructor
    · intro heq
      have hbase := congrArg SystemDescriptor.base heq
      have := tssAddr_inj (by omega) (by omega) hbase
      omega
    · intro hcpu
      rw [hmod hcpu, hcpu]

end

/-- **The selector and the descriptors.** For every number of processors, `initialize_tss_entries`
gives each of them its own descriptor, apart from the others, and leaves the segments in front as
they are. The descriptor at the selector that `load_pl0_task` loads is that of the processor exactly
for processor 0. -/
theorem taskSelector_agrees_iff {m : Memory} {gdt maxNrCpus : Nat} (tssBase : Nat)
    (hgdt : ∀ i w, gdtEntries[i]? = some w → m.read (gdt + 8 * i) 8 = w)
    (hn : maxNrCpus < 2 ^ 31) :
    (∀ cpu < maxNrCpus, systemDescriptor (initializeTssEntries gdt tssBase m maxNrCpus)
      (tssEntryAddr gdt cpu) = tssDescriptor tssBase cpu) ∧
    (∀ i j, i < j → tssEntryAddr gdt i + 16 ≤ tssEntryAddr gdt j) ∧
    (∀ x, gdt ≤ x → x < gdt + 5 * 8 → initializeTssEntries gdt tssBase m maxNrCpus x = m x) ∧
    ∀ cpu < maxNrCpus, ∃ selector, loadPl0Task maxNrCpus cpu = some selector ∧
      (selectedDescriptor (initializeTssEntries gdt tssBase m maxNrCpus) gdt selector =
        tssDescriptor tssBase cpu ↔ cpu = 0) := by
  refine ⟨fun cpu hcpu => systemDescriptor_tss hcpu, fun i j hij => ?_, fun x _ hx => ?_,
    fun cpu hcpu => ⟨_, loadPl0Task_eq hcpu, selectedDescriptor_iff hgdt hn hcpu⟩⟩
  · rw [tssEntryAddr, tssEntryAddr]
    omega
  · exact initializeTssEntries_of_not_mem (.inl hx)

/-- A memory with the segments of the table at 0. -/
def sampleGdt : Memory := fun a =>
  UInt8.ofNat (((gdtEntries[a / 8]?).getD 0) / 256 ^ (a % 8))

/-- A table for two processors: the first gets its descriptor. -/
theorem taskSelector_agrees_iff_sample : ∃ selector, loadPl0Task 2 0 = some selector ∧
    selectedDescriptor (initializeTssEntries 0 0x1000 sampleGdt 2) 0 selector =
      tssDescriptor 0x1000 0 := by
  have hgdt : ∀ i w, gdtEntries[i]? = some w → sampleGdt.read (0 + 8 * i) 8 = w := by
    have hall : ∀ i < 5, sampleGdt.read (0 + 8 * i) 8 = (gdtEntries[i]?).getD 0 := by decide +kernel
    intro i w hw
    rw [hall i (List.getElem?_eq_some_iff.1 hw).1, hw, Option.getD_some]
  obtain ⟨-, -, -, hselector⟩ := taskSelector_agrees_iff 0x1000 hgdt (by decide : 2 < 2 ^ 31)
  obtain ⟨selector, hload, hiff⟩ := hselector 0 (by decide)
  exact ⟨selector, hload, hiff.2 rfl⟩

/-- Of three processors the second loads the upper half of a descriptor, which is not present, and
the third the descriptor of the second. -/
theorem taskSelector_of_another :
    loadPl0Task 3 1 = some 0x30 ∧
    (selectedDescriptor (initializeTssEntries 0 0x1000 sampleGdt 3) 0 0x30).present = 0 ∧
    loadPl0Task 3 2 = some 0x38 ∧
    selectedDescriptor (initializeTssEntries 0 0x1000 sampleGdt 3) 0 0x38 =
      tssDescriptor 0x1000 1 := by
  have hupper := systemDescriptor_upper_half 0 0x1000 sampleGdt (by decide : 0 < 3)
  have htss : systemDescriptor (initializeTssEntries 0 0x1000 sampleGdt 3) (tssEntryAddr 0 1) =
      tssDescriptor 0x1000 1 := systemDescriptor_tss (by decide)
  exact ⟨by decide, hupper, by decide, htss⟩

end ZeldaOS
