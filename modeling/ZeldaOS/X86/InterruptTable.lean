import ZeldaOS.Guest.Memset
import ZeldaOS.Lib.Bits

/-!
# The interrupt descriptor table

Model of `set_pl0_interrupt_gate`, `load_idt` and `interrupt_init` of `x86_64/interrupt.c` and of
`guest/interrupt.c`, which differ in `memset`. The addresses `int0` to `int255` of the entries and
those of the static objects are given by the linker.

The kernel's table sends every vector to its entry and is the one that the processor uses
(`interruptInit_host`), whatever the memory held. In the guest `memset` copies the bytes at address
0, so the fields that are not assigned are what stands there: the gates are valid exactly if bit 44
of the first word is clear, and the table of handlers is empty exactly if the first 2048 bytes are
zero (`guestInterruptInit_iff`).
-/

namespace ZeldaOS

/-- `sizeof(struct interrupt_gate_descriptor)`. -/
def sizeofGate : Nat := 16

/-- The selector of the gates, `KERNEL_CODE_SELECTOR`. -/
def gateSelector : Nat := 0x8

/-- The bit-fields of a `struct interrupt_gate_descriptor` in its lower 8 bytes, assigned one after
the other. -/
def gateWord (w isrQword : Nat) : Nat :=
  let w := setBitField w 16 16 gateSelector
  let w := setBitField w 32 3 0x0
  let w := setBitField w 40 4 0xe
  let w := setBitField w 45 2 0
  let w := setBitField w 47 1 1
  let w := setBitField w 0 16 isrQword
  setBitField w 48 16 (isrQword >>> 16)

/-- `set_pl0_interrupt_gate`, with its `memset`. -/
def setPl0InterruptGate (memset : Memory → Nat → Nat → Memory) (m : Memory) (pdesc isrQword : Nat) :
    Memory :=
  let m := memset m pdesc sizeofGate
  let m := m.write pdesc 8 (gateWord (m.read pdesc 8) isrQword)
  m.write (pdesc + 8) 4 (isrQword >>> 32)

/-- The address of `interrupt_desc_table[vector]`. -/
def gateAddr (table vector : Nat) : Nat := table + sizeofGate * vector

/-- The gates of `interrupt_init`, up to `vector`. -/
def setGates (memset : Memory → Nat → Nat → Memory) (table : Nat) (isr : Nat → Nat) (m : Memory) :
    Nat → Memory
  | 0 => m
  | vector + 1 =>
    setPl0InterruptGate memset (setGates memset table isr m vector)
      (gateAddr table vector) (isr vector)

/-- Where the linker puts the static objects of `interrupt.c`, apart from each other. -/
structure InterruptStatics where
  /-- `interrupt_desc_table`. -/
  table : Nat
  /-- `idt`, a packed `struct idt_info` of 10 bytes. -/
  idt : Nat
  /-- `handlers`. -/
  handlers : Nat
  table_lt : table < 2 ^ 64
  table_handlers : table + 4096 ≤ handlers ∨ handlers + 2048 ≤ table
  table_idt : table + 4096 ≤ idt ∨ idt + 10 ≤ table
  handlers_idt : handlers + 2048 ≤ idt ∨ idt + 10 ≤ handlers

/-- The register that holds the table in use. -/
structure Idtr where
  limit : Nat
  base : Nat
deriving DecidableEq, Repr

/-- `load_idt`: store the fields of `idt` and load them. -/
def loadIdt (L : InterruptStatics) (m : Memory) : Idtr × Memory :=
  let m := m.write L.idt 2 (256 * sizeofGate - 1)
  let m := m.write (L.idt + 2) 8 L.table
  (⟨m.read L.idt 2, m.read (L.idt + 2) 8⟩, m)

/-- The tables of `interrupt_init`: clear `handlers`, and set the 256 gates. -/
def setTables (memset : Memory → Nat → Nat → Memory) (L : InterruptStatics) (isr : Nat → Nat)
    (m : Memory) : Memory :=
  setGates memset L.table isr (memset m L.handlers (256 * 8)) 256

/-- `interrupt_init`. -/
def interruptInit (memset : Memory → Nat → Nat → Memory) (L : InterruptStatics) (isr : Nat → Nat)
    (m : Memory) : Idtr × Memory :=
  loadIdt L (setTables memset L isr m)

/-- `memset(dst, 0x0, size)` of the kernel. -/
def hostMemset (m : Memory) (dst size : Nat) : Memory := m.fill dst size 0

/-- `memset(dst, 0x0, size)` of the guest. -/
def clearedByGuest (m : Memory) (dst size : Nat) : Memory := guestMemset m dst 0 size

/-! ## The table as the processor reads it -/

/-- A gate. -/
structure InterruptGate where
  selector : Nat
  offset : Nat
  ist : Nat
  gateType : Nat
  segmentClass : Nat
  dpl : Nat
  present : Nat
deriving DecidableEq, Repr

/-- The gate at an address. -/
def interruptGate (m : Memory) (a : Nat) : InterruptGate :=
  let w := m.read a 8
  { selector := bitField w 16 16
    offset := bitField w 0 16 + bitField w 48 16 * 2 ^ 16 + m.read (a + 8) 4 * 2 ^ 32
    ist := bitField w 32 3
    gateType := bitField w 40 4
    segmentClass := bitField w 44 1
    dpl := bitField w 45 2
    present := bitField w 47 1 }

/-- The interrupt gate of the kernel's code segment to an entry. -/
def gateTo (isrQword : Nat) : InterruptGate where
  selector := gateSelector
  offset := isrQword
  ist := 0
  gateType := 0xe
  segmentClass := 0
  dpl := 0
  present := 1

section
variable {memset : Memory → Nat → Nat → Memory} {m : Memory} {table handlers pdesc n vector x : Nat}
  {isr : Nat → Nat} {L : InterruptStatics}

/-- A `memset` that writes its destination only. -/
def WritesDestination (memset : Memory → Nat → Nat → Memory) : Prop :=
  ∀ m dst size x, x < dst ∨ dst + size ≤ x → memset m dst size x = m x

theorem hostMemset_writesDestination : WritesDestination hostMemset :=
  fun _ _ _ _ h => Memory.fill_apply_of_not_mem h

theorem clearedByGuest_writesDestination : WritesDestination clearedByGuest :=
  fun _ _ _ _ h => guestMemset_apply_of_not_mem h

/-! ## One gate -/

theorem setPl0InterruptGate_of_not_mem (hmemset : WritesDestination memset) {isrQword : Nat}
    (h : x < pdesc ∨ pdesc + sizeofGate ≤ x) :
    setPl0InterruptGate memset m pdesc isrQword x = m x := by
  unfold sizeofGate at h
  rw [setPl0InterruptGate, Memory.write_apply_of_not_mem (by omega),
    Memory.write_apply_of_not_mem (by omega), hmemset _ _ _ _ (by unfold sizeofGate; omega)]

/-- **One gate** is read back as it was meant, but for the bit that `memset` should clear. -/
theorem interruptGate_setPl0InterruptGate {isrQword : Nat} (h : isrQword < 2 ^ 64) :
    interruptGate (setPl0InterruptGate memset m pdesc isrQword) pdesc =
      { gateTo isrQword with
        segmentClass := bitField ((memset m pdesc sizeofGate).read pdesc 8) 44 1 } := by
  have hword : (setPl0InterruptGate memset m pdesc isrQword).read pdesc 8 =
      gateWord ((memset m pdesc sizeofGate).read pdesc 8) isrQword % 2 ^ 64 := by
    have hbytes : 256 ^ 8 = 2 ^ 64 := by decide
    rw [setPl0InterruptGate, Memory.read_congr (Memory.write_agreeOn (by omega)),
      Memory.read_write_self, hbytes]
  have hhigh : (setPl0InterruptGate memset m pdesc isrQword).read (pdesc + 8) 4 =
      isrQword / 2 ^ 32 % 2 ^ 32 := by
    have hbytes : 256 ^ 4 = 2 ^ 32 := by decide
    rw [setPl0InterruptGate, Memory.read_write_self, Nat.shiftRight_eq_div_pow, hbytes]
  generalize (memset m pdesc sizeofGate).read pdesc 8 = w at hword
  simp (disch := decide) only [interruptGate, hword, hhigh, gateWord, gateTo, bitField_mod_two_pow,
    bitField_setBitField, bitField_setBitField_of_disjoint, Nat.shiftRight_eq_div_pow,
    InterruptGate.mk.injEq]
  refine ⟨by decide, ?_, by decide, by decide, trivial, by decide, by decide⟩
  omega

/-! ## All gates -/

theorem setGates_of_not_mem (hmemset : WritesDestination memset)
    (h : x < table ∨ gateAddr table n ≤ x) : setGates memset table isr m n x = m x := by
  induction n with
  | zero => rfl
  | succ n ih =>
    unfold gateAddr sizeofGate at h
    rw [setGates, setPl0InterruptGate_of_not_mem hmemset (by unfold gateAddr sizeofGate; omega),
      ih (by unfold gateAddr sizeofGate; omega)]

/-- A later gate leaves an earlier one as it is. -/
theorem setGates_agreeOn (hmemset : WritesDestination memset) (h : vector < n) :
    (setGates memset table isr m n).AgreeOn
      (setPl0InterruptGate memset (setGates memset table isr m vector) (gateAddr table vector)
        (isr vector)) (gateAddr table vector) sizeofGate := by
  induction n with
  | zero => omega
  | succ n ih =>
    intro x h₁ h₂
    rcases Nat.lt_or_eq_of_le (Nat.le_of_lt_succ h) with hlt | rfl
    · rw [setGates, setPl0InterruptGate_of_not_mem hmemset, ih hlt x h₁ h₂]
      unfold gateAddr sizeofGate at h₁ h₂ ⊢
      omega
    · rfl

theorem interruptGate_congr {m' : Memory} {a : Nat} (h : m.AgreeOn m' a sizeofGate) :
    interruptGate m a = interruptGate m' a := by
  unfold sizeofGate at h
  have hlow : m.read a 8 = m'.read a 8 := Memory.read_congr (h.mono (by omega) (by omega))
  have hhigh : m.read (a + 8) 4 = m'.read (a + 8) 4 :=
    Memory.read_congr (h.mono (by omega) (by omega))
  rw [interruptGate, interruptGate, hlow, hhigh]

/-- The gate of a vector after `interrupt_init`. -/
theorem interruptGate_setGates (hmemset : WritesDestination memset) (h : vector < n)
    (hisr : ∀ v, isr v < 2 ^ 64) :
    interruptGate (setGates memset table isr m n) (gateAddr table vector) =
      { gateTo (isr vector) with
        segmentClass :=
          bitField ((memset (setGates memset table isr m vector) (gateAddr table vector)
            sizeofGate).read (gateAddr table vector) 8) 44 1 } := by
  rw [interruptGate_congr (setGates_agreeOn hmemset h),
    interruptGate_setPl0InterruptGate (hisr vector)]

/-! ## `load_idt` -/

/-- `load_idt` writes `idt` only. -/
theorem loadIdt_of_not_mem (h : x < L.idt ∨ L.idt + 10 ≤ x) : (loadIdt L m).2 x = m x := by
  change (m.write L.idt 2 (256 * sizeofGate - 1)).write (L.idt + 2) 8 L.table x = m x
  rw [Memory.write_apply_of_not_mem (by omega), Memory.write_apply_of_not_mem (by omega)]

/-- **The processor uses the table.** -/
theorem loadIdt_idtr : (loadIdt L m).1 = ⟨4095, L.table⟩ := by
  have htable := L.table_lt
  have hlimit : ((m.write L.idt 2 (256 * sizeofGate - 1)).write (L.idt + 2) 8 L.table).read L.idt
    2 = 4095 := by
    rw [Memory.read_congr (Memory.write_agreeOn (by omega)), Memory.read_write_self]
    rfl
  have hbase : L.table % 256 ^ 8 = L.table := Nat.mod_eq_of_lt htable
  rw [loadIdt, hlimit, Memory.read_write_self, hbase]

/-- The gates are what they were before `load_idt`. -/
theorem interruptGate_interruptInit {v : Nat} (hv : v < 256) :
    interruptGate (interruptInit memset L isr m).2 (gateAddr L.table v) =
      interruptGate (setTables memset L isr m) (gateAddr L.table v) := by
  have hidt := L.table_idt
  refine interruptGate_congr fun x h₁ h₂ => loadIdt_of_not_mem ?_
  unfold gateAddr sizeofGate at h₁ h₂
  omega

/-- So are the handlers. -/
theorem read_handlers_interruptInit {v : Nat} (hv : v < 256) :
    (interruptInit memset L isr m).2.read (L.handlers + 8 * v) 8 =
      (setTables memset L isr m).read (L.handlers + 8 * v) 8 := by
  have hidt := L.handlers_idt
  exact Memory.read_congr fun x h₁ h₂ => loadIdt_of_not_mem (by omega)

/-- **The kernel's table.** Every vector has an interrupt gate to its entry, the table of handlers
is empty, the processor uses the table with all its 256 gates, and no memory but the two tables and
`idt` is written. -/
theorem interruptInit_host (hisr : ∀ v, isr v < 2 ^ 64) :
    (∀ v < 256, interruptGate (interruptInit hostMemset L isr m).2 (gateAddr L.table v) =
      gateTo (isr v)) ∧
    (∀ v < 256, (interruptInit hostMemset L isr m).2.read (L.handlers + 8 * v) 8 = 0) ∧
    (interruptInit hostMemset L isr m).1 = ⟨4095, L.table⟩ ∧
    ∀ x, (x < L.table ∨ L.table + 4096 ≤ x) → (x < L.handlers ∨ L.handlers + 2048 ≤ x) →
      (x < L.idt ∨ L.idt + 10 ≤ x) → (interruptInit hostMemset L isr m).2 x = m x := by
  have hend : gateAddr L.table 256 = L.table + 4096 := rfl
  have hdisjoint := L.table_handlers
  refine ⟨fun v hv => ?_, fun v hv => ?_, loadIdt_idtr, fun x htable hhandlers hidt => ?_⟩
  · have hzero : (hostMemset (setGates hostMemset L.table isr (hostMemset m L.handlers (256 * 8)) v)
        (gateAddr L.table v) sizeofGate).read (gateAddr L.table v) 8 = 0 := by
      refine Memory.read_eq_zero fun x h₁ h₂ => ?_
      exact Memory.fill_apply_of_mem h₁ (by unfold sizeofGate; omega)
    rw [interruptGate_interruptInit hv, setTables,
      interruptGate_setGates hostMemset_writesDestination hv hisr, hzero]
    rfl
  · rw [read_handlers_interruptInit hv]
    refine Memory.read_eq_zero fun x h₁ h₂ => ?_
    rw [setTables, setGates_of_not_mem hostMemset_writesDestination (by omega)]
    exact Memory.fill_apply_of_mem (by omega) (by omega)
  · rw [interruptInit, loadIdt_of_not_mem hidt, setTables,
      setGates_of_not_mem hostMemset_writesDestination (by omega)]
    exact hostMemset_writesDestination m L.handlers (256 * 8) x hhandlers

/-- A table at 2 MiB, the handlers at 3 MiB and `idt` behind them. -/
def sampleStatics : InterruptStatics where
  table := 0x200000
  idt := 0x300800
  handlers := 0x300000
  table_lt := by decide
  table_handlers := by decide
  table_idt := by decide
  handlers_idt := by decide

/-- Entries at every 16 bytes from 1 MiB on. -/
theorem interruptInit_host_at : interruptGate (interruptInit hostMemset sampleStatics
    (fun v => 0x100000 + 16 * (v % 256)) Memory.zero).2 (gateAddr 0x200000 33) =
    gateTo 0x100210 := by
  have hisr : ∀ v : Nat, 0x100000 + 16 * (v % 256) < 2 ^ 64 := by
    intro v
    omega
  exact (interruptInit_host hisr).1 33 (by decide)

/-- The guest's `memset` copies the bytes from address 0. -/
theorem clearedByGuest_apply {dst size i : Nat} (hi : i < size) (hdst : size ≤ dst) :
    clearedByGuest m dst size (dst + i) = m i := by
  rw [clearedByGuest, guestMemset_apply hi, Nat.mod_eq_of_lt (by omega)]

/-- The guest's `interrupt_init` does not write the bytes that its `memset` copies. -/
theorem guest_low_bytes (htable : 2048 ≤ table) (hhandlers : 2048 ≤ handlers) (hx : x < 2048) :
    setGates clearedByGuest table isr (clearedByGuest m handlers (256 * 8)) n x = m x := by
  rw [setGates_of_not_mem clearedByGuest_writesDestination (by omega)]
  exact clearedByGuest_writesDestination m handlers (256 * 8) x (by omega)

/-- **The guest's table.** Every vector has an interrupt gate to its entry exactly if bit 44 of the
word at address 0 is clear, and the table of handlers is empty exactly if the first 2048 bytes are
zero. -/
theorem guestInterruptInit_iff (hisr : ∀ v, isr v < 2 ^ 64) (htable : 2048 ≤ L.table)
    (hhandlers : 2048 ≤ L.handlers) :
    ((∀ v < 256, interruptGate (interruptInit clearedByGuest L isr m).2 (gateAddr L.table v) =
      gateTo (isr v)) ↔ bitField (m.read 0 8) 44 1 = 0) ∧
    ((∀ v < 256, (interruptInit clearedByGuest L isr m).2.read (L.handlers + 8 * v) 8 = 0) ↔
      ∀ x < 2048, m x = 0) := by
  have hend : gateAddr L.table 256 = L.table + 4096 := rfl
  have hdisjoint := L.table_handlers
  have hgate : ∀ v < 256, interruptGate (interruptInit clearedByGuest L isr m).2
      (gateAddr L.table v) =
        { gateTo (isr v) with segmentClass := bitField (m.read 0 8) 44 1 } := by
    intro v hv
    have hcopy : (clearedByGuest (setGates clearedByGuest L.table isr
        (clearedByGuest m L.handlers (256 * 8)) v) (gateAddr L.table v) sizeofGate).read
          (gateAddr L.table v + 0) 8 = m.read 0 8 := by
      refine Memory.read_congr_add fun x _ hx => ?_
      rw [clearedByGuest_apply (by unfold sizeofGate; omega) (by unfold gateAddr sizeofGate; omega)]
      exact guest_low_bytes htable hhandlers (by omega)
    rw [interruptGate_interruptInit hv, setTables,
      interruptGate_setGates clearedByGuest_writesDestination hv hisr]
    rw [Nat.add_zero] at hcopy
    rw [hcopy]
  have hhandler : ∀ v < 256, (interruptInit clearedByGuest L isr m).2.read
      (L.handlers + 8 * v) 8 = m.read (8 * v) 8 := by
    intro v hv
    rw [read_handlers_interruptInit hv]
    refine Memory.read_congr_add fun x h₁ h₂ => ?_
    rw [setTables, setGates_of_not_mem clearedByGuest_writesDestination (by omega)]
    exact clearedByGuest_apply (by omega) (by omega)
  constructor
  · constructor
    · intro h
      have hzero := (hgate 0 (by decide)).symm.trans (h 0 (by decide))
      exact congrArg InterruptGate.segmentClass hzero
    · intro h v hv
      rw [hgate v hv, h]
      rfl
  · constructor
    · intro h x hx
      have hword := (hhandler (x / 8) (by omega)).symm.trans (h (x / 8) (by omega))
      exact Memory.apply_eq_zero_of_read hword (by omega) (by omega)
    · intro h v hv
      rw [hhandler v hv]
      exact Memory.read_eq_zero fun x _ _ => h x (by omega)

/-- The static objects of a guest. -/
def sampleGuestStatics : InterruptStatics where
  table := 0x4000
  idt := 0x6800
  handlers := 0x6000
  table_lt := by decide
  table_handlers := by decide
  table_idt := by decide
  handlers_idt := by decide

/-- A guest whose page 0 is zero. -/
theorem guestInterruptInit_zero : interruptGate (interruptInit clearedByGuest sampleGuestStatics
    (fun v => 0x2000 + 16 * (v % 256)) Memory.zero).2 (gateAddr 0x4000 32) = gateTo 0x2200 := by
  have hisr : ∀ v : Nat, 0x2000 + 16 * (v % 256) < 2 ^ 64 := by
    intro v
    omega
  exact (guestInterruptInit_iff (L := sampleGuestStatics) hisr (by decide) (by decide)).1.2
    (by decide) 32 (by decide)

end

end ZeldaOS
