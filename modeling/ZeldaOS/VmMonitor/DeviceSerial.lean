import ZeldaOS.Lib.LineBuffer
import ZeldaOS.Lib64.Printk
import ZeldaOS.VmMonitor.EptCorrect
import ZeldaOS.VmMonitor.Vmcs

/-!
# The serial device

Model of `vm_monitor/device_serial.c`. What the guest writes to COM1 is collected in a page of the
monitor, the line buffer, and printed when a line is complete or the page is full but for its last
byte. The line is printed by `%s` and nothing ends it but the zeros of the page: the page is cleared
by `pre_initialize_vmcs` and after each line, and its last byte is never written.

So as long as the guest writes no 0, the page is a `LineBuffer` of 4095 bytes (`SerialRel`), and the
device moves with it in lockstep (`serial_lossless`).
-/

namespace ZeldaOS

/-- What the device uses: the memory, the page of the line and the number of bytes in it. -/
structure SerialLine where
  mem : Memory
  serialLineBuffer : Nat
  serialLineIptr : Nat

/-- The format `"[vm:0x%x(vpid:%d)] %s"`. -/
def serialFormat : List UInt8 :=
  literal ['[', 'v', 'm', ':', '0', 'x', '%', 'x', '(', 'v', 'p', 'i', 'd', ':', '%', 'd', ')', ']',
    ' ', '%', 's']

/-- `'\n'`. -/
def newline : UInt8 := 0x0a

/-- `device_serial_inb`. -/
def deviceSerialInb (portId : Nat) : Option UInt8 := if portId = 0x3f8 + 5 then some 0x20 else none

/-- `device_serial_outb`, on any of its ports, with what it prints. -/
def deviceSerialOutb (vm vpid : Nat) (s : SerialLine) (byte : UInt8) :
    Option (Option (List UInt8) × SerialLine) :=
  if s.serialLineIptr < 4096 - 1 then
    let mem := s.mem.fill (s.serialLineBuffer + s.serialLineIptr) 1 byte
    let iptr := s.serialLineIptr + 1
    if iptr = 4096 - 1 ∨ byte = newline then
      (printkMpRaw mem serialFormat [vm, vpid, s.serialLineBuffer]).map fun out =>
        (some out, { s with mem := mem.fill s.serialLineBuffer 4096 0, serialLineIptr := 0 })
    else some (none, { s with mem := mem, serialLineIptr := iptr })
  else none

/-- The device as `pre_initialize_vmcs` leaves it. -/
def serialLineOf (vm : VmcsBlob) (k : Kernel PhysicalMemory) : SerialLine :=
  ⟨k.mem, vm.serialLineBuffer, vm.serialLineIptr⟩

/-! ## The page when the VM starts -/

/-- The line buffer is empty when the VM starts. -/
theorem preInitializeVmcs_serial {k k' : Kernel PhysicalMemory} {vm : VmcsBlob}
    (h : preInitializeVmcs k = some (vm, k')) :
    vm.serialLineIptr = 0 ∧
      ∀ x, vm.serialLineBuffer ≤ x → x < vm.serialLineBuffer + 4096 → k'.mem x = 0 := by
  have hmem : vm.serialLineBuffer ∈ vm.regions := by simp [VmcsBlob.regions, VmcsBlob.requests]
  exact ⟨(preInitializeVmcs_inv h).2.1, (preInitializeVmcs_regions h _ hmem).2⟩

/-! ## Printing -/

/-- What stands in front of a line. -/
def serialHeader (vm vpid : Nat) : List UInt8 :=
  literal ['[', 'v', 'm', ':', '0', 'x'] ++ resolveHexQword vm true ++
    literal ['(', 'v', 'p', 'i', 'd', ':'] ++ resolveSigned 32 vpid ++ literal [')', ']', ' ']

/-- What the format prints. -/
theorem printk_serialFormat {m : Memory} {vm vpid p : Nat} {str : List UInt8}
    (h : stringAt m (2 ^ 64) p = some str) :
    printkMpRaw m serialFormat [vm, vpid, p] = some (serialHeader vm vpid ++ str) := by
  have hformat : serialFormat = literal ['[', 'v', 'm', ':', '0', 'x'] ++ 0x25 :: 0x78 ::
      (literal ['(', 'v', 'p', 'i', 'd', ':'] ++ 0x25 :: 0x64 ::
        (literal [')', ']', ' '] ++ [0x25, 0x73])) := by decide
  rw [hformat, printkMpRaw_append (by simp [literal]), printkMpRaw_directive rfl rfl,
    printkMpRaw_append (by simp [literal]), printkMpRaw_directive rfl rfl,
    printkMpRaw_append (by simp [literal]), printkMpRaw_directive rfl h]
  simp [printkMpRaw, serialHeader]

/-! ## Lines -/

/-- The page holds the bytes `cur`, and zeros behind them. -/
structure SerialPage (buffer : Nat) (s : SerialLine) (cur : List UInt8) : Prop where
  page : s.serialLineBuffer = buffer
  iptr : s.serialLineIptr = cur.length
  length : cur.length < 4095
  bytes : s.mem.bytes buffer cur.length = cur
  zero : ∀ x, cur.length ≤ x → x < 4096 → s.mem (buffer + x) = 0

/-- The page holds the bytes `cur` of a line, none of which is 0. -/
structure SerialRel (buffer : Nat) (s : SerialLine) (cur : List UInt8) : Prop
    extends SerialPage buffer s cur where
  nonzero : ∀ b ∈ cur, b ≠ 0

section
variable {vm vpid buffer : Nat} {s : SerialLine} {cur : List UInt8} {b : UInt8}

/-- The page with one more byte. -/
theorem SerialPage.bytes_fill (h : SerialPage buffer s cur) :
    (s.mem.fill (buffer + cur.length) 1 b).bytes buffer (cur ++ [b]).length = cur ++ [b] := by
  have hold : Memory.AgreeOn (s.mem.fill (buffer + cur.length) 1 b) s.mem buffer cur.length :=
    Memory.fill_agreeOn (.inl (Nat.le_refl _))
  rw [List.length_append, List.length_singleton, Memory.bytes_succ,
    Memory.bytes_congr hold, h.bytes, Memory.fill_apply_of_mem (Nat.le_refl _) (by omega)]

/-- **One byte.** The device moves as the line buffer does, and prints the line that it hands out,
up to its first 0. -/
theorem SerialPage.step (h : SerialPage buffer s cur) (b : UInt8) :
    ∃ line cur' s', LineBuffer.push 4095 newline cur b = some (line, cur') ∧
      deviceSerialOutb vm vpid s b = some (line.map (serialHeader vm vpid ++ cString ·), s') ∧
      SerialPage buffer s' cur' := by
  have hlen := h.length
  have hzero : ∀ x, cur.length + 1 ≤ x → x < 4096 →
      s.mem.fill (buffer + cur.length) 1 b (buffer + x) = 0 := fun x h₁ h₂ =>
    (Memory.fill_apply_of_not_mem (by omega)).trans (h.zero x (by omega) h₂)
  rw [LineBuffer.push, deviceSerialOutb, h.iptr, h.page,
    if_pos (show cur.length < 4096 - 1 by omega)]
  by_cases hflush : cur.length + 1 = 4095 ∨ b = newline
  · -- the zero behind the line ends the string
    have hstr : stringAt (s.mem.fill (buffer + cur.length) 1 b) (2 ^ 64) buffer =
        some (cString (cur ++ [b])) := by
      refine stringAt_cString h.bytes_fill ?_ ?_
      · exact hzero _ (by simp) (by simp; omega)
      · rw [List.length_append, List.length_singleton]
        omega
    refine ⟨some (cur ++ [b]), [],
      ⟨(s.mem.fill (buffer + cur.length) 1 b).fill buffer 4096 0, buffer, 0⟩, if_pos hflush, ?_, ?_⟩
    · refine (if_pos hflush).trans ?_
      rw [printk_serialFormat hstr]
      rfl
    · refine ⟨rfl, rfl, by decide, rfl, fun x _ hx => ?_⟩
      exact Memory.fill_apply_of_mem (by omega) (by omega)
  · refine ⟨none, cur ++ [b], _, if_neg hflush, if_neg hflush, rfl, ?_, ?_, h.bytes_fill, ?_⟩
    · simp
    · rw [List.length_append, List.length_singleton]
      omega
    · rw [List.length_append, List.length_singleton]
      exact hzero

/-- A line of bytes other than 0 is printed as it is. -/
theorem SerialRel.step (h : SerialRel buffer s cur) (hb : b ≠ 0) :
    ∃ line cur' s', LineBuffer.push 4095 newline cur b = some (line, cur') ∧
      deviceSerialOutb vm vpid s b = some (line.map (serialHeader vm vpid ++ ·), s') ∧
      SerialRel buffer s' cur' := by
  have hnonzero : ∀ x ∈ cur ++ [b], x ≠ 0 := by
    intro x hx
    rcases List.mem_append.1 hx with hx | hx
    · exact h.nonzero x hx
    · rw [List.mem_singleton.1 hx]
      exact hb
  obtain ⟨line, cur', s', hpush, hout, hpage⟩ := h.toSerialPage.step b
  refine ⟨line, cur', s', hpush, ?_, ?_⟩
  · rw [hout]
    rcases LineBuffer.push_cases hpush with ⟨rfl, rfl⟩ | ⟨rfl, rfl⟩
    · rw [Option.map_some, Option.map_some, cString_eq_self hnonzero]
    · rfl
  · rcases LineBuffer.push_cases hpush with ⟨rfl, rfl⟩ | ⟨rfl, rfl⟩
    · exact ⟨hpage, by simp⟩
    · exact ⟨hpage, hnonzero⟩

/-- The device starts with an empty line. -/
theorem serialPage_start {k k' : Kernel PhysicalMemory} {vm : VmcsBlob}
    (h : preInitializeVmcs k = some (vm, k')) :
    SerialPage vm.serialLineBuffer (serialLineOf vm k') [] := by
  obtain ⟨hiptr, hzero⟩ := preInitializeVmcs_serial h
  exact ⟨rfl, hiptr, by decide, rfl, fun x _ hx => hzero _ (by omega) (by omega)⟩

end

/-- **The serial line loses nothing.** From the state that `pre_initialize_vmcs` leaves, on every
sequence of bytes other than 0 the device accepts each byte; the page is zero from the number of
collected bytes on; what is printed for a byte, behind the header, is the line that a buffer of 4095
bytes hands out for it; each line is the run of bytes since the line before, ended by a newline or
by its length; and the lines followed by the bytes in the page are the sequence. -/
theorem serial_lossless {k k' : Kernel PhysicalMemory} {blob : VmcsBlob}
    (hpre : preInitializeVmcs k = some (blob, k')) (vm vpid : Nat) (bytes : List UInt8)
    (hbytes : ∀ b ∈ bytes, b ≠ 0) :
    ∃ (t : List (UInt8 × Option (List UInt8))) (s : SerialLine),
      exec (deviceSerialOutb vm vpid) (serialLineOf blob k') bytes =
        some (t.map (Prod.map id (Option.map (serialHeader vm vpid ++ ·))), s) ∧
      t.map Prod.fst = bytes ∧
      s.serialLineIptr < 4095 ∧
      (∀ x, s.serialLineIptr ≤ x → x < 4096 → s.mem (s.serialLineBuffer + x) = 0) ∧
      LineBuffer.Lossless 4095 newline t (s.mem.bytes s.serialLineBuffer s.serialLineIptr) := by
  have hstep : ∀ s cur b, SerialRel blob.serialLineBuffer s cur → b ≠ 0 → ∃ line cur' s',
      LineBuffer.push 4095 newline cur b = some (line, cur') ∧
      deviceSerialOutb vm vpid s b = some (line.map (serialHeader vm vpid ++ ·), s') ∧
      SerialRel blob.serialLineBuffer s' cur' := fun _ _ _ h hb => h.step hb
  obtain ⟨t, cur, s, hlines, hdevice, hrel⟩ := exec_lockstep _ hstep
    ⟨serialPage_start hpre, by simp⟩ hbytes
  have hrun : Run (LineBuffer.push 4095 newline) (fun _ _ => True) [] t cur :=
    Run.nil.exec (fun _ _ _ => trivial) hlines
  obtain ⟨hlossless, hlen⟩ := LineBuffer.run_push (by decide) hrun
  refine ⟨t, s, hdevice, exec_events hlines, by rw [hrel.iptr]; exact hlen, ?_, ?_⟩
  · rw [hrel.iptr, hrel.page]
    exact hrel.zero
  · rw [hrel.iptr, hrel.page, hrel.bytes]
    exact hlossless

/-- A line and the start of another one on the sample machine. -/
theorem serial_lossless_sample : ∃ blob k' t s,
    preInitializeVmcs identityKernel = some (blob, k') ∧
    exec (deviceSerialOutb 0x7000 1) (serialLineOf blob k') [0x48, 0x69, 0x0a, 0x21] =
      some (t.map (Prod.map id (Option.map (serialHeader 0x7000 1 ++ ·))), s) ∧
    (LineBuffer.lines t).flatten ++ s.mem.bytes s.serialLineBuffer s.serialLineIptr =
      [0x48, 0x69, 0x0a, 0x21] := by
  have hex : (preInitializeVmcs identityKernel).map (fun r => r.1.serialLineIptr) = some 0 := by
    decide +kernel
  obtain ⟨⟨blob, k'⟩, hpre, -⟩ := Option.map_eq_some_iff.1 hex
  obtain ⟨t, s, hrun, hevents, -, -, hlossless⟩ :=
    serial_lossless hpre 0x7000 1 [0x48, 0x69, 0x0a, 0x21] (by simp)
  exact ⟨blob, k', t, s, hpre, hrun, hlossless.total.trans hevents⟩

end ZeldaOS
