import ZeldaOS.VmMonitor.DeviceSerial
import ZeldaOS.VmMonitor.HostStack
import ZeldaOS.VmMonitor.IoInstruction

/-!
# The ports of the serial device

A 16550 has six registers behind six ports. Only a byte written to the first one is sent, and only
while bit 7 of the line control register, the DLAB, is 0; all else sets the chip up. The emulated
device registers one handler for the six ports, which does not look at the port: it puts every byte
into the line.

So what appears on the console is decided by all bytes that were written (`exec_serialWrite`), and
two sequences with the same transmitted bytes look the same exactly if their lines do, set-up bytes
included (`serial_console_iff`). The set-up sequence of `serial_init` alone puts seven bytes into
the line (`serial_init_visible`).
-/

namespace ZeldaOS

/-- `device_serial_outb` with the port, which it does not read. -/
def serialWrite (vm vpid : Nat) (s : SerialLine) (w : Nat × UInt8) :
    Option (Option (List UInt8) × SerialLine) :=
  deviceSerialOutb vm vpid s w.2

/-! ## Registration -/

/-- The device with what it has printed. -/
structure SerialConsole where
  line : SerialLine
  printed : List (List UInt8)

/-- `device_serial_inb` as the registry of ports calls it. -/
def serialInbCallback (portId : Nat) (d : SerialConsole) : Option (UInt8 × SerialConsole) :=
  (deviceSerialInb portId).map fun byte => (byte, d)

/-- `device_serial_outb` as the registry of ports calls it. -/
def serialOutbCallback (vm vpid portId : Nat) (byte : UInt8) (d : SerialConsole) :
    Option SerialConsole :=
  (serialWrite vm vpid d.line (portId, byte)).map fun r => ⟨r.2, d.printed ++ r.1.toList⟩

/-- The operation of a port of COM1. -/
def serialOperation (vm vpid idx : Nat) : PortioOperation (PortioCallback SerialConsole) where
  portid := 0x3f8 + idx
  callInb := some (.inb serialInbCallback)
  callOutb := some (.outb (serialOutbCallback vm vpid))

/-- `vmx_device_serial_preinit`. -/
def vmxDeviceSerialPreinit (vm vpid : Nat)
    (portioOps : List (PortioOperation (PortioCallback SerialConsole))) :
    Option (List (PortioOperation (PortioCallback SerialConsole))) :=
  (List.range 6).foldlM (fun portioOps idx =>
    registerPioOperation portioOps (serialOperation vm vpid idx)) portioOps

/-- A write of the guest to a port of COM1 is a call of `device_serial_outb` with AL. -/
theorem ioInstruction_serial (vm vpid : Nat) {portId : Nat} (hlow : 0x3f8 ≤ portId)
    (hhigh : portId ≤ 0x3fd) (instructionLength : Nat) (g : Guest SerialConsole) :
    ∃ portioOps, vmxDeviceSerialPreinit vm vpid [] = some portioOps ∧
      ioInstructionExitSubHandler portioOps (portId <<< 16) instructionLength g =
        (serialOutbCallback vm vpid portId (UInt8.ofNat g.vcpu.state.rax) g.devices).map
          fun devices =>
          gotoNextInstruction { g with devices } instructionLength := by
  obtain ⟨portioOps, hregister, hlookup⟩ := register_consecutive (serialOperation vm vpid) 0x3f8 6
    (fun _ => rfl) (by decide) (by decide)
  have hops := hlookup (portId - 0x3f8) (by omega)
  rw [Nat.add_sub_cancel' hlow] at hops
  exact ⟨portioOps, hregister,
    ioInstructionExitSubHandler_outb (by omega) hops rfl instructionLength g⟩

/-! ## What is transmitted and what is seen -/

/-- The bytes that a 16550 sends, from a state with the given DLAB. -/
def transmits : Bool → List (Nat × UInt8) → List UInt8
  | _, [] => []
  | dlab, (port, byte) :: writes =>
    if port = 0x3fb then transmits (byte.toNat.testBit 7) writes
    else if port = 0x3f8 ∧ dlab = false then byte :: transmits dlab writes
    else transmits dlab writes

/-- Two sequences of bytes print the same, line by line, and leave the same in the line. -/
def SameLines (bytes bytes' : List UInt8) : Prop :=
  (LineBuffer.feed 4095 newline [] bytes).1.map cString =
      (LineBuffer.feed 4095 newline [] bytes').1.map cString ∧
    (LineBuffer.feed 4095 newline [] bytes).2 = (LineBuffer.feed 4095 newline [] bytes').2

/-- The device takes two sequences of writes, prints the same for them and has the same bytes in its
line after them. -/
def SameConsole (vm vpid : Nat) (s : SerialLine) (u v : List (Nat × UInt8)) : Prop :=
  ∃ t s₁ t' s₂, exec (serialWrite vm vpid) s u = some (t, s₁) ∧
    exec (serialWrite vm vpid) s v = some (t', s₂) ∧
    t.filterMap Prod.snd = t'.filterMap Prod.snd ∧
    s₁.mem.bytes s₁.serialLineBuffer s₁.serialLineIptr =
      s₂.mem.bytes s₂.serialLineBuffer s₂.serialLineIptr

section
variable {vm vpid buffer : Nat} {s : SerialLine}

/-- **What is seen of a sequence of writes**: the lines of its bytes. -/
theorem exec_serialWrite (vm vpid : Nat) (h : SerialPage buffer s []) (u : List (Nat × UInt8)) :
    ∃ t s', exec (serialWrite vm vpid) s u = some (t, s') ∧
      t.filterMap Prod.snd = (LineBuffer.feed 4095 newline [] (u.map Prod.snd)).1.map
        (serialHeader vm vpid ++ cString ·) ∧
      s'.mem.bytes s'.serialLineBuffer s'.serialLineIptr =
        (LineBuffer.feed 4095 newline [] (u.map Prod.snd)).2 := by
  have hstep : ∀ s cur (w : Nat × UInt8), SerialPage buffer s cur → True → ∃ line cur' s',
      LineBuffer.push 4095 newline cur w.2 = some (line, cur') ∧
      serialWrite vm vpid s w = some (line.map (serialHeader vm vpid ++ cString ·), s') ∧
      SerialPage buffer s' cur' := fun _ _ w h _ => h.step w.2
  have hall : ∀ w ∈ u, (fun _ : Nat × UInt8 => True) w := fun _ _ => trivial
  obtain ⟨t, cur, s', hlines, hdevice, hpage⟩ := exec_lockstep _ hstep h hall
  obtain ⟨t', hfeed, hprinted⟩ : ∃ t,
      exec (fun cur w => LineBuffer.push 4095 newline cur (Prod.snd w)) [] u =
        some (t, (LineBuffer.feed 4095 newline [] (u.map Prod.snd)).2) ∧
      t.filterMap Prod.snd = (LineBuffer.feed 4095 newline [] (u.map Prod.snd)).1 :=
    LineBuffer.exec_push Prod.snd [] u
  cases hlines.symm.trans hfeed
  refine ⟨_, s', hdevice, ?_, ?_⟩
  · rw [← hprinted, List.filterMap_map, List.map_filterMap]
    rfl
  · rw [hpage.page, hpage.iptr, hpage.bytes]

/-- The device shows the same for two sequences if the lines of their bytes are the same. -/
theorem sameConsole_iff (h : SerialPage buffer s []) (u v : List (Nat × UInt8)) :
    SameConsole vm vpid s u v ↔ SameLines (u.map Prod.snd) (v.map Prod.snd) := by
  obtain ⟨t, s₁, hu, hprinted, hrest⟩ := exec_serialWrite vm vpid h u
  obtain ⟨t', s₂, hv, hprinted', hrest'⟩ := exec_serialWrite vm vpid h v
  -- the header in front of a line does not hide a difference
  have hheader : t.filterMap Prod.snd = t'.filterMap Prod.snd ↔
      (LineBuffer.feed 4095 newline [] (u.map Prod.snd)).1.map cString =
        (LineBuffer.feed 4095 newline [] (v.map Prod.snd)).1.map cString := by
    have hsplit : ∀ lines : List (List UInt8), lines.map (serialHeader vm vpid ++ cString ·) =
        (lines.map cString).map (serialHeader vm vpid ++ ·) := by simp
    rw [hprinted, hprinted', hsplit, hsplit]
    exact (List.map_injective_iff.2 (List.append_right_injective _)).eq_iff
  constructor
  · rintro ⟨r, s₃, r', s₄, hr, hr', hout, hbuf⟩
    cases hu.symm.trans hr
    cases hv.symm.trans hr'
    exact ⟨hheader.1 hout, by rw [← hrest, ← hrest', hbuf]⟩
  · rintro ⟨hlines, hleft⟩
    exact ⟨t, s₁, t', s₂, hu, hv, hheader.2 hlines, by rw [hrest, hrest', hleft]⟩

end

/-- Bytes other than 0 are all seen. -/
theorem sameLines_iff {bytes bytes' : List UInt8} (h : ∀ b ∈ bytes, b ≠ 0)
    (h' : ∀ b ∈ bytes', b ≠ 0) :
    SameLines bytes bytes' ↔ bytes = bytes' := by
  have hlines : ∀ {bs : List UInt8}, (∀ b ∈ bs, b ≠ 0) →
      (LineBuffer.feed 4095 newline [] bs).1.map cString =
        (LineBuffer.feed 4095 newline [] bs).1 := by
    intro bs hbs
    refine (List.map_congr_left fun line hline => cString_eq_self fun b hb => ?_).trans
      (List.map_id _)
    refine hbs b ?_
    rw [← List.nil_append bs, ← LineBuffer.feed_total 4095 newline [] bs]
    exact List.mem_append_left _ (List.mem_flatten.2 ⟨line, hline, hb⟩)
  constructor
  · rintro ⟨hprinted, hrest⟩
    rw [hlines h, hlines h'] at hprinted
    rw [← List.nil_append bytes, ← List.nil_append bytes', ← LineBuffer.feed_total 4095
      newline [] bytes, ← LineBuffer.feed_total 4095 newline [] bytes', hprinted, hrest]
  · rintro rfl
    exact ⟨rfl, rfl⟩

/-- **When only the data register transmits.** From the state that `pre_initialize_vmcs` leaves, for
any two sequences of writes: sequences with the same transmitted bytes look the same on the console
exactly if the lines of all their bytes, the set-up included, do; and without the byte 0 this means
that the same bytes were written. -/
theorem serial_console_iff {k k' : Kernel PhysicalMemory} {blob : VmcsBlob}
    (hpre : preInitializeVmcs k = some (blob, k')) (vm vpid : Nat) (u v : List (Nat × UInt8)) :
    ((transmits false u = transmits false v → SameConsole vm vpid (serialLineOf blob k') u v) ↔
      (transmits false u = transmits false v → SameLines (u.map Prod.snd) (v.map Prod.snd))) ∧
    ((∀ w ∈ u, w.2 ≠ 0) → (∀ w ∈ v, w.2 ≠ 0) →
      (SameLines (u.map Prod.snd) (v.map Prod.snd) ↔ u.map Prod.snd = v.map Prod.snd)) := by
  refine ⟨imp_congr_right fun _ => sameConsole_iff (serialPage_start hpre) u v, fun hu hv => ?_⟩
  exact sameLines_iff (List.forall_mem_map.2 hu) (List.forall_mem_map.2 hv)

/-- Two sequences that differ in a set-up byte behind a 0, which no line shows. -/
theorem serial_console_iff_sample : ∃ blob k', preInitializeVmcs identityKernel = some (blob, k') ∧
    SameConsole 0x7000 1 (serialLineOf blob k') [(0x3f8, 0), (0x3f9, 1), (0x3f8, 0x0a)]
      [(0x3f8, 0), (0x3f9, 2), (0x3f8, 0x0a)] := by
  obtain ⟨blob, k', hpre⟩ := preInitializeVmcs_identityKernel
  have hlines : SameLines [0, 1, 0x0a] [0, 2, 0x0a] := ⟨by decide, by decide⟩
  exact ⟨blob, k', hpre, (serial_console_iff hpre 0x7000 1 _ _).1.2 (fun _ => hlines) rfl⟩

/-- The writes of `serial_init`, the guest's set-up of the chip. -/
def serialInit : List (Nat × UInt8) :=
  [(0x3f9, 0x01), (0x3fb, 0x80), (0x3f8, 0x03), (0x3f9, 0x00), (0x3fb, 0x03),
    (0x3fa, 0xc7), (0x3fc, 0x0b)]

/-- **The set-up is seen.** `serial_init` transmits nothing; after it all its seven bytes are in the
line. -/
theorem serial_init_visible : ∃ blob k', preInitializeVmcs identityKernel = some (blob, k') ∧
    transmits false serialInit = transmits false [] ∧
    (∃ t s, exec (serialWrite 0x7000 1) (serialLineOf blob k') serialInit = some (t, s) ∧
      s.mem.bytes s.serialLineBuffer s.serialLineIptr =
        [0x01, 0x80, 0x03, 0x00, 0x03, 0xc7, 0x0b]) ∧
    ¬ SameConsole 0x7000 1 (serialLineOf blob k') serialInit [] := by
  obtain ⟨blob, k', hpre⟩ := preInitializeVmcs_identityKernel
  obtain ⟨t, s, hexec, -, hrest⟩ := exec_serialWrite 0x7000 1 (serialPage_start hpre) serialInit
  have hline : (LineBuffer.feed 4095 newline [] (serialInit.map Prod.snd)).2 =
      [0x01, 0x80, 0x03, 0x00, 0x03, 0xc7, 0x0b] := by decide
  refine ⟨blob, k', hpre, by decide, ⟨t, s, hexec, hrest.trans hline⟩, fun h => ?_⟩
  obtain ⟨-, hleft⟩ := (sameConsole_iff (serialPage_start hpre) serialInit []).1 h
  rw [hline] at hleft
  cases hleft

end ZeldaOS
