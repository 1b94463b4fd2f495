import ZeldaOS.VmMonitor.Device8253Pit
import ZeldaOS.VmMonitor.DeviceVideo
import ZeldaOS.VmMonitor.SerialPorts
import ZeldaOS.VmMonitor.VmExitCorrect

/-!
# The monitor with its devices

The devices of the monitor together, registered as `vm_monitor_init` and `device_video_init` do,
behind the handler of VM exits (`monitorEmulation`). A port access goes through the registry of the
ports to the callback of a device, and a memory access through the registry of the regions.
`portExit_cases` and `mmioExit_cases` say once what such an exit may do to the devices.

Between two exits the guest runs, and may leave any memory where its EPT lets it (`runGuest`).
-/

namespace ZeldaOS

/-! ## The devices -/

/-- What the monitor knows of the VM: what its log lines name, and the addresses that it keeps. -/
structure MonitorConfig extends VmLog where
  memEnd : Nat
  pml4Base : Nat
  eptPml4Base : Nat

/-- The state of the devices, with the memory of the host and what was printed on its console. -/
structure Devices where
  pic : Pic
  pit : PitBlob
  kbd : Ring
  interruptRequestBitmap : Fin 15 → Bool
  line : SerialLine
  printed : List (List UInt8)

/-- The devices with another memory. -/
def Devices.setMem (d : Devices) (mem : Memory) : Devices := { d with line := { d.line with mem } }

/-- An operation of `vmx_device_serial_preinit`. -/
def devicesSerial (cfg : MonitorConfig) (idx : Nat) : PortioOperation (PortioCallback Devices) where
  portid := 0x3f8 + idx
  callInb := some (.inb fun portId d => (deviceSerialInb portId).map fun byte => (byte, d))
  callOutb :=
    some (.outb fun _ byte d => (deviceSerialOutb cfg.vm cfg.vpid d.line byte).map fun r =>
      { d with line := r.2, printed := d.printed ++ r.1.toList })

/-- An operation of `vmx_chipset_8259pic_preinit` for the master. -/
def devicesMaster (idx : Nat) : PortioOperation (PortioCallback Devices) where
  portid := 0x20 + idx
  callInb := some (.inb fun portId d => (masterPicInb d.pic portId).map fun byte => (byte, d))
  callOutb :=
    some (.outb fun portId byte d => (masterPicOutb d.pic portId byte).map fun pic =>
      { d with pic })

/-- An operation of `vmx_chipset_8259pic_preinit` for the slave. -/
def devicesSlave (idx : Nat) : PortioOperation (PortioCallback Devices) where
  portid := 0xa0 + idx
  callInb := some (.inb fun portId d => (slavePicInb d.pic portId).map fun byte => (byte, d))
  callOutb :=
    some (.outb fun portId byte d => (slavePicOutb d.pic portId byte).map fun pic =>
      { d with pic })

/-- An operation of `vmx_chipset_8253pit_preinit`. -/
def devicesPit (idx : Nat) : PortioOperation (PortioCallback Devices) where
  portid := 0x40 + idx
  callOutb :=
    some (.outb fun portId byte d => (pitCallback portId byte d.pit).map fun pit =>
      { d with pit })

/-- `keyboard_data_inb`. -/
def keyboardInb (portId : Nat) (d : Devices) : Option (UInt8 × Devices) :=
  if portId = 0x60 then some (keyboardByte d.kbd, d) else none

/-- The operation of `vmx_device_keyboard_preinit`. -/
def devicesKeyboard : PortioOperation (PortioCallback Devices) where
  portid := 0x60
  callInb := some (.inb keyboardInb)

/-- The operations in the order in which `vm_monitor_init` registers them. -/
def portOperations (cfg : MonitorConfig) : List (PortioOperation (PortioCallback Devices)) :=
  (List.range 6).map (devicesSerial cfg) ++
    (List.range 2).flatMap (fun idx => [devicesMaster idx, devicesSlave idx]) ++
    (List.range 4).map devicesPit ++ [devicesKeyboard]

/-- The callbacks of a device that works on memory. -/
def MmioOperation.onMemory (mmio : MmioOperation Memory) : MmioOperation Devices where
  mmioRead := mmio.mmioRead.map fun read addr accessSize d =>
    (read addr accessSize d.line.mem).map fun r => (r.1, d.setMem r.2)
  mmioWrite := mmio.mmioWrite.map fun write addr accessSize value d =>
    (write addr accessSize value d.line.mem).map d.setMem

/-- The lookup of a region, with its callbacks. -/
def searchRegions (mmioOps : List (MmioRegion Memory)) (guestPa : Nat) :
    Option (MmioOperation Devices) :=
  (mmioCallback mmioOps guestPa).join.map fun mmio => mmio.callbacks.onMemory

/-- The monitor with its devices. -/
def monitorEmulation (cfg : MonitorConfig)
    (portioOps : List (PortioOperation (PortioCallback Devices)))
    (mmioOps : List (MmioRegion Memory)) : Emulation Devices where
  log := cfg.toVmLog
  printk d text := { d with printed := d.printed ++ [text] }
  portioOps := portioOps
  searchMmioCallback := searchRegions mmioOps
  host d := ⟨d.line.mem, cfg.memEnd, cfg.pml4Base, cfg.eptPml4Base⟩
  interrupts d := ⟨d.pic, d.pit.toPit, d.kbd, d.interruptRequestBitmap⟩
  setInterrupts d i :=
    { d with
      pic := i.pic
      pit := { d.pit with toPit := i.pit }
      kbd := i.kbd
      interruptRequestBitmap := i.interruptRequestBitmap }

/-- The guest runs, leaves its memory and exits. -/
structure GuestRun where
  mem : Memory
  exit : VmExit

/-- The guest runs to its next exit, and the monitor handles it. -/
def runGuest (e : Emulation Devices) (s : ExitState Devices) (x : GuestRun) :
    Option (Unit × ExitState Devices) :=
  vmExitStep e { s with devices := s.devices.setMem x.mem } x.exit

/-! ## Ports -/

/-- The basic reason of an exit. -/
def VmExit.reason (x : VmExit) : Nat := x.vmcs vmexitReason &&& 0xffff

/-- The port of an exit by a port access. -/
def VmExit.port (x : VmExit) : Nat := qualifiedPort (x.vmcs vmexitQualification)

/-- The guest writes to one of the given ports. -/
def VmExit.Writes (x : VmExit) (ports : List Nat) : Prop :=
  x.reason = 30 ∧ qualifiedDirection (x.vmcs vmexitQualification) = 0 ∧ x.port ∈ ports

instance (x : VmExit) (ports : List Nat) : Decidable (x.Writes ports) :=
  inferInstanceAs (Decidable (_ ∧ _))

/-- The ports of the serial line. -/
def serialPorts : List Nat := [0x3f8, 0x3f9, 0x3fa, 0x3fb, 0x3fc, 0x3fd]

/-- The ports of the interrupt controller. -/
def picPorts : List Nat := [0x20, 0x21, 0xa0, 0xa1]

/-- The ports of the timer. -/
def pitPorts : List Nat := [0x40, 0x41, 0x42, 0x43]

/-- What a write to a port does to the devices. -/
inductive PortWrite (cfg : MonitorConfig) (portId : Nat) (byte : UInt8) (d : Devices) :
    Devices → Prop
  | serial {r : Option (List UInt8) × SerialLine} : portId ∈ serialPorts →
      deviceSerialOutb cfg.vm cfg.vpid d.line byte = some r →
      PortWrite cfg portId byte d { d with line := r.2, printed := d.printed ++ r.1.toList }
  | pic {pic : Pic} : portId ∈ picPorts → picOutb d.pic portId byte = some pic →
      PortWrite cfg portId byte d { d with pic }
  | pit {pit : PitBlob} : portId ∈ pitPorts → pitCallback portId byte d.pit = some pit →
      PortWrite cfg portId byte d { d with pit }

section
variable {cfg : MonitorConfig} {op : PortioOperation (PortioCallback Devices)} {d d' : Devices}

/-- The registered operations, device by device. -/
theorem mem_portOperations (h : op ∈ portOperations cfg) :
    (∃ idx < 6, op = devicesSerial cfg idx) ∨ (∃ idx < 2, op = devicesMaster idx) ∨
      (∃ idx < 2, op = devicesSlave idx) ∨ (∃ idx < 4, op = devicesPit idx) ∨
        op = devicesKeyboard := by
  simp only [portOperations, List.mem_append, List.mem_map, List.mem_range, List.mem_flatMap,
    List.mem_cons, List.not_mem_nil, or_false] at h
  rcases h with ((⟨idx, hidx, rfl⟩ | ⟨idx, hidx, rfl | rfl⟩) | ⟨idx, hidx, rfl⟩) | rfl
  · exact .inl ⟨idx, hidx, rfl⟩
  · exact .inr (.inl ⟨idx, hidx, rfl⟩)
  · exact .inr (.inr (.inl ⟨idx, hidx, rfl⟩))
  · exact .inr (.inr (.inr (.inl ⟨idx, hidx, rfl⟩)))
  · exact .inr (.inr (.inr (.inr rfl)))

/-- A write to a port reaches the device of the port. -/
theorem callOutb_devices {byte : UInt8} (hop : op ∈ portOperations cfg)
    (h : callOutb op op.portid byte d = some d') : PortWrite cfg op.portid byte d d' := by
  rcases mem_portOperations hop with ⟨idx, hidx, rfl⟩ | ⟨idx, hidx, rfl⟩ | ⟨idx, hidx, rfl⟩ |
    ⟨idx, hidx, rfl⟩ | rfl
  · obtain ⟨r, hr, rfl⟩ := Option.map_eq_some_iff.1 h
    have hport : ∀ idx < 6, 0x3f8 + idx ∈ serialPorts := by decide
    exact .serial (hport idx hidx) hr
  · obtain ⟨pic, hpic, rfl⟩ := Option.map_eq_some_iff.1 h
    have hport : ∀ idx < 2, 0x20 + idx ∈ picPorts ∧ (0x20 + idx = 0x20 ∨ 0x20 + idx = 0x21) := by
      decide
    exact .pic (hport idx hidx).1 ((if_pos (hport idx hidx).2).trans hpic)
  · obtain ⟨pic, hpic, rfl⟩ := Option.map_eq_some_iff.1 h
    have hport : ∀ idx < 2, 0xa0 + idx ∈ picPorts ∧ ¬ (0xa0 + idx = 0x20 ∨ 0xa0 + idx = 0x21) := by
      decide
    exact .pic (hport idx hidx).1 ((if_neg (hport idx hidx).2).trans hpic)
  · obtain ⟨pit, hpit, rfl⟩ := Option.map_eq_some_iff.1 h
    have hport : ∀ idx < 4, 0x40 + idx ∈ pitPorts := by decide
    exact .pit (hport idx hidx) hpit
  · cases h

/-- A read from a port leaves the devices as they are, and one from the keyboard gives its next
byte. -/
theorem callInb_devices {r : UInt8 × Devices} (hop : op ∈ portOperations cfg)
    (h : callInb op op.portid d = some r) :
    r.2 = d ∧ (op.portid = 0x60 → r.1 = keyboardByte d.kbd) := by
  have hother : ∀ {byte : Option UInt8}, op.portid ≠ 0x60 →
      byte.map (fun byte => (byte, d)) = some r →
      r.2 = d ∧ (op.portid = 0x60 → r.1 = keyboardByte d.kbd) := by
    intro byte hne hbyte
    obtain ⟨byte, -, rfl⟩ := Option.map_eq_some_iff.1 hbyte
    exact ⟨rfl, fun hport => absurd hport hne⟩
  rcases mem_portOperations hop with ⟨idx, hidx, rfl⟩ | ⟨idx, hidx, rfl⟩ | ⟨idx, hidx, rfl⟩ |
    ⟨idx, hidx, rfl⟩ | rfl
  · exact hother (show 0x3f8 + idx ≠ 0x60 by omega) h
  · exact hother (show 0x20 + idx ≠ 0x60 by omega) h
  · exact hother (show 0xa0 + idx ≠ 0x60 by omega) h
  · cases h
  · change keyboardInb 0x60 d = some r at h
    rw [keyboardInb, if_pos rfl] at h
    cases h
    exact ⟨rfl, fun _ => rfl⟩

/-- The registrations succeed. -/
theorem portOperations_registered (cfg : MonitorConfig) :
    ∃ xs, (portOperations cfg).foldlM registerPioOperation [] = some xs ∧ PortsOk xs ∧
      xs ⊆ portOperations cfg ∧ ∀ p, (xs.find? fun x => x.portid = p) =
        lastRegistered (portOperations cfg) p := by
  have hlt : ∀ op ∈ portOperations cfg, op.portid < 2 ^ 16 := by
    have hall : ∀ portId ∈ (portOperations cfg).map (·.portid), portId < 2 ^ 16 := by
      show ∀ portId ∈ [0x3f8, 0x3f9, 0x3fa, 0x3fb, 0x3fc, 0x3fd, 0x20, 0xa0, 0x21, 0xa1,
        0x40, 0x41, 0x42, 0x43, 0x60], portId < 2 ^ 16
      decide
    exact fun op hop => hall op.portid (List.mem_map_of_mem hop)
  have hcount : ((portOperations cfg).map (·.portid)).dedup.length ≤ maxPortsSupported :=
    ((List.dedup_sublist _).length_le).trans (by decide : 15 ≤ maxPortsSupported)
  exact foldlM_registerPioOperation hlt hcount

/-- A port that is found is one of the registered operations. -/
theorem portioCallback_mem {portioOps : List (PortioOperation (PortioCallback Devices))}
    {portId : Nat} (hports : (portOperations cfg).foldlM registerPioOperation [] = some portioOps)
    (h : portioCallback portioOps portId = some (some op)) (hport : portId < 2 ^ 16) :
    op ∈ portOperations cfg ∧ op.portid = portId := by
  obtain ⟨xs, hxs, hok, hsub, -⟩ := portOperations_registered cfg
  cases hports.symm.trans hxs
  rw [hok.portioCallback hport] at h
  obtain ⟨hmem, heq⟩ := hok.find?_eq_some.1 (Option.some.inj h)
  exact ⟨hsub hmem, heq⟩

/-- An access of the guest to a port, by the callbacks of an operation. -/
theorem emulatePortAccess_cases {D : Type} {ops : PortioOperation (PortioCallback D)}
    {accessSize accessDirec portId : Nat} {g g' : Guest D}
    (h : emulatePortAccess ops accessSize accessDirec portId g = some g') :
    (accessDirec = 0 ∧ ∃ devices, callOutb ops portId (UInt8.ofNat g.vcpu.state.rax) g.devices =
      some devices ∧ g' = { g with devices }) ∨
    (accessDirec ≠ 0 ∧ ∃ r, callInb ops portId g.devices = some r ∧
      g'.vcpu.state.rax = r.1.toNat ∧ g'.devices = r.2) := by
  rw [emulatePortAccess] at h
  split at h
  · split at h
    · next hdirec =>
      obtain ⟨devices, hcall, rfl⟩ := Option.map_eq_some_iff.1 h
      exact .inl ⟨hdirec, devices, hcall, rfl⟩
    · next hdirec =>
      obtain ⟨r, hcall, rfl⟩ := Option.map_eq_some_iff.1 h
      exact .inr ⟨hdirec, r, hcall, rfl, rfl⟩
  · cases h

/-- The handler of port accesses finds an operation and calls it. -/
theorem ioInstruction_cases {D : Type} {ops : List (PortioOperation (PortioCallback D))}
    {exitQualification instructionLength : Nat} {g g' : Guest D}
    (h : ioInstructionExitSubHandler ops exitQualification instructionLength g = some g') :
    ∃ op g₁, portioCallback ops (qualifiedPort exitQualification) = some (some op) ∧
      emulatePortAccess op (exitQualification &&& 7) (qualifiedDirection exitQualification)
        (qualifiedPort exitQualification) g = some g₁ ∧
          g' = gotoNextInstruction g₁ instructionLength := by
  rw [ioInstructionExitSubHandler] at h
  split at h
  · obtain ⟨op, hop, hcall⟩ := Option.bind_eq_some_iff.1 h
    obtain ⟨g₁, hg₁, rfl⟩ := Option.map_eq_some_iff.1 hcall
    exact ⟨op, g₁, Option.join_eq_some_iff.1 hop, hg₁, rfl⟩
  · cases h

/-- The qualification has 16 bits for the port. -/
theorem qualifiedPort_lt (exitQualification : Nat) : qualifiedPort exitQualification < 2 ^ 16 :=
  Nat.lt_of_le_of_lt Nat.and_le_right (by decide)

/-- **An exit by a port access.** -/
theorem portExit_cases {portioOps : List (PortioOperation (PortioCallback Devices))}
    {exitQualification instructionLength : Nat} {g g' : Guest Devices}
    (hports : (portOperations cfg).foldlM registerPioOperation [] = some portioOps)
    (h : ioInstructionExitSubHandler portioOps exitQualification instructionLength g = some g') :
    (qualifiedDirection exitQualification = 0 ∧
      PortWrite cfg (qualifiedPort exitQualification) (UInt8.ofNat g.vcpu.state.rax)
        g.devices g'.devices) ∨
    (qualifiedDirection exitQualification ≠ 0 ∧ g'.devices = g.devices ∧
      (qualifiedPort exitQualification = 0x60 →
        g'.vcpu.state.rax = (keyboardByte g.devices.kbd).toNat)) := by
  obtain ⟨op, g₁, hop, haccess, rfl⟩ := ioInstruction_cases h
  obtain ⟨hmem, hport⟩ := portioCallback_mem hports hop (qualifiedPort_lt _)
  rw [← hport] at haccess ⊢
  rcases emulatePortAccess_cases haccess with ⟨hout, d', hcall, rfl⟩
    | ⟨hin, r, hcall, hrax, hdevices⟩
  · exact .inl ⟨hout, callOutb_devices hmem hcall⟩
  · obtain ⟨hsame, hkeyboard⟩ := callInb_devices hmem hcall
    refine .inr ⟨hin, hdevices.trans hsame, fun hkbd => ?_⟩
    rw [← hkeyboard hkbd]
    exact hrax

end

/-! ## Memory accesses -/

/-- A call of a callback of a region, as the handler describes it, on the memory of the host. -/
inductive MmioCall (callbacks : MmioOperation Memory) (m : Memory) : MmioAccess → Memory → Prop
  | read {read : Nat → Nat → Memory → Option (Nat × Memory)} {addr accessSize value : Nat}
      {m' : Memory} :
      callbacks.mmioRead = some read → read addr accessSize m = some (value, m') →
      MmioCall callbacks m ⟨addr, addr, accessSize, none⟩ m'
  | write {write : Nat → Nat → Nat → Memory → Option Memory} {addr accessSize value : Nat}
      {m' : Memory} :
      callbacks.mmioWrite = some write → write addr accessSize value m = some m' →
      MmioCall callbacks m ⟨addr, addr, accessSize, some value⟩ m'

section
variable {mmioOps : List (MmioRegion Memory)} {g g' : Guest Devices} {a : MmioAccess}
  {c : InstructionContext}

/-- What a memory access does to the devices: a call of a region's callback. -/
def MmioEffect (mmioOps : List (MmioRegion Memory)) (a : MmioAccess) (d d' : Devices) : Prop :=
  ∃ region mem, mmioCallback mmioOps a.called = some (some region) ∧
    MmioCall region.callbacks d.line.mem a mem ∧ d' = d.setMem mem

/-- A read of the guest calls the callback for reads. -/
theorem emulateRead_effect (h : emulateRead (searchRegions mmioOps) c g = some (a, g')) :
    MmioEffect mmioOps a g.devices g'.devices ∧ a.called = vcpuGetGpRegiter g.vcpu c.rmIndex := by
  obtain ⟨mmio, hmmio, hread⟩ := Option.bind_eq_some_iff.1 h
  obtain ⟨read, hcallback, hcall⟩ := Option.bind_eq_some_iff.1 hread
  obtain ⟨v, hv, heq⟩ := Option.map_eq_some_iff.1 hcall
  cases heq
  obtain ⟨region, hregion, rfl⟩ := Option.map_eq_some_iff.1 hmmio
  obtain ⟨read', hread', rfl⟩ := Option.map_eq_some_iff.1 hcallback
  obtain ⟨v', hv', rfl⟩ := Option.map_eq_some_iff.1 hv
  exact ⟨⟨region, v'.2, Option.join_eq_some_iff.1 hregion, .read hread' hv', rfl⟩, rfl⟩

/-- A write of the guest calls the callback for writes. -/
theorem emulateWrite_effect {value : Nat} (h : emulateWrite (searchRegions mmioOps) c value g =
      some (a, g')) :
    MmioEffect mmioOps a g.devices g'.devices ∧ a.called = vcpuGetGpRegiter g.vcpu c.rmIndex := by
  obtain ⟨mmio, hmmio, hwrite⟩ := Option.bind_eq_some_iff.1 h
  obtain ⟨write, hcallback, hcall⟩ := Option.bind_eq_some_iff.1 hwrite
  obtain ⟨d', hd', heq⟩ := Option.map_eq_some_iff.1 hcall
  cases heq
  obtain ⟨region, hregion, rfl⟩ := Option.map_eq_some_iff.1 hmmio
  obtain ⟨write', hwrite', rfl⟩ := Option.map_eq_some_iff.1 hcallback
  obtain ⟨mem, hmem, rfl⟩ := Option.map_eq_some_iff.1 hd'
  exact ⟨⟨region, mem, Option.join_eq_some_iff.1 hregion, .write hwrite' hmem, rfl⟩, rfl⟩

/-- **An exit by a memory access.** Its address is in a register. -/
theorem mmioExit_cases {host : Host}
    (h : eptMisconfigExitSubHandler host (searchRegions mmioOps) g = some (a, g')) :
    MmioEffect mmioOps a g.devices g'.devices ∧
      ∃ index, a.called = vcpuGetGpRegiter g.vcpu index := by
  obtain ⟨stream, -, hdecode⟩ := Option.bind_eq_some_iff.1 h
  obtain ⟨c, -, haccess⟩ := Option.bind_eq_some_iff.1 hdecode
  obtain ⟨⟨a', g₁⟩, hr, heq⟩ := Option.map_eq_some_iff.1 haccess
  cases heq
  have heffect : MmioEffect mmioOps a' g.devices g₁.devices ∧
      a'.called = vcpuGetGpRegiter g.vcpu c.rmIndex := by
    rw [emulateAccess] at hr
    split at hr
    · exact emulateRead_effect hr
    · exact emulateWrite_effect hr
    · exact emulateWrite_effect hr
    · cases hr
  exact ⟨heffect.1, c.rmIndex, heffect.2⟩

end

/-! ## An exit by OUT -/

/-- A VM at 0x7000 with `vpid` 1. -/
def sampleConfig : MonitorConfig where
  vm := 0x7000
  vpid := 1
  cr3Site := ⟨literal ['v', 'm', 'x', '_', 'e', 'x', 'i', 't', '.', 'c'], 36⟩
  msrSite := ⟨literal ['v', 'm', 'x', '_', 'e', 'x', 'i', 't', '.', 'c'], 81⟩
  memEnd := 0
  pml4Base := 0
  eptPml4Base := 0

/-- An exit by an OUT of a byte. -/
def outExit (portId : Nat) (byte : UInt8) : VmExit where
  vmcs := fun field =>
    if field = vmexitReason then 30 else if field = vmexitQualification then portId <<< 16 else 0
  vcpu := ⟨0, 0, 0, 0, 0, 0, 0, 0, 0, 0, 0, 0, 0, 0, 0, byte.toNat⟩
  input := ⟨0, 0, 0⟩

/-- The monitor calls the callback of the port. -/
theorem runGuest_out (cfg : MonitorConfig)
    {portioOps : List (PortioOperation (PortioCallback Devices))}
    (mmioOps : List (MmioRegion Memory)) (s : ExitState Devices) {d : Devices}
    {portId : Nat} {byte : UInt8} (mem : Memory) {op : PortioOperation (PortioCallback Devices)}
    {callback : Nat → UInt8 → Devices → Option Devices} (hport : portId < 2 ^ 16)
    (hlookup : portioCallback portioOps portId = some (some op))
    (hcall : op.callOutb = some (.outb callback))
    (hcallback : callback portId byte (s.devices.setMem mem) = some d) :
    ∃ s', runGuest (monitorEmulation cfg portioOps mmioOps) s ⟨mem, outExit portId byte⟩ =
      some ((), s') ∧ s'.devices = d := by
  have hbyte : UInt8.ofNat (outExit portId byte).vcpu.rax = byte := UInt8.ofNat_toNat
  have hcallback' : callback portId (UInt8.ofNat (outExit portId byte).vcpu.rax)
      (s.devices.setMem mem) = some d := by
    rw [hbyte, hcallback]
  generalize hg : ExitState.guest
    ⟨adjustLma (outExit portId byte).vmcs, (outExit portId byte).vcpu, s.devices.setMem mem⟩ = g
  have hhandler : ioInstructionExitSubHandler portioOps (portId <<< 16) 0 g =
      some (gotoNextInstruction { g with devices := d } 0) := by
    rw [ioInstructionExitSubHandler_outb hport hlookup hcall 0 g, ← hg]
    exact congrArg (Option.map _) hcallback'
  have hqualification : (exitInfo (adjustLma (outExit portId byte).vmcs)).exitQualification =
    portId <<< 16 :=
    (adjustLma_of_ne (show vmexitQualification ≠ guestIa32Efer by decide) _).trans rfl
  have hlength : (exitInfo (adjustLma (outExit portId byte).vmcs)).instructionLength = 0 :=
    (adjustLma_of_ne (show vmexitInstructionLength ≠ guestIa32Efer by decide) _).trans rfl
  rw [runGuest, vmExitStep,
    vmExitHandlerEntry_eq (show (outExit portId byte).vmcs vmexitReason = 30 from rfl)
      (by decide) rfl]
  dsimp only
  rw [hqualification, hlength, hg]
  exact ⟨_, congrArg (Option.map fun s' => ((), s')) (congrArg (Option.map _) hhandler), rfl⟩

end ZeldaOS
