import Mathlib.Data.Fin.Basic
import Mathlib.Data.List.FinRange
import Mathlib.Logic.Function.Basic
import ZeldaOS.Lib.Run
import ZeldaOS.Lib64.Ring

/-!
# Virtual interrupts

Model of the part of the monitor that delivers interrupts to the guest: the request bits, their
injection and the interrupt window (`vm_monitor/vmx_event.c`), the emulated interrupt controller
(`device_8259pic.c`) and keyboard (`device_keyboard.c`), and the external interrupts of the host
that stand for the timer and the keyboard (`vmx_schedule.c`).

A line is requested by `raise_interrupt`, which also opens the interrupt window. The guest then
exits once it can take an interrupt, and `interrupt_window_exit_sub_handler` injects the first
requested line, unless one is in service. The guest ends the service with an EOI to the controller,
and the window exit after that one retires the line. The handlers run one at a time, in any order:
`Monitor.step` is the machine whose events are the exits, and its outputs say what each of them did.

A failed assertion or a panic halts the machine, which is the result `none`.
-/

namespace ZeldaOS

/-! ## State -/

/-- `struct pic8259_blob`. -/
structure Pic where
  masterPicCommand : UInt8
  slavePicCommand : UInt8
  masterPicData : UInt8
  slavePicData : UInt8
  isMasterPicInitializing : Bool
  isSlavePicInitializing : Bool
  masterPicOffset : UInt8
  slavePicOffset : UInt8
  interruptDeliveryPending : Bool
  interruptDeliveryVector : UInt8
deriving DecidableEq, Repr

/-- The fields of `struct pit8253_blob` that the timer reads. -/
structure Pit where
  threshold : Nat
  lastTsc : Nat
deriving DecidableEq, Repr

/-- The state of the monitor that interrupts use: the controller, the timer and the keyboard buffer
of `struct vmcs_blob`, `interrupt_request_bitmap`, and the fields of the VMCS that the handlers
write. -/
structure Monitor where
  pic : Pic
  pit : Pit
  kbd : Ring
  interruptRequestBitmap : Fin 15 → Bool
  /-- `CTLS_PRI_PROC_BASED_VM_EXECUTION`. -/
  procBasedControls : Nat
  /-- `VMENTRY_INTRRUPTION_INFO`. -/
  entryInterruptionInfo : Nat

/-- `PIC_INVALID_VECTOR`. -/
def picInvalidVector : UInt8 := 0xff

/-- `SCANCODE_BUFFER_LENGTH`. -/
def scancodeBufferLength : Nat := 0x32

/-- The state that `pre_initialize_vmcs` leaves, which clears the whole structure before it sets the
masks and the size of the keyboard buffer, with no request and the given VMCS fields. -/
def preInitialized (procBasedControls entryInterruptionInfo : Nat) : Monitor where
  pic :=
    { masterPicCommand := 0, slavePicCommand := 0, masterPicData := 0xff, slavePicData := 0xff
      isMasterPicInitializing := false, isSlavePicInitializing := false
      masterPicOffset := 0, slavePicOffset := 0
      interruptDeliveryPending := false, interruptDeliveryVector := 0 }
  pit := { threshold := 0, lastTsc := 0 }
  kbd := Ring.empty scancodeBufferLength
  interruptRequestBitmap := fun _ => false
  procBasedControls := procBasedControls
  entryInterruptionInfo := entryInterruptionInfo

/-! ## The interrupt controller -/

/-- `ICW1_INIT`. -/
def icw1Init : UInt8 := 0x10

/-- `PIC_EOI`. -/
def picEoi : UInt8 := 0x20

/-- `master_pic_outb`. -/
def masterPicOutb (pic : Pic) (portId : Nat) (byte : UInt8) : Option Pic :=
  if portId = 0x20 then
    let pic := { pic with masterPicCommand := byte }
    let pic := if byte &&& icw1Init ≠ 0 then { pic with isMasterPicInitializing := true } else pic
    some (if byte = picEoi then { pic with interruptDeliveryPending := false } else pic)
  else if portId = 0x21 then
    let pic := { pic with masterPicData := byte }
    some (if pic.isMasterPicInitializing then
      { pic with masterPicOffset := byte, isMasterPicInitializing := false } else pic)
  else none

/-- `slave_pic_outb`. -/
def slavePicOutb (pic : Pic) (portId : Nat) (byte : UInt8) : Option Pic :=
  if portId = 0xa0 then
    let pic := { pic with slavePicCommand := byte }
    let pic := if byte &&& icw1Init ≠ 0 then { pic with isSlavePicInitializing := true } else pic
    some (if byte = picEoi then { pic with interruptDeliveryPending := false } else pic)
  else if portId = 0xa1 then
    let pic := { pic with slavePicData := byte }
    some (if pic.isSlavePicInitializing then
      { pic with slavePicOffset := byte, isSlavePicInitializing := false } else pic)
  else none

/-- The write handler of a port of the controller, as `vmx_chipset_8259pic_preinit` registers
them. -/
def picOutb (pic : Pic) (portId : Nat) (byte : UInt8) : Option Pic :=
  if portId = 0x20 ∨ portId = 0x21 then masterPicOutb pic portId byte
  else slavePicOutb pic portId byte

/-- `master_pic_inb`: only the data port can be read. -/
def masterPicInb (pic : Pic) (portId : Nat) : Option UInt8 :=
  if portId = 0x21 then some pic.masterPicData else none

/-- `slave_pic_inb`. -/
def slavePicInb (pic : Pic) (portId : Nat) : Option UInt8 :=
  if portId = 0xa1 then some pic.slavePicData else none

/-! ## Requests -/

/-- `is_interrupt_pin_masked`. The shift by `vector - 8` is the machine's, by the low five bits of
the count. -/
def isInterruptPinMasked (pic : Pic) (vector : Nat) : Bool :=
  (vector ≤ 7 && pic.masterPicData.toNat.testBit vector) ||
    pic.slavePicData.toNat.testBit ((vector + 24) % 32)

/-- `enable_interrupt_window`: bit 2 of the processor-based controls. -/
def enableInterruptWindow (m : Monitor) : Monitor :=
  { m with procBasedControls := m.procBasedControls ||| 1 <<< 2 }

/-- `disable_interrupt_window`. -/
def disableInterruptWindow (m : Monitor) : Monitor :=
  { m with procBasedControls := m.procBasedControls &&& (2 ^ 64 - 1 - 1 <<< 2) }

/-- `raise_interrupt`; the result is the line, unless it is masked. -/
def raiseInterrupt (m : Monitor) (vector : Nat) : Option (Option (Fin 15) × Monitor) :=
  if h : vector < 15 then
    if isInterruptPinMasked m.pic vector then some (none, m)
    else
      some (some ⟨vector, h⟩, enableInterruptWindow
        { m with
          interruptRequestBitmap := Function.update m.interruptRequestBitmap ⟨vector, h⟩ true })
  else none

/-! ## The interrupt window -/

/-- The value that `inject_external_event` writes. The constant `1 << 31` is negative and is sign
extended. -/
def injectedInfo (vector : Nat) : Nat := (vector &&& 0xff) ||| 0xffffffff80000000

/-- The first part of `interrupt_window_exit_sub_handler`: retire the line delivered the last time.
The result is the line whose request is cleared. The request of the keyboard is kept until its
buffer is empty. -/
def retireDelivered (m : Monitor) : Option (Option (Fin 15) × Monitor) :=
  let vector := m.pic.interruptDeliveryVector
  if vector = picInvalidVector then some (none, m)
  else if h : vector.toNat < 15 then
    let cleared : Monitor :=
      { m with
        interruptRequestBitmap := Function.update m.interruptRequestBitmap ⟨vector.toNat, h⟩ false
        pic := { m.pic with interruptDeliveryVector := picInvalidVector } }
    if vector = 1 then
      let kbd := m.kbd.ringDequeue.2
      if kbd.ringEmpty then some (some ⟨vector.toNat, h⟩, { cleared with kbd := kbd })
      else some (none, { m with kbd := kbd })
    else some (some ⟨vector.toNat, h⟩, cleared)
  else none

/-- The first requested line. -/
def firstRequest (bitmap : Fin 15 → Bool) : Option (Fin 15) := (List.finRange 15).find? bitmap

/-- The second part: inject the first requested line, if any. -/
def deliverNext (m : Monitor) : Option (Fin 15) × Monitor :=
  match firstRequest m.interruptRequestBitmap with
  | none => (none, m)
  | some idx =>
    (some idx,
      { m with
        entryInterruptionInfo := injectedInfo (m.pic.masterPicOffset.toNat + idx)
        pic := { m.pic with
          interruptDeliveryVector := UInt8.ofNat idx
          interruptDeliveryPending := true } })

/-- The lines that a window exit retires and injects. -/
structure WindowResult where
  cleared : Option (Fin 15)
  injected : Option (Fin 15)
deriving DecidableEq, Repr

/-- `interrupt_window_exit_sub_handler`, with the guest's flags at the exit. -/
def interruptWindowExit (m : Monitor) (rflags : Nat) : Option (WindowResult × Monitor) :=
  if !rflags.testBit 9 then none
  else if m.pic.interruptDeliveryPending then some (⟨none, none⟩, m)
  else
    (retireDelivered m).map fun retired =>
      let next := deliverNext retired.2
      (⟨retired.1, next.1⟩,
        if next.2.pic.interruptDeliveryPending then next.2 else disableInterruptWindow next.2)

/-! ## Devices -/

/-- `CPU_FREQUENCY`. -/
def cpuFrequency : Nat := 2494254000

/-- The milliseconds since the last timer interrupt. -/
def diffMseconds (pit : Pit) (currTsc : Nat) : Nat :=
  (currTsc + 2 ^ 64 - pit.lastTsc) % 2 ^ 64 * 1000 % 2 ^ 64 / cpuFrequency

/-- The timer interrupt of the host (vector 0x20 of `external_interrupt_sub_handler`): the guest's
timer line is raised when its threshold is passed. -/
def timerInterrupt (m : Monitor) (currTsc : Nat) : Option (Option (Fin 15) × Monitor) :=
  let result :=
    if m.pit.lastTsc ≠ 0 ∧ diffMseconds m.pit currTsc ≥ m.pit.threshold then raiseInterrupt m 0
    else some (none, m)
  result.map fun (raised, m) => (raised, { m with pit := { m.pit with lastTsc := currTsc } })

/-- The keyboard interrupt of the host (vector 0x21): the byte read from the keyboard's port goes to
the guest's buffer. If that byte is 0 the variable keeps the value `stale` it had on the stack. The
first result is the byte, if the buffer had room. -/
def keyboardInterrupt (m : Monitor) (code stale : UInt8) :
    Option (Option UInt8 × Option (Fin 15) × Monitor) :=
  let scancode := if code = 0 then stale else code
  let enqueued := m.kbd.ringEnqueue scancode
  let accepted := if enqueued.1 = 1 then some scancode else none
  (raiseInterrupt { m with kbd := enqueued.2 } 1).map fun (raised, m) => (accepted, raised, m)

/-- The byte that port 0x60 gives: the next scancode of the buffer, which stays there, or 0. -/
def keyboardByte (kbd : Ring) : UInt8 := if kbd.ringEmpty then 0 else kbd.ringPeek

/-- `keyboard_data_inb`: the guest reads port 0x60. -/
def keyboardDataInb (m : Monitor) : UInt8 := keyboardByte m.kbd

/-! ## The machine -/

/-- The exits that concern interrupts. -/
inductive Event
  /-- A device raises a line. -/
  | raise (vector : Nat)
  /-- The interrupt window is open; the guest has the given flags. -/
  | windowExit (rflags : Nat)
  /-- The guest writes a byte to a port of the interrupt controller. -/
  | picWrite (portId : Nat) (byte : UInt8)
  /-- The timer of the host interrupts. -/
  | timer (currTsc : Nat)
  /-- The keyboard of the host interrupts. -/
  | keyboard (code stale : UInt8)
  /-- The guest reads the keyboard's data port. -/
  | keyboardRead
deriving DecidableEq, Repr

/-- What an exit did: the line it requested, the lines it retired and injected, the scancode it put
in the keyboard buffer, and the byte it returned to the guest. -/
structure Output where
  raised : Option (Fin 15) := none
  cleared : Option (Fin 15) := none
  injected : Option (Fin 15) := none
  accepted : Option UInt8 := none
  value : Option UInt8 := none
deriving DecidableEq, Repr

/-- One exit. -/
def Monitor.step (m : Monitor) : Event → Option (Output × Monitor)
  | .raise vector => (raiseInterrupt m vector).map fun (raised, m) => ({ raised }, m)
  | .windowExit rflags =>
    (interruptWindowExit m rflags).map fun (r, m) =>
      ({ cleared := r.cleared, injected := r.injected }, m)
  | .picWrite portId byte => (picOutb m.pic portId byte).map fun pic => ({}, { m with pic })
  | .timer currTsc => (timerInterrupt m currTsc).map fun (raised, m) => ({ raised }, m)
  | .keyboard code stale =>
    (keyboardInterrupt m code stale).map fun (accepted, raised, m) => ({ raised, accepted }, m)
  | .keyboardRead => some ({ value := some (keyboardDataInb m) }, m)

/-- All exits of the guest. Those that do not concern interrupts leave the controller, the requests,
the keyboard buffer and the controls alone; a write to a port of the timer may set its fields. -/
inductive Exit
  | interrupt (e : Event)
  | other (pit : Pit)
deriving DecidableEq, Repr

/-- One exit of any kind. -/
def Monitor.exitStep (m : Monitor) : Exit → Option (Output × Monitor)
  | .interrupt e => m.step e
  | .other pit => some ({}, { m with pit })

end ZeldaOS
