import ZeldaOS.VmMonitor.Device8253Pit
import ZeldaOS.VmMonitor.KeyboardCorrect
import ZeldaOS.VmMonitor.WindowCorrect

/-!
# The monitor and its guest

The guest of `guest/` as the other party of the interrupt protocol. It boots with interrupts
disabled, and programs the controller and the timer on the way (`guestBoot`). Then it waits in its
idle loop; its `interrupt_handler` calls the handler of the vector and writes the EOI, with
interrupts disabled until `iretq`. Together with the monitor and the interrupts of the host this is
a closed system (`systemStep`), whose parties move in any order from the launch on.

No order of their steps makes the monitor halt or the guest meet a vector without a handler, and the
scancodes that the guest reads are those the monitor accepted, in order, none lost and none read
twice (`system_safe`). When the host is quiet the system comes to rest within a number of steps that
the buffered scancodes bound. Then the guest has read all of them, if a key ever found the line of
the keyboard unmasked. A key that is pressed while the boot has the line masked goes to the buffer
and raises nothing: with no other key after it the guest never learns of it (`system_drains`).
-/

namespace ZeldaOS

/-! ## The boot of the guest -/

/-- What the boot does that concerns interrupts: a write to a port of the controller, and the write
that completes the programming of the timer. -/
inductive BootWrite
  | pic (portId : Nat) (byte : UInt8)
  | pit (threshold : Nat)
deriving DecidableEq, Repr

/-- The writes of `pic_remap`. -/
def picRemap : List BootWrite :=
  [ .pic 0x21 0xff, .pic 0xa1 0xff,
    .pic 0x20 0x11, .pic 0xa0 0x11,
    .pic 0x21 0x20, .pic 0xa1 0x28,
    .pic 0x21 0x04, .pic 0xa1 0x02,
    .pic 0x21 0x01, .pic 0xa1 0x01,
    .pic 0x21 0x00, .pic 0xa1 0x00 ]

/-- The bytes of the divisor that `refresh_pit_channel0` writes, for `TIMER_RESOLUTION_HZ`. -/
def guestDivisor : UInt8 × UInt8 :=
  let divisor := oscillatorChipFrequency / 100
  (UInt8.ofNat (divisor &&& 0xff), UInt8.ofNat ((divisor >>> 8) &&& 0xff))

/-- The threshold of the timer for this divisor. -/
def guestThreshold : Nat := 1000 / (oscillatorChipFrequency / divisorOf guestDivisor)

/-- The writes of `refresh_pit_channel0` leave this threshold, and the timer's time stamp as it
was. -/
theorem pitWrites_guestDivisor (pit : PitBlob) :
    ∃ pit', pitWrites pit (programmingCycle guestDivisor) = .ok pit' ∧
      pit'.threshold = guestThreshold ∧ pit'.lastTsc = pit.lastTsc := by
  have hne : guestDivisor ≠ (0, 0) := by decide
  rw [pitWrites_programmingCycle, if_neg hne]
  exact ⟨_, rfl, rfl, rfl⟩

/-- What `guest_kernel_main` does, in order: `interrupt_init` remaps the controller, and `pit_init`
programs the timer. -/
def guestBoot : List BootWrite := picRemap ++ [.pit guestThreshold]

/-- The monitor handles a write. -/
def BootWrite.run (m : Monitor) : BootWrite → Option Monitor
  | .pic portId byte => (m.step (.picWrite portId byte)).map fun r => r.2
  | .pit threshold => some { m with pit := { m.pit with threshold } }

/-! ## The guest -/

/-- Where the guest is: in its boot, with writes to do; in its idle loop; or in `interrupt_handler`
for a vector. Interrupts are enabled in the idle loop only. -/
inductive GuestPc
  | boot (todo : List BootWrite)
  | idle
  /-- Before the call of the handler. -/
  | handling (vector : Nat)
  /-- The handler has returned. -/
  | acknowledging (vector : Nat)
  /-- Before the write to the master controller. -/
  | acknowledgingMaster (vector : Nat)
  /-- Before `iretq`. -/
  | returning
deriving DecidableEq, Repr

/-- What a handler of the guest does: `timer_interrupt_handler` takes a tick, and
`keyboard_interrupt_handler` the scancode it reads; for another vector there is a message. -/
inductive Served
  | tick
  | key (code : UInt8)
  | unrecognized (vector : Nat)
deriving DecidableEq, Repr

/-- The monitor and the guest. -/
structure GuestSystem where
  monitor : Monitor
  pc : GuestPc

/-- The moves: an interrupt of the host, the exit for the interrupt window, and a step of the
guest. -/
inductive SystemEvent
  | hostTimer (currTsc : Nat)
  | hostKeyboard (code stale : UInt8)
  | window
  | guest
deriving DecidableEq, Repr

/-- The scancode that the monitor accepted and the line that it raised for an interrupt of the host,
and what a handler of the guest did. -/
structure SystemOutput where
  accepted : Option UInt8 := none
  raised : Option (Fin 15) := none
  served : Option Served := none
deriving DecidableEq, Repr

/-- The flags of the guest in its idle loop. -/
def guestRflags : Nat := 0x202

/-- A step of the guest. The boot ends with `sti`. -/
def guestStep (s : GuestSystem) : Option (SystemOutput × GuestSystem) :=
  match s.pc with
  | .boot [] => some ({}, { s with pc := .idle })
  | .boot (w :: todo) => (w.run s.monitor).map fun m => ({}, ⟨m, .boot todo⟩)
  | .idle => some ({}, s)
  | .handling vector =>
    if vector = 0x20 then some ({ served := some .tick }, { s with pc := .acknowledging vector })
    else if vector = 0x21 then
      (s.monitor.step .keyboardRead).map fun (o, m) =>
        ({ served := o.value.map .key }, ⟨m, .acknowledging vector⟩)
    else some ({ served := some (.unrecognized vector) }, { s with pc := .acknowledging vector })
  | .acknowledging vector =>
    if vector ≥ 40 then
      (s.monitor.step (.picWrite 0xa0 0x20)).map fun (_, m) =>
        ({}, ⟨m, .acknowledgingMaster vector⟩)
    else some ({}, { s with pc := .acknowledgingMaster vector })
  | .acknowledgingMaster _ =>
    (s.monitor.step (.picWrite 0x20 0x20)).map fun (_, m) => ({}, ⟨m, .returning⟩)
  | .returning => some ({}, { s with pc := .idle })

/-- One move. The entry after a window exit that injects delivers the vector that was written. -/
def systemStep (s : GuestSystem) : SystemEvent → Option (SystemOutput × GuestSystem)
  | .hostTimer currTsc =>
    (s.monitor.step (.timer currTsc)).map fun (o, m) =>
      ({ raised := o.raised }, { s with monitor := m })
  | .hostKeyboard code stale =>
    (s.monitor.step (.keyboard code stale)).map fun (o, m) =>
      ({ accepted := o.accepted, raised := o.raised }, { s with monitor := m })
  | .window =>
    (s.monitor.step (.windowExit guestRflags)).map fun (o, m) =>
      ({}, ⟨m, if o.injected.isSome then .handling (m.entryInterruptionInfo % 256) else s.pc⟩)
  | .guest => guestStep s

/-- The interrupt window is open. -/
def Monitor.WindowOpen (m : Monitor) : Prop := m.procBasedControls.testBit 2 = true

instance (m : Monitor) : Decidable m.WindowOpen := inferInstanceAs (Decidable (_ = _))

/-- A window exit needs the window open and a guest that takes interrupts; the guest moves through
its boot and its handlers, the idle loop waits. -/
def SystemOk (s : GuestSystem) : SystemEvent → Prop
  | .hostTimer _ | .hostKeyboard _ _ => True
  | .window => s.monitor.WindowOpen ∧ s.pc = .idle
  | .guest => s.pc ≠ .idle

/-- The moves other than the host's. -/
def InternalOk (s : GuestSystem) (e : SystemEvent) : Prop :=
  SystemOk s e ∧ (e = .window ∨ e = .guest)

instance (s : GuestSystem) : ∀ e, Decidable (SystemOk s e)
  | .hostTimer _ | .hostKeyboard _ _ => inferInstanceAs (Decidable True)
  | .window => inferInstanceAs (Decidable (_ ∧ _))
  | .guest => inferInstanceAs (Decidable (¬ _))

instance (s : GuestSystem) (e : SystemEvent) : Decidable (InternalOk s e) :=
  inferInstanceAs (Decidable (_ ∧ _))

/-- The scancodes that the monitor accepted. -/
def acceptedOf (t : List (SystemEvent × SystemOutput)) : List UInt8 := t.filterMap (·.2.accepted)

/-- A keyboard interrupt of the host has raised its line. -/
def keyRaised (t : List (SystemEvent × SystemOutput)) : Bool :=
  t.any fun x => x.2.raised = some keyboardLine

/-- The scancode of a service. -/
def Served.key? : Served → Option UInt8
  | .key code => some code
  | _ => none

/-- What the handlers of the guest did. -/
def servedOf (t : List (SystemEvent × SystemOutput)) : List Served := t.filterMap (·.2.served)

/-- The scancodes that the guest read. -/
def keysOf (t : List (SystemEvent × SystemOutput)) : List UInt8 :=
  (servedOf t).filterMap Served.key?

/-- The system when the guest is launched. -/
def systemStart (procBasedControls entryInterruptionInfo : Nat) : GuestSystem :=
  ⟨preInitialized procBasedControls entryInterruptionInfo, .boot guestBoot⟩

/-! ## The controller during the boot -/

/-- What a write does to the controller. -/
def BootWrite.onPic (pic : Pic) : BootWrite → Option Pic
  | .pic portId byte => picOutb pic portId byte
  | .pit _ => some pic

/-- The controller after the first `k` writes. -/
def bootPic (k : Nat) : Pic :=
  (guestBoot.take k).foldl (fun pic w => (w.onPic pic).getD pic) (preInitialized 0 0).pic

/-- The keyboard's line is masked until the fifth write, by which the offset is taken for a mask;
and no line is in service. -/
theorem bootPic_lines : ∀ k < 14, isInterruptPinMasked (bootPic k) 1 = decide (k < 5) ∧
    (bootPic k).interruptDeliveryPending = false ∧ (bootPic k).interruptDeliveryVector = 0 := by
  decide +kernel

/-- Each write is accepted. -/
theorem bootPic_succ : ∀ k, (h : k < 13) →
    (guestBoot.get ⟨k, h⟩).onPic (bootPic k) = some (bootPic (k + 1)) := by
  decide +kernel

/-- A write changes the controller and the timer. -/
theorem BootWrite.run_eq {m : Monitor} {w : BootWrite} {pic : Pic} (h : w.onPic m.pic = some pic) :
    ∃ pit, w.run m = some { m with pic, pit } := by
  cases w with
  | pic portId byte =>
    refine ⟨m.pit, ?_⟩
    rw [BootWrite.run, Monitor.step, show picOutb m.pic portId byte = some pic from h]
    rfl
  | pit threshold =>
    cases h
    exact ⟨_, rfl⟩

/-! ## The number of moves -/

/-- The lines that are to be injected before the window closes: the bytes of the buffer, but for the
one that the last service has read, and the timer's line, unless it was delivered last. -/
def injectionsLeft (m : Monitor) : Nat :=
  (if m.pic.interruptDeliveryVector = 1 then m.kbd.contents.length - 1 else m.kbd.contents.length) +
    if m.pic.interruptDeliveryVector = 0 then 0
    else if m.interruptRequestBitmap timerLine = true then 1 else 0

/-- The window exits to come. -/
def exitsLeft (m : Monitor) : Nat := if m.WindowOpen then 1 + injectionsLeft m else 0

/-- The steps of the guest until its idle loop. -/
def GuestPc.stepsLeft : GuestPc → Nat
  | .boot todo => todo.length + 1
  | .idle => 0
  | .returning => 1
  | .acknowledgingMaster _ => 2
  | .acknowledging _ => 3
  | .handling _ => 4

/-- The moves to come, if the host is quiet. -/
def movesLeft (s : GuestSystem) : Nat := 5 * exitsLeft s.monitor + s.pc.stepsLeft

/-! ## What the moves keep -/

/-- The keyboard was delivered last, and the buffer shows its byte. -/
def Monitor.ShowsKey (m : Monitor) : Prop :=
  m.pic.interruptDeliveryVector = 1 ∧ m.kbd.contents ≠ []

/-- How far the service of the line delivered last is, by the place of the guest. The guest has read
`n` of the accepted scancodes, and the buffer holds those from the `j`-th on. -/
def Phase (m : Monitor) (j n : Nat) : GuestPc → Prop
  | .boot _ =>
    m.pic.interruptDeliveryPending = false ∧ m.pic.interruptDeliveryVector = 0 ∧ n = j
  | .idle | .returning =>
    m.pic.interruptDeliveryPending = false ∧ ((m.ShowsKey ∧ n = j + 1) ∨
      (m.pic.interruptDeliveryVector ≠ 1 ∧ VectorOk m ∧ n = j))
  | .handling vector =>
    m.pic.interruptDeliveryPending = true ∧ n = j ∧ ((m.ShowsKey ∧ vector = 0x21) ∨
      (m.pic.interruptDeliveryVector = 0 ∧ vector = 0x20))
  | .acknowledging vector | .acknowledgingMaster vector =>
    m.pic.interruptDeliveryPending = true ∧ ((m.ShowsKey ∧ vector = 0x21 ∧ n = j + 1) ∨
      (m.pic.interruptDeliveryVector = 0 ∧ vector = 0x20 ∧ n = j))

/-- The masks and the offset that `pic_remap` set. -/
structure Remapped (pic : Pic) : Prop where
  masterData : pic.masterPicData = 0
  slaveData : pic.slavePicData = 0
  offset : pic.masterPicOffset = 0x20

/-- The controller, by the place of the guest: the boot has made `k` of its writes, five at least if
the keyboard's line was raised. -/
def ControllerOk (raised : Bool) (pic : Pic) : GuestPc → Prop
  | .boot todo => ∃ k < 14, todo = guestBoot.drop k ∧ pic = bootPic k ∧ (raised = true → 5 ≤ k)
  | _ => Remapped pic

/-- The requests: only the timer's line and the keyboard's. Once a key has raised the keyboard's
line it is requested exactly if the buffer has something, and before that it is not. -/
structure Requests (raised : Bool) (m : Monitor) : Prop where
  lines : ∀ i, m.interruptRequestBitmap i = true → i = 0 ∨ i = 1
  keyboard : m.interruptRequestBitmap 1 = true ↔ raised = true ∧ m.kbd.contents ≠ []

/-- The invariant of the system, where `accepted` are the accepted scancodes, `keys` those that the
guest has read, and `raised` says whether a key has raised its line. -/
structure SystemInv (accepted keys : List UInt8) (raised : Bool) (s : GuestSystem) : Prop where
  controller : ControllerOk raised s.monitor.pic s.pc
  requests : Requests raised s.monitor
  delivered : s.monitor.pic.interruptDeliveryVector = 1 → raised = true
  unread : raised = false → keys = []
  window : WindowInv s.monitor
  service : ∃ j n, s.monitor.kbd.Holds accepted j ∧ Phase s.monitor j n s.pc ∧
    keys = accepted.take n

section
variable {m m' m₁ : Monitor} {s s' : GuestSystem} {j n : Nat} {pc : GuestPc}
  {accepted keys : List UInt8} {raised : Bool} {pic : Pic} {e : SystemEvent} {o : SystemOutput}

/-- No line is masked. -/
theorem Remapped.not_masked (h : Remapped pic) (v : Nat) : isInterruptPinMasked pic v = false := by
  rw [isInterruptPinMasked, h.masterData, h.slaveData]
  have hzero : ∀ i, (0 : UInt8).toNat.testBit i = false := Nat.zero_testBit
  rw [hzero, hzero, Bool.and_false, Bool.or_false]

/-- The keyboard's line is masked only before it was raised. -/
theorem ControllerOk.eq_false_of_masked (h : ControllerOk raised pic pc)
    (hmasked : isInterruptPinMasked pic 1 = true) : raised = false := by
  cases pc with
  | boot todo =>
    obtain ⟨k, hk, -, rfl, hraised⟩ := h
    rw [(bootPic_lines k hk).1, decide_eq_true_eq] at hmasked
    by_contra hne
    exact absurd (hraised (Bool.eq_true_of_not_eq_false hne)) (by omega)
  | _ =>
    rw [Remapped.not_masked h] at hmasked
    cases hmasked

/-- Once it is not masked it may be raised, and stays so. -/
theorem ControllerOk.raise (h : ControllerOk raised pic pc)
    (hunmasked : isInterruptPinMasked pic 1 = false) : ControllerOk true pic pc := by
  cases pc with
  | boot todo =>
    obtain ⟨k, hk, htodo, rfl, -⟩ := h
    rw [(bootPic_lines k hk).1, decide_eq_false_iff_not] at hunmasked
    exact ⟨k, hk, htodo, rfl, fun _ => by omega⟩
  | _ => exact h

/-- Raising a line gives the line, unless it is masked. -/
theorem raised_eq {v : Fin 15} {line : Option (Fin 15)} (h : raiseInterrupt m v = some (line, m')) :
    line = if isInterruptPinMasked m.pic v then none else some v := by
  rw [raiseInterrupt, dif_pos v.isLt] at h
  split at h
  · next hmasked =>
    cases h
    rw [if_pos hmasked]
  · next hmasked =>
    cases h
    rw [if_neg hmasked]

/-- The buffer has something exactly if not all scancodes have left it. -/
theorem contents_ne_nil_iff (h : m.kbd.Holds accepted j) :
    m.kbd.contents ≠ [] ↔ j < accepted.length := by
  rw [h.contents, Ne, List.drop_eq_nil_iff, Nat.not_le]

/-- The phase does not depend on the requests and the timer. -/
theorem Phase.congr (h : Phase m j n pc) (hpic : m'.pic = m.pic)
    (hkbd : m.kbd.contents ≠ [] → m'.kbd.contents ≠ []) : Phase m' j n pc := by
  have hshows : m.ShowsKey → m'.ShowsKey := fun hs => ⟨by rw [hpic]; exact hs.1, hkbd hs.2⟩
  cases pc with
  | boot todo =>
    simp only [Phase, hpic] at h ⊢
    exact h
  | idle | returning =>
    simp only [Phase, VectorOk, hpic] at h ⊢
    exact ⟨h.1, h.2.imp_left fun hs => ⟨hshows hs.1, hs.2⟩⟩
  | handling vector =>
    simp only [Phase, hpic] at h ⊢
    exact ⟨h.1, h.2.1, h.2.2.imp_left fun hs => ⟨hshows hs.1, hs.2⟩⟩
  | acknowledging vector | acknowledgingMaster vector =>
    simp only [Phase, hpic] at h ⊢
    exact ⟨h.1, h.2.imp_left fun hs => ⟨hshows hs.1, hs.2⟩⟩

/-- The guest has read at most what was accepted. -/
theorem Phase.le (h : Phase m j n pc) (hh : m.kbd.Holds accepted j) : n ≤ accepted.length := by
  have hcount := hh.count
  have hshows : m.ShowsKey → j < accepted.length := fun hs => (contents_ne_nil_iff hh).1 hs.2
  cases pc with
  | boot todo =>
    rw [h.2.2]
    exact hcount
  | idle | returning =>
    rcases h.2 with ⟨hs, rfl⟩ | ⟨-, -, rfl⟩
    · exact hshows hs
    · exact hcount
  | handling vector =>
    rw [h.2.1]
    exact hcount
  | acknowledging vector | acknowledgingMaster vector =>
    rcases h.2 with ⟨hs, -, rfl⟩ | ⟨-, -, rfl⟩
    · exact hshows hs
    · exact hcount

/-! ## The moves of the host -/

/-- One more request, for the timer or the keyboard. -/
theorem Requests.lines_withRequest {line : Option (Fin 15)} (h : Requests raised m)
    (hbit : m'.interruptRequestBitmap = withRequest m.interruptRequestBitmap line)
    (hline : ∀ i, line = some i → i = 0 ∨ i = 1) (i : Fin 15)
    (hi : m'.interruptRequestBitmap i = true) : i = 0 ∨ i = 1 := by
  rw [hbit, withRequest_eq_true] at hi
  rcases hi with hi | hi
  · exact h.lines i hi
  · exact hline i hi

/-- After an interrupt of the keyboard the buffer has something, whether the byte was accepted or
the buffer was full. -/
theorem keyboardInterrupt_holds {code stale : UInt8} {acc : Option UInt8} {line : Option (Fin 15)}
    (h : keyboardInterrupt m code stale = some (acc, line, m')) (hh : m.kbd.Holds accepted j) :
    m'.kbd.Holds (accepted ++ acc.toList) j ∧ m'.kbd.contents ≠ [] := by
  obtain ⟨-, ⟨hfull, rfl, hkbd⟩ | ⟨hfull, rfl, hkbd⟩, -⟩ := keyboardInterrupt_cases h
  · rw [hkbd, Option.toList_none, List.append_nil]
    exact ⟨hh, hh.ne_nil_of_full hfull⟩
  · rw [hkbd]
    refine ⟨hh.put _ hfull, ?_⟩
    rw [Ring.contents_put hh.ok _ hfull]
    exact List.append_ne_nil_of_right_ne_nil _ (List.cons_ne_nil _ _)

/-- It raises line 1, unless that is masked. -/
theorem keyboardInterrupt_raised {code stale : UInt8} {acc : Option UInt8}
    {line : Option (Fin 15)} (h : keyboardInterrupt m code stale = some (acc, line, m')) :
    line = if isInterruptPinMasked m.pic 1 then none else some 1 := by
  obtain ⟨-, hraise⟩ := keyboardInterrupt_inv h
  have hline := raised_eq (v := 1) hraise
  exact hline

/-- The host's timer may raise line 0. -/
theorem SystemInv.hostTimer (h : SystemInv accepted keys raised s) {currTsc : Nat}
    (hst : systemStep s (.hostTimer currTsc) = some (o, s')) :
    SystemInv accepted keys raised s' ∧ o.accepted = none ∧ o.served = none ∧
      o.raised ≠ some 1 := by
  obtain ⟨⟨o', m⟩, hm, heq⟩ := Option.map_eq_some_iff.1 hst
  cases heq
  have hwindow := h.window.step hm
  obtain ⟨⟨line, m₁⟩, hr, heq⟩ := Option.map_eq_some_iff.1 hm
  cases heq
  obtain ⟨hpic, hkbd, hbit, hline⟩ := timerInterrupt_cases hr
  have hother : line ≠ some 1 := fun hone => absurd (hline 1 hone) (by decide)
  obtain ⟨j, n, hh, hphase, hkeys⟩ := h.service
  have hlines := h.requests.lines_withRequest hbit fun i hi => .inl (Fin.ext (hline i hi))
  refine ⟨⟨?_, ⟨hlines, ?_⟩, ?_, h.unread, hwindow, j, n, ?_, hphase.congr hpic ?_, hkeys⟩,
    rfl, rfl, hother⟩
  · rw [hpic]
    exact h.controller
  · rw [hbit, withRequest_eq_true, hkbd, ← h.requests.keyboard]
    exact or_iff_left hother
  · rw [hpic]
    exact h.delivered
  · rwa [hkbd]
  · rw [hkbd]
    exact id

/-- The host's keyboard puts its byte into the buffer, if there is room, and raises line 1, unless
it is masked. -/
theorem SystemInv.hostKeyboard (h : SystemInv accepted keys raised s) {code stale : UInt8}
    (hst : systemStep s (.hostKeyboard code stale) = some (o, s')) :
    SystemInv (accepted ++ o.accepted.toList) keys (raised || decide (o.raised = some 1)) s' ∧
      o.served = none := by
  obtain ⟨⟨o', m⟩, hm, heq⟩ := Option.map_eq_some_iff.1 hst
  cases heq
  have hwindow := h.window.step hm
  obtain ⟨⟨acc, line, m₁⟩, hr, heq⟩ := Option.map_eq_some_iff.1 hm
  cases heq
  obtain ⟨hpic, -, hbit, hline⟩ := keyboardInterrupt_cases hr
  have hraise := keyboardInterrupt_raised hr
  obtain ⟨j, n, hh, hphase, hkeys⟩ := h.service
  obtain ⟨hholds, hne⟩ := keyboardInterrupt_holds hr hh
  have hlines := h.requests.lines_withRequest hbit fun i hi => .inr (Fin.ext (hline i hi))
  have hservice : ∃ j n, m.kbd.Holds (accepted ++ acc.toList) j ∧ Phase m j n s.pc ∧
      keys = (accepted ++ acc.toList).take n := by
    refine ⟨j, n, hholds, hphase.congr hpic fun _ => hne, ?_⟩
    rw [List.take_append_of_le_length (hphase.le hh)]
    exact hkeys
  cases hmasked : isInterruptPinMasked s.monitor.pic 1 with
  | true =>
    -- nothing was raised before, and nothing is now
    rw [hmasked] at hraise
    have hfalse := h.controller.eq_false_of_masked hmasked
    have hflag : (raised || decide (line = some 1)) = raised := by
      rw [hraise]
      exact Bool.or_false raised
    dsimp only
    rw [hflag]
    refine ⟨⟨?_, ⟨hlines, ?_⟩, ?_, h.unread, hwindow, hservice⟩, rfl⟩
    · rw [hpic]
      exact h.controller
    · rw [hbit, withRequest_eq_true, h.requests.keyboard, hraise, hfalse]
      simp
    · rw [hpic]
      exact h.delivered
  | false =>
    rw [hmasked] at hraise
    have hflag : (raised || decide (line = some 1)) = true := by
      rw [hraise]
      exact Bool.or_true raised
    dsimp only
    rw [hflag]
    refine ⟨⟨?_, ⟨hlines, ?_⟩, fun _ => rfl, fun hno => (by cases hno), hwindow, hservice⟩, rfl⟩
    · rw [hpic]
      exact h.controller.raise hmasked
    · rw [hbit, withRequest_eq_true, hraise]
      exact ⟨fun _ => ⟨rfl, hne⟩, fun _ => .inr rfl⟩

/-! ## The window -/

/-- Only the keyboard's line removes a byte. -/
theorem Retires.kbd_eq {cleared : Option (Fin 15)} (h : Retires m cleared m₁) :
    m₁.kbd = if m.pic.interruptDeliveryVector = 1 then m.kbd.ringDequeue.2 else m.kbd := by
  cases h with
  | idle hv =>
    rw [hv]
    exact (if_neg picInvalidVector_ne_one).symm
  | keyboard hv => exact (if_pos hv).symm
  | lastKey hv => exact (if_pos hv).symm
  | line v hv hne =>
    refine (if_neg fun hone => hne (Fin.ext ?_)).symm
    rw [← hv, hone]
    rfl

/-- A line that stays in service is the keyboard's, and its buffer has more. -/
theorem Retires.vector_cases {cleared : Option (Fin 15)} (h : Retires m cleared m₁) :
    m₁.pic.interruptDeliveryVector = picInvalidVector ∨
      m.pic.interruptDeliveryVector = 1 ∧ m₁.kbd.ringEmpty = false := by
  cases h with
  | idle hv => exact .inl hv
  | keyboard hv hempty => exact .inr ⟨hv, hempty⟩
  | lastKey => exact .inl rfl
  | line => exact .inl rfl

/-- What is left when the line delivered last is retired. -/
structure Retired (accepted keys : List UInt8) (raised : Bool) (m : Monitor) : Prop where
  remapped : Remapped m.pic
  requests : Requests raised m
  unread : raised = false → keys = []
  pending : m.pic.interruptDeliveryPending = false
  vector : m.pic.interruptDeliveryVector = picInvalidVector ∨ m.interruptRequestBitmap 1 = true
  holds : ∃ j, m.kbd.Holds accepted j ∧ keys = accepted.take j

/-- Retiring the line delivered last removes the byte that the guest has read. -/
theorem SystemInv.retires {cleared : Option (Fin 15)} (h : SystemInv accepted keys raised s)
    (hidle : s.pc = .idle) (hre : Retires s.monitor cleared m₁) :
    Retired accepted keys raised m₁ := by
  have hremapped : Remapped s.monitor.pic := by
    have hcontroller := h.controller
    rw [hidle] at hcontroller
    exact hcontroller
  obtain ⟨j, n, hh, hphase, hkeys⟩ := h.service
  rw [hidle] at hphase
  obtain ⟨hpending, hvector⟩ := hphase
  obtain ⟨-, hpic⟩ := hre.frame
  have hkbd := hre.kbd_eq
  -- the buffer after the exit
  have hholds : ∃ j, m₁.kbd.Holds accepted j ∧ keys = accepted.take j := by
    rcases hvector with ⟨⟨hv, hc⟩, rfl⟩ | ⟨hv, -, rfl⟩
    · rw [hkbd, if_pos hv]
      exact ⟨j + 1, hh.ringDequeue hc, hkeys⟩
    · rw [hkbd, if_neg hv]
      exact ⟨_, hh, hkeys⟩
  obtain ⟨j', hh', hkeys'⟩ := hholds
  have hempty := Ring.ringEmpty_iff hh'.ok
  have hrequest : m₁.interruptRequestBitmap 1 = true ↔ raised = true ∧ m₁.kbd.contents ≠ [] := by
    rw [hre.bitmap, h.requests.keyboard, Retiring]
    rcases hvector with ⟨⟨hv, hc⟩, rfl⟩ | ⟨hv, -, rfl⟩
    · rw [if_pos hv] at hkbd
      have hretiring : (s.monitor.pic.interruptDeliveryVector.toNat = (1 : Fin 15).val ∧
          ((1 : Fin 15) = 1 → m₁.kbd.ringEmpty = true)) ↔ m₁.kbd.contents = [] := by
        rw [hv, hempty]
        exact ⟨fun hr => hr.2 rfl, fun hnil => ⟨rfl, fun _ => hnil⟩⟩
      rw [← hkbd, hretiring]
      exact ⟨fun hr => ⟨hr.1.1, hr.2⟩, fun hr => ⟨⟨hr.1, hc⟩, hr.2⟩⟩
    · rw [if_neg hv] at hkbd
      have hno : s.monitor.pic.interruptDeliveryVector.toNat ≠ (1 : Fin 15).val := fun hone =>
        hv (UInt8.toNat_inj.1 hone)
      rw [hkbd]
      exact and_iff_left fun hr => hno hr.1
  refine ⟨?_, ⟨fun i hi => h.requests.lines i ((hre.bitmap i).1 hi).1, hrequest⟩,
    h.unread, ?_, ?_, j', hh', hkeys'⟩
  · rw [hpic]
    exact ⟨hremapped.masterData, hremapped.slaveData, hremapped.offset⟩
  · rw [hpic]
    exact hpending
  · refine hre.vector_cases.imp_right fun ⟨hv, hmore⟩ => hrequest.2 ⟨h.delivered hv, fun hnil => ?_⟩
    rw [hempty.2 hnil] at hmore
    cases hmore

/-- The vector that is injected is the line's behind the offset. -/
theorem injectedVector (h : Remapped m.pic) (idx : Fin 15) :
    injectedInfo (m.pic.masterPicOffset.toNat + idx) % 256 = 0x20 + idx := by
  have hoffset : (0x20 : UInt8).toNat = 0x20 := rfl
  have hlt := idx.isLt
  rw [injectedInfo_mod, h.offset, hoffset]
  omega

/-- With nothing requested the exit leaves the guest in its loop, and otherwise it puts the first
line in service. -/
theorem Retired.delivers {injected : Option (Fin 15)} (h : Retired accepted keys raised m₁)
    (hde : Delivers m₁ injected m) (hpic : m'.pic = m.pic) (hkbd : m'.kbd = m.kbd)
    (hbit : m'.interruptRequestBitmap = m.interruptRequestBitmap)
    (hopen : m.pic.interruptDeliveryPending = true → m' = m) (hwindow : WindowInv m') :
    SystemInv accepted keys raised
      ⟨m', if injected.isSome then .handling (m'.entryInterruptionInfo % 256) else .idle⟩ := by
  obtain ⟨j, hh, hkeys⟩ := h.holds
  cases hde with
  | idle hnone =>
    have hvector : m.pic.interruptDeliveryVector = picInvalidVector := by
      refine h.vector.resolve_right fun hone => ?_
      rw [hnone 1] at hone
      cases hone
    have hne : m.pic.interruptDeliveryVector ≠ 1 := by
      rw [hvector]
      exact picInvalidVector_ne_one
    have hphase : Phase m j j .idle := ⟨h.pending, .inr ⟨hne, .inl hvector, rfl⟩⟩
    refine ⟨?_, ⟨?_, ?_⟩, ?_, h.unread, hwindow, j, j, ?_, hphase.congr hpic ?_, hkeys⟩
    · rw [hpic]
      exact h.remapped
    · rw [hbit]
      exact h.requests.lines
    · rw [hbit, hkbd]
      exact h.requests.keyboard
    · rw [hpic]
      exact fun hone => absurd hone hne
    · rwa [hkbd]
    · rw [hkbd]
      exact id
  | line idx hidx hmin =>
    obtain rfl := hopen rfl
    have hpc : GuestPc.handling (injectedInfo (m₁.pic.masterPicOffset.toNat + idx) % 256) =
        .handling (0x20 + idx) := by rw [injectedVector h.remapped]
    have hremapped := h.remapped
    refine ⟨⟨hremapped.masterData, hremapped.slaveData, hremapped.offset⟩,
      ⟨h.requests.lines, h.requests.keyboard⟩, fun hone => ?_, h.unread, hwindow, j,
        j, hh, ?_, hkeys⟩
    · rcases h.requests.lines idx hidx with rfl | rfl
      · cases hone
      · exact (h.requests.keyboard.1 hidx).1
    · change Phase _ j j
        (GuestPc.handling (injectedInfo (m₁.pic.masterPicOffset.toNat + idx) % 256))
      rw [hpc]
      rcases h.requests.lines idx hidx with rfl | rfl
      · exact ⟨rfl, rfl, .inr ⟨rfl, rfl⟩⟩
      · exact ⟨rfl, rfl, .inl ⟨⟨rfl, (h.requests.keyboard.1 hidx).2⟩, rfl⟩⟩

/-- **A window exit** retires and delivers. -/
theorem SystemInv.window_step (h : SystemInv accepted keys raised s) (hidle : s.pc = .idle)
    (hst : systemStep s .window = some (o, s')) : SystemInv accepted keys raised s' ∧ o = {} := by
  obtain ⟨⟨o', m⟩, hm, heq⟩ := Option.map_eq_some_iff.1 hst
  cases heq
  have hwindow := h.window.step hm
  obtain ⟨⟨r, m₁⟩, hr, heq⟩ := Option.map_eq_some_iff.1 hm
  cases heq
  obtain ⟨j, n, hh, hphase, hkeys⟩ := h.service
  rw [hidle] at hphase
  rcases windowExit_cases hr with ⟨hpend, -⟩ | ⟨-, m₁, m₂, hre, hde, hpic, hkbd, hbit, hopen⟩
  · rw [hphase.1] at hpend
    cases hpend
  · rw [hidle]
    exact ⟨(h.retires hidle hre).delivers hde hpic hkbd hbit hopen hwindow, rfl⟩

/-! ## The moves of the guest -/

/-- The EOI of the guest ends the service and changes nothing else that matters. -/
theorem step_eoi (m : Monitor) : m.step (.picWrite 0x20 0x20) = some ({},
    { m with
      pic := { m.pic with masterPicCommand := 0x20, interruptDeliveryPending := false } }) :=
  rfl

/-- A move of the guest to a place with the same phase. -/
theorem SystemInv.goto {pc' : GuestPc} (h : SystemInv accepted keys raised ⟨m, pc⟩)
    (hcontroller : ControllerOk raised m.pic pc → ControllerOk raised m.pic pc')
    (hphase : ∀ j n, Phase m j n pc → Phase m j n pc') :
    SystemInv accepted keys raised ⟨m, pc'⟩ := by
  obtain ⟨j, n, hh, hp, hkeys⟩ := h.service
  exact ⟨hcontroller h.controller, h.requests, h.delivered, h.unread, h.window, j, n, hh,
    hphase j n hp, hkeys⟩

/-- The EOI. -/
theorem SystemInv.eoi {vector : Nat}
    (h : SystemInv accepted keys raised ⟨m, .acknowledgingMaster vector⟩) :
    SystemInv accepted keys raised
      ⟨{ m with pic := { m.pic with masterPicCommand := 0x20, interruptDeliveryPending := false } },
        .returning⟩ := by
  obtain ⟨j, n, hh, ⟨-, hservice⟩, hkeys⟩ := h.service
  have hremapped : Remapped m.pic := h.controller
  refine ⟨⟨hremapped.masterData, hremapped.slaveData, hremapped.offset⟩,
    ⟨h.requests.lines, h.requests.keyboard⟩, h.delivered, h.unread, h.window.step
      (step_eoi m), j, n, hh, ⟨rfl, ?_⟩, hkeys⟩
  rcases hservice with ⟨hs, -, rfl⟩ | ⟨hv, -, rfl⟩
  · exact .inl ⟨hs, rfl⟩
  · have hne : m.pic.interruptDeliveryVector ≠ 1 := by
      rw [hv]
      decide
    have hok : m.pic.interruptDeliveryVector.toNat < 15 := by
      rw [hv]
      decide
    exact .inr ⟨hne, .inr hok, rfl⟩

/-- The end of the boot: the controller is remapped. -/
theorem SystemInv.boot_end (h : SystemInv accepted keys raised ⟨m, .boot []⟩) :
    SystemInv accepted keys raised ⟨m, .idle⟩ := by
  refine h.goto (fun hcontroller => ?_) fun j n hphase => ?_
  · obtain ⟨k, hk, htodo, hpic, -⟩ := hcontroller
    have hlength : (guestBoot.drop k).length = 0 := by rw [← htodo, List.length_nil]
    have hboot : guestBoot.length = 13 := rfl
    obtain rfl : k = 13 := by
      rw [List.length_drop] at hlength
      omega
    rw [hpic]
    exact ⟨by decide +kernel, by decide +kernel, by decide +kernel⟩
  · obtain ⟨hpending, hv, hn⟩ := hphase
    refine ⟨hpending, .inr ⟨?_, .inr ?_, hn⟩⟩
    · rw [hv]
      decide
    · rw [hv]
      decide

/-- A write of the boot. -/
theorem SystemInv.boot_write {w : BootWrite} {todo : List BootWrite}
    (h : SystemInv accepted keys raised ⟨m, .boot (w :: todo)⟩) :
    ∃ m', w.run m = some m' ∧ exitsLeft m' = exitsLeft m ∧
      SystemInv accepted keys raised ⟨m', .boot todo⟩ := by
  obtain ⟨k, hk, htodo, hpic, hraised⟩ := h.controller
  have hlt : k < 13 := by
    by_contra hge
    rw [List.drop_eq_nil_of_le (by show 13 ≤ k; omega)] at htodo
    cases htodo
  have hdrop : guestBoot.drop k = guestBoot.get ⟨k, hlt⟩ :: guestBoot.drop (k + 1) :=
    List.drop_eq_getElem_cons hlt
  rw [hdrop] at htodo
  obtain ⟨rfl, rfl⟩ := List.cons.inj htodo
  have hsucc := bootPic_succ k hlt
  rw [← show m.pic = bootPic k from hpic] at hsucc
  obtain ⟨pit, hrun⟩ := BootWrite.run_eq hsucc
  obtain ⟨-, hpending, hv⟩ := bootPic_lines (k + 1) (by omega)
  obtain ⟨j, n, hh, ⟨-, hv₀, hn⟩, hkeys⟩ := h.service
  have hvector : m.pic.interruptDeliveryVector = 0 := hv₀
  refine ⟨_, hrun, ?_, ⟨k + 1, by omega, rfl, rfl, fun hr => ?_⟩, ⟨h.requests.lines,
    h.requests.keyboard⟩, fun hone => ?_, h.unread, ?_, j, n, hh, ⟨hpending, hv, hn⟩, hkeys⟩
  · simp only [exitsLeft, injectionsLeft, Monitor.WindowOpen, hv, hvector]
  · have := hraised hr
    omega
  · change (bootPic (k + 1)).interruptDeliveryVector = 1 at hone
    rw [hv] at hone
    cases hone
  · rintro (hline | hserv)
    · exact h.window (.inl hline)
    · change (bootPic (k + 1)).interruptDeliveryPending = true at hserv
      rw [hpending] at hserv
      cases hserv

/-- **A handler of the guest** is the keyboard's or the timer's. The keyboard's reads the next
scancode. -/
theorem SystemInv.handler {vector : Nat}
    (h : SystemInv accepted keys raised ⟨m, .handling vector⟩) :
    ∃ served, systemStep ⟨m, .handling vector⟩ .guest =
        some ({ served := some served }, ⟨m, .acknowledging vector⟩) ∧
      (∀ v, served ≠ .unrecognized v) ∧
      SystemInv accepted (keys ++ served.key?.toList) raised ⟨m, .acknowledging vector⟩ := by
  obtain ⟨j, n, hh, ⟨hpending, hn, ⟨hs, hvector⟩ | ⟨hv, hvector⟩⟩, hkeys⟩ := h.service
  · -- the keyboard's handler reads the byte on show
    obtain ⟨hempty, hhead⟩ := hh.peek hs.2
    have hraised := h.delivered hs.1
    refine ⟨.key (keyboardDataInb m), ?_, (fun v hv => by cases hv), h.controller, h.requests,
      h.delivered, fun hno => ?_, h.window, j, j + 1, hh, ⟨hpending, .inl ⟨hs, hvector, rfl⟩⟩, ?_⟩
    · rw [hvector]
      rfl
    · rw [hraised] at hno
      cases hno
    · rw [Served.key?, keyboardDataInb, keyboardByte, hempty, hkeys, hn, List.take_add_one, hhead]
      rfl
  · have hsame : keys ++ (none : Option UInt8).toList = keys := List.append_nil keys
    refine ⟨.tick, ?_, (fun v hv => by cases hv), hsame.symm ▸ ?_⟩
    · rw [hvector]
      rfl
    · exact ⟨h.controller, h.requests, h.delivered, h.unread, h.window, j, n, hh,
        ⟨hpending, .inr ⟨hv, hvector, hn⟩⟩, hkeys⟩

/-- **A step of the guest.** It is total, reads at most the next scancode, and outside of the idle
loop it is one move less. -/
theorem SystemInv.guest_step (h : SystemInv accepted keys raised s) :
    ∃ o s', systemStep s .guest = some (o, s') ∧ o.accepted = none ∧ o.raised = none ∧
      (∀ v, o.served ≠ some (.unrecognized v)) ∧
      (s.pc ≠ .idle → movesLeft s' + 1 = movesLeft s) ∧
      SystemInv accepted (keys ++ (o.served.bind Served.key?).toList) raised s' := by
  obtain ⟨m, pc⟩ := s
  have hsame : keys ++ (none : Option UInt8).toList = keys := List.append_nil keys
  cases pc with
  | boot todo =>
    cases todo with
    | nil =>
      exact ⟨_, _, rfl, rfl, rfl, (fun v hv => by cases hv), fun _ => rfl, hsame.symm ▸ h.boot_end⟩
    | cons w todo =>
      obtain ⟨m', hrun, hexits, hinv⟩ := h.boot_write
      refine ⟨{}, ⟨m', .boot todo⟩, ?_, rfl, rfl, (fun v hv => by cases hv), fun _ => ?_,
        hsame.symm ▸ hinv⟩
      · rw [systemStep, guestStep]
        dsimp only
        rw [hrun]
        rfl
      · simp only [movesLeft, GuestPc.stepsLeft, hexits, List.length_cons]
        omega
  | idle =>
    exact ⟨_, _, rfl, rfl, rfl, (fun v hv => by cases hv), fun hne => absurd rfl hne,
      hsame.symm ▸ h⟩
  | handling vector =>
    obtain ⟨served, hst, hknown, hinv⟩ := h.handler
    exact ⟨_, _, hst, rfl, rfl, fun v hv => hknown v (Option.some.inj hv), fun _ => rfl, hinv⟩
  | acknowledging vector =>
    obtain ⟨j, n, -, hphase, -⟩ := h.service
    have hlt : ¬ vector ≥ 40 := by
      rcases hphase.2 with ⟨-, rfl, -⟩ | ⟨-, rfl, -⟩ <;> decide
    refine ⟨{}, ⟨m, .acknowledgingMaster vector⟩, ?_, rfl, rfl, (fun v hv => by cases hv),
      fun _ => rfl, hsame.symm ▸ h.goto id fun _ _ => id⟩
    rw [systemStep, guestStep]
    exact if_neg hlt
  | acknowledgingMaster vector =>
    exact ⟨_, _, rfl, rfl, rfl, (fun v hv => by cases hv), fun _ => rfl, hsame.symm ▸ h.eoi⟩
  | returning =>
    exact ⟨_, _, rfl, rfl, rfl, (fun v hv => by cases hv), fun _ => rfl,
      hsame.symm ▸ h.goto id fun _ _ => id⟩

/-! ## All moves -/

/-- The launch. -/
theorem systemInv_start (procBasedControls entryInterruptionInfo : Nat) :
    SystemInv [] [] false (systemStart procBasedControls entryInterruptionInfo) := by
  have hcontents : (Ring.empty scancodeBufferLength).contents = [] :=
    Ring.contents_empty (by decide)
  refine ⟨⟨0, by decide, rfl, rfl, fun hno => (by cases hno)⟩, ⟨fun i hi => (by cases hi), ?_⟩,
    fun hone => (by cases hone), fun _ => rfl, ?_, 0, 0, ?_, ⟨rfl, rfl, rfl⟩, rfl⟩
  · exact ⟨fun hi => (by cases hi), fun hno => (by cases hno.1)⟩
  · rintro (⟨i, hi⟩ | hi) <;> cases hi
  · exact ⟨Ring.Ok.empty (by decide), (by decide : 1 < scancodeBufferLength),
      Nat.le_refl 0, hcontents⟩

/-- In the idle loop the line delivered last is one. -/
theorem Phase.vectorOk (h : Phase m j n .idle) : VectorOk m := by
  rcases h.2 with ⟨⟨hv, -⟩, -⟩ | ⟨-, hok, -⟩
  · exact .inr (by rw [hv]; decide)
  · exact hok

/-- The moves of the host and the window do not halt the monitor. -/
theorem SystemInv.progress (h : SystemInv accepted keys raised s) (hok : SystemOk s e) :
    (systemStep s e).isSome := by
  have hraise : ∀ (m : Monitor) (v : Fin 15), (raiseInterrupt m v).isSome := by
    intro m v
    rw [raiseInterrupt, dif_pos v.isLt]
    split <;> rfl
  cases e with
  | hostTimer currTsc =>
    simp only [systemStep, Monitor.step, timerInterrupt, Option.isSome_map]
    split
    · exact hraise s.monitor 0
    · rfl
  | hostKeyboard code stale =>
    simp only [systemStep, Monitor.step, keyboardInterrupt, Option.isSome_map]
    exact hraise _ 1
  | window =>
    obtain ⟨j, n, -, hphase, -⟩ := h.service
    rw [hok.2] at hphase
    simp only [systemStep, Monitor.step, Option.isSome_map]
    exact interruptWindowExit_isSome hphase.vectorOk (by decide)
  | guest =>
    obtain ⟨o, s', hst, -⟩ := h.guest_step
    rw [hst]
    rfl

/-- **One move** keeps the invariant. -/
theorem SystemInv.step (h : SystemInv accepted keys raised s) (hok : SystemOk s e)
    (hst : systemStep s e = some (o, s')) : (∀ v, o.served ≠ some (.unrecognized v)) ∧
      SystemInv (accepted ++ o.accepted.toList) (keys ++ (o.served.bind Served.key?).toList)
        (raised || decide (o.raised = some 1)) s' := by
  have hnone : (raised || decide ((none : Option (Fin 15)) = some 1)) = raised :=
    Bool.or_false raised
  cases e with
  | hostTimer currTsc =>
    obtain ⟨hinv, hacc, hserved, hraised⟩ := h.hostTimer hst
    rw [hacc, hserved, decide_eq_false hraised, Bool.or_false]
    exact ⟨fun v hv => (by cases hv), by simpa using hinv⟩
  | hostKeyboard code stale =>
    obtain ⟨hinv, hserved⟩ := h.hostKeyboard hst
    rw [hserved]
    exact ⟨fun v hv => (by cases hv), by simpa using hinv⟩
  | window =>
    obtain ⟨hinv, rfl⟩ := h.window_step hok.2 hst
    rw [hnone]
    exact ⟨fun v hv => (by cases hv), by simpa using hinv⟩
  | guest =>
    obtain ⟨o', s'', hst', hacc, hraised, hserved, -, hinv⟩ := h.guest_step
    obtain ⟨rfl, rfl⟩ := Prod.mk.inj (Option.some.inj (hst'.symm.trans hst))
    rw [hraised, hnone]
    exact ⟨hserved, by simpa [hacc] using hinv⟩

/-- The scancodes accepted with one more move, -/
theorem acceptedOf_snoc (t : List (SystemEvent × SystemOutput)) :
    acceptedOf (t ++ [(e, o)]) = acceptedOf t ++ o.accepted.toList := filterMap_snoc _ _ _

/-- what the handlers did, -/
theorem servedOf_snoc (t : List (SystemEvent × SystemOutput)) :
    servedOf (t ++ [(e, o)]) = servedOf t ++ o.served.toList := filterMap_snoc _ _ _

/-- the scancodes that the guest read, -/
theorem keysOf_snoc (t : List (SystemEvent × SystemOutput)) :
    keysOf (t ++ [(e, o)]) = keysOf t ++ (o.served.bind Served.key?).toList := by
  rw [keysOf, servedOf_snoc, List.filterMap_append, keysOf]
  cases o.served with
  | none => rfl
  | some x => cases h : x.key? <;> simp [h]

/-- and whether a key has raised its line. -/
theorem keyRaised_snoc (t : List (SystemEvent × SystemOutput)) :
    keyRaised (t ++ [(e, o)]) = (keyRaised t || decide (o.raised = some 1)) := by
  simp [keyRaised]

variable {t t' : List (SystemEvent × SystemOutput)} {procBasedControls entryInterruptionInfo : Nat}
  {s₀ : GuestSystem} {ok : GuestSystem → SystemEvent → Prop}

/-- The moves after a trace `t`. -/
theorem SystemInv.run (h₀ : SystemInv (acceptedOf t) (keysOf t) (keyRaised t) s₀)
    (hok : ∀ s e, ok s e → SystemOk s e) (h : Run systemStep ok s₀ t' s) :
    SystemInv (acceptedOf (t ++ t')) (keysOf (t ++ t')) (keyRaised (t ++ t')) s ∧
      ∀ v, .unrecognized v ∉ servedOf t' := by
  refine Run.inv (fun t' s =>
    SystemInv (acceptedOf (t ++ t')) (keysOf (t ++ t')) (keyRaised (t ++ t')) s ∧
      ∀ v, .unrecognized v ∉ servedOf t') ?_ ?_ h
  · rw [List.append_nil]
    exact ⟨h₀, fun v hv => by cases hv⟩
  · rintro t' s e o s' ⟨hinv, hknown⟩ he hst
    obtain ⟨hserved, hinv'⟩ := hinv.step (hok s e he) hst
    rw [← List.append_assoc, acceptedOf_snoc, keysOf_snoc, keyRaised_snoc, servedOf_snoc]
    refine ⟨hinv', fun v hv => ?_⟩
    rcases List.mem_append.1 hv with hv | hv
    · exact hknown v hv
    · exact hserved v (Option.mem_toList.1 hv)

/-- The moves from the launch on. -/
theorem SystemInv.of_run
    (h : Run systemStep SystemOk (systemStart procBasedControls entryInterruptionInfo) t s) :
    SystemInv (acceptedOf t) (keysOf t) (keyRaised t) s ∧ ∀ v, .unrecognized v ∉ servedOf t :=
  SystemInv.run (t := []) (systemInv_start procBasedControls entryInterruptionInfo)
    (fun _ _ => id) h

/-- **Safety.** From the launch of the guest on, whatever the order of the moves, no move halts the
monitor, the guest meets no vector without a handler, and the scancodes that the guest has read are
the first of those that the monitor has accepted. -/
theorem system_safe
    (h : Run systemStep SystemOk (systemStart procBasedControls entryInterruptionInfo) t s) :
    (∀ e, SystemOk s e → (systemStep s e).isSome) ∧
    (∀ v, .unrecognized v ∉ servedOf t) ∧ ∃ rest, acceptedOf t = keysOf t ++ rest := by
  obtain ⟨hinv, hknown⟩ := SystemInv.of_run h
  obtain ⟨j, n, -, -, hkeys⟩ := hinv.service
  refine ⟨fun e he => hinv.progress he, hknown, (acceptedOf t).drop n, ?_⟩
  rw [hkeys, List.take_append_drop]

/-- The moves of the boot: its writes and `sti`. -/
def bootMoves : List SystemEvent := List.replicate 14 .guest

/-- A key is pressed at the launch, and another one while the guest is idle, which then reads the
first one. -/
def keyMoves : List SystemEvent :=
  .hostKeyboard 0x1e 0 :: bootMoves ++ [.hostKeyboard 0x30 0, .window, .guest, .guest]

/-- The guest reads the first key, and goes on. -/
theorem system_safe_key : ∃ t s, Run systemStep SystemOk (systemStart 0 0) t s ∧
    keysOf t = [0x1e] ∧ (∀ v, .unrecognized v ∉ servedOf t) ∧ (systemStep s .guest).isSome := by
  have hexec : (exec (guarded SystemOk systemStep) (systemStart 0 0) keyMoves).map
      (fun r => (keysOf r.1, r.2.pc)) = some ([0x1e], .acknowledgingMaster 0x21) := by
        decide +kernel
  obtain ⟨⟨t, s⟩, hr, hlast⟩ := Option.map_eq_some_iff.1 hexec
  obtain ⟨hkeys, hpc⟩ := Prod.mk.inj hlast
  have hrun : Run systemStep SystemOk (systemStart 0 0) t s := Run.of_guarded hr
  obtain ⟨hprogress, hknown, -⟩ := system_safe hrun
  have hok : SystemOk s .guest := fun hidle => by
    rw [hpc] at hidle
    cases hidle
  exact ⟨t, s, hrun, hkeys, hknown, hprogress .guest hok⟩

/-! ## Coming to rest -/

/-- A window exit that puts no line in service closes the window. -/
theorem windowExit_closes {rflags : Nat} {r : WindowResult}
    (h : interruptWindowExit m rflags = some (r, m')) (hm : m.pic.interruptDeliveryPending = false)
    (hm' : m'.pic.interruptDeliveryPending = false) : ¬ m'.WindowOpen := by
  rw [interruptWindowExit, hm] at h
  by_cases hif : rflags.testBit 9 = true
  · rw [hif] at h
    obtain ⟨⟨cleared, m₁⟩, -, heq⟩ := Option.map_eq_some_iff.1 h
    obtain ⟨-, hmonitor⟩ := Prod.mk.inj heq
    by_cases hpend : (deliverNext m₁).2.pic.interruptDeliveryPending = true
    · rw [if_pos hpend] at hmonitor
      rw [← hmonitor, hpend] at hm'
      cases hm'
    · rw [if_neg hpend] at hmonitor
      rw [← hmonitor, Monitor.WindowOpen, disableInterruptWindow, Nat.testBit_and]
      have hbit : (2 ^ 64 - 1 - 1 <<< 2).testBit 2 = false := by decide
      rw [hbit, Bool.and_false]
      decide
  · rw [Bool.not_eq_true] at hif
    rw [hif] at h
    cases h

/-- The injections to come are those that are requested when the line delivered last is retired. -/
theorem injectionsLeft_retires {cleared : Option (Fin 15)} (hh : m.kbd.Ok)
    (hre : Retires m cleared m₁) : injectionsLeft m =
      m₁.kbd.contents.length + if m₁.interruptRequestBitmap 0 = true then 1 else 0 := by
  have hbytes : m₁.kbd.contents.length = if m.pic.interruptDeliveryVector = 1 then
      m.kbd.contents.length - 1 else m.kbd.contents.length := by
    rw [hre.kbd_eq]
    by_cases hv : m.pic.interruptDeliveryVector = 1
    · rw [if_pos hv, if_pos hv, Ring.contents_ringDequeue hh, List.length_tail]
    · rw [if_neg hv, if_neg hv]
  have hretiring : Retiring m 0 ↔ m.pic.interruptDeliveryVector = 0 := by
    refine ⟨fun hr => UInt8.toNat_inj.1 hr.1, fun hv => ⟨?_, fun hone => absurd hone (by decide)⟩⟩
    rw [hv]
    rfl
  have htimer := hre.bitmap 0
  rw [hretiring] at htimer
  rw [injectionsLeft, ← hbytes]
  by_cases hv : m.pic.interruptDeliveryVector = 0
  · rw [if_pos hv, if_neg fun h => (htimer.1 h).2 hv]
  · rw [if_neg hv]
    simp only [htimer, hv, not_false_eq_true, and_true]

/-- Putting the first line in service is one injection less. -/
theorem injectionsLeft_delivers {idx : Fin 15} (hreq : Requests raised m₁)
    (hde : Delivers m₁ (some idx) m) :
    injectionsLeft m + 1 =
      m₁.kbd.contents.length + if m₁.interruptRequestBitmap 0 = true then 1 else 0 := by
  cases hde with
  | line _ hidx hmin =>
    rcases hreq.lines idx hidx with rfl | rfl
    · rw [if_pos hidx]
      rfl
    · -- the timer's line goes first, so it is not requested
      have htimer : m₁.interruptRequestBitmap 0 = false := hmin 0 (by decide)
      have hlength := List.length_pos_of_ne_nil (hreq.keyboard.1 hidx).2
      simp only [injectionsLeft, htimer, Bool.false_eq_true, if_false, ite_self]
      exact Nat.sub_add_cancel hlength

/-- The window may be closed. -/
theorem movesLeft_le (s : GuestSystem) :
    movesLeft s ≤ 5 * (1 + injectionsLeft s.monitor) + s.pc.stepsLeft := by
  rw [movesLeft, exitsLeft]
  split <;> omega

/-- A window exit closes the window, or there is one injection less. -/
theorem SystemInv.window_movesLeft (h : SystemInv accepted keys raised s) (hok : SystemOk s .window)
    (hst : systemStep s .window = some (o, s')) : movesLeft s' < movesLeft s := by
  obtain ⟨⟨o', m⟩, hm, heq⟩ := Option.map_eq_some_iff.1 hst
  cases heq
  obtain ⟨⟨⟨cleared, injected⟩, m₁⟩, hr, heq⟩ := Option.map_eq_some_iff.1 hm
  cases heq
  obtain ⟨j, n, hh, hphase, hkeys⟩ := h.service
  obtain ⟨hopen₀, hidle⟩ := hok
  rw [hidle] at hphase
  have hstart : movesLeft s = 5 * (1 + injectionsLeft s.monitor) := by
    rw [movesLeft, hidle, exitsLeft, if_pos hopen₀]
    rfl
  rcases windowExit_cases hr with ⟨hpend, -⟩ | ⟨-, m₁, m₂, hre, hde, hpic, hkbd, hbit, hopen⟩
  · rw [hphase.1] at hpend
    cases hpend
  have hretired := h.retires hidle hre
  cases injected with
  | none =>
    have hpend : m.pic.interruptDeliveryPending = false := by
      cases hde
      rw [hpic]
      exact hretired.pending
    have hclosed := windowExit_closes hr hphase.1 hpend
    have hrest : movesLeft ⟨m, s.pc⟩ = 0 := by
      rw [movesLeft, hidle, exitsLeft, if_neg hclosed]
      rfl
    show movesLeft ⟨m, s.pc⟩ < _
    rw [hrest, hstart]
    omega
  | some idx =>
    have hm₂ : m = m₂ := by
      cases hde
      exact hopen rfl
    have hinjections := injectionsLeft_delivers hretired.requests hde
    rw [← injectionsLeft_retires hh.ok hre, ← hm₂] at hinjections
    have hle := movesLeft_le ⟨m, .handling (m.entryInterruptionInfo % 256)⟩
    show movesLeft ⟨m, .handling (m.entryInterruptionInfo % 256)⟩ < _
    rw [hstart]
    simp only [GuestPc.stepsLeft] at hle
    omega

/-- A move that is not the host's accepts and raises nothing, and there is one move less. -/
theorem SystemInv.internal_step (h : SystemInv accepted keys raised s) (hok : InternalOk s e)
    (hst : systemStep s e = some (o, s')) :
    movesLeft s' < movesLeft s ∧ o.accepted = none ∧ o.raised = none := by
  obtain ⟨hok, rfl | rfl⟩ := hok
  · obtain ⟨-, rfl⟩ := h.window_step hok.2 hst
    exact ⟨h.window_movesLeft hok hst, rfl, rfl⟩
  · obtain ⟨o', s'', hst', hacc, hraised, -, hmoves, -⟩ := h.guest_step
    obtain ⟨rfl, rfl⟩ := Prod.mk.inj (Option.some.inj (hst'.symm.trans hst))
    have hless := hmoves hok
    exact ⟨by omega, hacc, hraised⟩

/-- **Moves of their own** of the monitor and the guest are bounded, and accept and raise
nothing. -/
theorem SystemInv.internal_run (h₀ : SystemInv (acceptedOf t) (keysOf t) (keyRaised t) s₀)
    (h : Run systemStep InternalOk s₀ t' s) :
    t'.length + movesLeft s ≤ movesLeft s₀ ∧ acceptedOf (t ++ t') = acceptedOf t ∧
      keyRaised (t ++ t') = keyRaised t ∧
      SystemInv (acceptedOf (t ++ t')) (keysOf (t ++ t')) (keyRaised (t ++ t')) s := by
  induction h with
  | nil =>
    rw [List.append_nil, List.length_nil, Nat.zero_add]
    exact ⟨Nat.le_refl _, rfl, rfl, h₀⟩
  | snoc _ he hst ih =>
    obtain ⟨hmoves, haccepted, hraised, hinv⟩ := ih
    obtain ⟨hless, hnone, hquiet⟩ := hinv.internal_step he hst
    have hinv' := (hinv.step he.1 hst).2
    rw [← List.append_assoc, acceptedOf_snoc, keysOf_snoc, keyRaised_snoc, List.length_append,
      List.length_singleton]
    refine ⟨by omega, ?_, ?_, hinv'⟩
    · rw [hnone, haccepted]
      exact List.append_nil _
    · rw [hquiet, hraised]
      exact Bool.or_false _

/-- A system without a move of its own is idle. If a key has raised its line the guest has read
everything and the buffer is empty; and otherwise it has read nothing. -/
theorem SystemInv.rest (h : SystemInv accepted keys raised s) (hrest : ∀ e, ¬ InternalOk s e) :
    s.pc = .idle ∧ if raised then keys = accepted ∧ s.monitor.kbd.contents = [] else keys = [] := by
  have hidle : s.pc = .idle := by
    by_contra hne
    exact hrest .guest ⟨hne, .inr rfl⟩
  refine ⟨hidle, ?_⟩
  cases raised with
  | false => exact h.unread rfl
  | true =>
    have hclosed : ¬ s.monitor.WindowOpen := fun hopen => hrest .window ⟨⟨hopen, hidle⟩, .inl rfl⟩
    have hempty : s.monitor.kbd.contents = [] := by
      by_contra hne
      exact hclosed (h.window (.inl ⟨1, h.requests.keyboard.2 ⟨rfl, hne⟩⟩))
    obtain ⟨j, n, hh, hphase, hkeys⟩ := h.service
    rw [hidle] at hphase
    have hj : accepted.length ≤ j := by
      by_contra hlt
      exact (contents_ne_nil_iff hh).2 (Nat.lt_of_not_le hlt) hempty
    rcases hphase.2 with ⟨⟨-, hne⟩, -⟩ | ⟨-, -, rfl⟩
    · exact absurd hempty hne
    · rw [List.take_of_length_le hj] at hkeys
      exact ⟨hkeys, hempty⟩

/-- The guest has at most its boot before it. -/
theorem SystemInv.stepsLeft_le (h : SystemInv accepted keys raised s) : s.pc.stepsLeft ≤ 14 := by
  have hcontroller := h.controller
  cases hpc : s.pc with
  | boot todo =>
    rw [hpc] at hcontroller
    obtain ⟨k, -, rfl, -⟩ := hcontroller
    have hlength : (guestBoot.drop k).length ≤ 13 := by
      rw [List.length_drop]
      exact Nat.sub_le 13 k
    rw [GuestPc.stepsLeft]
    omega
  | _ => simp [GuestPc.stepsLeft]

/-- **Liveness.** From any state that the system can reach, the moves that are not the host's come
to an end, after at most five for each buffered scancode and a few more. Then the guest is idle. It
has read every scancode that was accepted, if a key ever raised its line; otherwise it has read
none, and what was accepted while the boot had the line masked stays in the buffer. -/
theorem system_drains
    (h : Run systemStep SystemOk (systemStart procBasedControls entryInterruptionInfo) t s)
    (h' : Run systemStep InternalOk s t' s') :
    t'.length ≤ 5 * (s.monitor.kbd.contents.length + 2) + 14 ∧
    ((∀ e, ¬ InternalOk s' e) → s'.pc = .idle ∧
      if keyRaised t then keysOf (t ++ t') = acceptedOf t ∧ s'.monitor.kbd.contents = []
      else keysOf (t ++ t') = []) := by
  obtain ⟨hmoves, haccepted, hraised, hinv⟩ := (SystemInv.of_run h).1.internal_run h'
  refine ⟨?_, fun hrest => ?_⟩
  · have hle := movesLeft_le s
    have hinjections : injectionsLeft s.monitor ≤ s.monitor.kbd.contents.length + 1 := by
      rw [injectionsLeft]
      split <;> split <;> try split
      all_goals omega
    have hsteps := (SystemInv.of_run h).1.stepsLeft_le
    omega
  · rw [← haccepted, ← hraised]
    exact hinv.rest hrest

/-- The moves after a key was pressed. -/
def drainMoves : List SystemEvent := [.window, .guest, .guest, .guest, .guest, .window]

/-- A key that is pressed while the guest is idle is read, and the system is at rest. -/
theorem system_drains_key : ∃ t s t' s', Run systemStep SystemOk (systemStart 0 0) t s ∧
    Run systemStep InternalOk s t' s' ∧ s.monitor.kbd.contents = [0x1e] ∧
    keysOf (t ++ t') = [0x1e] ∧ s'.monitor.kbd.contents = [] := by
  have hpress : ∃ t s, exec (guarded SystemOk systemStep) (systemStart 0 0)
        (bootMoves ++ [.hostKeyboard 0x1e 0]) = some (t, s) ∧ acceptedOf t = [0x1e] ∧
      keyRaised t = true ∧ s.monitor.kbd.contents = [0x1e] ∧
      ∃ t' s', exec (guarded InternalOk systemStep) s drainMoves = some (t', s') ∧
        s'.pc = .idle ∧ ¬ s'.monitor.WindowOpen := by
    refine ⟨_, _, rfl, by decide +kernel, by decide +kernel, by decide +kernel, _, _, rfl, rfl,
      by decide +kernel⟩
  obtain ⟨t, s, hr, hacc, hraised, hcontents, t', s', hr', hidle, hclosed⟩ := hpress
  have hrun : Run systemStep SystemOk (systemStart 0 0) t s := Run.of_guarded hr
  have hrun' : Run systemStep InternalOk s t' s' := Run.of_guarded hr'
  have hrest : ∀ e, ¬ InternalOk s' e := by
    rintro e ⟨hok, rfl | rfl⟩
    · exact hclosed hok.1
    · exact hok hidle
  obtain ⟨-, hdrained⟩ := system_drains hrun hrun'
  obtain ⟨-, hread⟩ := hdrained hrest
  rw [hraised, hacc] at hread
  exact ⟨t, s, t', s', hrun, hrun', hcontents, hread.1, hread.2⟩

end

end ZeldaOS
