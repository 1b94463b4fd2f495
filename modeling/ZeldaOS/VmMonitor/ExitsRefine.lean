import ZeldaOS.VmMonitor.Devices

/-!
# The exits of the machine and the exits of the model

`Monitor.exitStep` is the model of the interrupts of a VM: it has the interrupt controller, the
timer, the keyboard buffer, the requests and the window, and its events are the exits that concern
them. Here it is connected to the exits of the machine, with the devices behind them: every run of
the guest and its exits is, in what it does to the interrupts, a run of the model (`exits_refine`).
An external interrupt, an interrupt window, a write to the controller and a read of the keyboard are
the events of the model, with the same outputs, and no other exit touches its state but the timer's
threshold.
-/

namespace ZeldaOS

/-! ## The relation -/

/-- The model has the state of the devices and the controls. The event to inject is left out: the
processor clears it when it has injected it. -/
structure Abstracts (s : ExitState Devices) (m : Monitor) : Prop where
  pic : m.pic = s.devices.pic
  pit : m.pit = s.devices.pit.toPit
  kbd : m.kbd = s.devices.kbd
  bitmap : m.interruptRequestBitmap = s.devices.interruptRequestBitmap
  controls : m.procBasedControls = s.vmcs ctlsPriProcBasedVmExecution

/-- The guest reads the keyboard. -/
def VmExit.ReadsKeyboard (x : VmExit) : Prop :=
  x.reason = 30 ∧ qualifiedDirection (x.vmcs vmexitQualification) ≠ 0 ∧ x.port = 0x60

/-- The exit of the model that an exit of the machine is, with the timer before it and the state
after it. -/
inductive Seen (x : VmExit) (pit : PitBlob) (s' : ExitState Devices) : Exit → Prop
  | timer : x.reason = 1 → x.vmcs vmexitInterruptInformation &&& 0xff = 0x20 →
      Seen x pit s' (.interrupt (.timer x.input.tsc))
  | keyboard : x.reason = 1 → x.vmcs vmexitInterruptInformation &&& 0xff = 0x21 →
      Seen x pit s' (.interrupt (.keyboard x.input.code x.input.stale))
  | window : x.reason = 7 → Seen x pit s' (.interrupt (.windowExit (x.vmcs guestRflag)))
  | picWrite : x.Writes picPorts →
      Seen x pit s' (.interrupt (.picWrite x.port (UInt8.ofNat x.vcpu.rax)))
  | keyboardRead : x.ReadsKeyboard → Seen x pit s' (.interrupt .keyboardRead)
  | other : x.reason ≠ 1 → x.reason ≠ 7 → ¬ x.Writes picPorts → ¬ x.ReadsKeyboard →
      (¬ x.Writes pitPorts → s'.devices.pit = pit) → Seen x pit s' (.other s'.devices.pit.toPit)

/-- The event that the next entry injects. -/
def entryInfo (o : Output) (pic : Pic) (info : Nat) : Nat :=
  match o.injected with
  | some idx => injectedInfo (pic.masterPicOffset.toNat + idx)
  | none => info

/-- An exit stands for an exit of the model: a byte that the guest reads from the keyboard is in
RAX, and the VMCS has the event of the injected line, and no other one than before if there is
none. -/
structure Observes (x : VmExit) (pit : PitBlob) (s' : ExitState Devices) (y : Exit × Output) :
    Prop where
  seen : Seen x pit s' y.1
  value : ∀ byte, y.2.value = some byte → s'.vcpu.rax = byte.toNat
  entry : s'.vmcs vmentryIntrruptionInfo =
    entryInfo y.2 s'.devices.pic (x.vmcs vmentryIntrruptionInfo)

/-! ## The event to inject

No handler reads it, so a step of the model does the same whatever it is. -/

section
variable {m m' : Monitor} {e : Event} {o : Output}

/-- The model with another event to inject. -/
def Monitor.withInfo (m : Monitor) (info : Nat) : Monitor :=
  { m with entryInterruptionInfo := info }

/-- The event to inject has no part in raising a line, -/
theorem raiseInterrupt_withInfo (m : Monitor) (vector info : Nat) :
    raiseInterrupt (m.withInfo info) vector =
      (raiseInterrupt m vector).map fun r => (r.1, r.2.withInfo info) := by
  rw [raiseInterrupt, raiseInterrupt]
  split
  · change (if isInterruptPinMasked m.pic vector then _ else _) = _
    split
    · rfl
    · rfl
  · rfl

/-- in an interrupt of the timer, -/
theorem timerInterrupt_withInfo (m : Monitor) (currTsc info : Nat) :
    timerInterrupt (m.withInfo info) currTsc =
      (timerInterrupt m currTsc).map fun r => (r.1, r.2.withInfo info) := by
  rw [timerInterrupt, timerInterrupt, raiseInterrupt_withInfo]
  by_cases hdue : m.pit.lastTsc ≠ 0 ∧ diffMseconds m.pit currTsc ≥ m.pit.threshold
  · have hdue' : (m.withInfo info).pit.lastTsc ≠ 0 ∧
        diffMseconds (m.withInfo info).pit currTsc ≥ (m.withInfo info).pit.threshold := hdue
    rw [if_pos hdue, if_pos hdue', Option.map_map, Option.map_map]
    rfl
  · have hdue' : ¬ ((m.withInfo info).pit.lastTsc ≠ 0 ∧
        diffMseconds (m.withInfo info).pit currTsc ≥ (m.withInfo info).pit.threshold) := hdue
    rw [if_neg hdue, if_neg hdue']
    rfl

/-- in one of the keyboard, -/
theorem keyboardInterrupt_withInfo (m : Monitor) (code stale : UInt8) (info : Nat) :
    keyboardInterrupt (m.withInfo info) code stale =
      (keyboardInterrupt m code stale).map fun r => (r.1, r.2.1, r.2.2.withInfo info) := by
  have hraise := raiseInterrupt_withInfo
    { m with kbd := (m.kbd.ringEnqueue (if code = 0 then stale else code)).2 } 1 info
  rw [keyboardInterrupt, keyboardInterrupt, Option.map_map]
  exact (congrArg _ hraise).trans (Option.map_map ..)

/-- and in retiring a line. -/
theorem retireDelivered_withInfo (m : Monitor) (info : Nat) :
    retireDelivered (m.withInfo info) = (retireDelivered m).map fun r =>
      (r.1, r.2.withInfo info) := by
  obtain ⟨pic, pit, kbd, bitmap, controls, info₀⟩ := m
  unfold retireDelivered Monitor.withInfo
  dsimp only
  by_cases hinvalid : pic.interruptDeliveryVector = picInvalidVector
  · rw [if_pos hinvalid, if_pos hinvalid]
    rfl
  rw [if_neg hinvalid, if_neg hinvalid]
  by_cases hline : pic.interruptDeliveryVector.toNat < 15
  · rw [dif_pos hline, dif_pos hline]
    by_cases hkbd : pic.interruptDeliveryVector = 1
    · rw [if_pos hkbd, if_pos hkbd]
      by_cases hempty : kbd.ringDequeue.2.ringEmpty = true
      · rw [if_pos hempty, if_pos hempty]
        rfl
      · rw [if_neg hempty, if_neg hempty]
        rfl
    · rw [if_neg hkbd, if_neg hkbd]
      rfl
  · rw [dif_neg hline, dif_neg hline]
    rfl

/-- An injection overwrites the event; without one it stays. -/
theorem deliverNext_withInfo (m : Monitor) (info : Nat) :
    ∃ info', deliverNext (m.withInfo info) =
      ((deliverNext m).1, (deliverNext m).2.withInfo info') := by
  cases h : firstRequest m.interruptRequestBitmap with
  | none =>
    refine ⟨info, ?_⟩
    rw [deliverNext, deliverNext, show (m.withInfo info).interruptRequestBitmap =
      m.interruptRequestBitmap from rfl, h]
  | some idx =>
    refine ⟨injectedInfo (m.pic.masterPicOffset.toNat + idx), ?_⟩
    rw [deliverNext, deliverNext, show (m.withInfo info).interruptRequestBitmap =
      m.interruptRequestBitmap from rfl, h]
    rfl

/-- A window exit depends on the event in its result only. -/
theorem windowExit_withInfo {rflags : Nat} {r : WindowResult} (info : Nat)
    (h : interruptWindowExit m rflags = some (r, m')) :
    ∃ info', interruptWindowExit (m.withInfo info) rflags = some (r, m'.withInfo info') := by
  rw [interruptWindowExit] at h ⊢
  split at h
  · cases h
  next hflag =>
  rw [if_neg hflag]
  change ∃ info', (if m.pic.interruptDeliveryPending then _ else _) = _
  split at h
  · next hpend =>
    cases h
    exact ⟨info, by rw [if_pos hpend]⟩
  · next hpend =>
    obtain ⟨⟨cleared, m₁⟩, hr, heq⟩ := Option.map_eq_some_iff.1 h
    obtain ⟨info', hdeliver⟩ := deliverNext_withInfo m₁ info
    refine ⟨info', ?_⟩
    rw [if_neg hpend, retireDelivered_withInfo, hr, Option.map_some, Option.map_some]
    dsimp only at heq ⊢
    rw [hdeliver]
    generalize deliverNext m₁ = next at heq ⊢
    cases heq
    change some (_, if next.2.pic.interruptDeliveryPending then _ else _) = _
    split
    · rfl
    · rfl

/-- **A step of the model** does not depend on the event to inject. -/
theorem Monitor.step_withInfo (info : Nat) (h : m.step e = some (o, m')) :
    ∃ info', (m.withInfo info).step e = some (o, m'.withInfo info') := by
  cases e with
  | raise vector =>
    obtain ⟨r, hr, heq⟩ := Option.map_eq_some_iff.1 h
    cases heq
    refine ⟨info, ?_⟩
    rw [Monitor.step, raiseInterrupt_withInfo, hr]
    rfl
  | windowExit rflags =>
    obtain ⟨r, hr, heq⟩ := Option.map_eq_some_iff.1 h
    cases heq
    obtain ⟨info', hr'⟩ := windowExit_withInfo info hr
    exact ⟨info', Option.map_eq_some_iff.2 ⟨_, hr', rfl⟩⟩
  | picWrite portId byte =>
    obtain ⟨pic, hpic, heq⟩ := Option.map_eq_some_iff.1 h
    cases heq
    exact ⟨info, Option.map_eq_some_iff.2 ⟨pic, hpic, rfl⟩⟩
  | timer currTsc =>
    obtain ⟨r, hr, heq⟩ := Option.map_eq_some_iff.1 h
    cases heq
    refine ⟨info, ?_⟩
    rw [Monitor.step, timerInterrupt_withInfo, hr]
    rfl
  | keyboard code stale =>
    obtain ⟨r, hr, heq⟩ := Option.map_eq_some_iff.1 h
    cases heq
    refine ⟨info, ?_⟩
    rw [Monitor.step, keyboardInterrupt_withInfo, hr]
    rfl
  | keyboardRead =>
    cases h
    exact ⟨info, rfl⟩

/-- Raising a line injects nothing. -/
theorem raiseInterrupt_info {vector : Nat} {raised : Option (Fin 15)}
    (h : raiseInterrupt m vector = some (raised, m')) :
    m'.entryInterruptionInfo = m.entryInterruptionInfo := by
  rw [raiseInterrupt] at h
  split at h
  · split at h
    · cases h
      rfl
    · cases h
      rfl
  · cases h

/-- The event after a window exit is that of the line that it injects. -/
theorem windowExit_info {rflags : Nat} {r : WindowResult}
    (h : interruptWindowExit m rflags = some (r, m')) :
    m'.entryInterruptionInfo =
      entryInfo { injected := r.injected } m'.pic m.entryInterruptionInfo := by
  rw [interruptWindowExit] at h
  split at h
  · cases h
  split at h
  · cases h
    rfl
  · obtain ⟨⟨cleared, m₁⟩, hr, heq⟩ := Option.map_eq_some_iff.1 h
    have hinfo : m₁.entryInterruptionInfo = m.entryInterruptionInfo := by
      cases retireDelivered_retires hr <;> rfl
    have hd := deliverNext_delivers m₁
    dsimp only at heq
    generalize deliverNext m₁ = next at hd heq
    obtain ⟨injected, m₂⟩ := next
    cases heq
    dsimp only at hd ⊢
    rw [← hinfo]
    cases hd with
    | idle =>
      split
      · rfl
      · rfl
    | line idx => rfl

/-- What the next entry injects after a step. -/
theorem Monitor.step_info (h : m.step e = some (o, m')) :
    m'.entryInterruptionInfo = entryInfo o m'.pic m.entryInterruptionInfo := by
  cases e with
  | raise vector =>
    obtain ⟨r, hr, heq⟩ := Option.map_eq_some_iff.1 h
    cases heq
    exact raiseInterrupt_info hr
  | windowExit rflags =>
    obtain ⟨r, hr, heq⟩ := Option.map_eq_some_iff.1 h
    cases heq
    exact windowExit_info hr
  | picWrite portId byte =>
    obtain ⟨pic, hpic, heq⟩ := Option.map_eq_some_iff.1 h
    cases heq
    rfl
  | timer currTsc =>
    obtain ⟨⟨raised, m₁⟩, hr, heq⟩ := Option.map_eq_some_iff.1 h
    cases heq
    obtain ⟨m₂, rfl, ⟨-, hraise⟩ | ⟨-, -, rfl⟩⟩ := timerInterrupt_inv hr
    · have hinfo := raiseInterrupt_info hraise
      exact hinfo
    · rfl
  | keyboard code stale =>
    obtain ⟨⟨accepted, raised, m₁⟩, hr, heq⟩ := Option.map_eq_some_iff.1 h
    cases heq
    have hinfo := raiseInterrupt_info (keyboardInterrupt_inv hr).2
    exact hinfo
  | keyboardRead =>
    cases h
    rfl

end

/-! ## One exit -/

section
variable {cfg : MonitorConfig} {portioOps : List (PortioOperation (PortioCallback Devices))}
  {mmioOps : List (MmioRegion Memory)} {s s' : ExitState Devices} {m m' : Monitor} {x : VmExit}

/-- The controls are as before. -/
def KeepsControls (vmcs vmcs' : Vmcs) : Prop :=
  ∀ field, fieldType field = 0 → vmcs' field = vmcs field

/-- A write to a field that is no control keeps the controls. -/
theorem keepsControls_write {vmcs vmcs' : Vmcs} {field : Nat}
    (hfield : fieldType field ≠ 0) (value : Nat)
    (h : KeepsControls vmcs vmcs') : KeepsControls vmcs (vmxWrite vmcs' field value) := by
  intro control hcontrol
  have hne : control ≠ field := by
    rintro rfl
    exact hfield hcontrol
  rw [vmxWrite_of_ne hne, h control hcontrol]

/-- An exit of the model, with what the exit of the machine shows of it. -/
def Simulates (x : VmExit) (pit : PitBlob) (s' : ExitState Devices) (m : Monitor) : Prop :=
  ∃ y o m', m.exitStep y = some (o, m') ∧ Observes x pit s' (y, o) ∧ Abstracts s' m'

/-- The devices that interrupts concern are as before, the timer apart. -/
structure Devices.Undisturbed (d d' : Devices) : Prop where
  pic : d'.pic = d.pic
  kbd : d'.kbd = d.kbd
  bitmap : d'.interruptRequestBitmap = d.interruptRequestBitmap

/-- A handler of interrupts is a step of the model. -/
theorem simulates_step {e : Event} {o : Output} {m₁ : Monitor} (habs : Abstracts (s.atExit x) m)
    (hst : ((s.atExit x).monitor (monitorEmulation cfg portioOps mmioOps)).step e = some (o, m₁))
    (hvalue : o.value = none)
    (hseen : ∀ s', Seen x s.devices.pit s' (.interrupt e)) :
    Simulates x s.devices.pit ((s.atExit x).setMonitor (monitorEmulation cfg portioOps mmioOps) m₁)
      m := by
  have hm : m = ((s.atExit x).monitor (monitorEmulation cfg portioOps mmioOps)).withInfo
      m.entryInterruptionInfo := by
    obtain ⟨pic, pit, kbd, bitmap, controls, info⟩ := m
    obtain ⟨rfl, rfl, rfl, rfl, rfl⟩ := habs
    rfl
  have hinfo : ((s.atExit x).monitor
    (monitorEmulation cfg portioOps mmioOps)).entryInterruptionInfo =
      x.vmcs vmentryIntrruptionInfo := adjustLma_of_ne (by decide) _
  have hvmcs : ((s.atExit x).setMonitor (monitorEmulation cfg portioOps mmioOps) m₁).vmcs =
      vmxWrite (vmxWrite (s.atExit x).vmcs ctlsPriProcBasedVmExecution m₁.procBasedControls)
        vmentryIntrruptionInfo m₁.entryInterruptionInfo := rfl
  obtain ⟨info', hst'⟩ := Monitor.step_withInfo m.entryInterruptionInfo hst
  rw [← hm] at hst'
  refine ⟨.interrupt e, o, _, hst', ⟨hseen _, fun byte hbyte => ?_, ?_⟩, ⟨rfl, rfl, rfl, rfl, ?_⟩⟩
  · cases hvalue.symm.trans hbyte
  · dsimp only
    rw [hvmcs, vmxWrite_self, Monitor.step_info hst, hinfo]
    rfl
  · rw [hvmcs, vmxWrite_of_ne (by decide), vmxWrite_self]
    rfl

/-- An exit that leaves the controls and the event to inject alone stands for an exit of the model
that has the new devices. -/
theorem simulates_devices {y : Exit} {o : Output}
    (hcontrols : KeepsControls (s.atExit x).vmcs s'.vmcs)
    (hst : m.exitStep y = some (o, m')) (hseen : Seen x s.devices.pit s' y)
    (hvalue : ∀ byte, o.value = some byte → s'.vcpu.rax = byte.toNat)
    (hinjected : o.injected = none)
    (hpic : m'.pic = s'.devices.pic) (hpit : m'.pit = s'.devices.pit.toPit)
    (hkbd : m'.kbd = s'.devices.kbd)
    (hbitmap : m'.interruptRequestBitmap = s'.devices.interruptRequestBitmap)
    (hctls : m'.procBasedControls = (s.atExit x).vmcs ctlsPriProcBasedVmExecution) :
    Simulates x s.devices.pit s' m := by
  have hentry : s'.vmcs vmentryIntrruptionInfo = x.vmcs vmentryIntrruptionInfo :=
    (hcontrols _ rfl).trans (adjustLma_of_ne (by decide) _)
  refine ⟨y, o, m', hst, ⟨hseen, hvalue, ?_⟩, ⟨hpic, hpit, hkbd, hbitmap, ?_⟩⟩
  · rw [entryInfo]
    dsimp only
    rw [hinjected]
    exact hentry
  · rw [hctls, hcontrols _ rfl]

/-- The exits that the model does not have as events. -/
theorem simulates_other (habs : Abstracts (s.atExit x) m)
    (hcontrols : KeepsControls (s.atExit x).vmcs s'.vmcs)
    (hdevices : s.devices.Undisturbed s'.devices)
    (hseen : Seen x s.devices.pit s' (.other s'.devices.pit.toPit)) :
    Simulates x s.devices.pit s' m := by
  have hst : m.exitStep (.other s'.devices.pit.toPit) =
    some ({}, { m with pit := s'.devices.pit.toPit }) := rfl
  refine simulates_devices hcontrols hst hseen (fun byte hbyte => ?_) rfl
    (habs.pic.trans hdevices.pic.symm) rfl
    (habs.kbd.trans hdevices.kbd.symm) (habs.bitmap.trans hdevices.bitmap.symm) habs.controls
  cases hbyte

/-- So do the writes for the guest's registers. -/
theorem keepsControls_setGuest (s : ExitState Devices) (g : Guest Devices) :
    KeepsControls s.vmcs (s.setGuest g).vmcs := by
  have hrsp : KeepsControls s.vmcs (vmxWrite s.vmcs guestRsp g.vcpu.guestRsp) :=
    keepsControls_write (by decide) _ fun _ _ => rfl
  exact keepsControls_write (by decide) _ hrsp

/-- **A write to a port** is a write to the controller, or no event of the model. -/
theorem simulates_portWrite (habs : Abstracts (s.atExit x) m) (hreason : x.reason = 30)
    (hout : qualifiedDirection (x.vmcs vmexitQualification) = 0)
    (hcontrols : KeepsControls (s.atExit x).vmcs s'.vmcs)
    (hwrite : PortWrite cfg x.port (UInt8.ofNat x.vcpu.rax) s.devices s'.devices) :
    Simulates x s.devices.pit s' m := by
  -- the write is an event only if its port is one of the controller's
  have hother : ∀ {ports : List Nat}, x.port ∈ ports → (∀ p ∈ ports, p ∉ picPorts) →
      s.devices.Undisturbed s'.devices →
      (¬ x.Writes pitPorts → s'.devices.pit = s.devices.pit) → Simulates x s.devices.pit s' m := by
    intro ports hport hapart hdevices hpit
    refine simulates_other habs hcontrols hdevices (.other ?_ ?_ (fun hw => hapart _ hport hw.2.2)
      (fun hr => hr.2.1 hout) hpit)
    · rw [hreason]
      decide
    · rw [hreason]
      decide
  generalize hd : s'.devices = d' at hwrite hother
  cases hwrite with
  | serial hserial hr => exact hother hserial (by decide) ⟨rfl, rfl, rfl⟩ fun _ => rfl
  | pit hpit =>
    exact hother hpit (by decide) ⟨rfl, rfl, rfl⟩ fun hw => absurd ⟨hreason, hout, hpit⟩ hw
  | pic hpic hpicOutb =>
    have hst : m.exitStep (.interrupt (.picWrite x.port (UInt8.ofNat x.vcpu.rax))) = _ :=
      Option.map_eq_some_iff.2 ⟨_, habs.pic ▸ hpicOutb, rfl⟩
    refine simulates_devices hcontrols hst (.picWrite ⟨hreason, hout, hpic⟩)
      (fun byte hbyte => ?_) rfl ?_ ?_ ?_ ?_ habs.controls
    · cases hbyte
    · rw [hd]
    · rw [hd]
      exact habs.pit
    · rw [hd]
      exact habs.kbd
    · rw [hd]
      exact habs.bitmap

/-- **A read of a port** is a read of the keyboard, or no event of the model. -/
theorem simulates_portRead (habs : Abstracts (s.atExit x) m) (hreason : x.reason = 30)
    (hin : qualifiedDirection (x.vmcs vmexitQualification) ≠ 0)
    (hcontrols : KeepsControls (s.atExit x).vmcs s'.vmcs)
    (hsame : s'.devices = s.devices)
    (hkeyboard : x.port = 0x60 → s'.vcpu.rax = (keyboardByte s.devices.kbd).toNat) :
    Simulates x s.devices.pit s' m := by
  by_cases hkbd : x.port = 0x60
  · refine simulates_devices hcontrols rfl (.keyboardRead ⟨hreason, hin, hkbd⟩)
      (fun byte hbyte => ?_) rfl ?_ ?_ ?_ ?_ habs.controls
    · cases hbyte
      rw [hkeyboard hkbd, keyboardDataInb, habs.kbd]
      rfl
    · rw [hsame]
      exact habs.pic
    · rw [hsame]
      exact habs.pit
    · rw [hsame]
      exact habs.kbd
    · rw [hsame]
      exact habs.bitmap
  · refine simulates_other habs hcontrols ?_ (.other ?_ ?_ (fun hw => hin hw.2.1)
      (fun hr => hkbd hr.2.2) fun _ => ?_)
    · rw [hsame]
      exact ⟨rfl, rfl, rfl⟩
    · rw [hreason]
      decide
    · rw [hreason]
      decide
    · rw [hsame]

/-- An access to a port, which is either of them. -/
theorem simulates_port {g : Guest Devices} (habs : Abstracts (s.atExit x) m)
    (hports : (portOperations cfg).foldlM registerPioOperation [] = some portioOps)
    (hreason : x.reason = 30)
    (h : ioInstructionExitSubHandler portioOps (x.vmcs vmexitQualification)
      (x.vmcs vmexitInstructionLength) (s.atExit x).guest = some g) :
    Simulates x s.devices.pit ((s.atExit x).setGuest g) m := by
  have hcontrols := keepsControls_setGuest (s.atExit x) g
  rcases portExit_cases hports h with ⟨hout, hwrite⟩ | ⟨hin, hsame, hkeyboard⟩
  · exact simulates_portWrite habs hreason hout hcontrols hwrite
  · exact simulates_portRead habs hreason hin hcontrols hsame hkeyboard

/-- An exit with another reason, which touches neither the devices of interrupts nor the
controls. -/
theorem simulates_quiet (habs : Abstracts (s.atExit x) m) {reason : Nat}
    (hreason : x.reason = reason)
    (hmem : reason ∉ [1, 7, 30]) (hcontrols : KeepsControls (s.atExit x).vmcs s'.vmcs)
    (hdevices : s.devices.Undisturbed s'.devices) (hpit : s'.devices.pit = s.devices.pit) :
    Simulates x s.devices.pit s' m := by
  have hne : ∀ r ∈ [1, 7, 30], x.reason ≠ r := by
    rintro r hr rfl
    exact hmem (hreason ▸ hr)
  exact simulates_other habs hcontrols hdevices (.other (hne 1 (by decide)) (hne 7 (by decide))
    (fun hw => hne 30 (by decide) hw.1) (fun hr => hne 30 (by decide) hr.1) fun _ => hpit)

/-- Between two exits the processor leaves the control of the interrupt window as the monitor wrote
it. -/
def KeepsWindow (s : ExitState Devices) (x : VmExit) : Prop :=
  x.vmcs ctlsPriProcBasedVmExecution = s.vmcs ctlsPriProcBasedVmExecution

/-- **One exit.** -/
theorem vmExitStep_simulates {u : Unit}
    (hports : (portOperations cfg).foldlM registerPioOperation [] = some portioOps)
    (habs : Abstracts s m)
    (hran : KeepsWindow s x) (h : vmExitStep (monitorEmulation cfg portioOps mmioOps) s x =
      some (u, s')) :
    Simulates x s.devices.pit s' m := by
  have hfield : ∀ field, field ≠ guestIa32Efer → (s.atExit x).vmcs field = x.vmcs field :=
    fun field hne => adjustLma_of_ne hne _
  have hexit : Abstracts (s.atExit x) m :=
    ⟨habs.pic, habs.pit, habs.kbd, habs.bitmap, habs.controls.trans
      (hran.symm.trans (hfield _ (by decide)).symm)⟩
  have hgoto : ∀ {vmcs} info vcpu (devices : Devices), KeepsControls (s.atExit x).vmcs vmcs →
      KeepsControls (s.atExit x).vmcs (ExitState.gotoNext ⟨vmcs, vcpu, devices⟩ info).vmcs :=
    fun info vcpu devices hkeeps => keepsControls_write (by decide) _ hkeeps
  have hrefl : KeepsControls (s.atExit x).vmcs (s.atExit x).vmcs := fun _ _ => rfl
  have hsame : s.devices.Undisturbed s.devices := ⟨rfl, rfl, rfl⟩
  have hhandled : Handled _ _ _ _ x.reason s' := vmExitStep_handled h
  generalize hreason : x.reason = reason at hhandled
  cases hhandled with
  | timer hvector hr =>
    rw [hfield _ (by decide)] at hvector
    exact simulates_step (e := .timer x.input.tsc) hexit (Option.map_eq_some_iff.2 ⟨_, hr, rfl⟩) rfl
      fun _ => .timer hreason hvector
  | keyboard hvector hr =>
    rw [hfield _ (by decide)] at hvector
    exact simulates_step (e := .keyboard x.input.code x.input.stale) hexit
      (Option.map_eq_some_iff.2 ⟨_, hr, rfl⟩) rfl fun _ => .keyboard hreason hvector
  | window hr =>
    rw [hfield guestRflag (by decide)] at hr
    exact simulates_step (e := .windowExit (x.vmcs guestRflag)) hexit
      (Option.map_eq_some_iff.2 ⟨_, hr, rfl⟩)
      rfl fun _ => .window hreason
  | port hg =>
    have hqualification : (exitInfo (adjustLma x.vmcs)).exitQualification =
      x.vmcs vmexitQualification :=
      hfield _ (by decide)
    have hlength : (exitInfo (adjustLma x.vmcs)).instructionLength =
      x.vmcs vmexitInstructionLength :=
      hfield _ (by decide)
    rw [hqualification, hlength] at hg
    exact simulates_port hexit hports hreason hg
  | @mmio r hr =>
    obtain ⟨⟨region, mem, -, -, hdevices⟩, -⟩ := mmioExit_cases hr
    have hmem : ((s.atExit x).setGuest r.2).devices = s.devices.setMem mem := hdevices
    refine simulates_quiet hexit hreason (by decide) (keepsControls_setGuest _ _) ?_ ?_
    · rw [hmem]
      exact ⟨rfl, rfl, rfl⟩
    · rw [hmem]
      rfl
  -- the next two print their log line, which is on the console only
  | cr3 =>
    exact simulates_quiet hexit hreason (by decide)
      (hgoto _ _ _ (keepsControls_write (by decide) _ hrefl)) ⟨rfl, rfl, rfl⟩ rfl
  | wrmsr =>
    exact simulates_quiet hexit hreason (by decide)
      (hgoto _ _ _ (keepsControls_write (by decide) _ hrefl)) ⟨rfl, rfl, rfl⟩ rfl
  | halt => exact simulates_quiet hexit hreason (by decide) (hgoto _ _ _ hrefl) hsame rfl
  | rdmsr => exact simulates_quiet hexit hreason (by decide) (hgoto _ _ _ hrefl) hsame rfl
  | rdtsc => exact simulates_quiet hexit hreason (by decide) (hgoto _ _ _ hrefl) hsame rfl

/-- **VM exits refine the model of interrupts.** Every run of the guest with its VM exits, whatever
it does in between to its registers, to memory and to its VMCS but for the control of the window, is
a run of `Monitor.exitStep` exit by exit: the external interrupts, the interrupt windows, the writes
to the controller and the reads of the keyboard are its events, and no other exit touches the
controller, the requests, the keyboard buffer or the window. The event in the VMCS is always the one
of the line that the model injects, and what the guest reads is what the model reads. -/
theorem exits_refine {s₀ : ExitState Devices} {m₀ : Monitor}
    {t : List (GuestRun × Observation (ExitState Devices) Unit)}
    (hports : (portOperations cfg).foldlM registerPioOperation [] = some portioOps)
    (h₀ : Abstracts s₀ m₀) (h : Run (observed (runGuest (monitorEmulation cfg portioOps mmioOps)))
      (fun s x => KeepsWindow s x.exit) s₀ t s) :
    ∃ t' m, Run Monitor.exitStep (fun _ _ => True) m₀ t' m ∧
      List.Forall₂ (fun x y => Observes x.1.exit x.2.before.devices.pit x.2.after y) t t' ∧
        Abstracts s m := by
  refine Run.simulate_labels Abstracts _ h₀ ?_ h
  intro s m x o s' habs hran hst
  obtain ⟨rfl, rfl, hst⟩ := observed_eq_some.1 hst
  have habs' : Abstracts { o.before with devices := o.before.devices.setMem x.mem } m :=
    ⟨habs.pic, habs.pit, habs.kbd, habs.bitmap, habs.controls⟩
  obtain ⟨y, o', m', hy, hshows, hafter⟩ := vmExitStep_simulates hports habs' hran hst
  exact ⟨y, o', m', hy, hshows, hafter⟩

end

/-- Devices with a line in service. -/
def servicingDevices : Devices where
  pic := { (preInitialized 0 0).pic with interruptDeliveryPending := true }
  pit := ⟨(preInitialized 0 0).pit, 0, 0⟩
  kbd := (preInitialized 0 0).kbd
  interruptRequestBitmap := fun _ => false
  line := ⟨fun _ => 0, 0, 0⟩
  printed := []

/-- The state of a guest that is about to send an EOI to the master. -/
def servicingState : ExitState Devices :=
  ⟨(outExit 0x20 picEoi).vmcs, (outExit 0x20 picEoi).vcpu, servicingDevices⟩

/-- The EOI ends the service in the model. -/
theorem exits_refine_eoi : ∃ portioOps t s t' m,
    (portOperations sampleConfig).foldlM registerPioOperation [] = some portioOps ∧
    Run (observed (runGuest (monitorEmulation sampleConfig portioOps [])))
      (fun s x => KeepsWindow s x.exit) servicingState t s ∧
    Run Monitor.exitStep (fun _ _ => True)
      { preInitialized 0 0 with pic := servicingDevices.pic } t' m ∧
    List.Forall₂ (fun x y => Observes x.1.exit x.2.before.devices.pit x.2.after y) t t' ∧
    t.length = 1 ∧ m.pic.interruptDeliveryPending = false := by
  obtain ⟨portioOps, hports, hok, -, hfind⟩ := portOperations_registered sampleConfig
  have hlookup : portioCallback portioOps 0x20 = some (some (devicesMaster 0)) := by
    rw [hok.portioCallback (by decide), hfind]
    rfl
  have hcall : ∃ pic, masterPicOutb servicingDevices.pic 0x20 picEoi = some pic ∧
      pic.interruptDeliveryPending = false := ⟨_, rfl, rfl⟩
  obtain ⟨pic, hpic, hpending⟩ := hcall
  obtain ⟨s, hst, hdevices⟩ := runGuest_out sampleConfig [] servicingState (fun _ => 0)
    (by decide) hlookup rfl (Option.map_eq_some_iff.2 ⟨pic, hpic, rfl⟩)
  have hrun : Run (observed (runGuest (monitorEmulation sampleConfig portioOps [])))
      (fun s x => KeepsWindow s x.exit) servicingState
      ([] ++ [(⟨fun _ => 0, outExit 0x20 picEoi⟩, ⟨servicingState, (), s⟩)]) s :=
    Run.nil.snoc (show KeepsWindow _ _ from rfl) (observed_eq_some.2 ⟨rfl, rfl, hst⟩)
  have habs₀ : Abstracts servicingState { preInitialized 0 0 with pic := servicingDevices.pic } :=
    ⟨rfl, rfl, rfl, rfl, rfl⟩
  obtain ⟨t', m, hmodel, hshows, habs⟩ := exits_refine hports habs₀ hrun
  refine ⟨portioOps, _, s, t', m, hports, hrun, hmodel, hshows, rfl, ?_⟩
  rw [habs.pic, hdevices]
  exact hpending

end ZeldaOS
