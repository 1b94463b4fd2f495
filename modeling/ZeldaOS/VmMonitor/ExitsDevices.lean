import ZeldaOS.VmMonitor.Devices

/-!
# The serial line and the screen

The serial line and the screen of the guest are pages of the monitor in one memory. Over whole runs
of the guest with all its exits they do not disturb each other, and nothing else disturbs them: what
is printed on the console is the lines of the bytes that the guest wrote to its serial line, and
between them a log line for each write of CR3 and of an MSR; and the screen shows the bytes that the
guest wrote to its video buffer (`exits_console`).

The exits are inverted by `vmExitStep_handled`, and the accesses to devices by `portExit_cases` and
`mmioExit_cases`; so there is one lemma for a byte on the line (`ConsoleInv.serialOutb`), one for a
log line (`ConsoleInv.log`), one for an access to the video buffer (`ConsoleInv.mmio`), and one for
all that leaves the pages alone (`ConsoleInv.congr`).
-/

namespace ZeldaOS

/-! ## What the guest wrote -/

/-- What an exit has for the console. -/
inductive ConsoleEvent
  /-- The guest writes a byte to its serial line. -/
  | byte (b : UInt8)
  /-- The monitor prints a log line. -/
  | log (line : List UInt8)

/-- The event of an exit: a write to the serial line, to CR3 or to an MSR. -/
def VmExit.consoleEvent? (cfg : MonitorConfig) (x : VmExit) : Option ConsoleEvent :=
  if x.Writes serialPorts then some (.byte (UInt8.ofNat x.vcpu.rax))
  else if x.reason = 28 then some (.log (cfg.cr3Line x.vcpu.rax))
  else if x.reason = 32 then some (.log (cfg.msrLine x.vcpu.rcx (wrmsrValue x.vcpu)))
  else none

/-- An emulated access as a call of the video device. -/
def MmioAccess.videoAccess (a : MmioAccess) : VideoAccess :=
  match a.stored with
  | none => .read a.called a.accessSize
  | some value => .write a.called a.accessSize value

/-- The access that an exit makes to the video buffer. -/
def videoAccess? (e : Emulation Devices) (s : ExitState Devices) (x : GuestRun) :
    Option VideoAccess :=
  if x.exit.reason = 49 then
    let s := ({ s with devices := s.devices.setMem x.mem } : ExitState Devices).atExit x.exit
    (eptMisconfigExitSubHandler (e.host s.devices) e.searchMmioCallback s.guest).map fun r =>
    r.1.videoAccess
  else none

/-- The events of a run. -/
def consoleEvents (cfg : MonitorConfig)
    (t : List (GuestRun × Observation (ExitState Devices) Unit)) : List ConsoleEvent :=
  t.filterMap fun x => x.1.exit.consoleEvent? cfg

/-- The accesses that a run makes to the video buffer. -/
def videoAccesses (e : Emulation Devices)
    (t : List (GuestRun × Observation (ExitState Devices) Unit)) :
    List VideoAccess :=
  t.filterMap fun x => videoAccess? e x.2.before x.1

/-- The texts on the console, and the bytes of the line that the guest has not ended. -/
structure ConsoleText where
  printed : List (List UInt8)
  cur : List UInt8

/-- A byte goes to the line, which is printed with its header when it is ended, up to its first 0. A
log line is printed at once. -/
def ConsoleText.show (cfg : MonitorConfig) (c : ConsoleText) : ConsoleEvent → ConsoleText
  | .byte b =>
    let r := LineBuffer.feed 4095 newline c.cur [b]
    ⟨c.printed ++ r.1.map (serialHeader cfg.vm cfg.vpid ++ cString ·), r.2⟩
  | .log line => ⟨c.printed ++ [line], c.cur⟩

/-- What the console shows for a sequence of events. -/
def consoleText (cfg : MonitorConfig) (events : List ConsoleEvent) : ConsoleText :=
  events.foldl (ConsoleText.show cfg) ⟨[], []⟩

/-- One more event. -/
theorem consoleText_snoc (cfg : MonitorConfig) (events : List ConsoleEvent) (e : ConsoleEvent) :
    consoleText cfg (events ++ [e]) = (consoleText cfg events).show cfg e := by
  rw [consoleText, List.foldl_append]
  rfl

/-- Without log lines the console shows the lines of the bytes. -/
theorem consoleText_bytes (cfg : MonitorConfig) (bytes : List UInt8) :
    consoleText cfg (bytes.map .byte) =
      ⟨(LineBuffer.feed 4095 newline [] bytes).1.map (serialHeader cfg.vm cfg.vpid ++ cString ·),
        (LineBuffer.feed 4095 newline [] bytes).2⟩ := by
  induction bytes using List.reverseRecOn with
  | nil => rfl
  | append_singleton bytes b ih =>
    rw [List.map_append, List.map_singleton, consoleText_snoc, ih, LineBuffer.feed_append,
      ConsoleText.show, List.map_append]

/-! ## The pages -/

/-- The pages of the serial line and the video buffer are apart from each other and from the
screen. -/
structure DevicePages (vm : VmcsBlob) : Prop where
  above : AboveScreen vm.videoBuffer
  serial : videoBufferBase + 4096 ≤ vm.serialLineBuffer
  apart : vm.serialLineBuffer + 4096 ≤ vm.videoBuffer ∨ vm.videoBuffer + 4096 ≤ vm.serialLineBuffer

/-- Two memories agree on the pages of the devices. -/
structure AgreeOnPages (vm : VmcsBlob) (m m' : Memory) : Prop where
  serial : Memory.AgreeOn m m' vm.serialLineBuffer 4096
  video : Memory.AgreeOn m m' vm.videoBuffer 4096
  screen : Memory.AgreeOn m m' videoBufferBase 4096

/-- The guest runs: its registers have 64 bits, and its EPT keeps the pages of the devices from
it. -/
structure GuestOk (vm : VmcsBlob) (s : ExitState Devices) (x : GuestRun) : Prop where
  registers : x.exit.vcpu.Ok
  rsp : x.exit.vmcs guestRsp < 2 ^ 64
  pages : AgreeOnPages vm x.mem s.devices.line.mem

/-- The devices after exits with the given events for the console and the accesses `es` to the video
buffer. -/
structure ConsoleInv (cfg : MonitorConfig) (vm : VmcsBlob) (printed : List (List UInt8))
    (events : List ConsoleEvent) (es : List VideoAccess) (d : Devices) : Prop where
  serial : SerialPage vm.serialLineBuffer d.line (consoleText cfg events).cur
  printed : d.printed = printed ++ (consoleText cfg events).printed
  video : VideoInv vm.videoBuffer (videoStores es) d.line.mem

section
variable {cfg : MonitorConfig} {vm : VmcsBlob} {printed : List (List UInt8)}
  {events : List ConsoleEvent} {es : List VideoAccess} {d d' : Devices}
  {s s' : ExitState Devices} {x : GuestRun}
  {portioOps : List (PortioOperation (PortioCallback Devices))} {mmioOps : List (MmioRegion Memory)}

/-- The line depends on the bytes of its page. -/
theorem SerialPage.congr {buffer : Nat} {l l' : SerialLine} {cur : List UInt8}
    (h : SerialPage buffer l cur) (hbuffer : l'.serialLineBuffer = l.serialLineBuffer)
    (hiptr : l'.serialLineIptr = l.serialLineIptr)
    (hmem : Memory.AgreeOn l'.mem l.mem buffer 4096) : SerialPage buffer l' cur := by
  have hlen := h.length
  refine ⟨hbuffer.trans h.page, hiptr.trans h.iptr, h.length, ?_, fun x hx hlt => ?_⟩
  · rw [Memory.bytes_congr (hmem.mono (Nat.le_refl _) (by omega)), h.bytes]
  · rw [hmem _ (by omega) (by omega), h.zero x hx hlt]

/-- The video device depends on the bytes of its page and of the screen. -/
theorem VideoInv.congr {videoBuffer : Nat} {stores : List Memory.Store} {m m' : Memory}
    (h : VideoInv videoBuffer stores m) (hvideo : Memory.AgreeOn m' m videoBuffer 4096)
    (hscreen : Memory.AgreeOn m' m videoBufferBase 4096) : VideoInv videoBuffer stores m' := by
  refine ⟨fun o ho => ?_, h.inPage, fun o ho => ?_⟩
  · rw [hvideo _ (by omega) (by omega), h.page o ho]
  · have hlt := h.inPage o ho
    have hbuffer : m' (videoBuffer + o) = m (videoBuffer + o) := hvideo _ (by omega) (by omega)
    have hshown : m' (videoBufferBase + o) = m (videoBufferBase + o) :=
      hscreen _ (by omega) (by omega)
    rw [hbuffer, hshown, h.screen o ho]

/-- What leaves the pages, the line and the console alone. -/
theorem ConsoleInv.congr (h : ConsoleInv cfg vm printed events es d)
    (hbuffer : d'.line.serialLineBuffer = d.line.serialLineBuffer)
    (hiptr : d'.line.serialLineIptr = d.line.serialLineIptr) (hprinted : d'.printed = d.printed)
    (hmem : AgreeOnPages vm d'.line.mem d.line.mem) : ConsoleInv cfg vm printed events es d' :=
  ⟨h.serial.congr hbuffer hiptr hmem.serial, hprinted.trans h.printed,
    h.video.congr hmem.video hmem.screen⟩

/-! ## The serial line -/

/-- A byte on the line changes memory in the page of the line only. -/
theorem deviceSerialOutb_frame {vpid vmAddr a : Nat} {l : SerialLine} {byte : UInt8}
    {r : Option (List UInt8) × SerialLine} (h : deviceSerialOutb vmAddr vpid l byte = some r)
    (ha : a < l.serialLineBuffer ∨ l.serialLineBuffer + 4096 ≤ a) : r.2.mem a = l.mem a := by
  rw [deviceSerialOutb] at h
  split at h
  · next hiptr =>
    have hbyte : l.mem.fill (l.serialLineBuffer + l.serialLineIptr) 1 byte a = l.mem a :=
      Memory.fill_apply_of_not_mem (by omega)
    dsimp only at h
    split at h
    · obtain ⟨out, -, rfl⟩ := Option.map_eq_some_iff.1 h
      exact (Memory.fill_apply_of_not_mem (by omega)).trans hbyte
    · cases h
      exact hbyte
  · cases h

/-- **A byte on the line.** -/
theorem ConsoleInv.serialOutb (hpages : DevicePages vm) (h : ConsoleInv cfg vm printed events es d)
    {byte : UInt8} {r : Option (List UInt8) × SerialLine}
    (hr : deviceSerialOutb cfg.vm cfg.vpid d.line byte = some r) :
    ConsoleInv cfg vm printed (events ++ [.byte byte]) es
      { d with line := r.2, printed := d.printed ++ r.1.toList } := by
  obtain ⟨line, cur', l', hpush, hout, hpage⟩ :=
    @SerialPage.step cfg.vm cfg.vpid _ _ _ h.serial byte
  cases hr.symm.trans hout
  have hshow : consoleText cfg (events ++ [.byte byte]) =
      ⟨(consoleText cfg events).printed ++
        line.toList.map (serialHeader cfg.vm cfg.vpid ++ cString ·), cur'⟩ := by
    rw [consoleText_snoc, ConsoleText.show, LineBuffer.feed_of_push hpush]
  have hframe : ∀ a, a < vm.serialLineBuffer ∨ vm.serialLineBuffer + 4096 ≤ a →
      l'.mem a = d.line.mem a := by
    intro a ha
    rw [← h.serial.page] at ha
    exact deviceSerialOutb_frame hr ha
  have hserial := hpages.serial
  have hapart := hpages.apart
  refine ⟨?_, ?_, h.video.congr (fun a h₁ h₂ => hframe a ?_) fun a h₁ h₂ => hframe a ?_⟩
  · rw [hshow]
    exact hpage
  · rw [hshow, h.printed, Option.toList_map, List.append_assoc]
  · omega
  · omega

/-- **A log line.** It is printed between the lines of the guest. -/
theorem ConsoleInv.log (h : ConsoleInv cfg vm printed events es d) (text : List UInt8) :
    ConsoleInv cfg vm printed (events ++ [.log text]) es
      { d with printed := d.printed ++ [text] } := by
  have hshow : consoleText cfg (events ++ [.log text]) =
      ⟨(consoleText cfg events).printed ++ [text], (consoleText cfg events).cur⟩ :=
    consoleText_snoc cfg events (.log text)
  refine ⟨?_, ?_, h.video⟩
  · rw [hshow]
    exact h.serial
  · rw [hshow, h.printed, List.append_assoc]

/-! ## The video buffer -/

/-- `device_video_init` registers its region alone. -/
theorem deviceVideoInit_ops {A : Type} [PageAllocator A] {k k' : Kernel A}
    {eptPml4Base videoBuffer : Nat}
    (h : deviceVideoInit k eptPml4Base videoBuffer [] = some (k', mmioOps)) :
    mmioOps = [videoMmio videoBuffer] := by
  obtain ⟨k₁, -, hregister⟩ := Option.bind_eq_some_iff.1 h
  obtain ⟨ops, hops, heq⟩ := Option.map_eq_some_iff.1 hregister
  cases heq
  have hok : ∀ op ∈ [videoMmio videoBuffer], op.Ok := by
    intro op hop
    obtain rfl := List.mem_singleton.1 hop
    exact ⟨by simp [videoMmio], by simp [videoMmio, videoBufferPageFrame]⟩
  have hregs : [videoMmio videoBuffer].foldlM registerMmioOperation [] = some mmioOps := by
    rw [List.foldlM_cons, hops]
    rfl
  exact List.perm_singleton.1 (regionsOk_of_enclosesNone hok (List.pairwise_singleton ..) hregs).2

/-- An access that the video device makes is in its page. -/
theorem mmioEffect_video {A : Type} [PageAllocator A] {k k' : Kernel A}
    {eptPml4Base videoBuffer : Nat}
    {a : MmioAccess} (hvideo : deviceVideoInit k eptPml4Base videoBuffer [] = some (k', mmioOps))
    (haddr : a.called < 2 ^ 64) (h : MmioEffect mmioOps a d d') :
    ∃ out mem, videoStep videoBuffer d.line.mem a.videoAccess = some (out, mem) ∧
      a.videoAccess.InPage ∧ d' = d.setMem mem := by
  obtain ⟨region, mem, hregion, hcall, rfl⟩ := h
  obtain rfl : region = videoMmio videoBuffer := by
    rw [mmioCallback] at hregion
    obtain ⟨r, -, hr⟩ := Option.map_eq_some_iff.1 hregion
    obtain ⟨i, -, hi⟩ := Option.bind_eq_some_iff.1 hr
    have hmem := List.mem_of_getElem? hi
    rw [deviceVideoInit_ops hvideo] at hmem
    exact List.mem_singleton.1 hmem
  -- the assertion of the device excludes the last address, for which the lookup is not exact
  have hpage : ∀ n, (videoOffset a.called + n) % 2 ^ 64 ≤ 4096 → n ∈ accessSizes →
      videoBufferPageFrame ≤ a.called ∧ a.called - videoBufferPageFrame + n ≤ 4096 := by
    intro n hle hn
    have hsize : 1 ≤ n ∧ n ≤ 8 := (by decide : ∀ n ∈ accessSizes, 1 ≤ n ∧ n ≤ 8) n hn
    have hframe : videoBufferPageFrame = 0x1000b8000 := rfl
    by_cases hlast : a.called < 2 ^ 64 - 1
    · obtain ⟨o, ho, hiff⟩ := deviceVideoInit_mmioCallback hvideo hlast
      cases hregion.symm.trans ho
      have hcontains : videoBufferPageFrame ≤ a.called ∧ a.called < videoBufferPageFrame + 4096 :=
        ((hiff _).1 rfl).2
      rw [videoOffset] at hle
      omega
    · rw [videoOffset] at hle
      omega
  cases hcall with
  | @read read addr n value m' hread hcall =>
    cases hread
    have hst : videoStep videoBuffer d.line.mem (.read addr n) = some (some value, mem) := by
      rw [videoStep, hcall]
      rfl
    rw [videoBufferMmioRead] at hcall
    split at hcall
    · next hle =>
      split at hcall
      · next hn => exact ⟨_, _, hst, ⟨hn, hpage n hle hn⟩, rfl⟩
      · cases hcall
    · cases hcall
  | @write write addr n value m' hwrite hcall =>
    cases hwrite
    have hst : videoStep videoBuffer d.line.mem (.write addr n value) = some (none, mem) := by
      rw [videoStep, hcall]
      rfl
    rw [videoBufferMmioWrite] at hcall
    dsimp only at hcall
    split at hcall
    · next hle =>
      split at hcall
      · next hn => exact ⟨_, _, hst, ⟨hn, hpage n hle hn⟩, rfl⟩
      · cases hcall
    · cases hcall

/-- **An access to the video buffer.** -/
theorem ConsoleInv.mmio (hpages : DevicePages vm) (h : ConsoleInv cfg vm printed events es d)
    {e : VideoAccess} {out : Option Nat} {mem : Memory} (he : e.InPage)
    (hst : videoStep vm.videoBuffer d.line.mem e = some (out, mem)) :
    ConsoleInv cfg vm printed events (es ++ [e]) (d.setMem mem) := by
  obtain ⟨hvideo, hcall⟩ := h.video.step hpages.above he hst
  have hserial := hpages.serial
  have hapart := hpages.apart
  refine ⟨h.serial.congr rfl rfl fun a h₁ h₂ => hcall.frame a ?_, h.printed, hvideo⟩
  intro store hstore o ho
  have ho' : o < 4096 := by
    cases e with
    | read => cases hstore
    | write addr n value =>
      obtain rfl : (⟨addr - videoBufferPageFrame, n, value⟩ : Memory.Store) = store :=
        Option.some.inj hstore
      have hin : addr - videoBufferPageFrame + n ≤ 4096 := he.2.2
      have hreach : o < addr - videoBufferPageFrame + n := ho.2
      omega
  omega

/-! ## Exits -/

/-- A write to the serial line is a byte on the console. -/
theorem consoleEvent?_of_writes {x : VmExit} (h : x.Writes serialPorts) :
    x.consoleEvent? cfg = some (.byte (UInt8.ofNat x.vcpu.rax)) := if_pos h

/-- An exit that is no write to the serial line, to CR3 or to an MSR has nothing for the console. -/
theorem consoleEvent?_eq_none {x : VmExit} (h : ¬ x.Writes serialPorts) (hcr3 : x.reason ≠ 28)
    (hmsr : x.reason ≠ 32) : x.consoleEvent? cfg = none := by
  rw [VmExit.consoleEvent?, if_neg h, if_neg hcr3, if_neg hmsr]

/-- A write of CR3 is logged, -/
theorem consoleEvent?_cr3 {x : VmExit} (h : x.reason = 28) :
    x.consoleEvent? cfg = some (.log (cfg.cr3Line x.vcpu.rax)) := by
  have hserial : ¬ x.Writes serialPorts := by
    intro hw
    cases h.symm.trans hw.1
  rw [VmExit.consoleEvent?, if_neg hserial, if_pos h]

/-- and so is one of an MSR. -/
theorem consoleEvent?_msr {x : VmExit} (h : x.reason = 32) :
    x.consoleEvent? cfg = some (.log (cfg.msrLine x.vcpu.rcx (wrmsrValue x.vcpu))) := by
  have hserial : ¬ x.Writes serialPorts := by
    intro hw
    cases h.symm.trans hw.1
  have hcr3 : x.reason ≠ 28 := by
    rw [h]
    decide
  rw [VmExit.consoleEvent?, if_neg hserial, if_neg hcr3, if_pos h]

/-- Only an EPT misconfiguration is an access to the video buffer. -/
theorem videoAccess?_of_reason {e : Emulation Devices} (h : x.exit.reason ≠ 49) :
    videoAccess? e s x = none := if_neg h

/-- An exit that leaves the line, the console and memory alone. -/
theorem ConsoleInv.quiet {e : Emulation Devices} (h : ConsoleInv cfg vm printed events es d)
    (hline : d'.line = d.line) (hprinted : d'.printed = d.printed)
    (hserial : ¬ x.exit.Writes serialPorts) (hreason : x.exit.reason ∉ [28, 32, 49]) :
    ConsoleInv cfg vm printed (events ++ (x.exit.consoleEvent? cfg).toList)
      (es ++ (videoAccess? e s x).toList) d' := by
  have hne : ∀ r ∈ [28, 32, 49], x.exit.reason ≠ r := by
    rintro r hr rfl
    exact hreason hr
  rw [consoleEvent?_eq_none hserial (hne 28 (by decide)) (hne 32 (by decide)),
    videoAccess?_of_reason (hne 49 (by decide))]
  simp only [Option.toList_none, List.append_nil]
  exact ⟨hline ▸ h.serial, hprinted.trans h.printed, hline ▸ h.video⟩

/-- An exit that prints a log line. -/
theorem ConsoleInv.logged {e : Emulation Devices} (h : ConsoleInv cfg vm printed events es d)
    {text : List UInt8} (hevent : x.exit.consoleEvent? cfg = some (.log text))
    (hreason : x.exit.reason ≠ 49) :
    ConsoleInv cfg vm printed (events ++ (x.exit.consoleEvent? cfg).toList)
      (es ++ (videoAccess? e s x).toList) { d with printed := d.printed ++ [text] } := by
  rw [hevent, videoAccess?_of_reason hreason, Option.toList_some, Option.toList_none,
    List.append_nil]
  exact h.log text

/-- A port access. -/
theorem ConsoleInv.port {e : Emulation Devices} (hpages : DevicePages vm)
    (h : ConsoleInv cfg vm printed events es d) (hreason : x.exit.reason = 30)
    (hout : qualifiedDirection (x.exit.vmcs vmexitQualification) = 0)
    (hwrite : PortWrite cfg x.exit.port (UInt8.ofNat x.exit.vcpu.rax) d d') :
    ConsoleInv cfg vm printed (events ++ (x.exit.consoleEvent? cfg).toList)
      (es ++ (videoAccess? e s x).toList) d' := by
  have hne : x.exit.reason ∉ [28, 32, 49] := by
    rw [hreason]
    decide
  have hother : ∀ {ports : List Nat}, x.exit.port ∈ ports → (∀ p ∈ ports, p ∉ serialPorts) →
      ¬ x.exit.Writes serialPorts := fun hp hapart hw => hapart _ hp hw.2.2
  cases hwrite with
  | serial hport hr =>
    have hmmio : x.exit.reason ≠ 49 := by
      rw [hreason]
      decide
    rw [consoleEvent?_of_writes ⟨hreason, hout, hport⟩, videoAccess?_of_reason hmmio,
      Option.toList_some, Option.toList_none, List.append_nil]
    exact h.serialOutb hpages hr
  | pic hport => exact h.quiet rfl rfl (hother hport (by decide)) hne
  | pit hport => exact h.quiet rfl rfl (hother hport (by decide)) hne

/-- **An access to the video memory** is the only event of its exit. -/
theorem ConsoleInv.mmioExit {A : Type} [PageAllocator A] {k k' : Kernel A} {eptPml4Base : Nat}
    {r : MmioAccess × Guest Devices} (hpages : DevicePages vm)
    (hvideo : deviceVideoInit k eptPml4Base vm.videoBuffer [] = some (k', mmioOps))
    (h : ConsoleInv cfg vm printed events es (s.devices.setMem x.mem))
    (hreason : x.exit.reason = 49)
    (haccess : videoAccess? (monitorEmulation cfg portioOps mmioOps) s x = some r.1.videoAccess)
    (heffect : MmioEffect mmioOps r.1 (s.devices.setMem x.mem) r.2.devices)
    (haddr : r.1.called < 2 ^ 64) :
    ConsoleInv cfg vm printed (events ++ (x.exit.consoleEvent? cfg).toList)
      (es ++ (videoAccess? (monitorEmulation cfg portioOps mmioOps) s x).toList) r.2.devices := by
  obtain ⟨out, mem, hstep, hin, hdevices⟩ := mmioEffect_video hvideo haddr heffect
  have hnone : x.exit.consoleEvent? cfg = none := by
    refine consoleEvent?_eq_none (fun hw => ?_) ?_ ?_
    · cases hreason.symm.trans hw.1
    · rw [hreason]
      decide
    · rw [hreason]
      decide
  rw [hnone, haccess, Option.toList_none, List.append_nil, hdevices]
  exact h.mmio hpages hin hstep

/-- **One exit**, with the run of the guest before it. -/
theorem ConsoleInv.step {A : Type} [PageAllocator A] {k k' : Kernel A} {eptPml4Base : Nat}
    {u : Unit} (hpages : DevicePages vm)
    (hports : (portOperations cfg).foldlM registerPioOperation [] = some portioOps)
    (hvideo : deviceVideoInit k eptPml4Base vm.videoBuffer [] = some (k', mmioOps))
    (h : ConsoleInv cfg vm printed events es s.devices) (hok : GuestOk vm s x)
    (hst : runGuest (monitorEmulation cfg portioOps mmioOps) s x = some (u, s')) :
    ConsoleInv cfg vm printed (events ++ (x.exit.consoleEvent? cfg).toList)
      (es ++ (videoAccess? (monitorEmulation cfg portioOps mmioOps) s x).toList) s'.devices := by
  have hran : ConsoleInv cfg vm printed events es (s.devices.setMem x.mem) :=
    h.congr rfl rfl rfl hok.pages
  have hhandled : Handled _ _ _ _ x.exit.reason s' := vmExitStep_handled hst
  have hquiet : ∀ {d : Devices}, x.exit.reason ∉ [28, 30, 32, 49] →
      d.line = (s.devices.setMem x.mem).line → d.printed = s.devices.printed →
      ConsoleInv cfg vm printed (events ++ (x.exit.consoleEvent? cfg).toList)
        (es ++ (videoAccess? (monitorEmulation cfg portioOps mmioOps) s x).toList) d := by
    intro d hne hline hprinted
    refine hran.quiet hline hprinted (fun hw => hne ?_) fun hmem => hne ?_
    · rw [hw.1]
      decide
    · exact (by decide : ∀ r ∈ [28, 32, 49], r ∈ [28, 30, 32, 49]) _ hmem
  generalize hreason : x.exit.reason = reason at hhandled hquiet
  cases hhandled with
  | port hg =>
    have hqualification : (exitInfo (adjustLma x.exit.vmcs)).exitQualification =
        x.exit.vmcs vmexitQualification :=
      adjustLma_of_ne (show vmexitQualification ≠ guestIa32Efer by decide) _
    rw [hqualification] at hg
    rcases portExit_cases hports hg with ⟨hout, hwrite⟩ | ⟨hin, hsame, -⟩
    · exact hran.port hpages hreason hout hwrite
    · refine hran.quiet ?_ ?_ (fun hw => hin hw.2.1) (by rw [hreason]; decide)
      · exact congrArg Devices.line hsame
      · exact congrArg Devices.printed hsame
  | @mmio r hr =>
    have hvcpu : (⟨x.exit.vcpu, adjustLma x.exit.vmcs guestRsp⟩ : Vcpu) =
        ⟨x.exit.vcpu, x.exit.vmcs guestRsp⟩ := by
      rw [adjustLma_of_ne (show guestRsp ≠ guestIa32Efer by decide)]
    obtain ⟨heffect, index, hindex⟩ := mmioExit_cases hr
    have haddr : r.1.called < 2 ^ 64 := by
      rw [hindex]
      change vcpuGetGpRegiter ⟨x.exit.vcpu, adjustLma x.exit.vmcs guestRsp⟩ index < 2 ^ 64
      rw [hvcpu]
      exact vcpuGetGpRegiter_lt hok.registers hok.rsp index
    have haccess : videoAccess? (monitorEmulation cfg portioOps mmioOps) s x =
        some r.1.videoAccess := by
      rw [videoAccess?, if_pos hreason]
      exact Option.map_eq_some_iff.2 ⟨r, hr, rfl⟩
    exact hran.mmioExit hpages hvideo hreason haccess heffect haddr
  | cr3 => exact hran.logged (consoleEvent?_cr3 hreason) (by rw [hreason]; decide)
  | wrmsr => exact hran.logged (consoleEvent?_msr hreason) (by rw [hreason]; decide)
  | timer => exact hquiet (by decide) rfl rfl
  | keyboard => exact hquiet (by decide) rfl rfl
  | window => exact hquiet (by decide) rfl rfl
  | halt => exact hquiet (by decide) rfl rfl
  | rdmsr => exact hquiet (by decide) rfl rfl
  | rdtsc => exact hquiet (by decide) rfl rfl

/-! ## Runs -/

/-- The pages that `pre_initialize_vmcs` allocates are apart. -/
theorem devicePages_of_preInitialize {k k' : Kernel PhysicalMemory} (hf : FrontierOk k.alloc)
    (hlow : videoBufferBase + 4096 ≤ k.alloc.currentAvailPage)
    (h : preInitializeVmcs k = some (vm, k')) :
    DevicePages vm := by
  obtain ⟨⟨alloc, hrun, -⟩, -⟩ := preInitializeVmcs_inv h
  have hinv := hf.allocInv hrun
  have hmem : vm.serialLineBuffer ∈ vm.regions ∧ vm.videoBuffer ∈ vm.regions := by
    simp [VmcsBlob.regions, VmcsBlob.requests]
  have hserial := (preInitializeVmcs_regions h _ hmem.1).1
  have hvideo := (preInitializeVmcs_regions h _ hmem.2).1
  have hblock : ((1, vm.serialLineBuffer) : Int × Nat) ∈ vm.requests := by simp [VmcsBlob.requests]
  obtain ⟨-, hfrontier, -⟩ := hinv.blocks _ hblock hserial
  have hapart : BlocksDisjoint (1, vm.serialLineBuffer) (1, vm.videoBuffer) := by
    have hpairs := hinv.disjoint
    simp only [VmcsBlob.requests, List.pairwise_cons] at hpairs
    obtain ⟨-, -, -, -, -, -, hlast, -⟩ := hpairs
    exact hlast _ (by simp)
  exact ⟨(preInitializeVmcs_video hf hlow h).1, hlow.trans hfrontier, hapart hserial hvideo⟩

/-- The devices when the guest is launched: the line is empty and the pages are as
`pre_initialize_vmcs` left them. -/
structure Launched (vm : VmcsBlob) (k : Kernel PhysicalMemory) (d : Devices) : Prop where
  buffer : d.line.serialLineBuffer = vm.serialLineBuffer
  iptr : d.line.serialLineIptr = vm.serialLineIptr
  serial : Memory.AgreeOn d.line.mem k.mem vm.serialLineBuffer 4096
  video : Memory.AgreeOn d.line.mem k.mem vm.videoBuffer 4096

/-- At the launch the console shows nothing of the guest. -/
theorem Launched.consoleInv {k k' : Kernel PhysicalMemory} (h : Launched vm k' d)
    (hf : FrontierOk k.alloc) (hlow : videoBufferBase + 4096 ≤ k.alloc.currentAvailPage)
    (hpre : preInitializeVmcs k = some (vm, k')) :
    ConsoleInv cfg vm d.printed [] [] d := by
  refine ⟨(serialPage_start hpre).congr h.buffer h.iptr h.serial, (List.append_nil _).symm,
    fun o ho => ?_, ?_, ?_⟩
  · rw [h.video _ (by omega) (by omega), (preInitializeVmcs_video hf hlow hpre).2 o ho]
    rfl
  · intro o ho
    cases ho
  · intro o ho
    cases ho

end

/-- **The console and the screen of a guest.** From the pages that `pre_initialize_vmcs` allocates,
in every run of the guest with its VM exits of all kinds: what is printed on the console is the
lines of the bytes that were written to the serial ports, with a log line for each write of CR3 and
of an MSR between them, all in the order in which they happened; the video buffer holds the bytes
that were written to it last, and zeros elsewhere; and the screen shows every byte that was
written. -/
theorem exits_console {k k' k₁ k₂ : Kernel PhysicalMemory} {vm : VmcsBlob} {cfg : MonitorConfig}
    {eptPml4Base : Nat} {portioOps : List (PortioOperation (PortioCallback Devices))}
    {mmioOps : List (MmioRegion Memory)}
    {s₀ s : ExitState Devices} {t : List (GuestRun × Observation (ExitState Devices) Unit)}
    (hf : FrontierOk k.alloc) (hlow : videoBufferBase + 4096 ≤ k.alloc.currentAvailPage)
    (hpre : preInitializeVmcs k = some (vm, k'))
    (hports : (portOperations cfg).foldlM registerPioOperation [] = some portioOps)
    (hvideo : deviceVideoInit k₁ eptPml4Base vm.videoBuffer [] = some (k₂, mmioOps))
    (hlaunched : Launched vm k' s₀.devices)
    (hrun : Run (observed (runGuest (monitorEmulation cfg portioOps mmioOps)))
      (GuestOk vm) s₀ t s) :
    s.devices.printed = s₀.devices.printed ++ (consoleText cfg (consoleEvents cfg t)).printed ∧
    (∀ o < 4096, s.devices.line.mem (vm.videoBuffer + o) =
      Memory.stored (videoStores (videoAccesses (monitorEmulation cfg portioOps mmioOps) t)) o) ∧
    ∀ o, (Memory.lastStored (videoStores (videoAccesses (monitorEmulation cfg portioOps mmioOps) t))
      o).isSome →
      s.devices.line.mem (videoBufferBase + o) = s.devices.line.mem (vm.videoBuffer + o) := by
  have hpages := devicePages_of_preInitialize hf hlow hpre
  have hinv : ConsoleInv cfg vm s₀.devices.printed (consoleEvents cfg t)
      (videoAccesses (monitorEmulation cfg portioOps mmioOps) t) s.devices := by
    refine hrun.inv (fun t s => ConsoleInv cfg vm s₀.devices.printed (consoleEvents cfg t)
      (videoAccesses (monitorEmulation cfg portioOps mmioOps) t) s.devices)
      (hlaunched.consoleInv hf hlow hpre) ?_
    intro t s x o s' h hok hst
    obtain ⟨rfl, rfl, hst⟩ := observed_eq_some.1 hst
    have hevents : consoleEvents cfg (t ++ [(x, o)]) =
        consoleEvents cfg t ++ (x.exit.consoleEvent? cfg).toList := filterMap_snoc _ _ _
    have haccesses : videoAccesses (monitorEmulation cfg portioOps mmioOps) (t ++ [(x, o)]) =
        videoAccesses (monitorEmulation cfg portioOps mmioOps) t ++
          (videoAccess? (monitorEmulation cfg portioOps mmioOps) o.before x).toList :=
      filterMap_snoc _ _ _
    rw [hevents, haccesses]
    exact h.step hpages hports hvideo hok hst
  exact ⟨hinv.printed, hinv.video.page, hinv.video.screen⟩

/-- The state at the launch of a guest on the sample machine. -/
def launchState (vm : VmcsBlob) (k : Kernel PhysicalMemory) : ExitState Devices :=
  ⟨fun _ => 0, sampleGuest, ⟨vm.pic, ⟨vm.pit, 0, 0⟩, vm.kbd, fun _ => false, serialLineOf vm k, []⟩⟩

/-- On the sample machine a newline to the serial port prints an empty line. -/
theorem exits_console_newline : ∃ vm k' portioOps k₂ mmioOps t s,
    preInitializeVmcs identityKernel = some (vm, k') ∧
    (portOperations sampleConfig).foldlM registerPioOperation [] = some portioOps ∧
    deviceVideoInit identityKernel 0x404000 vm.videoBuffer [] = some (k₂, mmioOps) ∧
    Run (observed (runGuest (monitorEmulation sampleConfig portioOps mmioOps))) (GuestOk vm)
      (launchState vm k') t s ∧
    s.devices.printed = [serialHeader 0x7000 1 ++ [0x0a]] := by
  have hex : ((preInitializeVmcs identityKernel).bind fun r =>
      (deviceVideoInit identityKernel 0x404000 r.1.videoBuffer []).map fun r' =>
        (r, r')).isSome := by
    decide +kernel
  obtain ⟨⟨⟨vm, k'⟩, ⟨k₂, mmioOps⟩⟩, hboth⟩ := Option.isSome_iff_exists.1 hex
  obtain ⟨r, hpre, hmap⟩ := Option.bind_eq_some_iff.1 hboth
  obtain ⟨r', hvideo, heq⟩ := Option.map_eq_some_iff.1 hmap
  cases heq
  obtain ⟨portioOps, hports, hok, -, hfind⟩ := portOperations_registered sampleConfig
  have hlookup : portioCallback portioOps 0x3f8 = some (some (devicesSerial sampleConfig 0)) := by
    rw [hok.portioCallback (by decide), hfind]
    rfl
  obtain ⟨line, cur', l', hpush, hout, -⟩ := @SerialPage.step 0x7000 1 _ _ _
    (serialPage_start hpre) newline
  obtain ⟨s, hst, -⟩ := runGuest_out sampleConfig mmioOps (launchState vm k') k'.mem
    (by decide) hlookup
    rfl (Option.map_eq_some_iff.2 ⟨_, hout, rfl⟩)
  have hguest : GuestOk vm (launchState vm k') ⟨k'.mem, outExit 0x3f8 newline⟩ :=
    ⟨(by decide : (outExit 0x3f8 newline).vcpu.Ok), Nat.two_pow_pos 64,
      ⟨fun _ _ _ => rfl, fun _ _ _ => rfl, fun _ _ _ => rfl⟩⟩
  have hrun : Run (observed (runGuest (monitorEmulation sampleConfig portioOps mmioOps)))
      (GuestOk vm) (launchState vm k')
      ([] ++ [(⟨k'.mem, outExit 0x3f8 newline⟩, ⟨launchState vm k', (), s⟩)]) s :=
    Run.nil.snoc hguest (observed_eq_some.2 ⟨rfl, rfl, hst⟩)
  obtain ⟨_, halloc⟩ := run_identityKernel
  have hinv := allocInv_of_run (by decide) (by decide) mapOk_sample halloc
  have hlow : videoBufferBase + 4096 ≤ 0x200000 + bitmapLength + 4096 := by decide
  obtain ⟨hprinted, -, -⟩ := exits_console hinv.frontierOk (hlow.trans hinv.low) hpre hports hvideo
    ⟨rfl, rfl, fun _ _ _ => rfl, fun _ _ _ => rfl⟩ hrun
  refine ⟨vm, k', portioOps, k₂, mmioOps, _, s, hpre, hports, hvideo, hrun, hprinted.trans ?_⟩
  have hbyte : (outExit 0x3f8 newline).consoleEvent? sampleConfig = some (.byte newline) :=
    consoleEvent?_of_writes (by decide +kernel)
  have hevents : consoleEvents sampleConfig
      ([] ++ [(⟨k'.mem, outExit 0x3f8 newline⟩, ⟨launchState vm k', (), s⟩)]) =
        [newline].map .byte := by
    simp [consoleEvents, hbyte]
  rw [hevents, consoleText_bytes]
  exact (by decide +kernel : (LineBuffer.feed 4095 newline [] [newline]).1.map
    (serialHeader 0x7000 1 ++ cString ·) = [serialHeader 0x7000 1 ++ [0x0a]])

end ZeldaOS
