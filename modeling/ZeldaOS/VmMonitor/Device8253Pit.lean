import ZeldaOS.VmMonitor.IoInstruction

/-!
# The timer chip

Model of `vm_monitor/device_8253pit.c`. The guest programs the emulated 8253 by a control byte to
port 0x43 and the low and the high byte of a divisor to port 0x40; the third write sets the
threshold of the virtual timer, by two divisions.

The first division is by what the guest wrote. The 8253 takes a divisor of 0 for 65536; the
emulation divides by it, which is a fault of the host (`pit_programming_iff`,
`pit_divides_by_zero`).
-/

namespace ZeldaOS

/-- `struct pit8253_blob`. -/
structure PitBlob extends Pit where
  initialCounter : Nat
  divisor : Nat
deriving DecidableEq, Repr

/-- What stops the monitor. -/
inductive HostFault
  /-- An assertion or a panic. -/
  | assertion
  /-- The divide error of the processor. -/
  | divideError
deriving DecidableEq, Repr

/-- The unsigned division of the processor. -/
def divide (a b : Nat) : Except HostFault Nat := if b = 0 then .error .divideError else .ok (a / b)

/-- `OSCILLATPR_CHIP_FREQUENCY`. -/
def oscillatorChipFrequency : Nat := 1193182

/-- `pit_outb`. -/
def pitOutb (pit : PitBlob) (portId : Nat) (byte : UInt8) : Except HostFault PitBlob :=
  if portId = 0x43 then
    if byte = 0x36 then .ok { pit with initialCounter := 0, divisor := 0 } else .error .assertion
  else if portId = 0x40 then
    if pit.initialCounter = 0 then
      .ok { pit with divisor := byte.toNat &&& 0xff, initialCounter := pit.initialCounter + 1 }
    else if pit.initialCounter = 1 then do
      let divisor := (pit.divisor ||| byte.toNat <<< 8) &&& 0xffff
      let frequency ← divide oscillatorChipFrequency divisor
      let threshold ← divide 1000 frequency
      .ok { pit with divisor, threshold, initialCounter := pit.initialCounter + 1 }
    else .error .assertion
  else .error .assertion

/-- `pit_outb` as the registry of ports calls it. -/
def pitCallback (portId : Nat) (byte : UInt8) (pit : PitBlob) : Option PitBlob :=
  (pitOutb pit portId byte).toOption

/-- `vmx_chipset_8253pit_preinit`. -/
def vmxChipset8253pitPreinit (portioOps : List (PortioOperation (PortioCallback PitBlob))) :
    Option (List (PortioOperation (PortioCallback PitBlob))) :=
  (List.range 4).foldlM (fun portioOps idx =>
    registerPioOperation portioOps { portid := 0x40 + idx, callOutb := some (.outb pitCallback) })
    portioOps

/-- A write of the guest to a port of the timer is a call of `pit_outb` with AL. -/
theorem ioInstruction_pit {portId : Nat} (hlow : 0x40 ≤ portId) (hhigh : portId < 0x44)
    (instructionLength : Nat) (g : Guest PitBlob) :
    ∃ portioOps, vmxChipset8253pitPreinit [] = some portioOps ∧
      ioInstructionExitSubHandler portioOps (portId <<< 16) instructionLength g =
        (pitOutb g.devices portId (UInt8.ofNat g.vcpu.state.rax)).toOption.map fun devices =>
          gotoNextInstruction { g with devices } instructionLength := by
  obtain ⟨portioOps, hregister, hlookup⟩ := register_consecutive
    (fun idx => { portid := 0x40 + idx, callOutb := some (PortioCallback.outb pitCallback) }) 0x40 4
    (fun _ => rfl) (by decide) (by decide)
  have hops := hlookup (portId - 0x40) (by omega)
  rw [Nat.add_sub_cancel' hlow] at hops
  exact ⟨portioOps, hregister,
    ioInstructionExitSubHandler_outb (by omega) hops rfl instructionLength g⟩

/-! ## Programming -/

/-- The writes of a programming cycle. -/
def programmingCycle (c : UInt8 × UInt8) : List (Nat × UInt8) :=
  [(0x43, 0x36), (0x40, c.1), (0x40, c.2)]

/-- A sequence of writes. -/
def pitWrites (pit : PitBlob) (writes : List (Nat × UInt8)) : Except HostFault PitBlob :=
  writes.foldlM (fun pit w => pitOutb pit w.1 w.2) pit

/-- The divisor that two bytes stand for on the 8253. -/
def divisorOf (c : UInt8 × UInt8) : Nat :=
  if c.1.toNat + 256 * c.2.toNat = 0 then 65536 else c.1.toNat + 256 * c.2.toNat

/-- No cycle faults, and after each cycle the threshold is the one of its divisor. -/
def ProgramsRight (pit : PitBlob) (cycles : List (UInt8 × UInt8)) : Prop :=
  ∀ before c after, cycles = before ++ c :: after →
    ∃ pit', pitWrites pit ((before ++ [c]).flatMap programmingCycle) = .ok pit' ∧
      pit'.threshold = 1000 / (oscillatorChipFrequency / divisorOf c)

section
variable {pit : PitBlob} {c : UInt8 × UInt8} {before : List (UInt8 × UInt8)}

/-- The divisor is put together from its bytes. -/
theorem divisor_eq (low high : UInt8) :
    ((low.toNat &&& 0xff) ||| high.toNat <<< 8) &&& 0xffff = low.toNat + 256 * high.toNat := by
  have hlow := low.toNat_lt
  have hhigh := high.toNat_lt
  have hor : (low.toNat &&& 0xff) ||| high.toNat <<< 8 = low.toNat + 256 * high.toNat := by
    rw [show 0xff = 2 ^ 8 - 1 from rfl, and_mask_eq_mod, Nat.mod_eq_of_lt hlow, Nat.or_comm,
      Nat.shiftLeft_eq, or_offset_eq_add (k := 8) (Nat.mul_mod_left _ _) hlow]
    omega
  rw [hor, show 0xffff = 2 ^ 16 - 1 from rfl, and_mask_eq_mod, Nat.mod_eq_of_lt (by omega)]

/-- A divisor of 16 bits other than 0 leaves a frequency. -/
theorem frequency_pos {d : Nat} (h : d < 65536) (hd : d ≠ 0) : oscillatorChipFrequency / d ≠ 0 := by
  have : 0 < oscillatorChipFrequency / d :=
    Nat.div_pos (by rw [oscillatorChipFrequency]; omega) (by omega)
  omega

/-- Writes one after the other, -/
theorem pitWrites_append {pit' : PitBlob} {writes : List (Nat × UInt8)}
    (h : pitWrites pit writes = .ok pit') (rest : List (Nat × UInt8)) :
    pitWrites pit (writes ++ rest) = pitWrites pit' rest := by
  rw [pitWrites] at h
  rw [pitWrites, List.foldlM_append, h]
  rfl

/-- the first of them, -/
theorem pitWrites_cons {pit' : PitBlob} {w : Nat × UInt8} (h : pitOutb pit w.1 w.2 = .ok pit')
    (writes : List (Nat × UInt8)) : pitWrites pit (w :: writes) = pitWrites pit' writes := by
  rw [pitWrites, List.foldlM_cons, h]
  rfl

/-- or only one. -/
theorem pitWrites_singleton (pit : PitBlob) (w : Nat × UInt8) :
    pitWrites pit [w] = pitOutb pit w.1 w.2 := by
  rw [pitWrites, List.foldlM_cons]
  exact bind_pure _

/-- The write to the control port starts the programming, -/
theorem pitOutb_control (pit : PitBlob) :
    pitOutb pit 0x43 0x36 = .ok { pit with initialCounter := 0, divisor := 0 } := rfl

/-- the first write to the channel is the low byte of the divisor, -/
theorem pitOutb_low (h : pit.initialCounter = 0) (byte : UInt8) :
    pitOutb pit 0x40 byte =
      .ok { pit with divisor := byte.toNat &&& 0xff, initialCounter := 1 } := by
  rw [pitOutb, if_neg (by decide), if_pos rfl, if_pos h, h]

/-- and the second one the high byte, from which the threshold is computed. -/
theorem pitOutb_high (h : pit.initialCounter = 1) (byte : UInt8) :
    pitOutb pit 0x40 byte = (do
      let frequency ← divide oscillatorChipFrequency ((pit.divisor ||| byte.toNat <<< 8) &&& 0xffff)
      let threshold ← divide 1000 frequency
      .ok { pit with
        divisor := (pit.divisor ||| byte.toNat <<< 8) &&& 0xffff, threshold,
          initialCounter := 2 }) := by
  rw [pitOutb, if_neg (by decide), if_pos rfl, if_neg (by rw [h]; decide), if_pos h, h]

/-- **One cycle**, from any state. -/
theorem pitWrites_programmingCycle (pit : PitBlob) (c : UInt8 × UInt8) :
    pitWrites pit (programmingCycle c) =
      if c = (0, 0) then .error .divideError
      else .ok { pit with
        initialCounter := 2
        divisor := c.1.toNat + 256 * c.2.toNat
        threshold := 1000 / (oscillatorChipFrequency / divisorOf c) } := by
  obtain ⟨low, high⟩ := c
  have hlow := low.toNat_lt
  have hhigh := high.toNat_lt
  have hzero : (low, high) = (0, 0) ↔ low.toNat + 256 * high.toNat = 0 := by
    rw [Prod.mk.injEq, ← UInt8.toNat_inj, ← UInt8.toNat_inj]
    simp
  have hrun : pitWrites pit (programmingCycle (low, high)) = (do
      let frequency ← divide oscillatorChipFrequency (low.toNat + 256 * high.toNat)
      let threshold ← divide 1000 frequency
      .ok { pit with
        initialCounter := 2, divisor := low.toNat + 256 * high.toNat, threshold :=
          threshold }) := by
    rw [programmingCycle, pitWrites_cons (pitOutb_control pit),
      pitWrites_cons (pitOutb_low rfl low),
      pitWrites_singleton, pitOutb_high rfl high, ← divisor_eq low high]
  rw [hrun, divisorOf]
  dsimp only
  by_cases hd : low.toNat + 256 * high.toNat = 0
  · rw [if_pos (hzero.2 hd), hd]
    rfl
  · rw [if_neg (mt hzero.1 hd), if_neg hd, divide, if_neg hd]
    have hf := frequency_pos (by omega) hd
    simp only [divide, bind, Except.bind, if_neg hf]

/-- Cycles without a divisor of 0 run to their end. -/
theorem pitWrites_flatMap (h : ∀ c ∈ before, c ≠ (0, 0)) (pit : PitBlob) :
    ∃ pit', pitWrites pit (before.flatMap programmingCycle) = .ok pit' := by
  induction before generalizing pit with
  | nil => exact ⟨pit, rfl⟩
  | cons c before ih =>
    have hc := pitWrites_programmingCycle pit c
    rw [if_neg (h c List.mem_cons_self)] at hc
    obtain ⟨pit', hpit'⟩ := ih (fun c hc => h c (List.mem_cons_of_mem _ hc)) _
    refine ⟨pit', ?_⟩
    rw [List.flatMap_cons, pitWrites_append hc, hpit']

/-- A last cycle, behind others. -/
theorem pitWrites_snoc {pit' : PitBlob}
    (h : pitWrites pit (before.flatMap programmingCycle) = .ok pit') (c : UInt8 × UInt8) :
    pitWrites pit ((before ++ [c]).flatMap programmingCycle) =
      pitWrites pit' (programmingCycle c) := by
  rw [List.flatMap_append, pitWrites_append h, List.flatMap_singleton]

end

/-- **When programming is safe.** From every state, on every sequence of programming cycles: no
write faults and every cycle sets the threshold of its divisor, exactly if no cycle writes the
divisor 0. -/
theorem pit_programming_iff (pit : PitBlob) (cycles : List (UInt8 × UInt8)) :
    ProgramsRight pit cycles ↔ ∀ c ∈ cycles, c ≠ (0, 0) := by
  constructor
  · rintro h c hc rfl
    -- the cycles before the first divisor of 0
    obtain ⟨before, after, rfl, hfirst⟩ := List.eq_append_cons_of_mem hc
    obtain ⟨pit', hbefore⟩ :=
      pitWrites_flatMap (fun c hc heq => hfirst (heq ▸ hc)) pit
    obtain ⟨pit'', hok, -⟩ := h before (0, 0) after rfl
    rw [pitWrites_snoc hbefore, pitWrites_programmingCycle, if_pos rfl] at hok
    cases hok
  · rintro h before c after rfl
    obtain ⟨pit', hbefore⟩ :=
      pitWrites_flatMap (fun c hc => h c (List.mem_append_left _ hc)) pit
    have hc : c ≠ (0, 0) := h c (by simp)
    rw [pitWrites_snoc hbefore, pitWrites_programmingCycle, if_neg hc]
    exact ⟨_, rfl, rfl⟩

/-- **A divide error.** The cycle 0x36, 0, 0, which stands for the divisor 65536. -/
theorem pit_divides_by_zero :
    pitWrites ⟨⟨0, 0⟩, 0, 0⟩ (programmingCycle (0, 0)) = .error .divideError ∧
    ¬ ProgramsRight ⟨⟨0, 0⟩, 0, 0⟩ [(0, 0)] := by
  have hfault : pitWrites ⟨⟨0, 0⟩, 0, 0⟩ (programmingCycle (0, 0)) = .error .divideError := by
    decide
  refine ⟨hfault, fun h => ?_⟩
  obtain ⟨pit', hok, -⟩ := h [] (0, 0) [] rfl
  cases hfault.symm.trans hok

end ZeldaOS
