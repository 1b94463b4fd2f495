import ZeldaOS.Lib.Chip8259
import ZeldaOS.VmMonitor.WindowCorrect

/-!
# The emulated interrupt controller against the 8259

`master_pic_outb` and `slave_pic_outb` emulate two 8259 chips with three fields each
(`EmulatedChip`). They follow the protocol in when the vector offset is set: the emulated chip is
initialising exactly when the real one waits for ICW2 (`ChipSync`). They do not follow it in the
mask. ICW1 does not clear it, and every byte to the data port becomes the mask, also the
initialisation words.

So the two agree after every write of a sequence exactly if the writes hide the difference: the mask
is clear at every ICW1, and every initialisation word is zero (`pic_follows_iff`).
-/

namespace ZeldaOS

/-! ## One chip -/

/-- What the emulation keeps of one chip. -/
structure EmulatedChip where
  data : UInt8
  offset : UInt8
  isInitializing : Bool
deriving DecidableEq, Repr

namespace EmulatedChip

/-- The command port's branch of `master_pic_outb` and `slave_pic_outb`. -/
def command (c : EmulatedChip) (byte : UInt8) : EmulatedChip :=
  if byte &&& icw1Init ≠ 0 then { c with isInitializing := true } else c

/-- The data port's branch. -/
def write (c : EmulatedChip) (byte : UInt8) : EmulatedChip :=
  if c.isInitializing then ⟨byte, byte, false⟩ else { c with data := byte }

end EmulatedChip

/-- A byte written to one of the two ports of a chip. -/
inductive ChipWrite
  | command (byte : UInt8)
  | data (byte : UInt8)
deriving DecidableEq, Repr

/-- A write to the emulated chip. -/
def EmulatedChip.outb (c : EmulatedChip) : ChipWrite → EmulatedChip
  | .command byte => c.command byte
  | .data byte => c.write byte

/-- A write to the 8259. -/
def Chip8259.outb (c : Chip8259) : ChipWrite → Chip8259
  | .command byte => c.command byte
  | .data byte => c.data byte

/-- The emulated chip waits for the vector offset exactly when the 8259 does. -/
structure ChipSync (c : EmulatedChip) (r : Chip8259) : Prop where
  ok : r.Ok
  initializing : c.isInitializing = true ↔ ∃ icw3 icw4, r.phase = .icw2 icw3 icw4

/-- The emulated chip has the mask and the offset of the 8259. -/
structure ChipAgree (c : EmulatedChip) (r : Chip8259) : Prop where
  mask : c.data = r.mask
  offset : c.offset = r.offset

/-- A write that does not show the difference: ICW1 finds the mask clear, and the other
initialisation words are zero. -/
def ChipHarmless (r : Chip8259) : ChipWrite → Prop
  | .command byte => byte &&& 0x10 ≠ 0 → r.mask = 0
  | .data byte => r.phase ≠ .ocw1 → byte = 0

section
variable {c : EmulatedChip} {r : Chip8259}

theorem ChipSync.outb (h : ChipSync c r) (w : ChipWrite) : ChipSync (c.outb w) (r.outb w) := by
  obtain ⟨hok, hinit⟩ := h
  cases w with
  | command byte =>
    refine ⟨hok.command byte, ?_⟩
    simp only [EmulatedChip.outb, EmulatedChip.command, Chip8259.outb, Chip8259.command, icw1Init]
    by_cases hbit : byte &&& 0x10 = 0
    · simpa [hbit] using hinit
    · simp [hbit]
  | data byte =>
    refine ⟨hok.data byte, ?_⟩
    have hdone : (c.write byte).isInitializing = false := by
      rw [EmulatedChip.write]
      split
      · rfl
      · next hf => exact Bool.eq_false_iff.2 hf
    simp only [EmulatedChip.outb, Chip8259.outb, hdone]
    constructor
    · intro hf
      cases hf
    · rintro ⟨icw3, icw4, heq⟩
      exact absurd heq (r.phase_data_ne_icw2 byte icw3 icw4)

/-- **One write** keeps the two in agreement exactly if it is harmless. -/
theorem ChipSync.agree_outb_iff (h : ChipSync c r) (ha : ChipAgree c r) (w : ChipWrite) :
    ChipAgree (c.outb w) (r.outb w) ↔ ChipHarmless r w := by
  obtain ⟨hok, hinit⟩ := h
  obtain ⟨hmask, hoff⟩ := ha
  cases w with
  | command byte =>
    simp only [EmulatedChip.outb, EmulatedChip.command, Chip8259.outb, Chip8259.command, icw1Init,
      ChipHarmless]
    by_cases hbit : byte &&& 0x10 = 0
    · simp only [hbit, ne_eq, not_true, if_false, if_true, false_imp_iff, iff_true]
      exact ⟨hmask, hoff⟩
    · simp only [hbit, ne_eq, not_false_eq_true, if_true, if_false, true_imp_iff]
      exact ⟨fun hag => hmask.symm.trans hag.mask, fun hz => ⟨hmask.trans hz, hoff⟩⟩
  | data byte =>
    have hdata : (c.write byte).data = byte := by
      rw [EmulatedChip.write]
      split <;> rfl
    by_cases hphase : r.phase = .ocw1
    · have hf : c.isInitializing = false := by
        refine Bool.eq_false_iff.2 fun ht => ?_
        obtain ⟨icw3, icw4, heq⟩ := hinit.1 ht
        cases heq.symm.trans hphase
      refine ⟨fun _ hne => absurd hphase hne, fun _ => ⟨hdata.trans ?_, ?_⟩⟩
      · simp [Chip8259.outb, Chip8259.data, hphase]
      · simpa [EmulatedChip.outb, EmulatedChip.write, hf, Chip8259.outb, Chip8259.data, hphase]
    · have hzero : (r.data byte).mask = 0 := (Chip8259.mask_data hphase byte).trans (hok hphase)
      have hoffset : (c.write byte).offset = (r.data byte).offset := by
        rw [EmulatedChip.write, Chip8259.data]
        split
        · next ht =>
          obtain ⟨icw3, icw4, heq⟩ := hinit.1 ht
          simp [heq]
        · next hf =>
          have hne : ∀ icw3 icw4, r.phase ≠ .icw2 icw3 icw4 := fun icw3 icw4 heq =>
            hf (hinit.2 ⟨icw3, icw4, heq⟩)
          split
          · next hp => exact absurd hp hphase
          · next hp => exact absurd hp (hne _ _)
          all_goals exact hoff
      refine ⟨fun hag _ => ?_, fun h => ⟨(hdata.trans (h hphase)).trans hzero.symm, hoffset⟩⟩
      exact hdata.symm.trans (hag.mask.trans hzero)

end

/-! ## Two chips -/

/-- The four ports of the controllers. -/
inductive PicPort
  | masterCommand
  | masterData
  | slaveCommand
  | slaveData
deriving DecidableEq, Repr

/-- The number of a port. -/
def PicPort.id : PicPort → Nat
  | .masterCommand => 0x20
  | .masterData => 0x21
  | .slaveCommand => 0xa0
  | .slaveData => 0xa1

/-- Two 8259 chips, master and slave. -/
structure Pic8259 where
  master : Chip8259
  slave : Chip8259
deriving DecidableEq, Repr

namespace Pic8259

/-- A write to one of the four ports. -/
def outb (r : Pic8259) (port : PicPort) (byte : UInt8) : Pic8259 :=
  match port with
  | .masterCommand => { r with master := r.master.outb (.command byte) }
  | .masterData => { r with master := r.master.outb (.data byte) }
  | .slaveCommand => { r with slave := r.slave.outb (.command byte) }
  | .slaveData => { r with slave := r.slave.outb (.data byte) }

/-- A write is harmless if it is so for its chip. -/
def Harmless (r : Pic8259) (w : PicPort × UInt8) : Prop :=
  match w.1 with
  | .masterCommand => ChipHarmless r.master (.command w.2)
  | .masterData => ChipHarmless r.master (.data w.2)
  | .slaveCommand => ChipHarmless r.slave (.command w.2)
  | .slaveData => ChipHarmless r.slave (.data w.2)

/-- Line `i` is masked. -/
def masked (r : Pic8259) (i : Fin 15) : Bool :=
  if i.val < 8 then r.master.mask.toNat.testBit i else r.slave.mask.toNat.testBit (i - 8)

end Pic8259

/-- The master as the emulation keeps it. -/
def Pic.master (pic : Pic) : EmulatedChip :=
  ⟨pic.masterPicData, pic.masterPicOffset, pic.isMasterPicInitializing⟩

/-- The slave. -/
def Pic.slave (pic : Pic) : EmulatedChip :=
  ⟨pic.slavePicData, pic.slavePicOffset, pic.isSlavePicInitializing⟩

/-- What the guest and the monitor see of the emulated controllers is what they would see of the
8259: the mask, as it is read from the data ports and consulted for a request, and the offset. -/
structure PicFollows (pic : Pic) (r : Pic8259) : Prop where
  masterMask : masterPicInb pic 0x21 = some r.master.mask
  slaveMask : slavePicInb pic 0xa1 = some r.slave.mask
  pinMasked : ∀ i : Fin 15, isInterruptPinMasked pic i = r.masked i
  masterOffset : pic.masterPicOffset = r.master.offset
  slaveOffset : pic.slavePicOffset = r.slave.offset

section
variable {pic pic' : Pic} {r : Pic8259} {port : PicPort} {byte : UInt8}

theorem picFollows_iff :
    PicFollows pic r ↔ ChipAgree pic.master r.master ∧ ChipAgree pic.slave r.slave := by
  constructor
  · intro h
    exact ⟨⟨Option.some.inj h.masterMask, h.masterOffset⟩,
      ⟨Option.some.inj h.slaveMask, h.slaveOffset⟩⟩
  · rintro ⟨hm, hs⟩
    refine ⟨congrArg some hm.mask, congrArg some hs.mask, fun i => ?_, hm.offset, hs.offset⟩
    have hmask : pic.masterPicData = r.master.mask := hm.mask
    have hslave : pic.slavePicData = r.slave.mask := hs.mask
    rw [isInterruptPinMasked_eq, lineMasked, Pic8259.masked, hmask, hslave]

/-- The emulation handles a write to each of the four ports as one to the chip it belongs to. -/
theorem picOutb_chips (pic : Pic) (port : PicPort) (byte : UInt8) :
    ∃ pic', picOutb pic port.id byte = some pic' ∧
      (pic'.master, pic'.slave) = match port with
        | .masterCommand => (pic.master.outb (.command byte), pic.slave)
        | .masterData => (pic.master.outb (.data byte), pic.slave)
        | .slaveCommand => (pic.master, pic.slave.outb (.command byte))
        | .slaveData => (pic.master, pic.slave.outb (.data byte)) := by
  cases port with
  | masterCommand =>
    refine ⟨_, rfl, ?_⟩
    simp only [EmulatedChip.outb, EmulatedChip.command, Pic.master, Pic.slave]
    split <;> split <;> rfl
  | masterData =>
    refine ⟨_, rfl, ?_⟩
    simp only [EmulatedChip.outb, EmulatedChip.write, Pic.master, Pic.slave]
    by_cases hinit : pic.isMasterPicInitializing = true <;> simp [hinit]
  | slaveCommand =>
    refine ⟨_, rfl, ?_⟩
    simp only [EmulatedChip.outb, EmulatedChip.command, Pic.master, Pic.slave]
    split <;> split <;> rfl
  | slaveData =>
    refine ⟨_, rfl, ?_⟩
    simp only [EmulatedChip.outb, EmulatedChip.write, Pic.master, Pic.slave]
    by_cases hinit : pic.isSlavePicInitializing = true <;> simp [hinit]

/-- The emulated controllers and two 8259 chips that see the same writes. -/
def picPair (s : Pic × Pic8259) (w : PicPort × UInt8) : Option (Unit × (Pic × Pic8259)) :=
  (picOutb s.1 w.1.id w.2).map fun pic => ((), (pic, s.2.outb w.1 w.2))

/-- Both as they are before the first write: every line masked, no offset. -/
def picReset : Pic × Pic8259 := ((preInitialized 0 0).pic, ⟨.reset, .reset⟩)

/-- Both chips of a pair wait for the same words. -/
def PicSync (s : Pic × Pic8259) : Prop :=
  ChipSync s.1.master s.2.master ∧ ChipSync s.1.slave s.2.slave

/-- **One write** to a pair. -/
theorem PicSync.step {s s' : Pic × Pic8259} {w : PicPort × UInt8} (h : PicSync s)
    (hst : picPair s w = some ((), s')) :
    PicSync s' ∧ (PicFollows s.1 s.2 → (PicFollows s'.1 s'.2 ↔ s.2.Harmless w)) := by
  obtain ⟨pic, r⟩ := s
  obtain ⟨port, byte⟩ := w
  obtain ⟨hm, hs⟩ := h
  obtain ⟨pic', hr, hchips⟩ := picOutb_chips pic port byte
  simp only [picPair, hr, Option.map_some] at hst
  cases hst
  simp only [picFollows_iff, PicSync]
  cases port <;> obtain ⟨hm', hs'⟩ := Prod.mk.inj hchips <;>
    simp only [hm', hs', Pic8259.outb, Pic8259.Harmless]
  · exact ⟨⟨hm.outb _, hs⟩, fun ⟨ham, has⟩ => by rw [hm.agree_outb_iff ham]; simp [has]⟩
  · exact ⟨⟨hm.outb _, hs⟩, fun ⟨ham, has⟩ => by rw [hm.agree_outb_iff ham]; simp [has]⟩
  · exact ⟨⟨hm, hs.outb _⟩, fun ⟨ham, has⟩ => by rw [hs.agree_outb_iff has]; simp [ham]⟩
  · exact ⟨⟨hm, hs.outb _⟩, fun ⟨ham, has⟩ => by rw [hs.agree_outb_iff has]; simp [ham]⟩

theorem picSync_reset : PicSync picReset :=
  ⟨⟨Chip8259.ok_reset, by simp [picReset, preInitialized, Pic.master, Chip8259.reset]⟩,
    ⟨Chip8259.ok_reset, by simp [picReset, preInitialized, Pic.slave, Chip8259.reset]⟩⟩

theorem picFollows_reset : PicFollows picReset.1 picReset.2 :=
  picFollows_iff.2 ⟨⟨rfl, rfl⟩, ⟨rfl, rfl⟩⟩

/-- **When the emulation follows the protocol.** For every sequence of writes to the four ports from
reset, the emulated controllers show the mask and the offset of the 8259 after every write exactly
if every ICW1 finds the mask of its chip clear and every other initialisation word is zero. -/
theorem pic_follows_iff (ws : List (PicPort × UInt8)) :
    ∃ t s, exec (observed picPair) picReset ws = some (t, s) ∧
      ((∀ x ∈ t, PicFollows x.2.after.1 x.2.after.2) ↔ ∀ x ∈ t, x.2.before.2.Harmless x.1) := by
  have htotal : ∀ s w, ∃ r, observed picPair s w = some r := by
    intro s w
    obtain ⟨pic', hr, -⟩ := picOutb_chips s.1 w.1 w.2
    exact ⟨_, by simp [observed, picPair, hr]; rfl⟩
  obtain ⟨t, s, hex⟩ := exec_of_total htotal picReset ws
  have hrun : Run (observed picPair) (fun _ _ => True) picReset t s :=
    Run.nil.exec (fun _ _ _ => trivial) hex
  have hinv : PicSync s ∧
      ((∀ x ∈ t, PicFollows x.2.after.1 x.2.after.2) ↔ ∀ x ∈ t, x.2.before.2.Harmless x.1) ∧
      ((∀ x ∈ t, PicFollows x.2.after.1 x.2.after.2) → PicFollows s.1 s.2) := by
    refine hrun.inv (fun t s => PicSync s ∧
      ((∀ x ∈ t, PicFollows x.2.after.1 x.2.after.2) ↔ ∀ x ∈ t, x.2.before.2.Harmless x.1) ∧
      ((∀ x ∈ t, PicFollows x.2.after.1 x.2.after.2) → PicFollows s.1 s.2))
      ⟨picSync_reset, by simp, fun _ => picFollows_reset⟩ ?_
    rintro t s w o s' ⟨hsync, hiff, hlast⟩ - hst
    obtain ⟨rfl, rfl, hst⟩ := observed_eq_some.1 hst
    obtain ⟨hsync', hstep⟩ := hsync.step hst
    refine ⟨hsync', ?_, fun hall => hall (w, o) (by simp)⟩
    simp only [List.forall_mem_append, List.forall_mem_singleton]
    -- while the writes before agree, the last one decides
    constructor
    · rintro ⟨hall, hnew⟩
      exact ⟨hiff.1 hall, (hstep (hlast hall)).1 hnew⟩
    · rintro ⟨hall, hnew⟩
      exact ⟨hiff.2 hall, (hstep (hlast (hiff.2 hall))).2 hnew⟩
  exact ⟨t, s, hex, hinv.2.1⟩

/-- **An initialisation word becomes the mask.** In the sequence of the guest's `pic_remap` the
master shows 0x20, its vector offset, as the mask after ICW2, where the 8259 has a clear mask; and
after ICW1 it still shows the mask from before. -/
theorem pic_remap_diverges : ∃ t s, exec (observed picPair) picReset
      [(.masterData, 0xff), (.slaveData, 0xff), (.masterCommand, 0x11), (.slaveCommand, 0x11),
        (.masterData, 0x20)] = some (t, s) ∧
    masterPicInb s.1 0x21 = some 0x20 ∧ s.2.master.mask = 0 ∧
    ¬ ∀ x ∈ t, PicFollows x.2.after.1 x.2.after.2 := by
  have hex : (exec (observed picPair) picReset [(.masterData, 0xff), (.slaveData, 0xff),
      (.masterCommand, 0x11), (.slaveCommand, 0x11), (.masterData, 0x20)]).map (fun r =>
        (masterPicInb r.2.1 0x21, r.2.2.master.mask, r.1.getLast?.map fun x =>
          (masterPicInb x.2.after.1 0x21, x.2.after.2.master.mask))) =
      some (some 0x20, 0, some (some 0x20, 0)) := by decide +kernel
  obtain ⟨⟨t, s⟩, hs, heq⟩ := Option.map_eq_some_iff.1 hex
  simp only [Prod.mk.injEq] at heq
  obtain ⟨hinb, hmask, hlast⟩ := heq
  refine ⟨t, s, hs, hinb, hmask, fun h => ?_⟩
  obtain ⟨x, hx, heq⟩ := Option.map_eq_some_iff.1 hlast
  simp only [Prod.mk.injEq] at heq
  have hfollows := (h x (List.mem_of_getLast? hx)).masterMask
  rw [heq.1, heq.2] at hfollows
  cases hfollows

end

end ZeldaOS
