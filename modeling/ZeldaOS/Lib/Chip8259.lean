import Mathlib.Data.UInt

/-!
# The 8259 interrupt controller

The programming protocol of one 8259 chip, as far as its mask and its vector offset go. A command
with bit 4 set is the first initialisation word (ICW1): it clears the mask, and the data bytes that
follow are the vector offset (ICW2), the cascade word (ICW3) unless bit 1 of ICW1 is set, and the
mode word (ICW4) if bit 0 is. Every other data byte is an operation word (OCW1) and sets the mask.

While a chip is initialised its mask stays clear (`Chip8259.Ok`).
-/

namespace ZeldaOS

/-- The data byte a chip waits for. -/
inductive IcwPhase
  /-- An operation word: the chip is not being initialised. -/
  | ocw1
  /-- The vector offset; the flags say whether ICW3 and ICW4 follow. -/
  | icw2 (icw3 icw4 : Bool)
  /-- The cascade word; the flag says whether ICW4 follows. -/
  | icw3 (icw4 : Bool)
  /-- The mode word. -/
  | icw4
deriving DecidableEq, Repr

/-- A chip. -/
structure Chip8259 where
  mask : UInt8
  offset : UInt8
  phase : IcwPhase
deriving DecidableEq, Repr

namespace Chip8259

/-- A chip that masks every line. -/
def reset : Chip8259 := ⟨0xff, 0, .ocw1⟩

/-- The phase after ICW3, or in its place. -/
def afterIcw3 (icw4 : Bool) : IcwPhase := if icw4 then .icw4 else .ocw1

/-- A byte written to the command port. -/
def command (c : Chip8259) (byte : UInt8) : Chip8259 :=
  if byte &&& 0x10 = 0 then c
  else { c with mask := 0, phase := .icw2 (byte &&& 0x02 == 0) (byte &&& 0x01 != 0) }

/-- A byte written to the data port. -/
def data (c : Chip8259) (byte : UInt8) : Chip8259 :=
  match c.phase with
  | .ocw1 => { c with mask := byte }
  | .icw2 icw3 icw4 =>
    { c with offset := byte, phase := if icw3 then .icw3 icw4 else afterIcw3 icw4 }
  | .icw3 icw4 => { c with phase := afterIcw3 icw4 }
  | .icw4 => { c with phase := .ocw1 }

/-- No byte of the data port makes the chip wait for the vector offset. -/
theorem phase_data_ne_icw2 (c : Chip8259) (byte : UInt8) (icw3 icw4 : Bool) :
    (c.data byte).phase ≠ .icw2 icw3 icw4 := by
  have hafter : ∀ b, afterIcw3 b ≠ .icw2 icw3 icw4 := by
    intro b
    cases b <;> exact nofun
  cases hp : c.phase with
  | ocw1 => simp [data, hp]
  | icw2 b b' => cases b <;> simp [data, hp, hafter]
  | icw3 b => simp [data, hp, hafter]
  | icw4 => simp [data, hp]

/-- The mask of a chip that is being initialised is clear. -/
def Ok (c : Chip8259) : Prop := c.phase ≠ .ocw1 → c.mask = 0

theorem ok_reset : Ok reset := fun h => absurd rfl h

theorem Ok.command {c : Chip8259} (h : c.Ok) (byte : UInt8) : (c.command byte).Ok := by
  rw [Chip8259.command]
  split
  · exact h
  · exact fun _ => rfl

/-- The initialisation words leave the mask alone. -/
theorem mask_data {c : Chip8259} (hphase : c.phase ≠ .ocw1) (byte : UInt8) :
    (c.data byte).mask = c.mask := by
  rw [Chip8259.data]
  split
  · next hp => exact absurd hp hphase
  all_goals rfl

theorem Ok.data {c : Chip8259} (h : c.Ok) (byte : UInt8) : (c.data byte).Ok := by
  intro hdone
  by_cases hphase : c.phase = .ocw1
  · refine absurd ?_ hdone
    simp [Chip8259.data, hphase]
  · rw [mask_data hphase]
    exact h hphase

end Chip8259

end ZeldaOS
