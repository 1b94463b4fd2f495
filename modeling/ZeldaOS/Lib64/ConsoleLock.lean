import ZeldaOS.Lib64.ConsoleMessages

/-!
# The console and interrupts

`printk` does not disable interrupts. A handler that prints while the program of its processor is
inside `printk` waits for a lock that is not given back before the handler returns. From then on no
processor prints a byte by `printk` any more (`console_deadlock`); what `printk_mp_unsafe` prints
still comes out. Otherwise the call that holds the lock can return (`console_returns`).
-/

namespace ZeldaOS

/-! ## Interrupts -/

/-- A processor runs its program, or a handler that interrupts the program. -/
inductive Level
  | program
  | handler
deriving DecidableEq, Repr

/-- The program waits while a call of the handler has not returned. -/
def NestedOk {C : Type*} (s : Console × (Option (C × Level) → Printer)) : Option (C × Level) → Prop
  | some (c, .program) => (s.2 (some (c, .handler))).pc = .ready
  | _ => True

theorem NestedOk.of_eq {C : Type*} {s s' : Console × (Option (C × Level) → Printer)} {p : C × Level}
    (h : NestedOk s (some p))
    (hs : ∀ q, q ≠ p → s'.2 (some q) = s.2 (some q)) : NestedOk s' (some p) := by
  obtain ⟨c, level⟩ := p
  cases level with
  | handler => trivial
  | program =>
    have hne : (c, Level.handler) ≠ (c, .program) := fun heq => by cases heq
    show (s'.2 (some (c, .handler))).pc = .ready
    rw [hs _ hne]
    exact h

instance {C : Type*} (s : Console × (Option (C × Level) → Printer)) : ∀ e, Decidable (NestedOk s e)
  | some (c, .program) => inferInstanceAs (Decidable ((s.2 (some (c, .handler))).pc = .ready))
  | some (_, .handler) | none => inferInstanceAs (Decidable True)

section
variable {P : Type*} {m : Memory} {id : UInt32} {cpu : P → UInt32} {g g' : Console} {c c' : Printer}

/-- The call of `printk` that is under way. -/
def PrintPc.lockedCall : PrintPc → Option PrintCall
  | .locking call _ | .writing call true _ _ => some call
  | .ready | .writing _ false _ _ => none

/-- The bytes of that call that are still to be written. -/
def PrintPc.lockedRest (m : Memory) (pc : PrintPc) : List UInt8 :=
  if pc.lockedCall.isSome then pc.rest m else []

/-- The bytes that a processor is going to write by `printk`. -/
def Printer.lockedToCome (m : Memory) (c : Printer) : List UInt8 :=
  c.pc.lockedRest m ++ texts m (c.calls.filter fun call => !call.mpUnsafe)

/-- What a step leaves of the calls of `printk`: the one under way goes on, and no byte of them is
written. A processor that prints by `printk` only writes no byte at all. -/
structure Waits (m : Memory) (g : Console) (c : Printer) (g' : Console) (c' : Printer) : Prop where
  call : ∀ call, c.pc.lockedCall = some call → c'.pc.lockedCall = some call
  toCome : c'.lockedToCome m = c.lockedToCome m
  uart : c.Locked → g'.uart = g.uart

/-- A processor that does not hold the lock before a step and after it waits. -/
theorem PrinterMove.waits (h : PrinterMove m id g c g' c') (hfree : c.pc.spin.holds = false)
    (hfree' : c'.pc.spin.holds = false) : Waits m g c g' c' := by
  cases h with
  | idle => exact ⟨fun _ hcall => hcall, rfl, fun _ => rfl⟩
  | start hlocked =>
    refine ⟨fun _ hcall => (by cases hcall), ?_, fun _ => rfl⟩
    simp [Printer.lockedToCome, PrintPc.lockedRest, PrintPc.lockedCall, PrintPc.rest,
      texts, hlocked]
  | startUnsafe hunsafe =>
    refine ⟨fun _ hcall => (by cases hcall), ?_, fun _ => rfl⟩
    simp [Printer.lockedToCome, PrintPc.lockedRest, PrintPc.lockedCall, texts, hunsafe]
  | @spin _ _ spin _ _ _ hspin hpc =>
    cases spin with
    | outside =>
      cases hspin
      cases hpc
      exact ⟨fun _ hcall => hcall, rfl, fun _ => rfl⟩
    | exchange =>
      cases hspin
      by_cases htaken : (xchg32 g.lock.lock 1).1 ≠ 0
      · rw [if_pos htaken] at hpc
        cases hpc
        exact ⟨fun _ hcall => hcall, rfl, fun _ => rfl⟩
      · -- it would hold the lock now
        rw [if_neg htaken] at hpc
        cases hpc
        cases hfree'
    | setOwner | inside | assertOwner | assertLocked | resetOwner | exchangeBack => cases hfree
  | finish => cases hfree
  | finishUnsafe => exact ⟨fun _ hcall => (by cases hcall), rfl, fun _ => rfl⟩
  | @poll _ locked =>
    cases locked with
    | true => cases hfree
    | false => exact ⟨fun _ hcall => (by cases hcall), rfl, fun _ => rfl⟩
  | @out _ locked =>
    cases locked with
    | true => cases hfree
    | false =>
      exact ⟨fun _ hcall => (by cases hcall), rfl, fun hc => by cases hc.pc _ _ _ _ rfl⟩

/-- A call that finds the lock taken spins. -/
theorem PrinterMove.spins {call : PrintCall} (h : PrinterMove m id g c g' c')
    (hc : c.pc = .locking call .exchange) (htaken : g.lock.lock = 1) :
    c'.pc = .locking call .exchange := by
  obtain ⟨pc, calls⟩ := c
  cases hc
  cases h with
  | idle hready => cases hready
  | spin hspin hpc =>
    cases hspin
    rw [if_pos (by rw [xchg32, htaken]; decide)] at hpc
    cases hpc
    rfl

end

section
variable {C : Type*} [DecidableEq C] {m : Memory} {cpu : C × Level → UInt32}
  {calls : C × Level → List PrintCall} {t t' : List (Option (C × Level) × Unit)}
  {s s' : Console × (Option (C × Level) → Printer)} {c : C} {call : PrintCall}

/-- What stays as it is when a handler waits for the lock that its processor's program holds. -/
structure Deadlock (m : Memory) (c : C) (call : PrintCall)
    (s s' : Console × (Option (C × Level) → Printer)) : Prop where
  program : s'.2 (some (c, .program)) = s.2 (some (c, .program))
  handler : (s'.2 (some (c, .handler))).pc = .locking call .exchange
  calls : ∀ p call, (s.2 (some p)).pc.lockedCall = some call →
    (s'.2 (some p)).pc.lockedCall = some call
  toCome : ∀ p, (s'.2 (some p)).lockedToCome m = (s.2 (some p)).lockedToCome m
  sent : (∀ p, (s.2 (some p)).Locked) →
    (∀ p, (s'.2 (some p)).Locked) ∧ s'.1.uart.sent = s.1.uart.sent

/-- A step of the processors keeps it. -/
theorem Deadlock.step {s₁ s₂ : Console × (Option (C × Level) → Printer)} {e : Option (C × Level)}
    {u : Unit} (h : Deadlock m c call s s₁)
    (hheld : (s.2 (some (c, .program))).pc.spin.holds = true)
    (hrun : Run (consoleMachine m cpu) NestedOk (consoleStart calls) t s₁) (hok : NestedOk s₁ e)
    (hst : consoleMachine m cpu s₁ e = some (u, s₂)) : Deadlock m c call s s₂ := by
  obtain ⟨hknows, hex⟩ := console_owner hrun
  obtain ⟨-, hex'⟩ := console_owner (hrun.snoc hok hst)
  have hheld₁ : (s₁.2 (some (c, .program))).pc.spin.holds = true := by
    rw [h.program]
    exact hheld
  rcases consoleMachine_cases hst with ⟨rfl, rfl⟩ | ⟨p, c', rfl, hmove, hprinters⟩
  · refine ⟨h.program, h.handler, h.calls, h.toCome, fun hlocked => ⟨(h.sent hlocked).1, ?_⟩⟩
    exact (Uart.sent_transmit _).trans (h.sent hlocked).2
  have hp : p ≠ (c, .program) := by
    rintro rfl
    have hready : (s₁.2 (some (c, .handler))).pc = .ready := hok
    rw [h.handler] at hready
    cases hready
  have hne : (some p : Option (C × Level)) ≠ some (c, .program) :=
    fun heq => hp (Option.some.inj heq)
  obtain ⟨hself, hother⟩ := printers_update hprinters
  have hprogram := hother (c, .program) hp.symm
  -- no other processor is in its section, before and after the step
  have hfree : (s₁.2 (some p)).pc.spin.holds = false :=
    Bool.eq_false_iff.2 fun hholds => hex _ _ hne ⟨hholds, hheld₁⟩
  have hfree' : c'.pc.spin.holds = false := by
    refine Bool.eq_false_iff.2 fun hholds => hex' _ _ hne ⟨?_, ?_⟩
    · rw [hself]
      exact hholds
    · rw [hprogram]
      exact hheld₁
  have hwaits := hmove.waits hfree hfree'
  refine ⟨hprogram.trans h.program, ?_, ?_, ?_, fun hlocked => ?_⟩
  · by_cases hq : (c, .handler) = p
    · subst hq
      rw [hself]
      exact hmove.spins h.handler ((hknows (some (c, .program))).locked hheld₁)
    · rw [hother _ hq]
      exact h.handler
  · exact printers_forall (Q := fun q d => ∀ call, (s.2 (some q)).pc.lockedCall = some call →
      d.pc.lockedCall = some call) hprinters
      (fun call hcall => hwaits.call call (h.calls p call hcall)) fun q _ => h.calls q
  · exact printers_forall (Q := fun q d => d.lockedToCome m = (s.2 (some q)).lockedToCome m)
      hprinters (hwaits.toCome.trans (h.toCome p)) fun q _ => h.toCome q
  · obtain ⟨hlocked₁, hsent⟩ := h.sent hlocked
    have hlocked₂ := printers_forall (Q := fun _ d => d.Locked) hprinters
      (hmove.locked (hlocked₁ p)).2 fun q _ => hlocked₁ q
    refine ⟨hlocked₂, ?_⟩
    rw [hwaits.uart (hlocked₁ p)]
    exact hsent

/-- **Deadlock.** When a handler calls `printk` while the program it interrupted holds the lock,
then whatever the processors do, the lock stays taken, no call of `printk` that is under way
returns, and no byte of a call of `printk` is printed any more, by any processor. If none of them is
in `printk_mp_unsafe` or has a call of it to come, no byte is printed at all. -/
theorem console_deadlock (h : Run (consoleMachine m cpu) NestedOk (consoleStart calls) t s)
    (hheld : (s.2 (some (c, .program))).pc.spin.holds = true)
    (hspins : (s.2 (some (c, .handler))).pc = .locking call .exchange)
    (h' : Run (consoleMachine m cpu) NestedOk s t' s') :
    s'.1.lock.lock = 1 ∧
      (∀ p call, (s.2 (some p)).pc.lockedCall = some call →
        (s'.2 (some p)).pc.lockedCall = some call) ∧
      (∀ p, (s'.2 (some p)).lockedToCome m = (s.2 (some p)).lockedToCome m) ∧
      ((∀ p, (s.2 (some p)).Locked) → s'.1.uart.sent = s.1.uart.sent) := by
  have hdead : Deadlock m c call s s' := by
    induction h' with
    | nil => exact ⟨rfl, hspins, fun _ _ => id, fun _ => rfl, fun hlocked => ⟨hlocked, rfl⟩⟩
    | snoc hrun hok hst ih => exact ih.step hheld (h.trans hrun) hok hst
  have howner := (console_owner (h.trans h')).1 (some (c, .program))
  refine ⟨howner.locked ?_, hdead.calls, hdead.toCome, fun hlocked => (hdead.sent hlocked).2⟩
  rw [hdead.program]
  exact hheld

end

/-- A program and a handler that print one byte each. -/
def oneByteEach (p : Unit × Level) : List PrintCall :=
  [⟨[if p.2 = .program then 0x61 else 0x62], [], false⟩]

/-- The handler interrupts the program when it has taken the lock, and then spins. -/
theorem console_deadlock_one : ∃ t s t' s',
    Run (consoleMachine Memory.zero fun _ => 0) NestedOk (consoleStart oneByteEach) t s ∧
    Run (consoleMachine Memory.zero fun _ => 0) NestedOk s t' s' ∧ t'.length = 2 ∧
    s'.1.lock.lock = 1 ∧
    (s'.2 (some ((), .program))).pc.lockedCall = some ⟨[0x61], [], false⟩ := by
  have hexec : ∃ t s, exec (guarded NestedOk (consoleMachine Memory.zero fun _ => 0))
      (consoleStart oneByteEach)
      [some ((), .program), some ((), .program), some ((), .handler)] = some (t, s) ∧
      (s.2 (some ((), .program))).pc = .locking ⟨[0x61], [], false⟩ .setOwner ∧
      (s.2 (some ((), .handler))).pc = .locking ⟨[0x62], [], false⟩ .exchange ∧
      ∃ t' s', exec (guarded NestedOk (consoleMachine Memory.zero fun _ => 0)) s
        [some ((), .handler), some ((), .handler)] = some (t', s') ∧ t'.length = 2 :=
    ⟨_, _, rfl, rfl, rfl, _, _, rfl, rfl⟩
  obtain ⟨t, s, hr, hprogram, hhandler, t', s', hr', hlength⟩ := hexec
  have hrun : Run (consoleMachine Memory.zero fun _ => 0) NestedOk _ t s := Run.of_guarded hr
  have hrun' : Run (consoleMachine Memory.zero fun _ => 0) NestedOk s t' s' := Run.of_guarded hr'
  have hheld : (s.2 (some ((), .program))).pc.spin.holds = true := by
    rw [hprogram]
    rfl
  obtain ⟨htaken, hcalls, -⟩ := console_deadlock hrun hheld hhandler hrun'
  refine ⟨t, s, t', s', hrun, hrun', hlength, htaken, hcalls ((), .program) _ ?_⟩
  rw [hprogram]
  rfl

/-! ## Progress -/

/-- The steps until a call returns that holds the lock, with an empty transmitter. -/
def PrintPc.stepsLeft (m : Memory) : PrintPc → Nat
  | .locking call .setOwner => 4 * (call.text m).length + 7
  | .writing _ _ text polled => 4 * text.length + 5 + if polled then 0 else 1
  | .locking _ .inside => 5
  | .locking _ .assertOwner => 4
  | .locking _ .assertLocked => 3
  | .locking _ .resetOwner => 2
  | .locking _ .exchangeBack => 1
  | .ready | .locking _ .outside | .locking _ .exchange => 0

section
variable {P : Type*} {m : Memory} {cpu : P → UInt32} {g : Console} {c : Printer} {p : P}

/-- A step of the lock is a step of the call. -/
theorem printerStep_locking {call : PrintCall} {calls : List PrintCall} {id : UInt32}
    {spin spin' : SpinPc}
    {lock : Spinlock} {pc : PrintPc} (hspin : spinStep id g.lock spin = some (lock, spin'))
    (hpc : call.goOn m spin' = some pc) :
    printerStep m id g ⟨.locking call spin, calls⟩ = some ({ g with lock }, ⟨pc, calls⟩) := by
  show ((spinStep id g.lock spin).bind _) = _
  rw [hspin, Option.bind_some]
  show (call.goOn m spin').map _ = _
  rw [hpc, Option.map_some]

/-- When the transmitter is empty, a processor in its section takes its next step and is then nearer
to its return. -/
theorem OwnerInv.progress (h : OwnerInv (cpu p) g.lock c.pc.spin) (hholds : c.pc.spin.holds = true)
    (hdefined : ∀ call, c.pc = .locking call .setOwner → (printkMpRaw m call.fmt call.args).isSome)
    (hempty : g.uart.fifo = []) :
    ∃ g' c', printerStep m (cpu p) g c = some (g', c') ∧
      g'.uart.fifo.length + c'.pc.stepsLeft m < c.pc.stepsLeft m ∧
      ((c'.pc = .ready ∧ g'.lock.lock = 0) ∨ (c'.pc.spin.holds = true ∧
        ∀ call, c'.pc ≠ .locking call .setOwner)) := by
  obtain ⟨pc, calls⟩ := c
  have hlength : g.uart.fifo.length = 0 := by rw [hempty, List.length_nil]
  cases pc with
  | ready => cases hholds
  | locking call spin =>
    cases spin with
    | outside | exchange => cases hholds
    | setOwner =>
      obtain ⟨text, htext⟩ := Option.isSome_iff_exists.1 (hdefined call rfl)
      have hgoOn : call.goOn m .inside = some (.writing call true text false) := by
        rw [PrintCall.goOn, htext, Option.map_some]
      refine ⟨_, _, printerStep_locking rfl hgoOn, ?_, .inr ⟨rfl, fun _ heq => by cases heq⟩⟩
      simp [PrintPc.stepsLeft, text_eq htext, hlength]
    | inside =>
      refine ⟨_, _, printerStep_locking rfl rfl, ?_, .inr ⟨rfl, fun _ heq => by cases heq⟩⟩
      simp [PrintPc.stepsLeft, hlength]
    | assertOwner =>
      have howner : g.lock.cpu = cpu p := h.owner rfl
      refine ⟨_, _, printerStep_locking (if_pos howner) rfl, ?_,
        .inr ⟨rfl, fun _ heq => by cases heq⟩⟩
      simp [PrintPc.stepsLeft, hlength]
    | assertLocked =>
      have htaken : g.lock.lock = 1 := h.locked rfl
      refine ⟨_, _, printerStep_locking (if_pos htaken) rfl, ?_,
        .inr ⟨rfl, fun _ heq => by cases heq⟩⟩
      simp [PrintPc.stepsLeft, hlength]
    | resetOwner =>
      refine ⟨_, _, printerStep_locking rfl rfl, ?_, .inr ⟨rfl, fun _ heq => by cases heq⟩⟩
      simp [PrintPc.stepsLeft, hlength]
    | exchangeBack =>
      have htaken : (xchg32 g.lock.lock 0).1 = 1 := h.locked rfl
      refine ⟨_, _, printerStep_locking (if_pos htaken) rfl, ?_, .inl ⟨rfl, rfl⟩⟩
      simp [PrintPc.stepsLeft, hlength]
  | writing call locked text polled =>
    have hlocked : locked = true := by
      cases locked with
      | false => cases hholds
      | true => rfl
    subst hlocked
    cases text with
    | nil =>
      refine ⟨_, _, rfl, ?_, .inr ⟨rfl, fun _ heq => by cases heq⟩⟩
      simp [PrintPc.stepsLeft, hlength]
      omega
    | cons byte text =>
      cases polled with
      | false =>
        refine ⟨_, _, rfl, ?_, .inr ⟨rfl, fun _ heq => by cases heq⟩⟩
        simp [PrintPc.stepsLeft, isTransmitEmpty, hempty]
      | true =>
        refine ⟨_, _, rfl, ?_, .inr ⟨rfl, fun _ heq => by cases heq⟩⟩
        simp [PrintPc.stepsLeft, Uart.outb, hempty]
        omega

end

section
variable {C : Type*} [DecidableEq C] {m : Memory} {cpu : C × Level → UInt32}
  {calls : C × Level → List PrintCall} {t : List (Option (C × Level) × Unit)}
  {s : Console × (Option (C × Level) → Printer)} {p : C × Level}

/-- A call that holds the lock and is not interrupted. -/
structure Printing (m : Memory) (cpu : C × Level → UInt32) (p : C × Level)
    (s : Console × (Option (C × Level) → Printer)) : Prop where
  owner : OwnerInv (cpu p) s.1.lock (s.2 (some p)).pc.spin
  holds : (s.2 (some p)).pc.spin.holds = true
  defined : ∀ call, (s.2 (some p)).pc = .locking call .setOwner →
    (printkMpRaw m call.fmt call.args).isSome
  nested : NestedOk s (some p)

/-- **Progress.** A call of `printk` that holds the lock and is not interrupted by a handler that
prints can return, by steps of its own and of the transmitter, and then the lock is free. If it has
not looked at its format yet, the format is one that `printk_mp_raw` can print with the arguments it
has. -/
theorem console_returns (hdefined : ∀ call, (s.2 (some p)).pc = .locking call .setOwner →
      (printkMpRaw m call.fmt call.args).isSome)
    (h : Run (consoleMachine m cpu) NestedOk (consoleStart calls) t s)
    (hheld : (s.2 (some p)).pc.spin.holds = true) (hnested : NestedOk s (some p)) :
    ∃ t' s', Run (consoleMachine m cpu) NestedOk s t' s' ∧
      ((s'.2 (some p)).pc = .ready ∧ s'.1.lock.lock = 0) ∧
      ∀ x ∈ t', x.1 = some p ∨ x.1 = none := by
  refine Run.exists_of_measure
    (fun s => ((s.2 (some p)).pc = .ready ∧ s.1.lock.lock = 0) ∨ Printing m cpu p s)
    (fun s => (s.2 (some p)).pc = .ready ∧ s.1.lock.lock = 0)
    (fun s => s.1.uart.fifo.length + (s.2 (some p)).pc.stepsLeft m)
    (fun e => e = some p ∨ e = none) (fun s hI hgoal => ?_)
    (.inr ⟨(console_owner h).1 (some p), hheld, hdefined, hnested⟩)
  have hprinting := hI.resolve_left hgoal
  by_cases hempty : s.1.uart.fifo = []
  · -- the call takes a step
    obtain ⟨g', c', hst, hless, hnext⟩ :=
      hprinting.owner.progress hprinting.holds hprinting.defined hempty
    obtain ⟨hself, hother⟩ := printers_update (rfl : Function.update s.2 (some p) c' = _)
    have howner : OwnerInv (cpu p) g'.lock c'.pc.spin :=
      OwnerInv.console_own (p := some p) hprinting.owner hst
    refine ⟨some p, (), (g', Function.update s.2 (some p) c'), .inl rfl, hprinting.nested,
      interleave_eq_some.2 ⟨c', hst, rfl⟩, ?_, ?_⟩
    · simp only [hself]
      rcases hnext with hdone | ⟨hholds, hne⟩
      · exact .inl hdone
      · refine .inr ⟨?_, ?_, ?_, ?_⟩
        · simp only [hself]
          exact howner
        · simp only [hself]
          exact hholds
        · simp only [hself]
          exact fun call heq => absurd heq (hne call)
        · exact hprinting.nested.of_eq hother
    · simp only [hself]
      rw [hempty, List.length_nil, Nat.zero_add]
      exact hless
  · -- the transmitter sends a byte
    refine ⟨none, (), ({ s.1 with uart := s.1.uart.transmit }, s.2), .inr rfl, trivial,
      interleave_eq_some.2 ⟨s.2 none, rfl, (Function.update_eq_self ..).symm⟩, .inr ?_, ?_⟩
    · exact ⟨hprinting.owner, hprinting.holds, hprinting.defined,
        hprinting.nested.of_eq fun _ _ => rfl⟩
    · obtain ⟨byte, fifo, hfifo⟩ := List.exists_cons_of_ne_nil hempty
      simp [Uart.transmit, hfifo]

end

/-- The program has taken the lock, and no handler interrupts it. -/
theorem console_returns_one : ∃ t s t' s',
    Run (consoleMachine Memory.zero fun _ => 0) NestedOk (consoleStart oneByteEach) t s ∧
    (s.2 (some ((), .program))).pc = .locking ⟨[0x61], [], false⟩ .setOwner ∧
    Run (consoleMachine Memory.zero fun _ => 0) NestedOk s t' s' ∧
    (s'.2 (some ((), .program))).pc = .ready ∧ s'.1.lock.lock = 0 := by
  have hexec : ∃ t s, exec (guarded NestedOk (consoleMachine Memory.zero fun _ => 0))
    (consoleStart oneByteEach)
      [some ((), .program), some ((), .program)] = some (t, s) ∧
      (s.2 (some ((), .program))).pc = .locking ⟨[0x61], [], false⟩ .setOwner ∧
      (s.2 (some ((), .handler))).pc = .ready := ⟨_, _, rfl, rfl, rfl⟩
  obtain ⟨t, s, hr, hprogram, hready⟩ := hexec
  have hrun : Run (consoleMachine Memory.zero fun _ => 0) NestedOk _ t s := Run.of_guarded hr
  have hheld : (s.2 (some ((), .program))).pc.spin.holds = true := by
    rw [hprogram]
    rfl
  have hdefined : ∀ call, (s.2 (some ((), .program))).pc = .locking call .setOwner →
      (printkMpRaw Memory.zero call.fmt call.args).isSome := by
    intro call heq
    rw [hprogram] at heq
    cases heq
    rfl
  obtain ⟨t', s', hrun', ⟨hdone, hfree⟩, -⟩ := console_returns hdefined hrun hheld hready
  exact ⟨t, s, t', s', hrun, hprogram, hrun', hdone, hfree⟩

end ZeldaOS
