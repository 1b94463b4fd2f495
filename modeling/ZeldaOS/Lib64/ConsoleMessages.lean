import ZeldaOS.Lib64.Console

/-!
# The messages on the console

Processors that print by `printk` take the lock for the whole message. So at most one of them is
between its first byte and its last, and what comes out is a sequence of whole messages
(`console_messages`).
-/

namespace ZeldaOS

/-- A processor that prints by `printk` only. -/
structure Printer.Locked (c : Printer) : Prop where
  calls : ∀ call ∈ c.calls, call.mpUnsafe = false
  pc : ∀ call locked text polled, c.pc = .writing call locked text polled → locked = true

/-- The message of the current call. -/
def PrintPc.message (m : Memory) : PrintPc → List (List UInt8)
  | .ready => []
  | .locking call _ | .writing call _ _ _ => [call.text m]

/-- The messages of the current call and of the calls to come. -/
def Printer.messages (m : Memory) (c : Printer) : List (List UInt8) :=
  c.pc.message m ++ c.calls.map (PrintCall.text m)

/-- A processor that prints by `printk` only is, by what a step does to the lock and the port:
outside of its section or without a write, at the beginning of it, at a write, or at its end. -/
inductive LockedMove (m : Memory) : Console → Printer → Console → Printer → Prop
  | quiet {g c g' c'} : g'.uart = g.uart → c'.messages m = c.messages m →
      c'.pc.spin.holds = c.pc.spin.holds →
      (c.pc.spin.holds = true → c'.pc.message m = c.pc.message m ∧ c'.pc.rest m = c.pc.rest m) →
      LockedMove m g c g' c'
  | acquire {g c g' c'} : g'.uart = g.uart → c'.messages m = c.messages m →
      c.pc.spin.holds = false → c'.pc.spin.holds = true → c'.pc.message m = [c'.pc.rest m] →
      LockedMove m g c g' c'
  | write {g c g' c'} (byte : UInt8) : g'.uart = g.uart.outb byte → c'.messages m = c.messages m →
      c.pc.spin.holds = true → c.pc.polled = true → c'.pc.spin.holds = true →
      c'.pc.message m = c.pc.message m → c.pc.rest m = byte :: c'.pc.rest m → LockedMove m g c g' c'
  | release {g c g' c'} : g'.uart = g.uart → c.messages m = c.pc.message m ++ c'.messages m →
      c.pc.spin.holds = true → c'.pc.spin.holds = false → c.pc.rest m = [] → LockedMove m g c g' c'

section
variable {P : Type*} {m : Memory} {id : UInt32} {cpu : P → UInt32} {g g' : Console} {c c' : Printer}

/-- A call of `printk` that has polled holds the lock. -/
theorem Printer.Locked.holds_of_polled (h : c.Locked) (hpolled : c.pc.polled = true) :
    c.pc.spin.holds = true := by
  obtain ⟨pc, calls⟩ := c
  cases pc with
  | ready | locking => cases hpolled
  | writing call locked text polled =>
    obtain rfl := h.pc call locked text polled rfl
    rfl

/-- A step of the lock is a move without a byte. -/
theorem spinStep_locked {lock lock' : Spinlock} {call : PrintCall}
    {spin spin' : SpinPc} {pc : PrintPc}
    {calls : List PrintCall} (hspin : spinStep id lock spin = some (lock', spin'))
    (hpc : call.goOn m spin' = some pc) {u : Uart} :
    LockedMove m ⟨lock, u⟩ ⟨.locking call spin, calls⟩ ⟨lock', u⟩ ⟨pc, calls⟩ := by
  cases spin with
  | outside | inside | resetOwner =>
    cases hspin
    cases hpc
    exact .quiet rfl rfl rfl fun _ => ⟨rfl, rfl⟩
  | exchange =>
    cases hspin
    by_cases htaken : (xchg32 lock.lock 1).1 ≠ 0
    · rw [if_pos htaken] at hpc
      cases hpc
      exact .quiet rfl rfl rfl fun _ => ⟨rfl, rfl⟩
    · rw [if_neg htaken] at hpc
      cases hpc
      exact .acquire rfl rfl rfl rfl rfl
  | setOwner =>
    cases hspin
    obtain ⟨text, htext, rfl⟩ := Option.map_eq_some_iff.1 hpc
    exact .quiet rfl rfl rfl fun _ => ⟨rfl, (text_eq htext).symm⟩
  | assertOwner | assertLocked =>
    rw [spinStep] at hspin
    split at hspin
    · cases hspin
      cases hpc
      exact .quiet rfl rfl rfl fun _ => ⟨rfl, rfl⟩
    · cases hspin
  | exchangeBack =>
    obtain ⟨-, rfl⟩ := spinStep_exchangeBack hspin
    cases hpc
    exact .release rfl rfl rfl rfl rfl

/-- A call that goes on behind the lock holds it. -/
theorem goOn_locked {call : PrintCall} {spin : SpinPc} {pc : PrintPc}
    (h : call.goOn m spin = some pc) :
    ∀ call' locked text polled, pc = .writing call' locked text polled → locked = true := by
  rintro call' locked text polled rfl
  cases spin with
  | inside =>
    obtain ⟨text, -, heq⟩ := Option.map_eq_some_iff.1 h
    cases heq
    rfl
  | outside | exchange | setOwner | assertOwner | assertLocked | resetOwner | exchangeBack =>
    cases h

/-- The steps of a processor that prints by `printk` only. -/
theorem PrinterMove.locked (h : PrinterMove m id g c g' c') (hc : c.Locked) :
    LockedMove m g c g' c' ∧ c'.Locked := by
  cases h with
  | idle hready => exact ⟨.quiet rfl rfl rfl fun _ => ⟨rfl, rfl⟩, hc⟩
  | start =>
    refine ⟨.quiet rfl rfl rfl fun hholds => (by cases hholds), ?_, fun _ _ _ _ heq =>
      (by cases heq)⟩
    exact fun call hcall => hc.calls call (List.mem_cons_of_mem _ hcall)
  | startUnsafe hunsafe =>
    rw [hc.calls _ List.mem_cons_self] at hunsafe
    cases hunsafe
  | spin hspin hpc => exact ⟨spinStep_locked hspin hpc, hc.calls, goOn_locked hpc⟩
  | finish => exact ⟨.quiet rfl rfl rfl fun _ => ⟨rfl, rfl⟩, hc.calls, fun _ _ _ _ heq =>
      (by cases heq)⟩
  | finishUnsafe => cases hc.pc _ _ _ _ rfl
  | @poll _ locked =>
    obtain rfl : locked = true := hc.pc _ _ _ _ rfl
    refine ⟨.quiet rfl rfl rfl fun _ => ⟨rfl, rfl⟩, hc.calls, fun _ _ _ _ heq => ?_⟩
    cases heq
    rfl
  | @out _ locked =>
    obtain rfl : locked = true := hc.pc _ _ _ _ rfl
    refine ⟨.write _ rfl rfl rfl rfl rfl rfl rfl, hc.calls, fun _ _ _ _ heq => ?_⟩
    cases heq
    rfl

/-- What a processor knows of the console, if all print by `printk` only. -/
structure ConsoleKnows (cpu : P → UInt32) (p : Option P) (g : Console) (c : Printer) : Prop where
  owner : OwnerInv (consoleId cpu p) g.lock c.pc.spin
  locked : c.Locked
  polled : c.pc.polled = true → g.uart.fifo = []

/-- An empty queue stays empty. -/
theorem transmit_fifo_nil {u : Uart} (h : u.fifo = []) : u.transmit.fifo = [] := by
  rw [Uart.transmit, h]
  exact h

/-- The transmitter does not disturb what a processor knows. -/
theorem ConsoleKnows.transmit {p : Option P} (h : ConsoleKnows cpu p g c) :
    ConsoleKnows cpu p { g with uart := g.uart.transmit } c :=
  ⟨h.owner, h.locked, fun hpolled => transmit_fifo_nil (h.polled hpolled)⟩

/-- A processor knows what it does itself, -/
theorem ConsoleKnows.own {p : Option P} (h : ConsoleKnows cpu p g c)
    (hst : consoleStep m cpu p g c = some (g', c')) : ConsoleKnows cpu p g' c' := by
  have howner := h.owner.console_own hst
  cases p with
  | none =>
    cases hst
    exact h.transmit
  | some p =>
    have hmove := printerStep_move hst
    refine ⟨howner, (hmove.locked h.locked).2, fun hpolled => ?_⟩
    rcases hmove.bytes with ⟨huart, -, hempty⟩ | ⟨byte, -, -, -, hnot⟩
    · rw [huart]
      exact hempty hpolled
    · rw [hnot] at hpolled
      cases hpolled

/-- and the others leave it what it knows. -/
theorem ConsoleKnows.other {p q : Option P} {d : Printer} (hc : ConsoleKnows cpu p g c)
    (hd : ConsoleKnows cpu q g d) (hex : Excludes c.pc.spin d.pc.spin)
    (hst : consoleStep m cpu p g c = some (g', c')) :
    ConsoleKnows cpu q g' d ∧ Excludes c'.pc.spin d.pc.spin := by
  obtain ⟨howner, hex'⟩ := hc.owner.console_other hd.owner hex hst
  refine ⟨⟨howner, hd.locked, fun hpolled => ?_⟩, hex'⟩
  have hempty := hd.polled hpolled
  cases p with
  | none =>
    cases hst
    exact transmit_fifo_nil hempty
  | some p =>
    rcases (printerStep_move hst).bytes with ⟨huart, -⟩ | ⟨byte, -, -, hwrites, -⟩
    · rwa [huart]
    · -- both are at a write, so both hold the lock
      exact absurd ⟨hc.locked.holds_of_polled hwrites, hd.locked.holds_of_polled hpolled⟩ hex

end

section
variable {P : Type*} [DecidableEq P] {m : Memory} {cpu : P → UInt32} {calls : P → List PrintCall}
  {t : List (Option P × Unit)} {s s' : Console × (Option P → Printer)}
  {ok : Console × (Option P → Printer) → Option P → Prop}

/-- In every interleaving of processors that print by `printk` only, at most one is in its
section. -/
theorem console_knows (hlocked : ∀ p, ∀ call ∈ calls p, call.mpUnsafe = false)
    (h : Run (consoleMachine m cpu) ok (consoleStart calls) t s) :
    (∀ p, ConsoleKnows cpu p s.1 (s.2 p)) ∧ ∀ p q, p ≠ q →
    Excludes (s.2 p).pc.spin (s.2 q).pc.spin := by
  refine h.interleave_inv (fun p g c => ConsoleKnows cpu p g c)
    (fun c d => Excludes c.pc.spin d.pc.spin)
    (fun p => ?_) (fun p q _ => ?_) (fun p g c g' c' hc hst => hc.own hst)
    (fun p q g c d g' c' _ hc hd hcd _ hst => ?_)
  · refine ⟨⟨fun hholds => (by cases hholds), fun howns => (by cases howns)⟩,
      ⟨?_, fun _ _ _ _ heq => (by cases heq)⟩, fun hpolled => (by cases hpolled)⟩
    cases p with
    | none => exact fun call hcall => by cases hcall
    | some p => exact hlocked p
  · exact fun hboth => by cases hboth.1
  · obtain ⟨hknows, hex⟩ := hc.other hd hcd hst
    exact ⟨hknows, hex, fun hboth => hex hboth.symm⟩

/-- The messages that are done, and what is out of the current one. -/
structure ConsoleMessages (m : Memory) (calls : P → List PrintCall)
    (s : Console × (Option P → Printer))
    (done : List (P × List UInt8)) (cur : List UInt8) : Prop where
  sent : s.1.uart.sent = (done.map Prod.snd).flatten ++ cur
  holder : ∀ p, (s.2 (some p)).pc.spin.holds = true →
    (s.2 (some p)).pc.message m = [cur ++ (s.2 (some p)).pc.rest m]
  free : (∀ p, (s.2 (some p)).pc.spin.holds = false) → cur = []
  threads : ∀ p, thread p done ++ (s.2 (some p)).messages m = (calls p).map (PrintCall.text m)

section
variable {done : List (P × List UInt8)} {cur : List UInt8} {p : P} {c' : Printer}

/-- The invariant after a step of `p`, from what it says of `p` and of the others. -/
theorem ConsoleMessages.update {done' : List (P × List UInt8)} {cur' : List UInt8}
    (h : ConsoleMessages m calls s done cur) (hprinters : s'.2 = Function.update s.2 (some p) c')
    (hsent : s'.1.uart.sent = (done'.map Prod.snd).flatten ++ cur')
    (hself : c'.pc.spin.holds = true → c'.pc.message m = [cur' ++ c'.pc.rest m])
    (hother : ∀ q, q ≠ p → (s.2 (some q)).pc.spin.holds = true → cur' = cur)
    (hfree : (c'.pc.spin.holds = false ∧ ∀ q, q ≠ p → (s.2 (some q)).pc.spin.holds = false) →
      cur' = [])
    (hthread : thread p done' ++ c'.messages m = (calls p).map (PrintCall.text m))
    (hthreads : ∀ q, q ≠ p → thread q done' = thread q done) :
    ConsoleMessages m calls s' done' cur' := by
  obtain ⟨hc', hq'⟩ := printers_update hprinters
  refine ⟨hsent, printers_forall (Q := fun _ c => c.pc.spin.holds = true →
    c.pc.message m = [cur' ++ c.pc.rest m]) hprinters hself fun q hq hholds => ?_, fun hnone => ?_,
    printers_forall (Q := fun q c => thread q done' ++ c.messages m =
      (calls q).map (PrintCall.text m)) hprinters hthread fun q hq => ?_⟩
  · rw [hother q hq hholds]
    exact h.holder q hholds
  · refine hfree ⟨?_, fun q hq => ?_⟩
    · rw [← hc']
      exact hnone p
    · rw [← hq' q hq]
      exact hnone q
  · rw [hthreads q hq]
    exact h.threads q

/-- A step of a processor that prints by `printk` only. -/
theorem ConsoleMessages.move (h : ConsoleMessages m calls s done cur)
    (hmove : LockedMove m s.1 (s.2 (some p)) s'.1 c')
    (hprinters : s'.2 = Function.update s.2 (some p) c')
    (hfifo : (s.2 (some p)).pc.polled = true → s.1.uart.fifo = [])
    (hex : ∀ q, q ≠ p → Excludes (s.2 (some p)).pc.spin (s.2 (some q)).pc.spin)
    (hex' : ∀ q, q ≠ p → Excludes c'.pc.spin (s.2 (some q)).pc.spin) :
    ∃ done' cur', ConsoleMessages m calls s' done' cur' := by
  have hthread := h.threads p
  -- a processor in its section is the only one there
  have halone : ∀ {spin : SpinPc}, (∀ q, q ≠ p → Excludes spin (s.2 (some q)).pc.spin) →
      spin.holds = true → ∀ q, q ≠ p → (s.2 (some q)).pc.spin.holds = false := by
    intro spin hexq hholds q hq
    exact Bool.eq_false_iff.2 fun hq' => hexq q hq ⟨hholds, hq'⟩
  have hall : (s.2 (some p)).pc.spin.holds = false →
      (∀ q, q ≠ p → (s.2 (some q)).pc.spin.holds = false) → cur = [] := fun hp hothers =>
    h.free fun q => by
      by_cases hq : q = p
      · rw [hq, hp]
      · exact hothers q hq
  cases hmove with
  | quiet huart hmessages hholds hsame =>
    refine ⟨done, cur, h.update hprinters ?_ (fun hc' => ?_) (fun _ _ _ => rfl) (fun hfree => ?_) ?_
      fun _ _ => rfl⟩
    · rw [huart]
      exact h.sent
    · rw [hholds] at hc'
      obtain ⟨hmessage, hrest⟩ := hsame hc'
      rw [hmessage, hrest]
      exact h.holder p hc'
    · rw [hholds] at hfree
      exact hall hfree.1 hfree.2
    · rw [hmessages]
      exact hthread
  | acquire huart hmessages hbefore hafter hmessage =>
    obtain rfl := hall hbefore (halone hex' hafter)
    refine ⟨done, [], h.update hprinters ?_ (fun _ => hmessage) (fun _ _ _ => rfl) (fun _ => rfl) ?_
      fun _ _ => rfl⟩
    · rw [huart]
      exact h.sent
    · rw [hmessages]
      exact hthread
  | write byte huart hmessages hholds hpolled hholds' hmessage hrest =>
    have hfits : s.1.uart.fifo.length < 16 := by rw [hfifo hpolled]; decide
    refine ⟨done, cur ++ [byte], h.update hprinters ?_ (fun _ => ?_) (fun q hq hq' => ?_)
      (fun hfree => ?_) ?_ fun _ _ => rfl⟩
    · rw [huart, Uart.sent_outb hfits, h.sent, List.append_assoc]
    · rw [hmessage, h.holder p hholds, hrest, List.append_assoc, List.singleton_append]
    · rw [halone hex hholds q hq] at hq'
      cases hq'
    · rw [hholds'] at hfree
      cases hfree.1
    · rw [hmessages]
      exact hthread
  | release huart hmessages hholds hafter hrest =>
    have hmessage := h.holder p hholds
    rw [hrest, List.append_nil] at hmessage
    refine ⟨done ++ [(p, cur)], [], h.update hprinters ?_ (fun hc' => ?_) (fun q hq hq' => ?_)
      (fun _ => rfl) ?_ fun q hq => thread_snoc_of_ne (Ne.symm hq)⟩
    · rw [huart, h.sent]
      simp
    · rw [hafter] at hc'
      cases hc'
    · rw [halone hex hholds q hq] at hq'
      cases hq'
    · rw [hmessages, hmessage] at hthread
      rw [thread_snoc_self, List.append_assoc]
      exact hthread

end

/-- **Whole messages.** If all processors print by `printk`, then in every interleaving what reached
the transmitter is a sequence of whole messages, each processor's in the order of its calls, and
behind them a part of the message of the processor that holds the lock. -/
theorem console_messages (hlocked : ∀ p, ∀ call ∈ calls p, call.mpUnsafe = false)
    (h : Run (consoleMachine m cpu) ok (consoleStart calls) t s) :
    ∃ (done : List (P × List UInt8)) (cur : List UInt8),
      s.1.uart.sent = (done.map Prod.snd).flatten ++ cur ∧
      (cur = [] ∨ ∃ p, (s.2 (some p)).pc.spin.holds = true ∧
        (s.2 (some p)).pc.message m = [cur ++ (s.2 (some p)).pc.rest m]) ∧
      ∀ p, thread p done ++ (s.2 (some p)).messages m = (calls p).map (PrintCall.text m) := by
  have hinv : ∃ done cur, ConsoleMessages m calls s done cur := by
    induction h with
    | nil => exact ⟨[], [], rfl, fun p hp => (by cases hp), fun _ => rfl, fun p => rfl⟩
    | @snoc _ s p _ s' hrun hok hst ih =>
      obtain ⟨done, cur, hinv⟩ := ih
      obtain ⟨hknows, hex⟩ := console_knows hlocked hrun
      obtain ⟨-, hex'⟩ := console_knows hlocked (hrun.snoc hok hst)
      rcases consoleMachine_cases hst with ⟨rfl, rfl⟩ | ⟨p, c', rfl, hmove, hprinters⟩
      · exact ⟨done, cur, (Uart.sent_transmit _).trans hinv.sent, hinv.holder,
          hinv.free, hinv.threads⟩
      · obtain ⟨hlockedMove, -⟩ := hmove.locked (hknows (some p)).locked
        obtain ⟨hc', hq'⟩ := printers_update hprinters
        have hne : ∀ {q}, q ≠ p → (some p : Option P) ≠ some q :=
          fun hq heq => hq (Option.some.inj heq).symm
        refine hinv.move hlockedMove hprinters (hknows (some p)).polled
          (fun q hq => hex _ _ (hne hq))
          fun q hq => ?_
        have hboth := hex' _ _ (hne hq)
        rwa [hc', hq' q hq] at hboth
  obtain ⟨done, cur, hinv⟩ := hinv
  refine ⟨done, cur, hinv.sent, ?_, hinv.threads⟩
  by_cases hheld : ∃ p, (s.2 (some p)).pc.spin.holds = true
  · obtain ⟨p, hp⟩ := hheld
    exact .inr ⟨p, hp, hinv.holder p hp⟩
  · exact .inl (hinv.free fun p => Bool.eq_false_iff.2 fun hp => hheld ⟨p, hp⟩)

/-- One of two processors prints, and the other one waits. -/
theorem console_messages_two : ∃ t s,
    Run (consoleMachine Memory.zero fun p : Fin 2 => UInt32.ofNat p) (fun _ _ => True)
      (consoleStart fun p => [⟨[UInt8.ofNat (0x61 + p), 0x0a], [], false⟩]) t s ∧
    s.1.uart.sent = [0x62] ∧ ∃ (done : List (Fin 2 × List UInt8)) (cur : List UInt8),
      s.1.uart.sent = (done.map Prod.snd).flatten ++ cur ∧
      thread 1 done ++ (s.2 (some 1)).messages Memory.zero = [[0x62, 0x0a]] := by
  have hexec : (exec (consoleMachine Memory.zero fun p : Fin 2 => UInt32.ofNat p)
      (consoleStart fun p => [⟨[UInt8.ofNat (0x61 + p), 0x0a], [], false⟩])
      [some 0, some 1, some 1, some 0, some 1, some 1, some 0, some 1]).map
      (fun r => r.2.1.uart.sent) = some [0x62] := by decide +kernel
  obtain ⟨⟨t, s⟩, hr, hsent⟩ := Option.map_eq_some_iff.1 hexec
  have hrun : Run _ (fun _ _ => True) _ t s := Run.nil.exec (fun _ _ _ => trivial) hr
  have hlocked : ∀ p : Fin 2, ∀ call ∈ [(⟨[UInt8.ofNat (0x61 + p), 0x0a], [], false⟩ : PrintCall)],
      call.mpUnsafe = false := by decide
  obtain ⟨done, cur, hdone, -, hthreads⟩ := console_messages hlocked hrun
  exact ⟨t, s, hrun, hsent, done, cur, hdone, hthreads 1⟩

end

end ZeldaOS
