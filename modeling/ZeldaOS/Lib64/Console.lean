import Mathlib.Data.Fintype.Card
import ZeldaOS.Lib64.Printk
import ZeldaOS.X86.Spinlock

/-!
# The console

Model of `printk` and `printk_mp_unsafe` of `lib64/printk.c` on processors that share the serial
port of `device/serial.c`. The bytes of a call are those of `printkMpRaw`. Every access to the lock
and to the port is a step of its own: `write_serial` polls the line status until the transmitter is
empty and then writes the byte, and in between another processor may do the same.

With regard to the lock a processor is one of `spinMachine` (`PrinterMove.spin_cases`). A byte is
written after a poll that found the FIFO of the transmitter empty, so as long as there are no more
processors than places in the FIFO, no byte is lost, with or without the lock (`console_bytes`).
-/

namespace ZeldaOS

/-! ## The port -/

/-- The transmitter: the bytes in its FIFO, which `serial_init` turns on, and the bytes that are
out. -/
structure Uart where
  fifo : List UInt8
  wire : List UInt8
deriving DecidableEq, Repr

/-- `is_transmit_empty`. -/
def isTransmitEmpty (u : Uart) : Bool := u.fifo.isEmpty

/-- A byte that is written to the full FIFO is lost. -/
def Uart.outb (u : Uart) (byte : UInt8) : Uart :=
  if u.fifo.length < 16 then { u with fifo := u.fifo ++ [byte] } else u

/-- The transmitter sends a byte. -/
def Uart.transmit (u : Uart) : Uart :=
  match u.fifo with
  | [] => u
  | byte :: fifo => ⟨fifo, u.wire ++ [byte]⟩

/-- The bytes that reached the transmitter. -/
def Uart.sent (u : Uart) : List UInt8 := u.wire ++ u.fifo

/-- Transmitting a byte does not change what was sent in all, -/
theorem Uart.sent_transmit (u : Uart) : u.transmit.sent = u.sent := by
  obtain ⟨fifo, wire⟩ := u
  cases fifo with
  | nil => rfl
  | cons byte fifo => simp [Uart.transmit, Uart.sent]

/-- and a byte that fits in the queue is sent. -/
theorem Uart.sent_outb {u : Uart} (h : u.fifo.length < 16) (byte : UInt8) :
    (u.outb byte).sent = u.sent ++ [byte] := by
  rw [Uart.outb, if_pos h, Uart.sent, Uart.sent, List.append_assoc]

/-! ## The processors -/

/-- A call of `printk`, or of `printk_mp_unsafe`. -/
structure PrintCall where
  fmt : List UInt8
  args : List Nat
  mpUnsafe : Bool
deriving DecidableEq, Repr

/-- The bytes of a call. -/
def PrintCall.text (m : Memory) (call : PrintCall) : List UInt8 :=
  (printkMpRaw m call.fmt call.args).getD []

/-- Where a processor is. -/
inductive PrintPc
  /-- Before a call. -/
  | ready
  /-- In `spinlock_acquire_raw` or `spinlock_release_raw`. -/
  | locking (call : PrintCall) (spin : SpinPc)
  /-- In `printk_mp_raw`, called from `printk` if `locked`, with the bytes still to be written. The
  line status was found empty for the first of them if `polled`. -/
  | writing (call : PrintCall) (locked : Bool) (text : List UInt8) (polled : Bool)
deriving DecidableEq, Repr

/-- A processor, with the calls it is going to make. -/
structure Printer where
  pc : PrintPc
  calls : List PrintCall
deriving DecidableEq, Repr

/-- What the processors share. -/
structure Console where
  lock : Spinlock
  uart : Uart
deriving DecidableEq, Repr

/-- Where a call goes on when its lock is at `spin`. -/
def PrintCall.goOn (m : Memory) (call : PrintCall) : SpinPc → Option PrintPc
  | .outside => some .ready
  | .inside => (printkMpRaw m call.fmt call.args).map fun text => .writing call true text false
  | spin => some (.locking call spin)

/-- One step of the processor with the id `cpu`. -/
def printerStep (m : Memory) (cpu : UInt32) (g : Console) (c : Printer) :
    Option (Console × Printer) :=
  match c.pc with
  | .ready =>
    match c.calls with
    | [] => some (g, c)
    | call :: calls =>
      if call.mpUnsafe then
        (printkMpRaw m call.fmt call.args).map fun text =>
          (g, ⟨.writing call false text false, calls⟩)
      else some (g, ⟨.locking call .exchange, calls⟩)
  | .locking call spin =>
    (spinStep cpu g.lock spin).bind fun (lock, spin) =>
      (call.goOn m spin).map fun pc => ({ g with lock }, { c with pc })
  | .writing call locked [] _ =>
    some (g, { c with pc := if locked then .locking call .assertOwner else .ready })
  | .writing call locked (byte :: text) false =>
    some (g, { c with pc := .writing call locked (byte :: text) (isTransmitEmpty g.uart) })
  | .writing call locked (byte :: text) true =>
    some ({ g with uart := g.uart.outb byte }, { c with pc := .writing call locked text false })

/-- The moves: of a processor, or of the transmitter. -/
def consoleStep {P : Type*} (m : Memory) (cpu : P → UInt32) :
    Option P → Console → Printer → Option (Console × Printer)
  | some p => printerStep m (cpu p)
  | none => fun g c => some ({ g with uart := g.uart.transmit }, c)

/-- The processors with the console. -/
def consoleMachine {P : Type*} [DecidableEq P] (m : Memory) (cpu : P → UInt32) :
    Console × (Option P → Printer) → Option P → Option (Unit × (Console × (Option P → Printer))) :=
  interleave (consoleStep m cpu)

/-- The start, with the calls of each processor. -/
def consoleStart {P : Type*} (calls : P → List PrintCall) : Console × (Option P → Printer) :=
  (⟨spinlockInit, ⟨[], []⟩⟩, fun p => ⟨.ready, (p.map calls).getD []⟩)

/-! ## What a step does -/

/-- Where a processor is with regard to the lock. -/
def PrintPc.spin : PrintPc → SpinPc
  | .ready => .outside
  | .locking _ spin => spin
  | .writing _ locked _ _ => if locked then .inside else .outside

/-- The line status was found empty. -/
def PrintPc.polled : PrintPc → Bool
  | .writing _ _ _ polled => polled
  | _ => false

/-- The bytes of the current call that are still to be written. -/
def PrintPc.rest (m : Memory) : PrintPc → List UInt8
  | .ready => []
  | .locking call .outside | .locking call .exchange | .locking call .setOwner => call.text m
  | .locking _ _ => []
  | .writing _ _ text _ => text

/-- The steps of a processor, by what they do to the port: nothing, a poll, or a byte. -/
inductive PrinterMove (m : Memory) (cpu : UInt32) : Console → Printer → Console → Printer → Prop
  | idle {g c} : c.pc = .ready → PrinterMove m cpu g c g c
  | start {g call calls} : call.mpUnsafe = false →
      PrinterMove m cpu g ⟨.ready, call :: calls⟩ g ⟨.locking call .exchange, calls⟩
  | startUnsafe {g call calls} : call.mpUnsafe = true →
      PrinterMove m cpu g ⟨.ready, call :: calls⟩ g ⟨.writing call false (call.text m) false, calls⟩
  | spin {g lock call spin spin' pc' calls} : spinStep cpu g.lock spin = some (lock, spin') →
      call.goOn m spin' = some pc' →
      PrinterMove m cpu g ⟨.locking call spin, calls⟩ { g with lock } ⟨pc', calls⟩
  | finish {g call polled calls} :
      PrinterMove m cpu g ⟨.writing call true [] polled, calls⟩ g
        ⟨.locking call .assertOwner, calls⟩
  | finishUnsafe {g call polled calls} :
      PrinterMove m cpu g ⟨.writing call false [] polled, calls⟩ g ⟨.ready, calls⟩
  | poll {g call locked byte text calls} :
      PrinterMove m cpu g ⟨.writing call locked (byte :: text) false, calls⟩
        g ⟨.writing call locked (byte :: text) (isTransmitEmpty g.uart), calls⟩
  | out {g call locked byte text calls} :
      PrinterMove m cpu g ⟨.writing call locked (byte :: text) true, calls⟩
        { g with uart := g.uart.outb byte } ⟨.writing call locked text false, calls⟩

section
variable {P : Type*} {m : Memory} {id : UInt32} {cpu : P → UInt32} {g g' : Console}
  {c c' : Printer} {p : P}

/-- The text of a call. -/
theorem text_eq {call : PrintCall} {text : List UInt8}
    (h : printkMpRaw m call.fmt call.args = some text) : call.text m = text := by
  rw [PrintCall.text, h, Option.getD_some]

/-- The start of a call: `printk` takes the lock, `printk_mp_unsafe` does not. -/
theorem printerStep_call (call : PrintCall) (calls : List PrintCall) :
    printerStep m id g ⟨.ready, call :: calls⟩ = if call.mpUnsafe then
      (printkMpRaw m call.fmt call.args).map fun text =>
        (g, ⟨.writing call false text false, calls⟩)
    else some (g, ⟨.locking call .exchange, calls⟩) := rfl

/-- Every step is one of the moves. -/
theorem printerStep_move (h : printerStep m id g c = some (g', c')) :
    PrinterMove m id g c g' c' := by
  obtain ⟨pc, calls⟩ := c
  cases pc with
  | ready =>
    cases calls with
    | nil =>
      cases h
      exact .idle rfl
    | cons call calls =>
      rw [printerStep_call] at h
      by_cases hunsafe : call.mpUnsafe = true
      · rw [if_pos hunsafe] at h
        obtain ⟨text, htext, heq⟩ := Option.map_eq_some_iff.1 h
        cases heq
        rw [← text_eq htext]
        exact .startUnsafe hunsafe
      · rw [if_neg hunsafe] at h
        cases h
        exact .start (Bool.eq_false_iff.2 hunsafe)
  | locking call spin =>
    obtain ⟨⟨lock, spin'⟩, hspin, h⟩ := Option.bind_eq_some_iff.1 h
    obtain ⟨pc, hpc, heq⟩ := Option.map_eq_some_iff.1 h
    cases heq
    exact .spin hspin hpc
  | writing call locked text polled =>
    cases text with
    | nil =>
      cases h
      cases locked with
      | false => exact .finishUnsafe
      | true => exact .finish
    | cons byte text =>
      cases polled with
      | false =>
        cases h
        exact .poll
      | true =>
        cases h
        exact .out

/-- A call is where its lock is. -/
theorem goOn_spin {call : PrintCall} {spin : SpinPc} {pc : PrintPc}
    (h : call.goOn m spin = some pc) :
    pc.spin = spin := by
  cases spin with
  | inside =>
    obtain ⟨text, -, rfl⟩ := Option.map_eq_some_iff.1 h
    rfl
  | outside | exchange | setOwner | assertOwner | assertLocked | resetOwner | exchangeBack =>
    cases h
    rfl

/-- **Refinement.** With regard to the lock a step of a processor is a step of `spinStep` or
none. -/
theorem PrinterMove.spin_cases (h : PrinterMove m id g c g' c') :
    (g'.lock = g.lock ∧ c'.pc.spin = c.pc.spin) ∨
      spinStep id g.lock c.pc.spin = some (g'.lock, c'.pc.spin) := by
  cases h with
  | idle | startUnsafe | finishUnsafe | poll | out => exact .inl ⟨rfl, rfl⟩
  | start | finish => exact .inr rfl
  | spin hspin hpc => exact .inr (by rw [goOn_spin hpc]; exact hspin)

/-- The id of a processor. -/
def consoleId (cpu : P → UInt32) (p : Option P) : UInt32 := (p.map cpu).getD 0

/-- A step of the console leaves the lock alone or is a step of the lock. -/
theorem consoleStep_spin {p : Option P} (h : consoleStep m cpu p g c = some (g', c')) :
    (g'.lock = g.lock ∧ c'.pc.spin = c.pc.spin) ∨
      spinStep (consoleId cpu p) g.lock c.pc.spin = some (g'.lock, c'.pc.spin) := by
  cases p with
  | some p => exact (printerStep_move h).spin_cases
  | none =>
    cases h
    exact .inl ⟨rfl, rfl⟩

/-- So a step keeps what a processor knows of the lock. -/
theorem OwnerInv.console_own {p : Option P} (h : OwnerInv (consoleId cpu p) g.lock c.pc.spin)
    (hst : consoleStep m cpu p g c = some (g', c')) :
    OwnerInv (consoleId cpu p) g'.lock c'.pc.spin := by
  rcases consoleStep_spin hst with ⟨hlock, hspin⟩ | hspin
  · rwa [hlock, hspin]
  · exact h.own hspin

/-- The other processors keep their part of the lock. -/
theorem OwnerInv.console_other {p q : Option P} {d : Printer}
    (hc : OwnerInv (consoleId cpu p) g.lock c.pc.spin)
    (hd : OwnerInv (consoleId cpu q) g.lock d.pc.spin)
    (hex : Excludes c.pc.spin d.pc.spin) (hst : consoleStep m cpu p g c = some (g', c')) :
    OwnerInv (consoleId cpu q) g'.lock d.pc.spin ∧ Excludes c'.pc.spin d.pc.spin := by
  rcases consoleStep_spin hst with ⟨hlock, hspin⟩ | hspin
  · rw [hlock, hspin]
    exact ⟨hd, hex⟩
  · exact hc.other hd hex hspin

/-! ## The bytes of every processor -/

/-- The bytes of calls. -/
def texts (m : Memory) (calls : List PrintCall) : List UInt8 :=
  (calls.map (PrintCall.text m)).flatten

/-- The bytes that a processor is going to write. -/
def Printer.toCome (m : Memory) (c : Printer) : List UInt8 := c.pc.rest m ++ texts m c.calls

/-- A step of the lock prints nothing. -/
theorem spinStep_rest {lock lock' : Spinlock} {call : PrintCall}
    {spin spin' : SpinPc} {pc : PrintPc}
    (hspin : spinStep id lock spin = some (lock', spin')) (hpc : call.goOn m spin' = some pc) :
    pc.rest m = (PrintPc.locking call spin).rest m ∧ pc.polled = false := by
  cases spin with
  | outside | inside | resetOwner =>
    cases hspin
    cases hpc
    exact ⟨rfl, rfl⟩
  | exchange =>
    cases hspin
    by_cases htaken : (xchg32 lock.lock 1).1 ≠ 0
    · rw [if_pos htaken] at hpc
      cases hpc
      exact ⟨rfl, rfl⟩
    · rw [if_neg htaken] at hpc
      cases hpc
      exact ⟨rfl, rfl⟩
  | setOwner =>
    cases hspin
    obtain ⟨text, htext, rfl⟩ := Option.map_eq_some_iff.1 hpc
    exact ⟨(text_eq htext).symm, rfl⟩
  | assertOwner | assertLocked | exchangeBack =>
    rw [spinStep] at hspin
    split at hspin
    · cases hspin
      cases hpc
      exact ⟨rfl, rfl⟩
    · cases hspin

/-- A step writes the next byte, after a poll that found the transmitter empty, or none. -/
theorem PrinterMove.bytes (h : PrinterMove m id g c g' c') :
    (g'.uart = g.uart ∧ c'.toCome m = c.toCome m ∧ (c'.pc.polled = true → g.uart.fifo = [])) ∨
    ∃ byte, g'.uart = g.uart.outb byte ∧ c.toCome m = byte :: c'.toCome m ∧ c.pc.polled = true ∧
      c'.pc.polled = false := by
  cases h with
  | idle hready =>
    refine .inl ⟨rfl, rfl, fun hpolled => ?_⟩
    rw [hready] at hpolled
    cases hpolled
  | start | startUnsafe | finish | finishUnsafe =>
    exact .inl ⟨rfl, by simp [Printer.toCome, PrintPc.rest, texts], fun hpolled => by cases hpolled⟩
  | spin hspin hpc =>
    obtain ⟨hrest, hpolled⟩ := spinStep_rest hspin hpc
    refine .inl ⟨rfl, by rw [Printer.toCome, Printer.toCome, hrest], fun h => ?_⟩
    rw [hpolled] at h
    cases h
  | poll => exact .inl ⟨rfl, rfl, List.isEmpty_iff.1⟩
  | out => exact .inr ⟨_, rfl, rfl, rfl, rfl⟩

end

section
variable {P : Type*} [DecidableEq P] {m : Memory} {cpu : P → UInt32} {calls : P → List PrintCall}
  {t : List (Option P × Unit)} {s s' : Console × (Option P → Printer)}
  {ok : Console × (Option P → Printer) → Option P → Prop}

/-- A step of a processor changes no other one. -/
theorem printers_update {printers printers' : Option P → Printer} {p : P} {c : Printer}
    (h : printers' = Function.update printers (some p) c) :
    printers' (some p) = c ∧ ∀ q, q ≠ p → printers' (some q) = printers (some q) := by
  rw [h]
  exact ⟨Function.update_self .., fun q hq =>
    Function.update_of_ne (fun heq => hq (Option.some.inj heq)) _ _⟩

/-- What holds of the processor that moved, and of the others before, holds of all. -/
theorem printers_forall {printers printers' : Option P → Printer} {p : P} {c : Printer}
    {Q : P → Printer → Prop} (h : printers' = Function.update printers (some p) c) (hp : Q p c)
    (hother : ∀ q, q ≠ p → Q q (printers (some q))) (q : P) : Q q (printers' (some q)) := by
  obtain ⟨hself, hsame⟩ := printers_update h
  by_cases hq : q = p
  · rw [hq, hself]
    exact hp
  · rw [hsame q hq]
    exact hother q hq

/-- A step is one of the transmitter or of a processor. -/
theorem consoleMachine_cases {e : Option P} {u : Unit}
    (h : consoleMachine m cpu s e = some (u, s')) :
    (e = none ∧ s' = ({ s.1 with uart := s.1.uart.transmit }, s.2)) ∨
    ∃ p c', e = some p ∧ PrinterMove m (cpu p) s.1 (s.2 (some p)) s'.1 c' ∧
      s'.2 = Function.update s.2 (some p) c' := by
  obtain ⟨c', hst, hprinters⟩ := interleave_eq_some.1 h
  cases e with
  | none =>
    obtain ⟨hg, rfl⟩ := Prod.mk.inj (Option.some.inj hst)
    rw [Function.update_eq_self] at hprinters
    exact .inl ⟨rfl, Prod.ext hg.symm hprinters⟩
  | some p => exact .inr ⟨p, c', rfl, printerStep_move hst, hprinters⟩

/-- **Mutual exclusion.** Whatever the calls are, every processor knows of the lock what its place
in `spinlock_acquire_raw` and `spinlock_release_raw` says, and at most one is in its section. -/
theorem console_owner (h : Run (consoleMachine m cpu) ok (consoleStart calls) t s) :
    (∀ p, OwnerInv (consoleId cpu p) s.1.lock (s.2 p).pc.spin) ∧
      ∀ p q, p ≠ q → Excludes (s.2 p).pc.spin (s.2 q).pc.spin := by
  refine h.interleave_inv (fun p g c => OwnerInv (consoleId cpu p) g.lock c.pc.spin)
    (fun c d => Excludes c.pc.spin d.pc.spin)
    (fun p => ⟨fun hholds => (by cases hholds), fun howns => (by cases howns)⟩)
    (fun p q _ hboth => (by cases hboth.1)) (fun p g c g' c' hc hst => hc.console_own hst)
    (fun p q g c d g' c' _ hc hd hcd _ hst => ?_)
  obtain ⟨howner, hex⟩ := hc.console_other hd hcd hst
  exact ⟨howner, hex, fun hboth => hex hboth.symm⟩

section
variable [Fintype P]

/-- The processors between a poll that found the transmitter empty and their write. -/
def polledSet (printers : Option P → Printer) : Finset P :=
  Finset.univ.filter fun p => (printers (some p)).pc.polled = true

/-- A processor that has not polled is not among those that have. -/
theorem polledSet_update {printers : Option P → Printer} {p : P} {c : Printer}
    (h : c.pc.polled = false) :
    polledSet (Function.update printers (some p) c) = (polledSet printers).erase p := by
  ext q
  by_cases hq : q = p
  · subst hq
    simp [polledSet, h]
  · simp [polledSet, hq]

/-- The FIFO has room for the bytes of all processors that found it empty. -/
structure ConsoleBytes (m : Memory) (calls : P → List PrintCall)
    (s : Console × (Option P → Printer)) (bytes : List (P × UInt8)) : Prop where
  room : s.1.uart.fifo.length + (polledSet s.2).card ≤ Fintype.card P
  sent : s.1.uart.sent = bytes.map Prod.snd
  threads : ∀ p, thread p bytes ++ (s.2 (some p)).toCome m = texts m (calls p)

/-- The transmitter loses nothing. -/
theorem ConsoleBytes.transmit {bytes : List (P × UInt8)} (h : ConsoleBytes m calls s bytes) :
    ConsoleBytes m calls ({ s.1 with uart := s.1.uart.transmit }, s.2) bytes := by
  refine ⟨?_, (Uart.sent_transmit _).trans h.sent, h.threads⟩
  have hshorter : s.1.uart.transmit.fifo.length ≤ s.1.uart.fifo.length := by
    rw [Uart.transmit]
    split
    · exact Nat.le_refl _
    · next hfifo => simp [hfifo]
  exact (Nat.add_le_add_right hshorter _).trans h.room

/-- A step of a processor writes no byte, or one that the FIFO has room for. -/
theorem ConsoleBytes.move {bytes : List (P × UInt8)} {p : P} {c' : Printer}
    (h : ConsoleBytes m calls s bytes) (hcard : Fintype.card P ≤ 16)
    (hmove : PrinterMove m (cpu p) s.1 (s.2 (some p)) s'.1 c')
    (hprinters : s'.2 = Function.update s.2 (some p) c') :
    ∃ bytes', ConsoleBytes m calls s' bytes' := by
  have hroom := h.room
  rcases hmove.bytes with ⟨huart, hcome, hpolled⟩ | ⟨byte, huart, hcome, hpolled, hpolled'⟩
  · refine ⟨bytes, ⟨?_, huart ▸ h.sent, printers_forall
      (Q := fun q c => thread q bytes ++ c.toCome m = texts m (calls q)) hprinters ?_
      fun q _ => h.threads q⟩⟩
    · cases hc : c'.pc.polled with
      | true =>
        rw [huart, hpolled hc, List.length_nil, Nat.zero_add]
        exact Finset.card_le_univ _
      | false =>
        rw [huart, hprinters, polledSet_update hc]
        exact (Nat.add_le_add_left Finset.card_erase_le _).trans hroom
    · rw [hcome]
      exact h.threads p
  · have hmem : p ∈ polledSet s.2 := Finset.mem_filter.2 ⟨Finset.mem_univ p, hpolled⟩
    have hpos := Finset.card_pos.2 ⟨p, hmem⟩
    have hfits : s.1.uart.fifo.length < 16 := by omega
    have hfifo : s'.1.uart.fifo = s.1.uart.fifo ++ [byte] := by rw [huart, Uart.outb, if_pos hfits]
    refine ⟨bytes ++ [(p, byte)], ⟨?_, ?_, printers_forall
      (Q := fun q c => thread q (bytes ++ [(p, byte)]) ++ c.toCome m = texts m (calls q)) hprinters
      ?_ fun q hq => ?_⟩⟩
    · rw [hfifo, hprinters, polledSet_update hpolled', Finset.card_erase_of_mem hmem,
        List.length_append, List.length_singleton]
      omega
    · rw [huart, Uart.sent_outb hfits, h.sent, List.map_append, List.map_singleton]
    · rw [thread_snoc_self, List.append_assoc, List.singleton_append, ← hcome]
      exact h.threads p
    · rw [thread_snoc_of_ne (Ne.symm hq)]
      exact h.threads q

/-- **Lossless.** If there are at most 16 processors, then no byte is lost, whether the calls take
the lock or not: what reached the transmitter is an interleaving of the bytes of the processors,
each processor's in the order of its calls. -/
theorem console_bytes (hcard : Fintype.card P ≤ 16)
    (h : Run (consoleMachine m cpu) ok (consoleStart calls) t s) :
    ∃ bytes : List (P × UInt8), s.1.uart.sent = bytes.map Prod.snd ∧
      ∀ p, thread p bytes ++ (s.2 (some p)).toCome m = texts m (calls p) := by
  have hinv : ∃ bytes, ConsoleBytes m calls s bytes := by
    induction h with
    | nil =>
      have hnone : polledSet (consoleStart calls).2 = ∅ :=
        Finset.filter_false_of_mem fun p _ => Bool.false_ne_true
      refine ⟨[], ⟨?_, rfl, fun p => rfl⟩⟩
      rw [hnone]
      exact Nat.zero_le _
    | @snoc _ s p _ s' _ _ hst ih =>
      obtain ⟨bytes, hbytes⟩ := ih
      rcases consoleMachine_cases hst with ⟨rfl, rfl⟩ | ⟨p, c', rfl, hmove, hprinters⟩
      · exact ⟨bytes, hbytes.transmit⟩
      · exact hbytes.move hcard hmove hprinters
  obtain ⟨bytes, hbytes⟩ := hinv
  exact ⟨bytes, hbytes.sent, hbytes.threads⟩

end

/-- Two processors print without the lock; both poll before either writes. -/
theorem console_bytes_two : ∃ t s,
    Run (consoleMachine Memory.zero fun p : Fin 2 => UInt32.ofNat p) (fun _ _ => True)
      (consoleStart fun p => [⟨[UInt8.ofNat (0x61 + p), 0x0a], [], true⟩]) t s ∧
    s.1.uart.sent = [0x61, 0x62] ∧ ∃ bytes : List (Fin 2 × UInt8), s.1.uart.sent =
      bytes.map Prod.snd ∧ thread 1 bytes ++ (s.2 (some 1)).toCome Memory.zero = [0x62, 0x0a] := by
  have hexec : (exec (consoleMachine Memory.zero fun p : Fin 2 => UInt32.ofNat p)
      (consoleStart fun p => [⟨[UInt8.ofNat (0x61 + p), 0x0a], [], true⟩])
      [some 0, some 1, some 0, some 1, some 0, some 1]).map (fun r => r.2.1.uart.sent) =
      some [0x61, 0x62] := by decide +kernel
  obtain ⟨⟨t, s⟩, hr, hsent⟩ := Option.map_eq_some_iff.1 hexec
  have hrun : Run _ (fun _ _ => True) _ t s := Run.nil.exec (fun _ _ _ => trivial) hr
  obtain ⟨bytes, hbytes, hthreads⟩ := console_bytes (by decide) hrun
  exact ⟨t, s, hrun, hsent, bytes, hbytes, hthreads 1⟩

end

end ZeldaOS
