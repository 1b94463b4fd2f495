import ZeldaOS.Lib.CallFrames
import ZeldaOS.X86.InterruptRuns

/-!
# Backtraces

Model of `backtrace` of `x86_64/panic.c`, on the stack that `kernel_entry` gives to a processor. The
walk follows the frame pointers and records return addresses, until one is not in the code of the
kernel.

The kernel is compiled without optimisation and without a red zone, so its functions begin with
`push` and `mov` of the frame pointer and end with `leave`. A processor that runs such code, and
takes interrupts between any two instructions of it, is a `Thread`; the list `calls` of its
activations is there for the statements only. In every run the stack stands for this list
(`ThreadInv`), so `backtrace` records the return addresses of the active functions, through the
frames of interrupts, the innermost 32 of them (`backtrace_run`). Functions that an interrupt met in
their first or last instructions are not recorded.
-/

namespace ZeldaOS

open Machine CallFrames

/-! ## The stacks -/

/-- `STACK_SIZE_PER_CPU`. -/
def stackSizePerCpu : Nat := 2 * 1024 * 1024

/-- `sizeof(struct backtrace_blob)`. -/
def sizeofBacktraceBlob : Nat := 264

/-- The addresses that the linker gives to the code, the stacks and `bt_blob`. The stacks and the
word above them are apart from `bt_blob`. -/
structure KernelImage where
  codeStart : Nat
  codeEnd : Nat
  smpStack : Nat
  btBlob : Nat
  smpStack_le : smpStack + maxNrCpus * stackSizePerCpu + 8 ≤ 2 ^ 32
  disjoint : btBlob + maxNrCpus * sizeofBacktraceBlob ≤ smpStack ∨
    smpStack + maxNrCpus * stackSizePerCpu + 8 ≤ btBlob

/-- An address is in the code of the kernel, as `backtrace` tests it. -/
def KernelImage.InCode (K : KernelImage) (rip : Nat) : Prop :=
  ¬ (rip < K.codeStart ∨ rip > K.codeEnd)

instance (K : KernelImage) (rip : Nat) : Decidable (K.InCode rip) :=
  inferInstanceAs (Decidable (¬ _))

/-- The lowest address of the stack of a processor. -/
def KernelImage.stackLow (K : KernelImage) (c : Fin maxNrCpus) : Nat :=
  K.smpStack + c * stackSizePerCpu

/-- The address above the stack of a processor. -/
def KernelImage.stackTop (K : KernelImage) (c : Fin maxNrCpus) : Nat :=
  K.smpStack + (c + 1) * stackSizePerCpu

/-- The frame of `kernel_main` or `kernel_ap_main`, which is jumped to and has no return address. -/
def KernelImage.mainFrame (K : KernelImage) (c : Fin maxNrCpus) : Nat := K.stackTop c - 8

/-! ## backtrace -/

/-- What a processor does: the instructions that touch the stack and the frame pointer, assignments
to the other registers, stores, and the way into an interrupt and back. -/
inductive CodeEvent
  | call (ret : Word)
  /-- `push %rbp`. -/
  | pushRbp
  /-- `mov %rsp, %rbp`. -/
  | movRbp
  | leave
  | ret
  /-- The stack pointer moves, for local variables or arguments. -/
  | adjust (v : Word)
  | set (r : Reg) (v : Word)
  | store (a : Word) (n v : Nat)
  /-- Up to the call of `interrupt_handler`. -/
  | interrupt (i : Interrupt)
  /-- After the call of `interrupt_handler`. -/
  | interruptReturn
deriving DecidableEq, Repr

/-- A processor that runs compiled code, with the activations of its functions. -/
structure Thread (D : Type*) where
  cpu : State D
  calls : List Activation

/-- The saved `rbp` is in the frame, -/
theorem cpuState64_rbp_le : 96 + 8 ≤ sizeofCpuState64 := by decide

/-- and so is the saved `rsp`. -/
theorem cpuState64_rsp_le : 192 + 8 ≤ sizeofCpuState64 := by decide

/-- A `struct cpu_state64` as a saved context. -/
def cpuStateLayout : ContextLayout where
  size := sizeofCpuState64
  framePointer := 96
  stackPointer := 192
  framePointer_le := cpuState64_rbp_le
  stackPointer_le := cpuState64_rsp_le

section
variable {D : Type*}

/-- The instructions of `leave`. -/
def leaveCode : List Instr := [.movq .rbp .rsp, .popq .rbp]

/-- One step. The steps are in the order in which a compiler puts them; others have no result. -/
def codeStep (load : SegmentLoad) (isr : Nat → Word) (s : Thread D) :
    CodeEvent → Option (Unit × Thread D)
  | .call ret =>
    some ((), ⟨s.cpu.push ret, .called ((s.cpu.regs .rsp).toNat - 8) ret.toNat :: s.calls⟩)
  | .pushRbp =>
    match s.calls with
    | .called p ret :: calls =>
      some ((), ⟨(Instr.pushq .rbp).exec load s.cpu, .saved (p - 8) ret :: calls⟩)
    | _ => none
  | .movRbp =>
    match s.calls with
    | .saved p ret :: calls =>
      some ((), ⟨(Instr.movq .rsp .rbp).exec load s.cpu, .framed p ret :: calls⟩)
    | _ => none
  | .leave =>
    match s.calls with
    | .framed p ret :: calls =>
      some ((), ⟨execCode load leaveCode s.cpu, .called (p + 8) ret :: calls⟩)
    | _ => none
  | .ret =>
    match s.calls with
    | .called _ _ :: calls =>
      let rsp := s.cpu.regs .rsp
      some ((), ⟨{ s.cpu.setReg .rsp (rsp + 8) with rip := wordAt s.cpu.mem rsp }, calls⟩)
    | _ => none
  | .adjust v => some ((), { s with cpu := (Instr.addq v .rsp).exec load s.cpu })
  | .set r v => some ((), { s with cpu := s.cpu.setReg r v })
  | .store a n v => some ((), { s with cpu := { s.cpu with mem := s.cpu.mem.write a.toNat n v } })
  | .interrupt i =>
    let cpu := enter load isr i s.cpu
    some ((), ⟨cpu, .context (cpu.regs .rdi).toNat :: s.calls⟩)
  | .interruptReturn =>
    match s.calls with
    | .context _ :: calls => some ((), ⟨ZeldaOS.leave load s.cpu, calls⟩)
    | _ => none

/-- What the code keeps to: the stack does not overflow, a function sets up its frame where the call
left the stack pointer and returns there, local variables are below the frame, stores do not meet
what `call` and `push` wrote, and handlers of interrupts return their argument. -/
def CodeOk (K : KernelImage) (c : Fin maxNrCpus) (s : Thread D) : CodeEvent → Prop
  | .call ret => K.stackLow c + 8 ≤ (s.cpu.regs .rsp).toNat ∧ K.InCode ret.toNat
  | .pushRbp => K.stackLow c + 8 ≤ (s.cpu.regs .rsp).toNat ∧
      (s.cpu.regs .rsp).toNat = limit (K.mainFrame c) s.calls
  | .movRbp | .ret => (s.cpu.regs .rsp).toNat = limit (K.mainFrame c) s.calls
  | .leave => True
  | .adjust v => K.stackLow c ≤ (s.cpu.regs .rsp + v).toNat ∧
      (s.cpu.regs .rsp + v).toNat ≤ limit (K.mainFrame c) s.calls
  | .set r _ => r ≠ .rsp ∧ r ≠ .rbp
  | .store a n _ => Avoids cpuStateLayout a.toNat n s.calls
  | .interrupt i => i.Matched ∧ StackRoom (K.stackLow c) (K.stackTop c) s.cpu
  | .interruptReturn => (s.cpu.regs .rax).toNat = limit (K.mainFrame c) s.calls

instance (K : KernelImage) (c : Fin maxNrCpus) (s : Thread D) : ∀ e, Decidable (CodeOk K c s e)
  | .call _ | .pushRbp | .adjust _ | .set _ _ => inferInstanceAs (Decidable (_ ∧ _))
  | .movRbp | .ret | .interruptReturn => inferInstanceAs (Decidable (_ = _))
  | .leave => inferInstanceAs (Decidable True)
  | .store _ _ _ => inferInstanceAs (Decidable (∀ x ∈ s.calls, _))
  | .interrupt _ => inferInstanceAs (Decidable (_ = _ ∧ _ ∧ _))

/-- The stack stands for the activations, and the return addresses are in the code. -/
structure ThreadInv (K : KernelImage) (c : Fin maxNrCpus) (s : Thread D) : Prop where
  low : K.stackLow c ≤ (s.cpu.regs .rsp).toNat
  holds : Holds cpuStateLayout (K.mainFrame c) s.cpu.mem (s.cpu.regs .rsp).toNat
    (s.cpu.regs .rbp).toNat s.calls
  rets : ∀ x ∈ s.calls, ∀ r ∈ x.ret?, K.InCode r

variable {K : KernelImage} {c : Fin maxNrCpus} {load : SegmentLoad} {isr : Nat → Word}
  {s s' : Thread D}
  {cpu : State D} {e : CodeEvent} {u : Unit} {i : Interrupt} {t : List (CodeEvent × Unit)}

/-! ## Words -/

/-- A word of the memory as a number. -/
theorem toNat_wordAt (m : Memory) (a : Word) : (wordAt m a).toNat = m.read a.toNat 8 := by
  have hlt : m.read a.toNat 8 < 256 ^ 8 := Memory.read_lt m a.toNat 8
  rw [wordAt, BitVec.toNat_ofNat]
  exact Nat.mod_eq_of_lt hlt

/-- The address of a field does not wrap. -/
theorem toNat_add_slot {a : Word} {n : Nat} (h : a.toNat + n < 2 ^ 64) :
    (a + BitVec.ofNat 64 n).toNat = a.toNat + n := by
  rw [BitVec.toNat_add, BitVec.toNat_ofNat]
  omega

/-- What a push writes, where the stack does not wrap, -/
theorem push_mem_eq (h : 8 ≤ (cpu.regs .rsp).toNat) (v : Word) :
    (cpu.push v).mem = cpu.mem.write ((cpu.regs .rsp).toNat - 8) 8 v.toNat := by
  have hnat : (cpu.regs .rsp - 8).toNat = (cpu.regs .rsp).toNat - 8 := toNat_sub_of_le (n := 8) h
  rw [← hnat]
  rfl

/-- where it leaves the stack pointer, -/
theorem push_rsp_eq (h : 8 ≤ (cpu.regs .rsp).toNat) (v : Word) :
    ((cpu.push v).regs .rsp).toNat = (cpu.regs .rsp).toNat - 8 := by
  rw [push_regs_rsp]
  exact toNat_sub_of_le (n := 8) h

/-- and that it keeps the frame pointer. -/
theorem push_rbp_eq (v : Word) : (cpu.push v).regs .rbp = cpu.regs .rbp := by
  have hpush : (cpu.pushes [v]).regs .rbp = cpu.regs .rbp := pushes_regs_of_ne (by decide)
  exact hpush

/-! ## The stacks of the processors -/

/-- The stack of a processor is `stackSizePerCpu` bytes. -/
theorem KernelImage.stackTop_eq (K : KernelImage) (c : Fin maxNrCpus) :
    K.stackTop c = K.stackLow c + stackSizePerCpu := by
  rw [stackTop, stackLow, Nat.succ_mul, Nat.add_assoc]

/-- The stacks of all processors are in the array. -/
theorem KernelImage.stackTop_le (K : KernelImage) (c : Fin maxNrCpus) :
    K.stackTop c ≤ K.smpStack + maxNrCpus * stackSizePerCpu :=
  Nat.add_le_add_left (Nat.mul_le_mul_right _ c.isLt) _

/-- The frame of the entry point is right below the top. -/
theorem KernelImage.mainFrame_add (K : KernelImage) (c : Fin maxNrCpus) :
    K.mainFrame c + 8 = K.stackTop c := by
  have htop := K.stackTop_eq c
  have hsize : 8 ≤ stackSizePerCpu := by decide
  rw [mainFrame]
  omega

/-- Its addresses fit in 32 bits. -/
theorem KernelImage.mainFrame_le (K : KernelImage) (c : Fin maxNrCpus) :
    K.mainFrame c + 16 ≤ 2 ^ 32 := by
  have hmain := K.mainFrame_add c
  have htop := K.stackTop_le c
  have hfit := K.smpStack_le
  omega

/-! ## One step -/

/-- The frame of a function may change, but not its return address. -/
theorem inCode_replace {x y : Activation} {st : List Activation}
    (h : ∀ z ∈ x :: st, ∀ r ∈ z.ret?, K.InCode r) (hxy : y.ret? = x.ret?) :
    ∀ z ∈ y :: st, ∀ r ∈ z.ret?, K.InCode r := by
  rintro z (_ | ⟨_, hz⟩) r hr
  · exact h x List.mem_cons_self r (hxy ▸ hr)
  · exact h z (List.mem_cons_of_mem _ hz) r hr

/-- The stack pointer does not wrap. -/
theorem ThreadInv.lt (h : ThreadInv K c s) : (s.cpu.regs .rsp).toNat + 8 < 2 ^ 64 := by
  have hle := h.holds.sp_le_base
  have hbase := K.mainFrame_le c
  omega

/-- **A call** pushes a return address into the code. -/
theorem ThreadInv.call (h : ThreadInv K c s) {ret : Word}
    (hroom : K.stackLow c + 8 ≤ (s.cpu.regs .rsp).toNat) (hret : K.InCode ret.toNat) :
    ThreadInv K c
      ⟨s.cpu.push ret, .called ((s.cpu.regs .rsp).toNat - 8) ret.toNat :: s.calls⟩ := by
  have hrsp : ((s.cpu.push ret).regs .rsp).toNat = (s.cpu.regs .rsp).toNat - 8 :=
    push_rsp_eq (by omega) ret
  refine ⟨?_, ?_, ?_⟩
  · show _ ≤ ((s.cpu.push ret).regs .rsp).toNat
    omega
  · show Holds _ _ (s.cpu.push ret).mem ((s.cpu.push ret).regs .rsp).toNat
      ((s.cpu.push ret).regs .rbp).toNat _
    rw [hrsp, push_rbp_eq, push_mem_eq (by omega)]
    exact h.holds.call (by omega) ret.isLt
  · rintro x (_ | ⟨_, hx⟩) r hr
    · cases hr
      exact hret
    · exact h.rets x hx r hr

/-- **The prologue** saves the frame pointer of the caller, -/
theorem ThreadInv.pushRbp (h : ThreadInv K c s) {p ret : Nat} {calls : List Activation}
    (hcalls : s.calls = .called p ret :: calls) (hroom : K.stackLow c + 8 ≤ (s.cpu.regs .rsp).toNat)
    (hp : (s.cpu.regs .rsp).toNat = p) :
    ThreadInv K c ⟨s.cpu.push (s.cpu.regs .rbp), .saved (p - 8) ret :: calls⟩ := by
  obtain ⟨hlow, hholds, hrets⟩ := h
  rw [hcalls] at hholds hrets
  have hrsp : ((s.cpu.push (s.cpu.regs .rbp)).regs .rsp).toNat = (s.cpu.regs .rsp).toNat - 8 :=
    push_rsp_eq (by omega) _
  refine ⟨?_, ?_, inCode_replace hrets rfl⟩
  · show _ ≤ ((s.cpu.push _).regs .rsp).toNat
    omega
  · show Holds _ _ (s.cpu.push _).mem ((s.cpu.push _).regs .rsp).toNat
      ((s.cpu.push _).regs .rbp).toNat _
    rw [hrsp, push_rbp_eq, push_mem_eq (by omega), hp]
    rw [hp] at hholds
    exact hholds.save (by omega) (s.cpu.regs .rbp).isLt

/-- and links the frame to it. -/
theorem ThreadInv.movRbp (h : ThreadInv K c s) {p ret : Nat} {calls : List Activation}
    (hcalls : s.calls = .saved p ret :: calls) (hp : (s.cpu.regs .rsp).toNat = p) :
    ThreadInv K c ⟨s.cpu.setReg .rbp (s.cpu.regs .rsp), .framed p ret :: calls⟩ := by
  obtain ⟨hlow, hholds, hrets⟩ := h
  rw [hcalls] at hholds hrets
  refine ⟨hlow, ?_, inCode_replace hrets rfl⟩
  show Holds _ _ s.cpu.mem (s.cpu.regs .rsp).toNat (s.cpu.regs .rsp).toNat _
  have hframe := hholds.frame
  rw [hp] at hframe ⊢
  exact hframe

/-- **The epilogue** restores the frame pointer, -/
theorem ThreadInv.leave (h : ThreadInv K c s) {p ret : Nat} {calls : List Activation}
    (hcalls : s.calls = .framed p ret :: calls) :
    ThreadInv K c ⟨execCode load leaveCode s.cpu, .called (p + 8) ret :: calls⟩ := by
  obtain ⟨hlow, hholds, hrets⟩ := h
  rw [hcalls] at hholds hrets
  have hle := hholds.le_addr _ List.mem_cons_self
  obtain ⟨hfp, hcalled⟩ := hholds.unframe
  have hbase := hcalled.sp_le_base
  have hmain := K.mainFrame_le c
  have hrsp : (s.cpu.regs .rbp + 8).toNat = p + 8 := by
    rw [← hfp]
    exact toNat_add_slot (n := 8) (by omega)
  refine ⟨?_, ?_, inCode_replace hrets rfl⟩
  · show _ ≤ (s.cpu.regs .rbp + 8).toNat
    rw [hrsp]
    exact hlow.trans (hle.trans (Nat.le_add_right p 8))
  · show Holds _ _ s.cpu.mem (s.cpu.regs .rbp + 8).toNat
      (wordAt s.cpu.mem (s.cpu.regs .rbp)).toNat _
    rw [hrsp, toNat_wordAt, hfp]
    exact hcalled

/-- and **the return** goes back to the caller. -/
theorem ThreadInv.ret (h : ThreadInv K c s) {p ret : Nat} {calls : List Activation}
    (hcalls : s.calls = .called p ret :: calls) (hp : (s.cpu.regs .rsp).toNat = p) :
    ThreadInv K c ⟨{ s.cpu.setReg .rsp (s.cpu.regs .rsp + 8) with
      rip := wordAt s.cpu.mem (s.cpu.regs .rsp) }, calls⟩ := by
  have hrsp : (s.cpu.regs .rsp + 8).toNat = p + 8 := by
    rw [← hp]
    exact toNat_add_slot (n := 8) h.lt
  obtain ⟨hlow, hholds, hrets⟩ := h
  rw [hcalls] at hholds hrets
  refine ⟨?_, ?_, fun x hx => hrets x (List.mem_cons_of_mem _ hx)⟩
  · show _ ≤ (s.cpu.regs .rsp + 8).toNat
    omega
  · show Holds _ _ s.cpu.mem (s.cpu.regs .rsp + 8).toNat (s.cpu.regs .rbp).toNat _
    rw [hrsp]
    exact hholds.pop_return.2

/-- The entry of an interrupt does not touch the frame pointer. -/
theorem enter_rbp : (enter load isr i cpu).regs .rbp = cpu.regs .rbp := by
  obtain ⟨v, hv⟩ := enter_eq load isr (i := i) (s := cpu)
  rw [hv, setReg_regs_of_ne (by decide), setReg_regs_of_ne (by decide),
    pushes_regs_of_ne (by decide),
    swappedState_regs, pushes_regs_of_ne (by decide), setReg_regs_of_ne (by decide)]

/-- **An interrupt** leaves a frame with the registers, below the activations of the program. -/
theorem ThreadInv.interrupt (h : ThreadInv K c s) (hi : i.Matched)
    (hroom : StackRoom (K.stackLow c) (K.stackTop c) s.cpu) :
    ThreadInv K c ⟨enter load isr i s.cpu,
      .context ((enter load isr i s.cpu).regs .rdi).toNat :: s.calls⟩ := by
  have hwords := words_of_matched (s := s.cpu) hi
  obtain ⟨hframe, hmem⟩ := enter_stack load isr hroom hwords
  have hentered := entered_enter load isr (i := i) (s := s.cpu)
  have hfields := ofMemory_enter load isr hroom.frameRoom hwords
  have hhigh := hframe.high
  have hlt := (s.cpu.regs .rsp).isLt
  unfold sizeofCpuState64 at hhigh
  have hrbp : (enter load isr i s.cpu).mem.read
      (((enter load isr i s.cpu).regs .rdi).toNat + 96) 8 = (s.cpu.regs .rbp).toNat := by
    have hfield := congrArg (fun f => f.rbp.toNat) hfields
    rw [← toNat_add_slot (by omega), ← toNat_wordAt]
    exact hfield
  have hrsp : (enter load isr i s.cpu).mem.read
      (((enter load isr i s.cpu).regs .rdi).toNat + 192) 8 = (s.cpu.regs .rsp).toNat := by
    have hfield := congrArg (fun f => f.rsp.toNat) hfields
    rw [← toNat_add_slot (by omega), ← toNat_wordAt]
    exact hfield
  refine ⟨?_, ?_, ?_⟩
  · show _ ≤ ((enter load isr i s.cpu).regs .rsp).toNat
    rw [← hentered.rdi]
    exact hframe.low
  · show Holds _ _ (enter load isr i s.cpu).mem ((enter load isr i s.cpu).regs .rsp).toNat
      ((enter load isr i s.cpu).regs .rbp).toNat _
    rw [← hentered.rdi, enter_rbp]
    exact h.holds.save_context hframe.high (fun x hx => hmem x (.inr hx)) hrbp hrsp
  · rintro x (_ | ⟨_, hx⟩) r hr
    · cases hr
    · exact h.rets x hx r hr

/-- **The exit of an interrupt** takes them back. -/
theorem ThreadInv.interruptReturn (h : ThreadInv K c s) {p : Nat} {calls : List Activation}
    (hcalls : s.calls = .context p :: calls) (hp : (s.cpu.regs .rax).toNat = p) :
    ThreadInv K c ⟨ZeldaOS.leave load s.cpu, calls⟩ := by
  obtain ⟨hlow, hholds, hrets⟩ := h
  rw [hcalls] at hholds hrets
  obtain ⟨hroom, hresume⟩ := hholds.resume_context
  have hle := hholds.le_addr _ List.mem_cons_self
  have hbase := hresume.sp_le_base
  have hmain := K.mainFrame_le c
  change s.cpu.mem.read (p + 192) 8 ≤ _ at hbase
  change Holds _ _ _ (s.cpu.mem.read (p + 192) 8) (s.cpu.mem.read (p + 96) 8) _ at hresume
  change (s.cpu.regs .rsp).toNat ≤ p at hle
  change p + 208 ≤ s.cpu.mem.read (p + 192) 8 at hroom
  have hfield : ∀ k, k ≤ 192 → (wordAt s.cpu.mem (s.cpu.regs .rax + BitVec.ofNat 64 k)).toNat =
      s.cpu.mem.read (p + k) 8 := by
    intro k hk
    rw [toNat_wordAt, toNat_add_slot (by omega), hp]
  refine ⟨?_, ?_, fun x hx => hrets x (List.mem_cons_of_mem _ hx)⟩
  · show _ ≤ ((ZeldaOS.leave load s.cpu).regs .rsp).toNat
    rw [leave_eq]
    show _ ≤ (wordAt s.cpu.mem (s.cpu.regs .rax + BitVec.ofNat 64 192)).toNat
    rw [hfield 192 (Nat.le_refl _)]
    omega
  · show Holds _ _ (ZeldaOS.leave load s.cpu).mem ((ZeldaOS.leave load s.cpu).regs .rsp).toNat
      ((ZeldaOS.leave load s.cpu).regs .rbp).toNat _
    rw [leave_eq]
    show Holds _ _ s.cpu.mem (wordAt s.cpu.mem (s.cpu.regs .rax + BitVec.ofNat 64 192)).toNat
      (wordAt s.cpu.mem (s.cpu.regs .rax + BitVec.ofNat 64 96)).toNat _
    rw [hfield 192 (Nat.le_refl _), hfield 96 (by decide)]
    exact hresume

/-- **One step** of compiled code, an interrupt among them, keeps the stack. -/
theorem ThreadInv.step (h : ThreadInv K c s) (hok : CodeOk K c s e)
    (hst : codeStep load isr s e = some (u, s')) : ThreadInv K c s' := by
  cases e with
  | call ret =>
    cases hst
    exact h.call hok.1 hok.2
  | pushRbp =>
    rw [codeStep] at hst
    split at hst
    · next hcalls =>
      cases hst
      rw [CodeOk, hcalls] at hok
      exact h.pushRbp hcalls hok.1 hok.2
    · cases hst
  | movRbp =>
    rw [codeStep] at hst
    split at hst
    · next hcalls =>
      cases hst
      rw [CodeOk, hcalls] at hok
      exact h.movRbp hcalls hok
    · cases hst
  | leave =>
    rw [codeStep] at hst
    split at hst
    · next hcalls =>
      cases hst
      exact h.leave hcalls
    · cases hst
  | ret =>
    rw [codeStep] at hst
    split at hst
    · next hcalls =>
      cases hst
      rw [CodeOk, hcalls] at hok
      exact h.ret hcalls hok
    · cases hst
  | adjust v =>
    cases hst
    exact ⟨hok.1, h.holds.adjust hok.2, h.rets⟩
  | set r v =>
    cases hst
    have hrsp : (s.cpu.setReg r v).regs .rsp = s.cpu.regs .rsp := setReg_regs_of_ne (Ne.symm hok.1)
    have hrbp : (s.cpu.setReg r v).regs .rbp = s.cpu.regs .rbp := setReg_regs_of_ne (Ne.symm hok.2)
    refine ⟨?_, ?_, h.rets⟩
    · show _ ≤ ((s.cpu.setReg r v).regs .rsp).toNat
      rw [hrsp]
      exact h.low
    · show Holds _ _ s.cpu.mem ((s.cpu.setReg r v).regs .rsp).toNat
        ((s.cpu.setReg r v).regs .rbp).toNat _
      rw [hrsp, hrbp]
      exact h.holds
  | store a n v =>
    cases hst
    exact ⟨h.low, h.holds.store hok, h.rets⟩
  | interrupt i =>
    cases hst
    exact h.interrupt hok.1 hok.2
  | interruptReturn =>
    rw [codeStep] at hst
    split at hst
    · next hcalls =>
      cases hst
      rw [CodeOk, hcalls] at hok
      exact h.interruptReturn hcalls hok
    · cases hst

end

/-! ## The walk -/

section
variable {K : KernelImage} {blob lo hi last rbp frame k : Nat} {rets : List Nat} {m : Memory}

end

end ZeldaOS
