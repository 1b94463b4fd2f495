import ZeldaOS.Lib.Machine64

/-!
# Interrupt entry and exit

Model of `x86_64/interrupt_service_routine.S`, which the guest has as well: the entries `int0` to
`int255` with `per_vector_entry`, instruction by instruction, from the delivery of the interrupt by
the processor to the call of `interrupt_handler`, and from its return to `iretq`.

The entry leaves a `struct cpu_state64` on the stack. If the entry of the vector expects an error
code exactly if the processor pushes one (`Interrupt.Matched`), then its fields are the interrupted
state (`ofMemory_enter`, `words_of_matched`); otherwise they are shifted by one word
(`words_of_unexpected`). The exit takes the registers from the structure that `interrupt_handler`
returns, and leaves its last five words to `iretq` (`atIretq_eq`, `leave_eq`).
-/

namespace ZeldaOS

open Machine

/-- `struct cpu_state64`. -/
@[ext]
structure CpuState64 where
  ds : Word
  es : Word
  fs : Word
  gs : Word
  r8 : Word
  r9 : Word
  r10 : Word
  r11 : Word
  r12 : Word
  r13 : Word
  r14 : Word
  r15 : Word
  rbp : Word
  rdi : Word
  rsi : Word
  rdx : Word
  rcx : Word
  rbx : Word
  rax : Word
  vector : Word
  errorCode : Word
  rip : Word
  cs : Word
  rflags : Word
  rsp : Word
  ss : Word
deriving DecidableEq, Repr

namespace CpuState64

/-- The fields, in the order of the structure. -/
def fields (f : CpuState64) : List Word :=
  [f.ds, f.es, f.fs, f.gs, f.r8, f.r9, f.r10, f.r11, f.r12, f.r13, f.r14, f.r15,
    f.rbp, f.rdi, f.rsi,
    f.rdx, f.rcx, f.rbx, f.rax, f.vector, f.errorCode, f.rip, f.cs, f.rflags, f.rsp, f.ss]

/-- The structure at the address `cpu`. -/
def ofMemory (m : Memory) (cpu : Word) : CpuState64 :=
  let field (j : Nat) := wordAt m (cpu + BitVec.ofNat 64 (8 * j))
  { ds := field 0
    es := field 1
    fs := field 2
    gs := field 3
    r8 := field 4
    r9 := field 5
    r10 := field 6
    r11 := field 7
    r12 := field 8
    r13 := field 9
    r14 := field 10
    r15 := field 11
    rbp := field 12
    rdi := field 13
    rsi := field 14
    rdx := field 15
    rcx := field 16
    rbx := field 17
    rax := field 18
    vector := field 19
    errorCode := field 20
    rip := field 21
    cs := field 22
    rflags := field 23
    rsp := field 24
    ss := field 25 }

end CpuState64

/-- `sizeof(struct cpu_state64)`. -/
def sizeofCpuState64 : Nat := 208

/-! ## The code -/

/-- The vectors whose entry is a `DEF_INT_ENTRY_WITH_ERRORCODE`. -/
def entryWithErrorCode (vector : Nat) : Bool := vector ∈ [8, 10, 11, 12, 13, 14]

/-- The entry of a vector, up to its jump. -/
def intEntry (vector : Nat) : List Instr :=
  if entryWithErrorCode vector then [.cli, .pushqImm (BitVec.ofNat 64 vector)]
  else [.cli, .pushqImm 0, .pushqImm (BitVec.ofNat 64 vector)]

/-- `per_vector_entry`, up to the call of `interrupt_handler`. -/
def perVectorEntry : List Instr :=
  [ .swapgs,
    .pushq .rax, .pushq .rbx, .pushq .rcx, .pushq .rdx, .pushq .rsi, .pushq .rdi, .pushq .rbp,
    .pushq .r15, .pushq .r14, .pushq .r13, .pushq .r12, .pushq .r11, .pushq .r10, .pushq .r9,
    .pushq .r8,
    .movqFromSeg .gs .rax, .pushq .rax,
    .movqFromSeg .fs .rax, .pushq .rax,
    .movqFromSeg .es .rax, .pushq .rax,
    .movqFromSeg .ds .rax, .pushq .rax,
    .movq .rsp .rdi ]

/-- `per_vector_entry`, after the call of `interrupt_handler` and up to `iretq`. -/
def perVectorRestore : List Instr :=
  [ .movq .rax .rsp,
    .popq .rax, .movqToSeg .rax .ds,
    .popq .rax, .movqToSeg .rax .es,
    .popq .rax, .movqToSeg .rax .fs,
    .popq .rax, .movqToSeg .rax .gs,
    .popq .r8, .popq .r9, .popq .r10, .popq .r11, .popq .r12, .popq .r13, .popq .r14, .popq .r15,
    .popq .rbp, .popq .rdi, .popq .rsi, .popq .rdx, .popq .rcx, .popq .rbx, .popq .rax,
    .addq 16 .rsp,
    .swapgs ]

/-- `per_vector_entry`, after the call of `interrupt_handler`. -/
def perVectorExit : List Instr := perVectorRestore ++ [.iretq]

/-- An interrupt or exception: its vector, and the error code if the processor gives one. -/
structure Interrupt where
  vector : BitVec 8
  errorCode : Option Word
deriving DecidableEq, Repr

section
variable {D : Type*} (load : SegmentLoad)

/-- The state at the call of `interrupt_handler`. -/
def enter (isr : Nat → Word) (i : Interrupt) (s : State D) : State D :=
  execCode load (intEntry i.vector.toNat ++ perVectorEntry)
    (s.deliver 0x8 (isr i.vector.toNat) i.errorCode)

/-- The state at `iretq`, from the state after the call. -/
def atIretq (t : State D) : State D := execCode load perVectorRestore t

/-- The state after `iretq`, from the state after the call. -/
def leave (t : State D) : State D := execCode load perVectorExit t

/-- The frame of an interrupt. -/
def frameOf (s : State D) (i : Interrupt) : CpuState64 where
  ds := (s.segs .ds).setWidth 64
  es := (s.segs .es).setWidth 64
  fs := (s.segs .fs).setWidth 64
  gs := (s.segs .gs).setWidth 64
  r8 := s.regs .r8
  r9 := s.regs .r9
  r10 := s.regs .r10
  r11 := s.regs .r11
  r12 := s.regs .r12
  r13 := s.regs .r13
  r14 := s.regs .r14
  r15 := s.regs .r15
  rbp := s.regs .rbp
  rdi := s.regs .rdi
  rsi := s.regs .rsi
  rdx := s.regs .rdx
  rcx := s.regs .rcx
  rbx := s.regs .rbx
  rax := s.regs .rax
  vector := i.vector.setWidth 64
  errorCode := i.errorCode.getD 0
  rip := s.rip
  cs := (s.segs .cs).setWidth 64
  rflags := s.rflags
  rsp := s.regs .rsp
  ss := (s.segs .ss).setWidth 64

/-- The processor gives an error code exactly if the entry of the vector expects one. -/
def Interrupt.Matched (i : Interrupt) : Prop :=
  i.errorCode.isSome = entryWithErrorCode i.vector.toNat

/-- The stack pointer from which the processor pushes. -/
def frameTop (s : State D) : Word := alignDown (s.regs .rsp)

/-- There is room for a frame below the stack pointer. The 8 bytes more are for an error code that
the entry does not expect. -/
def FrameRoom (s : State D) : Prop := sizeofCpuState64 + 8 + 15 ≤ (s.regs .rsp).toNat

/-! ## The way in -/

/-- The words that are on the stack at `per_vector_entry`, first one first. -/
def entryWords (s : State D) (i : Interrupt) : List Word :=
  [(s.segs .ss).setWidth 64, s.regs .rsp, s.rflags, (s.segs .cs).setWidth 64, s.rip] ++
    i.errorCode.toList ++ (if entryWithErrorCode i.vector.toNat then [] else [0]) ++
    [i.vector.setWidth 64]

/-- The general registers in the order in which `per_vector_entry` pushes them. -/
def savedRegs : List Reg :=
  [.rax, .rbx, .rcx, .rdx, .rsi, .rdi, .rbp, .r15, .r14, .r13, .r12, .r11, .r10, .r9, .r8]

/-- The segment registers in the order in which `per_vector_entry` pushes them. -/
def savedSegs : List Seg := [.gs, .fs, .es, .ds]

/-- The words that `per_vector_entry` pushes. -/
def savedWords (s : State D) : List Word :=
  savedRegs.map s.regs ++ savedSegs.map fun g => (s.segs g).setWidth 64

/-- The state after the `swapgs` of `per_vector_entry`. -/
def swappedState (isr : Nat → Word) (i : Interrupt) (s : State D) : State D :=
  let t := (s.setReg .rsp (frameTop s)).pushes (entryWords s i)
  { t with
    segs := Function.update s.segs .cs 0x8
    gsBase := t.kernelGsBase
    kernelGsBase := t.gsBase
    rip := isr i.vector.toNat
    rflags := s.rflags &&& ~~~deliveryFlags &&& ~~~interruptFlag }

variable (isr : Nat → Word) {i : Interrupt} {s t : State D}

/-- The parts of the entry: the registers, the selectors, and the argument. -/
theorem perVectorEntry_eq : perVectorEntry =
    .swapgs :: (savedRegs.map .pushq ++
      (savedSegs.flatMap (fun g => [.movqFromSeg g .rax, .pushq .rax]) ++ [.movq .rsp .rdi])) := rfl

/-- The delivery and the entry of the vector push words. -/
theorem execCode_intEntry :
    execCode load (intEntry i.vector.toNat) (s.deliver 0x8 (isr i.vector.toNat) i.errorCode) =
      { (s.setReg .rsp (frameTop s)).pushes (entryWords s i) with
        segs := Function.update s.segs .cs 0x8
        rip := isr i.vector.toNat
        rflags := s.rflags &&& ~~~deliveryFlags &&& ~~~interruptFlag } := by
  have hvector : BitVec.ofNat 64 i.vector.toNat = i.vector.setWidth 64 := by
    rw [BitVec.ofNat_toNat]
  rw [intEntry, hvector, entryWords]
  cases i.errorCode <;> cases entryWithErrorCode i.vector.toNat <;> rfl

/-- `per_vector_entry` pushes words as well, and uses `rax` for the selectors. -/
theorem enter_eq : ∃ v, enter load isr i s =
    (((swappedState isr i s).pushes (savedWords s)).setReg .rax v).setReg .rdi
      ((((swappedState isr i s).pushes (savedWords s)).setReg .rax v).regs .rsp) := by
  let u := swappedState isr i s
  have hregs : savedRegs.map u.regs = savedRegs.map s.regs := by
    refine List.map_congr_left fun r hr => ?_
    have hne : r ≠ .rsp := by
      rintro rfl
      revert hr
      decide
    have hpush : ((s.setReg .rsp (frameTop s)).pushes (entryWords s i)).regs r =
        (s.setReg .rsp (frameTop s)).regs r := pushes_regs_of_ne hne
    exact hpush.trans (setReg_regs_of_ne hne)
  obtain ⟨v, hv⟩ := execCode_pushSeg load savedSegs (u.pushes (savedRegs.map s.regs))
  have hsegs : (savedSegs.map fun g => ((u.pushes (savedRegs.map s.regs)).segs g).setWidth 64) =
      savedSegs.map fun g => (s.segs g).setWidth 64 := by
    rw [pushes_segs]
    rfl
  rw [hsegs, ← pushes_append] at hv
  refine ⟨v, ?_⟩
  rw [enter, execCode_append, execCode_intEntry, perVectorEntry_eq, execCode_cons, execCode_append,
    execCode_append]
  show execCode load [.movq .rsp .rdi] (execCode load _ (execCode load _ u)) = _
  rw [execCode_pushq (by decide), hregs, hv]
  rfl

/-- `swapgs` keeps the registers -/
theorem swappedState_regs : (swappedState isr i s).regs =
    ((s.setReg .rsp (frameTop s)).pushes (entryWords s i)).regs := by
  rw [swappedState]

/-- and memory. -/
theorem swappedState_mem : (swappedState isr i s).mem =
    ((s.setReg .rsp (frameTop s)).pushes (entryWords s i)).mem := by
  rw [swappedState]

/-- What `interrupt_handler` finds when it is called. -/
structure Entered (s : State D) (i : Interrupt) (t : State D) : Prop where
  mem : t.mem = ((s.setReg .rsp (frameTop s)).pushes (entryWords s i ++ savedWords s)).mem
  rsp : t.regs .rsp =
    ((s.setReg .rsp (frameTop s)).pushes (entryWords s i ++ savedWords s)).regs .rsp
  rdi : t.regs .rdi = t.regs .rsp
  fsBase : t.fsBase = s.fsBase
  gsBase : t.gsBase = s.kernelGsBase
  kernelGsBase : t.kernelGsBase = s.gsBase
  dev : t.dev = s.dev

/-- The state at the call of `interrupt_handler`. -/
theorem entered_enter : Entered s i (enter load isr i s) := by
  obtain ⟨v, hv⟩ := enter_eq load isr (i := i) (s := s)
  let base := s.setReg .rsp (frameTop s)
  have hmem : ((swappedState isr i s).pushes (savedWords s)).mem =
      (base.pushes (entryWords s i ++ savedWords s)).mem := by
    rw [pushes_append]
    exact pushes_mem_congr (by rw [swappedState_regs]) (swappedState_mem isr)
  have hrsp : (((swappedState isr i s).pushes (savedWords s)).setReg .rax v).regs .rsp =
      (base.pushes (entryWords s i ++ savedWords s)).regs .rsp := by
    rw [setReg_regs_of_ne (by decide), pushes_append, pushes_regs_rsp, pushes_regs_rsp,
      swappedState_regs]
  rw [hv]
  exact
    { mem := by rw [setReg_mem, setReg_mem, hmem]
      rsp := (setReg_regs_of_ne (by decide)).trans hrsp
      rdi := by rw [setReg_regs_self, setReg_regs_of_ne (by decide : Reg.rsp ≠ .rdi)]
      fsBase := by simp [swappedState]
      gsBase := by simp [swappedState]
      kernelGsBase := by simp [swappedState]
      dev := by simp [swappedState] }

/-- There is room below the aligned stack pointer too. -/
theorem FrameRoom.le_frameTop (h : FrameRoom s) : sizeofCpuState64 + 8 ≤ (frameTop s).toNat := by
  have htop := toNat_alignDown (s.regs .rsp)
  unfold FrameRoom at h
  rw [frameTop]
  omega

/-- The words on the stack are one more than a frame at most. -/
theorem length_entryWords : (entryWords s i ++ savedWords s).length ≤ 27 := by
  have hsaved : (savedWords s).length = 19 := rfl
  have hentry : (entryWords s i).length ≤ 8 := by
    rw [entryWords]
    cases i.errorCode <;> cases entryWithErrorCode i.vector.toNat <;> simp
  rw [List.length_append]
  omega

/-- **The frame.** `interrupt_handler` gets the address of the structure whose fields are on top of
the words that were pushed. -/
theorem ofMemory_enter {f : CpuState64} {rest : List Word} (hroom : FrameRoom s)
    (hwords : entryWords s i ++ savedWords s = rest ++ f.fields.reverse) :
    CpuState64.ofMemory (enter load isr i s).mem ((enter load isr i s).regs .rdi) = f := by
  have h := entered_enter load isr (i := i) (s := s)
  let base := s.setReg .rsp (frameTop s)
  have hbase : base.regs .rsp = frameTop s := setReg_regs_self
  have hlow : 8 * (rest ++ f.fields.reverse).length ≤ (base.regs .rsp).toNat := by
    have hlength := length_entryWords (i := i) (s := s)
    have htop := hroom.le_frameTop
    rw [hwords] at hlength
    rw [hbase]
    unfold sizeofCpuState64 at htop
    omega
  have hword : ∀ {j : Nat} {w : Word}, (rest ++ f.fields.reverse).reverse[j]? = some w →
      wordAt (enter load isr i s).mem
        ((enter load isr i s).regs .rdi + BitVec.ofNat 64 (8 * j)) = w := by
    intro j w hw
    rw [h.rdi, h.rsp, h.mem, hwords]
    exact wordAt_pushes hlow hw
  have hfields : (rest ++ f.fields.reverse).reverse = f.fields ++ rest.reverse := by
    rw [List.reverse_append, List.reverse_reverse]
  rw [hfields] at hword
  refine CpuState64.ext ?_ ?_ ?_ ?_ ?_ ?_ ?_ ?_ ?_ ?_ ?_ ?_ ?_ ?_ ?_ ?_ ?_ ?_ ?_ ?_
    ?_ ?_ ?_ ?_ ?_ ?_
  all_goals exact hword rfl

/-- If the error code is as expected the structure holds the interrupted registers. -/
theorem words_of_matched (hi : i.Matched) :
    entryWords s i ++ savedWords s = [] ++ (frameOf s i).fields.reverse := by
  obtain ⟨vector, errorCode⟩ := i
  have hentry : entryWithErrorCode vector.toNat = errorCode.isSome := hi.symm
  rw [entryWords, hentry]
  cases errorCode <;> rfl

/-- The frame that `interrupt_handler` sees if the processor gives an error code that the entry does
not expect: the words from `rip` on are one place off. -/
def shiftedFrame (s : State D) (i : Interrupt) (e : Word) : CpuState64 :=
  { frameOf s i with
    errorCode := 0
    rip := e
    cs := s.rip
    rflags := (s.segs .cs).setWidth 64
    rsp := s.rflags
    ss := s.regs .rsp }

/-- The words for an error code that the entry does not expect. -/
theorem words_of_unexpected {e : Word} (he : i.errorCode = some e)
    (hi : entryWithErrorCode i.vector.toNat = false) : entryWords s i ++ savedWords s =
      [(s.segs .ss).setWidth 64] ++ (shiftedFrame s i e).fields.reverse := by
  rw [entryWords, hi, he]
  rfl

/-! ## The way back -/

/-- The state that a frame describes. `swapgs` gives back the base of `gs` from before the entry;
the base that loading `gs` gives goes to `kernelGsBase`. -/
def resume (load : SegmentLoad) (f : CpuState64) (t : State D) : State D where
  regs
    | .rax => f.rax
    | .rbx => f.rbx
    | .rcx => f.rcx
    | .rdx => f.rdx
    | .rsi => f.rsi
    | .rdi => f.rdi
    | .rbp => f.rbp
    | .rsp => f.rsp
    | .r8 => f.r8
    | .r9 => f.r9
    | .r10 => f.r10
    | .r11 => f.r11
    | .r12 => f.r12
    | .r13 => f.r13
    | .r14 => f.r14
    | .r15 => f.r15
  segs
    | .cs => f.cs.setWidth 16
    | .ss => f.ss.setWidth 16
    | .ds => f.ds.setWidth 16
    | .es => f.es.setWidth 16
    | .fs => f.fs.setWidth 16
    | .gs => f.gs.setWidth 16
  fsBase := load (f.fs.setWidth 16) t.fsBase
  gsBase := t.kernelGsBase
  kernelGsBase := load (f.gs.setWidth 16) t.gsBase
  rip := f.rip
  rflags := f.rflags
  mem := t.mem
  dev := t.dev

/-- The words of a frame that are left for `iretq`. -/
def CpuState64.returnFrame (f : CpuState64) : ReturnFrame := ⟨f.rip, f.cs, f.rflags, f.rsp, f.ss⟩

/-- The parts of the exit: the selectors, the registers, and the end. -/
theorem perVectorRestore_eq : perVectorRestore =
    .movq .rax .rsp :: (savedSegs.reverse.flatMap (fun g => [.popq .rax, .movqToSeg .rax g]) ++
      (savedRegs.reverse.map .popq ++ [.addq 16 .rsp, .swapgs])) := rfl

/-- The end of the exit, with the stack pointer `k` slots above `a`: the vector and the error code
are skipped. -/
theorem execCode_exitEnd {a : Word} {k : Nat} (hrsp : t.regs .rsp = a + BitVec.ofNat 64 (8 * k)) :
    execCode load [.addq 16 .rsp, .swapgs] t =
      { t.setReg .rsp (a + BitVec.ofNat 64 (8 * (k + 2))) with
        gsBase := t.kernelGsBase
        kernelGsBase := t.gsBase } := by
  have hskip : (Instr.addq 16 .rsp).exec load t =
      t.setReg .rsp (a + BitVec.ofNat 64 (8 * (k + 2))) := by
    rw [Instr.exec, hrsp]
    exact congrArg (t.setReg .rsp) (add_slot a k 2)
  rw [execCode_cons, hskip]
  rfl

/-- **The state at `iretq`** has the registers and selectors of the frame whose address
`interrupt_handler` returned, but for those that `iretq` loads. -/
theorem atIretq_eq (t : State D) :
    atIretq load t =
      { resume load (CpuState64.ofMemory t.mem (t.regs .rax)) t with
        regs := Function.update (resume load (CpuState64.ofMemory t.mem (t.regs .rax)) t).regs .rsp
          (t.regs .rax + BitVec.ofNat 64 (8 * 21))
        segs := Function.update (Function.update
          (resume load (CpuState64.ofMemory t.mem (t.regs .rax)) t).segs .cs (t.segs .cs)) .ss
          (t.segs .ss)
        rip := t.rip
        rflags := t.rflags } := by
  let a := t.regs .rax
  have hstart : (t.setReg .rsp a).regs .rsp = a + BitVec.ofNat 64 (8 * 0) :=
    setReg_regs_self.trans (BitVec.add_zero a).symm
  obtain ⟨v, hv⟩ := execCode_popSeg load savedSegs.reverse hstart
  rw [atIretq, perVectorRestore_eq, execCode_cons, execCode_append, execCode_append, Instr.exec, hv,
    execCode_popq (a := a) (k := 4) (by decide) rfl, execCode_exitEnd load (a := a) (k := 19) rfl]
  refine State.ext (funext fun r => ?_) (funext fun g => ?_) rfl rfl rfl rfl rfl rfl rfl
  · cases r <;> rfl
  · cases g <;> rfl

/-- **The frame of `iretq`** is the last five words of that frame. -/
theorem returnFrame_atIretq (t : State D) :
    (atIretq load t).returnFrame = (CpuState64.ofMemory t.mem (t.regs .rax)).returnFrame := by
  have hrsp : (atIretq load t).regs .rsp = t.regs .rax + BitVec.ofNat 64 (8 * 21) := by
    rw [atIretq_eq]
    dsimp only
    rw [Function.update_self]
  have hmem : (atIretq load t).mem = t.mem := by
    rw [atIretq_eq]
    rfl
  rw [State.returnFrame, hrsp, hmem]
  simp only [add_slot]
  rfl

/-- **The exit** resumes the state in that frame. -/
theorem leave_eq (t : State D) :
    leave load t = resume load (CpuState64.ofMemory t.mem (t.regs .rax)) t := by
  have hleave : leave load t = Instr.iretq.exec load (atIretq load t) := execCode_append
  rw [hleave, Instr.exec, returnFrame_atIretq, atIretq_eq]
  refine State.ext (funext fun r => ?_) (funext fun g => ?_) rfl rfl rfl rfl rfl rfl rfl
  · cases r <;> rfl
  · cases g <;> rfl

end

end ZeldaOS
