import Mathlib.Logic.Function.Basic
import ZeldaOS.Lib.Stack

/-!
# A 64-bit machine with interrupts

The part of a 64-bit processor that an interrupt touches: the general registers, the segment
selectors with the bases of `fs` and `gs`, the instruction pointer, the flags, a byte memory and the
devices, whose states are of any type. Code is a list of instructions without jumps; the instruction
pointer is not followed through it, since only the delivery of an interrupt and `iretq` set it.

What the processor does to a segment's base when a selector is loaded is a parameter
(`SegmentLoad`): processors differ on the null selector.

An interrupt ends with `iretq`, which takes five words from the stack (`State.returnFrame`). The
processor checks the selectors among them, and raises an exception if they are not good ones.
`Instr.exec` has no such checks: it says what `iretq` does with a frame that passes them, as the
frame of a program does that runs with these selectors. What is said of other frames is said of the
words.

`State.pushes` pushes words. The words of a frame are read back where they were pushed
(`wordAt_pushes`), and nothing else changes but memory below the stack pointer
(`pushes_mem_of_not_mem`).
-/

namespace ZeldaOS.Machine

/-- A word of the machine. -/
abbrev Word := BitVec 64

/-- The general registers. -/
inductive Reg
  | rax
  | rbx
  | rcx
  | rdx
  | rsi
  | rdi
  | rbp
  | rsp
  | r8
  | r9
  | r10
  | r11
  | r12
  | r13
  | r14
  | r15
deriving DecidableEq, Repr

/-- The segment registers. -/
inductive Seg
  | cs
  | ss
  | ds
  | es
  | fs
  | gs
deriving DecidableEq, Repr

/-- An instruction, with the operands in the order of the GNU assembler. -/
inductive Instr
  | cli
  | swapgs
  | pushq (r : Reg)
  | pushqImm (v : Word)
  | popq (r : Reg)
  | movq (src dst : Reg)
  | movqFromSeg (src : Seg) (dst : Reg)
  | movqToSeg (src : Reg) (dst : Seg)
  | addq (v : Word) (dst : Reg)
  | iretq
deriving DecidableEq, Repr

/-- The base that a segment has after a selector was loaded, from the selector and the base
before. -/
abbrev SegmentLoad := BitVec 16 → Word → Word

/-- The state of the machine. -/
@[ext]
structure State (D : Type*) where
  regs : Reg → Word
  segs : Seg → BitVec 16
  fsBase : Word
  gsBase : Word
  kernelGsBase : Word
  rip : Word
  rflags : Word
  mem : Memory
  dev : D

/-- The word in memory at an address. -/
def wordAt (m : Memory) (a : Word) : Word := BitVec.ofNat 64 (m.read a.toNat 8)

/-- The interrupt flag. -/
def interruptFlag : Word := 0x200

/-- The flags that the delivery of an interrupt clears: IF, TF, NT and RF. -/
def deliveryFlags : Word := 0x14300

/-- The address below `a` that is aligned to 16 bytes. -/
def alignDown (a : Word) : Word := a &&& ~~~0xf#64

/-- Aligning clears the low four bits. -/
theorem alignDown_eq (a : Word) : alignDown a = (a >>> 4) <<< 4 := by
  rw [alignDown]
  ext i hi
  by_cases h : i < 4
  · have hlow : i = 0 ∨ i = 1 ∨ i = 2 ∨ i = 3 := by omega
    rcases hlow with rfl | rfl | rfl | rfl <;> simp
  · have hbit : (0xf#64)[i] = false := by
      rw [BitVec.getElem_eq_testBit_toNat]
      exact Nat.testBit_lt_two_pow (Nat.lt_of_lt_of_le (by decide : 15 < 2 ^ 4)
        (Nat.pow_le_pow_right (by decide) (by omega)))
    have hidx : 4 + (i - 4) = i := by omega
    rw [BitVec.getElem_and, BitVec.getElem_not, hbit, BitVec.getElem_shiftLeft]
    simpa [h, hidx] using (BitVec.getLsbD_eq_getElem hi).symm

/-- The aligned address, as a number. -/
theorem toNat_alignDown (a : Word) : (alignDown a).toNat = a.toNat / 16 * 16 := by
  have ha := a.isLt
  rw [alignDown_eq, BitVec.toNat_shiftLeft, BitVec.toNat_ushiftRight, Nat.shiftLeft_eq,
    Nat.shiftRight_eq_div_pow]
  omega

section
variable {D : Type*}

namespace State

variable (s : State D)

/-- Assign a register. -/
def setReg (r : Reg) (v : Word) : State D := { s with regs := Function.update s.regs r v }

/-- Load a segment register. Only `fs` and `gs` have a base that matters. -/
def setSeg (load : SegmentLoad) (r : Seg) (v : BitVec 16) : State D :=
  { s with
    segs := Function.update s.segs r v
    fsBase := if r = .fs then load v s.fsBase else s.fsBase
    gsBase := if r = .gs then load v s.gsBase else s.gsBase }

/-- Push a word. -/
def push (v : Word) : State D :=
  let rsp := s.regs .rsp - 8
  { s.setReg .rsp rsp with mem := s.mem.write rsp.toNat 8 v.toNat }

/-- Push words, first one first. -/
def pushes (ws : List Word) : State D := ws.foldl push s

/-- Deliver an interrupt of the same privilege level through a gate, with the error code if there is
one. The stack pointer is aligned to 16 bytes first. -/
def deliver (selector : BitVec 16) (offset : Word) (errorCode : Option Word) : State D :=
  let t := (s.setReg .rsp (alignDown (s.regs .rsp))).pushes
    ([(s.segs .ss).setWidth 64, s.regs .rsp, s.rflags, (s.segs .cs).setWidth 64, s.rip] ++
      errorCode.toList)
  { t with
    segs := Function.update t.segs .cs selector
    rip := offset
    rflags := t.rflags &&& ~~~deliveryFlags }

end State

/-- The words that `iretq` takes from the stack. -/
structure ReturnFrame where
  rip : Word
  cs : Word
  rflags : Word
  rsp : Word
  ss : Word
deriving DecidableEq, Repr

/-- The frame on top of the stack. -/
def State.returnFrame (s : State D) : ReturnFrame :=
  let slot (i : Nat) := wordAt s.mem (s.regs .rsp + BitVec.ofNat 64 (8 * i))
  ⟨slot 0, slot 1, slot 2, slot 3, slot 4⟩

/-- What an instruction does; for `iretq`, with selectors that the processor accepts. -/
def Instr.exec (load : SegmentLoad) : Instr → State D → State D
  | .cli, s => { s with rflags := s.rflags &&& ~~~interruptFlag }
  | .swapgs, s => { s with gsBase := s.kernelGsBase, kernelGsBase := s.gsBase }
  | .pushq r, s => s.push (s.regs r)
  | .pushqImm v, s => s.push v
  | .popq r, s => (s.setReg .rsp (s.regs .rsp + 8)).setReg r (wordAt s.mem (s.regs .rsp))
  | .movq src dst, s => s.setReg dst (s.regs src)
  | .movqFromSeg src dst, s => s.setReg dst ((s.segs src).setWidth 64)
  | .movqToSeg src dst, s => s.setSeg load dst ((s.regs src).setWidth 16)
  | .addq v dst, s => s.setReg dst (s.regs dst + v)
  | .iretq, s =>
    let f := s.returnFrame
    { s with
      regs := Function.update s.regs .rsp f.rsp
      segs := Function.update (Function.update s.segs .cs (f.cs.setWidth 16)) .ss (f.ss.setWidth 16)
      rip := f.rip
      rflags := f.rflags }

/-- Code without jumps. -/
def execCode (load : SegmentLoad) (code : List Instr) (s : State D) : State D :=
  code.foldl (fun s i => i.exec load s) s

variable {s : State D} {load : SegmentLoad} {r r' : Reg} {v w : Word}
  {ws ws' : List Word} {i : Instr} {p q : List Instr}

/-- An assigned register has its value. -/
@[simp] theorem setReg_regs_self : (s.setReg r v).regs r = v := Function.update_self ..

/-- The other registers keep theirs. -/
@[simp] theorem setReg_regs_of_ne (h : r' ≠ r) : (s.setReg r v).regs r' = s.regs r' :=
  Function.update_of_ne h ..

/-- The last assignment of a register counts. -/
theorem setReg_setReg : (s.setReg r v).setReg r w = s.setReg r w := by
  rw [State.setReg, State.setReg, State.setReg, Function.update_idem]

/-- Assignments of different registers commute. -/
theorem setReg_comm (h : r ≠ r') : (s.setReg r v).setReg r' w = (s.setReg r' w).setReg r v := by
  rw [State.setReg, State.setReg, State.setReg, State.setReg, Function.update_comm h]

/-- An assignment keeps memory, -/
@[simp] theorem setReg_mem : (s.setReg r v).mem = s.mem := rfl

/-- the selectors, -/
@[simp] theorem setReg_segs : (s.setReg r v).segs = s.segs := rfl

/-- the base of `fs`, -/
@[simp] theorem setReg_fsBase : (s.setReg r v).fsBase = s.fsBase := rfl

/-- the base of `gs`, -/
@[simp] theorem setReg_gsBase : (s.setReg r v).gsBase = s.gsBase := rfl

/-- the base that `swapgs` exchanges it with, -/
@[simp] theorem setReg_kernelGsBase : (s.setReg r v).kernelGsBase = s.kernelGsBase := rfl

/-- and the devices. -/
@[simp] theorem setReg_dev : (s.setReg r v).dev = s.dev := rfl

/-- No code does nothing. -/
@[simp] theorem execCode_nil : execCode load [] s = s := rfl

/-- The first instruction goes first. -/
@[simp] theorem execCode_cons : execCode load (i :: p) s = execCode load p (i.exec load s) := rfl

/-- Code runs in two parts. -/
theorem execCode_append : execCode load (p ++ q) s = execCode load q (execCode load p s) :=
  List.foldl_append

/-! ## Pushes -/

/-- No pushes. -/
@[simp] theorem pushes_nil : s.pushes [] = s := rfl

/-- The first word is pushed first. -/
theorem pushes_cons : s.pushes (w :: ws) = (s.push w).pushes ws := rfl

/-- Words are pushed in two parts. -/
theorem pushes_append : s.pushes (ws ++ ws') = (s.pushes ws).pushes ws' := List.foldl_append

/-- A push moves the stack pointer down by a word. -/
theorem push_regs_rsp : (s.push v).regs .rsp = s.regs .rsp - 8 :=
  setReg_regs_self (s := s) (r := .rsp)

/-- Pushes change the stack pointer and memory. -/
theorem pushes_eq (s : State D) (ws : List Word) : s.pushes ws =
    { s.setReg .rsp (s.regs .rsp - BitVec.ofNat 64 (8 * ws.length)) with
      mem := (s.pushes ws).mem } := by
  induction ws generalizing s with
  | nil =>
    have hzero : s.regs .rsp - BitVec.ofNat 64 (8 * ([] : List Word).length) = s.regs .rsp :=
      BitVec.sub_zero _
    rw [hzero, State.setReg, Function.update_eq_self]
    rfl
  | cons w ws ih =>
    have hsub : s.regs .rsp - 8 - BitVec.ofNat 64 (8 * ws.length) =
        s.regs .rsp - BitVec.ofNat 64 (8 * (w :: ws).length) := by
      rw [List.length_cons, Nat.mul_succ, BitVec.ofNat_add]
      generalize BitVec.ofNat 64 (8 * ws.length) = n
      show s.regs .rsp - 8#64 - n = s.regs .rsp - (n + 8#64)
      bv_omega
    rw [pushes_cons, ih, push_regs_rsp, hsub]
    refine State.ext ?_ rfl rfl rfl rfl rfl rfl rfl rfl
    exact Function.update_idem ..

/-- Pushes move the stack pointer down by their words. -/
theorem pushes_regs_rsp :
    (s.pushes ws).regs .rsp = s.regs .rsp - BitVec.ofNat 64 (8 * ws.length) := by
  rw [pushes_eq]
  exact setReg_regs_self (s := s) (r := .rsp)

/-- Pushes keep the selectors, -/
@[simp] theorem pushes_segs : (s.pushes ws).segs = s.segs := by rw [pushes_eq]; rfl

/-- the base of `fs`, -/
@[simp] theorem pushes_fsBase : (s.pushes ws).fsBase = s.fsBase := by rw [pushes_eq]; rfl

/-- the base of `gs`, -/
@[simp] theorem pushes_gsBase : (s.pushes ws).gsBase = s.gsBase := by rw [pushes_eq]; rfl

/-- the base that `swapgs` exchanges it with, -/
@[simp] theorem pushes_kernelGsBase : (s.pushes ws).kernelGsBase = s.kernelGsBase := by
  rw [pushes_eq]; rfl

/-- and the devices. -/
@[simp] theorem pushes_dev : (s.pushes ws).dev = s.dev := by rw [pushes_eq]; rfl

/-- Pushes keep the other registers. -/
theorem pushes_regs_of_ne (h : r ≠ .rsp) : (s.pushes ws).regs r = s.regs r := by
  rw [pushes_eq]
  exact setReg_regs_of_ne (s := s) h

/-- What pushes write depends on the stack pointer and memory only. -/
theorem pushes_mem_congr {t : State D} (hrsp : s.regs .rsp = t.regs .rsp) (hmem : s.mem = t.mem) :
    (s.pushes ws).mem = (t.pushes ws).mem := by
  induction ws generalizing s t with
  | nil => exact hmem
  | cons w ws ih =>
    refine ih ?_ ?_
    · rw [push_regs_rsp, push_regs_rsp, hrsp]
    · show s.mem.write (s.regs .rsp - 8).toNat 8 w.toNat =
        t.mem.write (t.regs .rsp - 8).toNat 8 w.toNat
      rw [hrsp, hmem]

/-- Pushes commute with the assignment of another register. -/
theorem pushes_setReg (h : r ≠ .rsp) : (s.setReg r v).pushes ws = (s.pushes ws).setReg r v := by
  have hrsp : (s.setReg r v).regs .rsp = s.regs .rsp := setReg_regs_of_ne (Ne.symm h)
  rw [pushes_eq (s.setReg r v), pushes_eq s, hrsp, pushes_mem_congr hrsp setReg_mem]
  refine State.ext ?_ rfl rfl rfl rfl rfl rfl rfl rfl
  exact Function.update_comm h ..

/-- Code that pushes registers. -/
theorem execCode_pushq {rs : List Reg} (h : .rsp ∉ rs) :
    execCode load (rs.map .pushq) s = s.pushes (rs.map s.regs) := by
  induction rs generalizing s with
  | nil => rfl
  | cons r rs ih =>
    rw [List.mem_cons, not_or] at h
    have hregs : rs.map (s.push (s.regs r)).regs = rs.map s.regs := by
      refine List.map_congr_left fun r' hr' => ?_
      exact setReg_regs_of_ne (s := s) fun heq => h.2 (heq ▸ hr')
    rw [List.map_cons, execCode_cons, List.map_cons, pushes_cons, Instr.exec, ih h.2, hregs]

/-- Code that pushes segment selectors by way of `rax`. -/
theorem execCode_pushSeg (load : SegmentLoad) (gs : List Seg) (s : State D) : ∃ v,
    execCode load (gs.flatMap fun g => [.movqFromSeg g .rax, .pushq .rax]) s =
      (s.pushes (gs.map fun g => (s.segs g).setWidth 64)).setReg .rax v := by
  induction gs generalizing s with
  | nil =>
    have hself : s.setReg .rax (s.regs .rax) = s := by
      rw [State.setReg, Function.update_eq_self]
    exact ⟨s.regs .rax, hself.symm⟩
  | cons g gs ih =>
    let sel : Word := (s.segs g).setWidth 64
    have hpush : execCode load [.movqFromSeg g .rax, .pushq .rax] s =
        (s.push sel).setReg .rax sel := by
      have hrax : (s.setReg .rax sel).regs .rax = sel := setReg_regs_self
      have hcomm : (s.setReg .rax sel).pushes [sel] = (s.pushes [sel]).setReg .rax sel :=
        pushes_setReg (by decide)
      rw [execCode_cons, execCode_cons, execCode_nil, Instr.exec, Instr.exec, hrax]
      exact hcomm
    obtain ⟨v, hv⟩ := ih ((s.push sel).setReg .rax sel)
    refine ⟨v, ?_⟩
    rw [List.flatMap_cons, execCode_append, hpush, hv, pushes_setReg (by decide), setReg_setReg]
    rfl

/-- Subtraction without a borrow, as numbers. -/
theorem toNat_sub_of_le {a : Word} {n : Nat} (h : n ≤ a.toNat) :
    (a - BitVec.ofNat 64 n).toNat = a.toNat - n := by
  have ha := a.isLt
  rw [BitVec.toNat_sub, BitVec.toNat_ofNat, Nat.mod_eq_of_lt (show n < 2 ^ 64 by omega)]
  omega

/-- The pushes are those of `Lib.Stack`. -/
theorem pushes_mem (h : 8 * ws.length ≤ (s.regs .rsp).toNat) : (s.pushes ws).mem =
    (Stack.pushAll s.mem (s.regs .rsp).toNat (ws.map BitVec.toNat)).1 := by
  induction ws generalizing s with
  | nil => rfl
  | cons w ws ih =>
    have hlt := (s.regs .rsp).isLt
    rw [List.length_cons] at h
    have hslot : Stack.pushSlot (s.regs .rsp).toNat = (s.regs .rsp).toNat - 8 :=
      Stack.pushSlot_eq (by omega) (by omega)
    have hnat : (s.regs .rsp - 8).toNat = (s.regs .rsp).toNat - 8 :=
      toNat_sub_of_le (n := 8) (by omega)
    have hmem : (s.push w).mem = s.mem.write (s.regs .rsp - 8).toNat 8 w.toNat := rfl
    rw [pushes_cons, ih (by rw [push_regs_rsp, hnat]; omega), push_regs_rsp, hmem, hnat,
      List.map_cons, Stack.pushAll, hslot]

/-- **Frame.** Pushes write below the stack pointer only. -/
theorem pushes_mem_of_not_mem {x : Nat} (h : 8 * ws.length ≤ (s.regs .rsp).toNat)
    (hx : x < (s.regs .rsp).toNat - 8 * ws.length ∨ (s.regs .rsp).toNat ≤ x) :
    (s.pushes ws).mem x = s.mem x := by
  have hlt := (s.regs .rsp).isLt
  have hframe : Memory.AgreeOn (s.pushes ws).mem s.mem x 1 := by
    rw [pushes_mem h]
    refine Stack.pushAll_agreeOn fun a ha => ?_
    rw [List.length_map] at ha
    have hmem := Stack.mem_slots hlt (by omega) ha
    omega
  exact hframe x (Nat.le_refl x) (Nat.lt_succ_self x)

/-- **Read back.** The word `j` slots above the stack pointer is the one pushed as the `j`-th
last. -/
theorem wordAt_pushes {j : Nat} (h : 8 * ws.length ≤ (s.regs .rsp).toNat)
    (hw : ws.reverse[j]? = some w) :
    wordAt (s.pushes ws).mem ((s.pushes ws).regs .rsp + BitVec.ofNat 64 (8 * j)) = w := by
  have hlt := (s.regs .rsp).isLt
  obtain ⟨hj, hget⟩ := List.getElem?_eq_some_iff.1 hw
  rw [List.length_reverse] at hj
  have haddr : ((s.pushes ws).regs .rsp + BitVec.ofNat 64 (8 * j)).toNat =
      (s.regs .rsp).toNat - 8 * (ws.length - 1 - j + 1) := by
    rw [pushes_regs_rsp, BitVec.toNat_add, toNat_sub_of_le h, BitVec.toNat_ofNat]
    omega
  have hvals : ∀ v ∈ ws.map BitVec.toNat, v < 2 ^ 64 := by
    intro v hv
    obtain ⟨u, -, rfl⟩ := List.mem_map.1 hv
    exact u.isLt
  have hi : ws.length - 1 - j < (ws.map BitVec.toNat).length := by
    rw [List.length_map]
    omega
  have hread := Stack.read_pushAll (m := s.mem) (by rwa [List.length_map]) hlt hi hvals
  rw [wordAt, haddr, pushes_mem h, hread, List.getElem_map, BitVec.ofNat_toNat, BitVec.setWidth_eq,
    ← List.getElem_reverse (by rwa [List.length_reverse]), hget]

/-! ## Pops -/

/-- The registers after the words from slot `k` above `a` were popped into `rs`. -/
def popped (m : Memory) (a : Word) (k : Nat) : List Reg → (Reg → Word) → Reg → Word
  | [], regs => Function.update regs .rsp (a + BitVec.ofNat 64 (8 * k))
  | r :: rs, regs => popped m a (k + 1) rs
      (Function.update regs r (wordAt m (a + BitVec.ofNat 64 (8 * k))))

/-- The state after the words from slot `k` above `a` were loaded into the segment registers
`gs`. -/
def loadSegs (load : SegmentLoad) (m : Memory) (a : Word) (k : Nat) : List Seg → State D → State D
  | [], s => s
  | g :: gs, s => loadSegs load m a (k + 1) gs
      (s.setSeg load g ((wordAt m (a + BitVec.ofNat 64 (8 * k))).setWidth 16))

/-- Slots above a slot. -/
theorem add_slot (a : Word) (k j : Nat) :
    a + BitVec.ofNat 64 (8 * k) + BitVec.ofNat 64 (8 * j) = a + BitVec.ofNat 64 (8 * (k + j)) := by
  rw [Nat.mul_add, BitVec.ofNat_add, BitVec.add_assoc]

/-- Pops do not depend on the old stack pointer in the registers. -/
theorem popped_congr {m : Memory} {a : Word} {rs : List Reg} (k : Nat) {regs regs' : Reg → Word}
    (h : ∀ r, r ≠ .rsp → regs r = regs' r) : popped m a k rs regs = popped m a k rs regs' := by
  induction rs generalizing k regs regs' with
  | nil =>
    funext r
    by_cases hr : r = .rsp
    · rw [hr, popped, popped, Function.update_self, Function.update_self]
    · rw [popped, popped, Function.update_of_ne hr, Function.update_of_ne hr, h r hr]
  | cons r rs ih =>
    refine ih (k + 1) fun r' hr' => ?_
    by_cases heq : r' = r
    · rw [heq, Function.update_self, Function.update_self]
    · rw [Function.update_of_ne heq, Function.update_of_ne heq, h r' hr']

/-- Code that pops registers. -/
theorem execCode_popq {a : Word} {k : Nat} {rs : List Reg} (h : .rsp ∉ rs)
    (hrsp : s.regs .rsp = a + BitVec.ofNat 64 (8 * k)) :
    execCode load (rs.map .popq) s = { s with regs := popped s.mem a k rs s.regs } := by
  induction rs generalizing s k with
  | nil =>
    rw [popped, ← hrsp, Function.update_eq_self]
    rfl
  | cons r rs ih =>
    rw [List.mem_cons, not_or] at h
    let s' := (s.setReg .rsp (s.regs .rsp + 8)).setReg r (wordAt s.mem (s.regs .rsp))
    have hrsp' : s'.regs .rsp = a + BitVec.ofNat 64 (8 * (k + 1)) := by
      rw [← add_slot, ← hrsp]
      exact (setReg_regs_of_ne h.1).trans setReg_regs_self
    have hregs : popped s.mem a (k + 1) rs s'.regs = popped s.mem a k (r :: rs) s.regs := by
      refine popped_congr (k + 1) fun r' hr' => ?_
      rw [← hrsp]
      by_cases heq : r' = r
      · rw [heq, Function.update_self]
        exact setReg_regs_self
      · rw [Function.update_of_ne heq]
        exact (setReg_regs_of_ne heq).trans (setReg_regs_of_ne hr')
    rw [List.map_cons, execCode_cons]
    refine (ih h.2 hrsp').trans ?_
    rw [← hregs]
    rfl

/-- Loading segment registers commutes with the assignment of a register. -/
theorem loadSegs_setReg {m : Memory} {a : Word} {gs : List Seg} (k : Nat) :
    loadSegs load m a k gs (s.setReg r v) = (loadSegs load m a k gs s).setReg r v := by
  induction gs generalizing s k with
  | nil => rfl
  | cons g gs ih =>
    rw [loadSegs, loadSegs, ← ih (k + 1)]
    rfl

/-- Code that pops segment selectors by way of `rax`. -/
theorem execCode_popSeg (load : SegmentLoad) {a : Word} {k : Nat} (gs : List Seg)
    (hrsp : s.regs .rsp = a + BitVec.ofNat 64 (8 * k)) :
    ∃ v, execCode load (gs.flatMap fun g => [.popq .rax, .movqToSeg .rax g]) s =
      ((loadSegs load s.mem a k gs s).setReg .rsp
        (a + BitVec.ofNat 64 (8 * (k + gs.length)))).setReg .rax v := by
  induction gs generalizing s k with
  | nil =>
    refine ⟨s.regs .rax, ?_⟩
    have hself : (s.setReg .rsp (s.regs .rsp)).setReg .rax (s.regs .rax) = s := by
      rw [State.setReg, State.setReg, Function.update_eq_self, Function.update_eq_self]
    exact (hrsp ▸ hself).symm
  | cons g gs ih =>
    let w := wordAt s.mem (a + BitVec.ofNat 64 (8 * k))
    let s' := (((s.setSeg load g (w.setWidth 16)).setReg .rsp
      (a + BitVec.ofNat 64 (8 * (k + 1)))).setReg .rax w)
    have hpop : execCode load [.popq .rax, .movqToSeg .rax g] s = s' := by
      have hnext : s.regs .rsp + 8 = a + BitVec.ofNat 64 (8 * (k + 1)) := by
        rw [hrsp]
        exact add_slot a k 1
      rw [execCode_cons, execCode_cons, execCode_nil, Instr.exec, hnext, hrsp]
      rfl
    have hrsp' : s'.regs .rsp = a + BitVec.ofNat 64 (8 * (k + 1)) :=
      (setReg_regs_of_ne (by decide)).trans setReg_regs_self
    obtain ⟨v, hv⟩ := ih hrsp'
    refine ⟨v, ?_⟩
    have hlength : k + 1 + gs.length = k + (g :: gs).length := by
      rw [List.length_cons]
      omega
    rw [List.flatMap_cons, execCode_append, hpop, hv, hlength, loadSegs_setReg, loadSegs_setReg,
      setReg_comm (by decide : Reg.rax ≠ .rsp), setReg_setReg, setReg_setReg]
    rfl

end

end ZeldaOS.Machine
