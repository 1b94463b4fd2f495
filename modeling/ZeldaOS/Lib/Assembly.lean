import Mathlib.Logic.Function.Basic
import ZeldaOS.Lib.Memory

/-!
# A 32-bit assembly language

Syntax and meaning of the part of the 32-bit instruction set that moves double words, with the
operands in the order of the GNU assembler (source, then destination), and of loops that end with
the `loop` instruction. The flags are left out, since none of these instructions depends on them.

`Asm.run` executes a program. It is followed instruction by instruction (`Asm.run_instr`); for a
loop there is the rule of an invariant that is indexed by the number of rounds (`Asm.run_loop`).
-/

namespace ZeldaOS.Asm

/-- The registers. -/
inductive Reg
  | eax
  | ecx
  | edx
  | ebx
  | esp
  | ebp
  | esi
  | edi
deriving DecidableEq, Repr

/-- An operand: an immediate value, a register, or the double word at a displacement from a
register. -/
inductive Operand
  | imm (v : Nat)
  | reg (r : Reg)
  | mem (disp : Nat) (base : Reg)
deriving DecidableEq, Repr

/-- An instruction without a jump. -/
inductive Instr
  | movl (src dst : Operand)
  | addl (src dst : Operand)
  | andl (src dst : Operand)
  | orl (src dst : Operand)
  | xorl (src dst : Operand)
  | pushal
  | popal
  | ret
deriving DecidableEq, Repr

/-- A statement: an instruction, or a loop, whose body is followed by `loop` to its start. -/
inductive Stmt
  | instr (i : Instr)
  | loop (body : List Instr)
deriving DecidableEq, Repr

/-- The state of the machine. -/
structure State where
  regs : Reg → Nat
  mem : Memory

namespace State

variable (s : State)

/-- Assign a register. -/
def setReg (r : Reg) (v : Nat) : State := { s with regs := Function.update s.regs r v }

/-- The address of an operand in memory. -/
def addr (disp : Nat) (base : Reg) : Nat := (s.regs base + disp) % 2 ^ 32

/-- The value of an operand. -/
def value : Operand → Nat
  | .imm v => v
  | .reg r => s.regs r
  | .mem disp base => s.mem.read (s.addr disp base) 4

/-- Assign an operand. An immediate value is no destination. -/
def assign : Operand → Nat → State
  | .imm _, _ => s
  | .reg r, v => s.setReg r v
  | .mem disp base, v => { s with mem := s.mem.write (s.addr disp base) 4 v }

/-- Push a double word. -/
def push (v : Nat) : State :=
  let esp := (s.regs .esp + (2 ^ 32 - 4)) % 2 ^ 32
  { s.setReg .esp esp with mem := s.mem.write esp 4 v }

/-- Pop a double word into a register. -/
def pop (r : Reg) : State :=
  (s.setReg r (s.mem.read (s.regs .esp) 4)).setReg .esp ((s.regs .esp + 4) % 2 ^ 32)

end State

/-- The registers in the order in which `pushal` pushes them. -/
def pushOrder : List Reg := [.eax, .ecx, .edx, .ebx, .esp, .ebp, .esi, .edi]

/-- What an instruction does. `pushal` pushes the registers as they are before it, and `popal` takes
them back but for the stack pointer; `ret` pops the address to return to. -/
def Instr.exec : Instr → State → State
  | .movl src dst, s => s.assign dst (s.value src)
  | .addl src dst, s => s.assign dst ((s.value dst + s.value src) % 2 ^ 32)
  | .andl src dst, s => s.assign dst (s.value dst &&& s.value src)
  | .orl src dst, s => s.assign dst (s.value dst ||| s.value src)
  | .xorl src dst, s => s.assign dst (s.value dst ^^^ s.value src)
  | .pushal, s => pushOrder.foldl (fun t r => t.push (s.regs r)) s
  | .popal, s =>
    pushOrder.reverse.foldl (fun t r =>
      if r = .esp then t.setReg .esp ((t.regs .esp + 4) % 2 ^ 32) else t.pop r) s
  | .ret, s => s.setReg .esp ((s.regs .esp + 4) % 2 ^ 32)

/-- Straight-line code. -/
def execBlock (block : List Instr) (s : State) : State := block.foldl (fun s i => i.exec s) s

/-- The count that `loop` leaves in `ecx`. -/
def countDown (s : State) : State := s.setReg .ecx ((s.regs .ecx + (2 ^ 32 - 1)) % 2 ^ 32)

/-- A loop, for at most `fuel` rounds. -/
def loopFrom (body : List Instr) : Nat → State → Option State
  | 0, _ => none
  | fuel + 1, s =>
    let s := countDown (execBlock body s)
    if s.regs .ecx = 0 then some s else loopFrom body fuel s

/-- What a statement does. A loop that leaves `ecx` alone takes at most `2 ^ 32` rounds. -/
def Stmt.exec : Stmt → State → Option State
  | .instr i, s => some (i.exec s)
  | .loop body, s => loopFrom body (2 ^ 32) s

/-- A program. -/
def run : List Stmt → State → Option State
  | [], s => some s
  | st :: p, s => (st.exec s).bind (run p)

section
variable {s s' : State} {r r' : Reg} {v n : Nat} {i : Instr} {p : List Stmt} {body : List Instr}

@[simp] theorem setReg_regs_self : (s.setReg r v).regs r = v := Function.update_self ..

@[simp] theorem setReg_regs_of_ne (h : r' ≠ r) : (s.setReg r v).regs r' = s.regs r' :=
  Function.update_of_ne h ..

@[simp] theorem setReg_mem : (s.setReg r v).mem = s.mem := rfl

theorem run_instr : run (.instr i :: p) s = run p (i.exec s) := by
  rw [run, Stmt.exec, Option.bind_some]

/-- The rounds of a loop with the count `n - k` in `ecx` before round `k`. -/
theorem loopFrom_inv {fuel k : Nat} {Inv : Nat → State → Prop}
    (hkeep : ∀ s, (execBlock body s).regs .ecx = s.regs .ecx)
    (hstep : ∀ k s, k < n → Inv k s → Inv (k + 1) (countDown (execBlock body s)))
    (hn : n ≤ 2 ^ 32 - 1) (hk : k < n) (hfuel : n - k ≤ fuel) (hcount : s.regs .ecx = n - k)
    (hinv : Inv k s) : ∃ s', loopFrom body fuel s = some s' ∧ Inv n s' := by
  induction fuel generalizing k s with
  | zero => omega
  | succ fuel ih =>
    have hdown : (countDown (execBlock body s)).regs .ecx = n - (k + 1) := by
      rw [countDown, setReg_regs_self, hkeep, hcount]
      omega
    rw [loopFrom]
    by_cases hlast : k + 1 = n
    · refine ⟨_, if_pos (by rw [hdown]; omega), ?_⟩
      rw [← hlast]
      exact hstep k s hk hinv
    · rw [if_neg (by rw [hdown]; omega)]
      exact ih (by omega) (by omega) hdown (hstep k s hk hinv)

/-- **The rule for loops.** A body that leaves `ecx` alone is executed as many times as `ecx`
says. -/
theorem run_loop (Inv : Nat → State → Prop)
    (hkeep : ∀ s, (execBlock body s).regs .ecx = s.regs .ecx)
    (hstep : ∀ k s, k < n → Inv k s → Inv (k + 1) (countDown (execBlock body s)))
    (hcount : s.regs .ecx = n) (hpos : 0 < n) (hn : n ≤ 2 ^ 32 - 1) (hinv : Inv 0 s) :
    ∃ s', run (.loop body :: p) s = run p s' ∧ Inv n s' := by
  have hfuel : n - 0 ≤ 2 ^ 32 := by omega
  obtain ⟨s', heq, hend⟩ := loopFrom_inv hkeep hstep hn hpos hfuel hcount hinv
  refine ⟨s', ?_, hend⟩
  rw [run, Stmt.exec, heq, Option.bind_some]

/-! ## The stack -/

/-- `popal` does not write memory. -/
theorem popal_mem (s : State) : (Instr.popal.exec s).mem = s.mem := by
  have hfold : ∀ (rs : List Reg) (t : State),
      (rs.foldl (fun t r =>
        if r = .esp then t.setReg .esp ((t.regs .esp + 4) % 2 ^ 32) else t.pop r) t).mem =
          t.mem := by
    intro rs
    induction rs with
    | nil => exact fun _ => rfl
    | cons r rs ih =>
      intro t
      rw [List.foldl_cons, ih]
      split
      · exact setReg_mem
      · rw [State.pop, setReg_mem, setReg_mem]
  exact hfold _ s

/-- Pushing writes below the stack pointer only. -/
theorem foldl_push_mem {f : Reg → Nat} {rs : List Reg} {t : State} {x : Nat}
    (hesp : 4 * rs.length ≤ t.regs .esp) (hlt : t.regs .esp < 2 ^ 32)
    (hx : x < t.regs .esp - 4 * rs.length ∨ t.regs .esp ≤ x) :
    (rs.foldl (fun t r => t.push (f r)) t).mem x = t.mem x := by
  induction rs generalizing t with
  | nil => rfl
  | cons r rs ih =>
    rw [List.length_cons] at hesp hx
    have hpush : (t.push (f r)).regs .esp = t.regs .esp - 4 := by
      rw [State.push]
      dsimp only
      rw [setReg_regs_self]
      omega
    rw [List.foldl_cons, ih (by omega) (by omega) (by omega), State.push]
    dsimp only
    rw [Memory.write_apply_of_not_mem (by omega)]

/-- **The frame of `pushal`** is the 32 bytes below the stack pointer. -/
theorem pushal_mem_of_not_mem {x : Nat} (hesp : 32 ≤ s.regs .esp) (hlt : s.regs .esp < 2 ^ 32)
    (hx : x < s.regs .esp - 32 ∨ s.regs .esp ≤ x) : (Instr.pushal.exec s).mem x = s.mem x := by
  have hlen : 4 * pushOrder.length = 32 := rfl
  rw [Instr.exec, foldl_push_mem (by rwa [hlen]) hlt (by rwa [hlen])]

end

end ZeldaOS.Asm
