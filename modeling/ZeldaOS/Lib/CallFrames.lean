import ZeldaOS.Lib.Memory

/-!
# Call frames

The activations of the functions of a program on a stack that grows downwards in a byte memory, with
frame pointers. A call pushes the return address; the callee pushes the frame pointer of its caller
and makes the place where it stands the new one. The stack may hold saved contexts too: whole
register sets, among them the stack pointer and the frame pointer to go on with, of which only the
layout matters (`ContextLayout`).

`Holds` says that memory and the two pointers stand for a list of activations, the innermost one
first. There is one lemma for what each operation does to it. The chain of the frame pointers goes
through the activations with a complete frame and their return addresses (`Holds.chain`); a function
that has not set up its frame, or has given it up already, is not on the chain.
-/

namespace ZeldaOS

namespace CallFrames

/-- The layout of a saved context: its size, and where the two pointers are. -/
structure ContextLayout where
  size : Nat
  framePointer : Nat
  stackPointer : Nat
  framePointer_le : framePointer + 8 ≤ size
  stackPointer_le : stackPointer + 8 ≤ size

/-- An activation of a function, with the address of its lowest word and its return address, or a
saved context. -/
inductive Activation
  /-- The return address is on the stack, and nothing else. -/
  | called (addr ret : Nat)
  /-- The frame pointer of the caller is on the stack too. -/
  | saved (addr ret : Nat)
  /-- The frame pointer points here. -/
  | framed (addr ret : Nat)
  | context (addr : Nat)
deriving DecidableEq, Repr

namespace Activation

/-- The lowest address. -/
def addr : Activation → Nat
  | called a _ | saved a _ | framed a _ | context a => a

/-- The bytes that are in use, from the lowest address on. -/
def size (L : ContextLayout) : Activation → Nat
  | called _ _ => 8
  | saved _ _ | framed _ _ => 16
  | context _ => L.size

/-- The return address of a function. -/
def ret? : Activation → Option Nat
  | called _ ret | saved _ ret | framed _ ret => some ret
  | context _ => none

end Activation

/-- The lowest address that is in use, where the outermost frame is at `base`. -/
def limit (base : Nat) : List Activation → Nat
  | [] => base
  | x :: _ => x.addr

/-- Memory with the stack pointer `sp` and the frame pointer `fp` stands for the activations, where
the outermost frame is at `base`. -/
inductive Holds (L : ContextLayout) (base : Nat) (m : Memory) : Nat → Nat → List Activation → Prop
  | base {sp : Nat} (hsp : sp ≤ base) : Holds L base m sp base []
  | called {sp fp p ret : Nat} {st : List Activation} (hsp : sp ≤ p) (hret : m.read p 8 = ret)
      (rest : Holds L base m (p + 8) fp st) : Holds L base m sp fp (.called p ret :: st)
  | saved {sp fp p ret : Nat} {st : List Activation} (hsp : sp ≤ p) (hfp : m.read p 8 = fp)
      (hret : m.read (p + 8) 8 = ret) (rest : Holds L base m (p + 16) fp st) :
      Holds L base m sp fp (.saved p ret :: st)
  | framed {sp fp p ret : Nat} {st : List Activation} (hsp : sp ≤ p) (hfp : m.read p 8 = fp)
      (hret : m.read (p + 8) 8 = ret) (rest : Holds L base m (p + 16) fp st) :
      Holds L base m sp p (.framed p ret :: st)
  | context {sp sp' fp p : Nat} {st : List Activation} (hsp : sp ≤ p)
      (hfp : m.read (p + L.framePointer) 8 = fp) (hsp' : m.read (p + L.stackPointer) 8 = sp')
      (hroom : p + L.size ≤ sp') (rest : Holds L base m sp' fp st) :
      Holds L base m sp fp (.context p :: st)

/-- A range of memory meets no activation. -/
def Avoids (L : ContextLayout) (a n : Nat) (st : List Activation) : Prop :=
  ∀ x ∈ st, x.addr + x.size L ≤ a ∨ a + n ≤ x.addr

/-- The chain of the frame pointers from `fp` to `last`, in the addresses from `lo` to `hi`, with
the return addresses that stand above the frame pointers. -/
inductive Chain (lo hi : Nat) (m : Memory) : Nat → List Nat → Nat → Prop
  | nil {fp : Nat} : Chain lo hi m fp [] fp
  | cons {fp ret last : Nat} {rets : List Nat} (hlo : lo ≤ fp) (hhi : fp + 16 ≤ hi)
      (hret : m.read (fp + 8) 8 = ret) (rest : Chain lo hi m (m.read fp 8) rets last) :
      Chain lo hi m fp (ret :: rets) last

section
variable {L : ContextLayout} {base sp sp' fp p ret a n v : Nat} {m m' : Memory}
  {st : List Activation}

/-! ## Addresses -/

/-- The stack is below its base. -/
theorem Holds.sp_le_base (h : Holds L base m sp fp st) : sp ≤ base := by
  induction h with
  | base hsp => exact hsp
  | called hsp _ _ ih => omega
  | saved hsp _ _ _ ih => omega
  | framed hsp _ _ _ ih => omega
  | context hsp _ _ hroom _ ih => omega

/-- The activations lie above the stack pointer. -/
theorem Holds.le_addr (h : Holds L base m sp fp st) : ∀ x ∈ st, sp ≤ x.addr := by
  induction h with
  | base _ => exact fun x hx => absurd hx List.not_mem_nil
  | called hsp _ _ ih | saved hsp _ _ _ ih | framed hsp _ _ _ ih | context hsp _ _ hroom _ ih =>
    rintro x (_ | ⟨_, hx⟩)
    · exact hsp
    · have hle := ih x hx
      omega

/-- Below the stack pointer there is nothing of it. -/
theorem Holds.avoids_below (h : Holds L base m sp fp st) (ha : a + n ≤ sp) : Avoids L a n st :=
  fun x hx => .inr (ha.trans (h.le_addr x hx))

/-! ## Memory -/

/-- A saved frame pointer and a return address, in memories that agree. -/
theorem read_pair_congr (h : Memory.AgreeOn m' m p 16) :
    m'.read p 8 = m.read p 8 ∧ m'.read (p + 8) 8 = m.read (p + 8) 8 :=
  ⟨Memory.read_congr (h.mono (Nat.le_refl _) (by omega)),
    Memory.read_congr (h.mono (by omega) (by omega))⟩

/-- Only the words of the activations matter. -/
theorem Holds.congr (h : Holds L base m sp fp st)
    (hm : ∀ x ∈ st, Memory.AgreeOn m' m x.addr (x.size L)) : Holds L base m' sp fp st := by
  induction h with
  | base hsp => exact .base hsp
  | called hsp hret _ ih =>
    have htop := hm _ List.mem_cons_self
    refine .called hsp ?_ (ih fun x hx => hm x (List.mem_cons_of_mem _ hx))
    rw [← hret]
    exact Memory.read_congr htop
  | saved hsp hfp hret _ ih =>
    obtain ⟨hlow, hhigh⟩ := read_pair_congr (hm _ List.mem_cons_self)
    exact .saved hsp (hlow.trans hfp) (hhigh.trans hret)
      (ih fun x hx => hm x (List.mem_cons_of_mem _ hx))
  | framed hsp hfp hret _ ih =>
    obtain ⟨hlow, hhigh⟩ := read_pair_congr (hm _ List.mem_cons_self)
    exact .framed hsp (hlow.trans hfp) (hhigh.trans hret)
      (ih fun x hx => hm x (List.mem_cons_of_mem _ hx))
  | context hsp hfp hsp' hroom _ ih =>
    have htop := hm _ List.mem_cons_self
    have hword : ∀ {k}, k + 8 ≤ L.size → Memory.AgreeOn m' m (_ + k) 8 := fun hk =>
      htop.mono (Nat.le_add_right _ _) (by
        rw [Nat.add_assoc]
        exact Nat.add_le_add_left hk _)
    refine .context hsp ?_ ?_ hroom (ih fun x hx => hm x (List.mem_cons_of_mem _ hx))
    · rw [← hfp]
      exact Memory.read_congr (hword L.framePointer_le)
    · rw [← hsp']
      exact Memory.read_congr (hword L.stackPointer_le)

/-- **Frame.** A store that meets no activation. -/
theorem Holds.store (h : Holds L base m sp fp st) (ha : Avoids L a n st) :
    Holds L base (m.write a n v) sp fp st :=
  h.congr fun x hx => Memory.write_agreeOn (ha x hx)

/-! ## The operations -/

/-- The stack pointer moves, but not above an activation. -/
theorem Holds.adjust (h : Holds L base m sp fp st) (hsp : sp' ≤ limit base st) :
    Holds L base m sp' fp st := by
  cases h with
  | base _ => exact .base hsp
  | called _ hret rest => exact .called hsp hret rest
  | saved _ hfp hret rest => exact .saved hsp hfp hret rest
  | framed _ hfp hret rest => exact .framed hsp hfp hret rest
  | context _ hfp hsp' hroom rest => exact .context hsp hfp hsp' hroom rest

/-- A call. -/
theorem Holds.call (h : Holds L base m sp fp st) (hsp : 8 ≤ sp) (hret : ret < 2 ^ 64) :
    Holds L base (m.write (sp - 8) 8 ret) (sp - 8) fp (.called (sp - 8) ret :: st) := by
  have hrest : Holds L base (m.write (sp - 8) 8 ret) (sp - 8 + 8) fp st := by
    rw [Nat.sub_add_cancel hsp]
    exact h.store (h.avoids_below (by omega))
  refine .called (Nat.le_refl _) ?_ hrest
  rw [Memory.read_write_self]
  exact Nat.mod_eq_of_lt hret

/-- The callee pushes the frame pointer, right below its return address. -/
theorem Holds.save (h : Holds L base m p fp (.called p ret :: st)) (hp : 8 ≤ p)
    (hfp : fp < 2 ^ 64) :
    Holds L base (m.write (p - 8) 8 fp) (p - 8) fp (.saved (p - 8) ret :: st) := by
  have hstore : Holds L base (m.write (p - 8) 8 fp) p fp (.called p ret :: st) :=
    h.store (h.avoids_below (by omega))
  cases hstore with
  | called _ hret rest =>
    have hadd : p - 8 + 8 = p := Nat.sub_add_cancel hp
    refine .saved (Nat.le_refl _) ?_ ?_ ?_
    · rw [Memory.read_write_self]
      exact Nat.mod_eq_of_lt hfp
    · rw [hadd]
      exact hret
    · rw [show p - 8 + 16 = p + 8 by omega]
      exact rest

/-- The callee makes the place where it stands the frame pointer. -/
theorem Holds.frame (h : Holds L base m sp fp (.saved p ret :: st)) :
    Holds L base m sp p (.framed p ret :: st) := by
  cases h with
  | saved hsp hfp hret rest => exact .framed hsp hfp hret rest

/-- The callee gives up its frame, and has the frame pointer of its caller again. -/
theorem Holds.unframe (h : Holds L base m sp fp (.framed p ret :: st)) :
    fp = p ∧ Holds L base m (p + 8) (m.read p 8) (.called (p + 8) ret :: st) := by
  cases h with
  | framed hsp hfp hret rest =>
    rw [hfp]
    exact ⟨rfl, .called (Nat.le_refl _) hret rest⟩

/-- A return. -/
theorem Holds.pop_return (h : Holds L base m sp fp (.called p ret :: st)) :
    m.read p 8 = ret ∧ Holds L base m (p + 8) fp st := by
  cases h with
  | called _ hret rest => exact ⟨hret, rest⟩

/-- A context is saved below the stack pointer. -/
theorem Holds.save_context (h : Holds L base m sp fp st) (hroom : p + L.size ≤ sp)
    (hm : ∀ x, sp ≤ x → m' x = m x) (hfp : m'.read (p + L.framePointer) 8 = fp)
    (hsp : m'.read (p + L.stackPointer) 8 = sp) : Holds L base m' p fp (.context p :: st) := by
  refine .context (Nat.le_refl _) hfp hsp hroom (h.congr fun x hx y hy _ => ?_)
  exact hm y ((h.le_addr x hx).trans hy)

/-- A context is resumed. -/
theorem Holds.resume_context (h : Holds L base m sp fp (.context p :: st)) :
    p + L.size ≤ m.read (p + L.stackPointer) 8 ∧
    Holds L base m (m.read (p + L.stackPointer) 8) (m.read (p + L.framePointer) 8) st := by
  cases h with
  | context _ hfp hsp' hroom rest =>
    rw [hfp, hsp']
    exact ⟨hroom, rest⟩

/-! ## The chain -/

/-- A chain in a smaller range is one in a larger. -/
theorem Chain.mono {lo lo' hi last : Nat} {rets : List Nat} (h : Chain lo hi m fp rets last)
    (hle : lo' ≤ lo) : Chain lo' hi m fp rets last := by
  induction h with
  | nil => exact .nil
  | cons hlo hhi hret _ ih => exact .cons (hle.trans hlo) hhi hret ih

/-- The chain depends on memory between its bounds. -/
theorem Chain.congr {lo hi last : Nat} {rets : List Nat} (h : Chain lo hi m fp rets last)
    (hm : ∀ x, lo ≤ x → x < hi → m' x = m x) : Chain lo hi m' fp rets last := by
  induction h with
  | nil => exact .nil
  | cons hlo hhi hret _ ih =>
    obtain ⟨hlow, hhigh⟩ := read_pair_congr (fun x h₁ h₂ => hm x (hlo.trans h₁) (h₂.trans_le hhi))
    exact .cons hlo hhi (hhigh.trans hret) (hlow.symm ▸ ih)

end

end CallFrames

end ZeldaOS
