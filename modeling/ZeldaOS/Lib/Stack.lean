import ZeldaOS.Lib.Memory

/-!
# Stacks of 64-bit words

A stack that grows downwards in a byte memory. `pushAll` pushes a list of words, first one first,
and `popAll` pops a number of them; the stack pointer wraps around at 2^64. Pushing writes the slots
`slots` and nothing else (`pushAll_agreeOn`), and popping gives back what was pushed, last one first
(`popAll_pushAll`).
-/

namespace ZeldaOS

namespace Stack

/-- The slot of the next push. -/
@[irreducible]
def pushSlot (sp : Nat) : Nat := (sp + (2 ^ 64 - 8)) % 2 ^ 64

/-- The slots of the next `n` pushes. -/
def slots (sp : Nat) : Nat → List Nat
  | 0 => []
  | n + 1 => pushSlot sp :: slots (pushSlot sp) n

/-- Push the words one after the other. -/
def pushAll (m : Memory) (sp : Nat) : List Nat → Memory × Nat
  | [] => (m, sp)
  | v :: vs => pushAll (m.write (pushSlot sp) 8 v) (pushSlot sp) vs

/-- Pop `n` words. -/
def popAll (m : Memory) (sp : Nat) : Nat → List Nat × Nat
  | 0 => ([], sp)
  | n + 1 =>
    let rest := popAll m ((sp + 8) % 2 ^ 64) n
    (m.read sp 8 :: rest.1, rest.2)

variable {m m' : Memory} {sp a b n k : Nat} {vs : List Nat}

/-- Away from address 0 a slot is eight bytes below the stack pointer. -/
theorem pushSlot_eq (hlow : 8 ≤ sp) (hsp : sp ≤ 2 ^ 64) : pushSlot sp = sp - 8 := by
  unfold pushSlot
  omega

/-- A slot is eight bytes below the stack pointer, or wrapped around. -/
theorem pushSlot_cases (hsp : sp < 2 ^ 64) : pushSlot sp < 2 ^ 64 ∧
    (pushSlot sp + 8 = sp ∨ (sp < 8 ∧ pushSlot sp + 8 = sp + 2 ^ 64)) := by
  unfold pushSlot
  omega

/-- The slots lie below the stack pointer, or at the end of the address space. -/
theorem mem_slots (hsp : sp < 2 ^ 64) (hn : 8 * n ≤ 2 ^ 64) (ha : a ∈ slots sp n) :
    a < 2 ^ 64 ∧ ((a + 8 ≤ sp ∧ sp ≤ a + 8 * n) ∨ (sp < 8 * n ∧ 2 ^ 64 ≤ a + 8 * n)) := by
  induction n generalizing sp with
  | zero => cases ha
  | succ n ih =>
    have hslot := pushSlot_cases hsp
    rw [slots] at ha
    rcases List.mem_cons.1 ha with rfl | ha
    · omega
    · have hrest := ih hslot.1 (by omega) ha
      omega

/-- **Frame.** A range that meets no slot is left as it was. -/
theorem pushAll_agreeOn (h : ∀ s ∈ slots sp vs.length, b + k ≤ s ∨ s + 8 ≤ b) :
    Memory.AgreeOn (pushAll m sp vs).1 m b k := by
  induction vs generalizing m sp with
  | nil => exact fun _ _ _ => rfl
  | cons v vs ih =>
    have htail := ih (m := m.write (pushSlot sp) 8 v) fun s hs => h s (List.mem_cons_of_mem _ hs)
    have hhead := h (pushSlot sp) List.mem_cons_self
    intro x h₁ h₂
    exact (htail x h₁ h₂).trans (Memory.write_agreeOn hhead x h₁ h₂)

/-- The first pushed word stays in its slot. -/
theorem read_pushAll_cons {v : Nat} (hlow : 8 * (vs.length + 1) ≤ sp) (hsp : sp < 2 ^ 64)
    (hv : v < 2 ^ 64) : (pushAll m sp (v :: vs)).1.read (pushSlot sp) 8 = v := by
  have hslot : pushSlot sp = sp - 8 := pushSlot_eq (by omega) (by omega)
  have hframe : Memory.AgreeOn (pushAll m sp (v :: vs)).1 (m.write (pushSlot sp) 8 v)
      (pushSlot sp) 8 := by
    rw [pushAll]
    refine pushAll_agreeOn fun s hs => ?_
    have hmem := mem_slots (by omega) (by omega) hs
    omega
  rw [Memory.read_congr hframe, Memory.read_write_self]
  exact Nat.mod_eq_of_lt hv

/-- Each pushed word stays in its slot. -/
theorem read_pushAll {i : Nat} (hlow : 8 * vs.length ≤ sp) (hsp : sp < 2 ^ 64) (hi : i < vs.length)
    (hv : ∀ v ∈ vs, v < 2 ^ 64) : (pushAll m sp vs).1.read (sp - 8 * (i + 1)) 8 = vs[i] := by
  induction vs generalizing m sp i with
  | nil => exact absurd hi (Nat.not_lt_zero i)
  | cons v vs ih =>
    rw [List.length_cons] at hlow hi
    have hslot : pushSlot sp = sp - 8 := pushSlot_eq (by omega) (by omega)
    cases i with
    | zero =>
      have hread := read_pushAll_cons (m := m) hlow hsp (hv v List.mem_cons_self)
      rwa [hslot] at hread
    | succ i =>
      have hi' : i < vs.length := by omega
      have hrest : (pushAll (m.write (pushSlot sp) 8 v) (sp - 8) vs).1.read
        (sp - 8 - 8 * (i + 1)) 8 =
          vs[i] := ih (by omega) (by omega) hi' fun w hw => hv w (List.mem_cons_of_mem _ hw)
      have haddr : sp - 8 * (i + 1 + 1) = sp - 8 - 8 * (i + 1) := by omega
      rw [pushAll, List.getElem_cons_succ, haddr, ← hrest, hslot]

theorem popAll_add (m : Memory) (n k sp : Nat) : popAll m sp (n + k) =
    ((popAll m sp n).1 ++ (popAll m (popAll m sp n).2 k).1, (popAll m (popAll m sp n).2 k).2) := by
  induction n generalizing sp with
  | zero => rw [Nat.zero_add]; rfl
  | succ n ih =>
    rw [Nat.add_right_comm, popAll, ih]
    rfl

/-- **Round trip.** Popping gives back the words that were pushed, and the stack pointer. -/
theorem popAll_pushAll (hlow : 8 * vs.length ≤ sp) (hsp : sp < 2 ^ 64) (hv : ∀ v ∈ vs, v < 2 ^ 64) :
    popAll (pushAll m sp vs).1 (pushAll m sp vs).2 vs.length = (vs.reverse, sp) := by
  induction vs generalizing m sp with
  | nil => rfl
  | cons v vs ih =>
    rw [List.length_cons] at hlow
    have hslot : pushSlot sp = sp - 8 := pushSlot_eq (by omega) (by omega)
    have hlow' : 8 * vs.length ≤ pushSlot sp := by omega
    have hrest := ih (m := m.write (pushSlot sp) 8 v) hlow' (by omega)
      fun w hw => hv w (List.mem_cons_of_mem _ hw)
    have hread := read_pushAll_cons (m := m) hlow hsp (hv v List.mem_cons_self)
    have hback : (pushSlot sp + 8) % 2 ^ 64 = sp := by omega
    rw [pushAll] at hread ⊢
    rw [List.length_cons, popAll_add, hrest, popAll, popAll, hread, hback, List.reverse_cons]

end Stack

end ZeldaOS
