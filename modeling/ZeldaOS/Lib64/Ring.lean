import Mathlib.Data.UInt

/-!
# The byte ring

Model of `lib64/include/ring.h`, a queue of bytes in a static array. A ring of size `n` holds at
most `n - 1` bytes: it is empty when `front = rear` and full when `rear` is one slot behind `front`.

`Ring.contents` reads the ring as a queue. The loop body of `write_ring` appends to it unless the
ring is full (`Ring.contents_put`), and that of `read_ring` removes its head unless it is empty
(`Ring.contents_get`).
-/

namespace ZeldaOS

/-- `struct ring`. The slots beyond `ringSize` are not used. -/
structure Ring where
  ringSize : Nat
  front : Nat
  rear : Nat
  buffer : Nat → UInt8

namespace Ring

/-- `ring_empty`. -/
def ringEmpty (r : Ring) : Bool := r.front == r.rear

/-- `ring_full`. -/
def ringFull (r : Ring) : Bool := (r.rear + 1) % r.ringSize == r.front

/-- `ring_length`. -/
def ringLength (r : Ring) : Nat := (r.rear + r.ringSize - r.front) % r.ringSize

/-- The loop body of `write_ring`: store a byte and advance `rear`. -/
def put (r : Ring) (v : UInt8) : Ring :=
  { r with
    buffer := fun i => if i = r.rear then v else r.buffer i
    rear := (r.rear + 1) % r.ringSize }

/-- The loop body of `read_ring`, after the byte at `front` is read: advance `front`. -/
def get (r : Ring) : Ring := { r with front := (r.front + 1) % r.ringSize }

/-- `write_ring`: the number of bytes written, at most until the ring is full. -/
def writeRing (r : Ring) : List UInt8 → Nat × Ring
  | [] => (0, r)
  | v :: vs =>
    if r.ringFull then (0, r)
    else
      let rest := writeRing (r.put v) vs
      (rest.1 + 1, rest.2)

/-- `read_ring`: the bytes read, at most until the ring is empty. -/
def readRing (r : Ring) : Nat → List UInt8 × Ring
  | 0 => ([], r)
  | n + 1 =>
    if r.ringEmpty then ([], r)
    else
      let rest := readRing r.get n
      (r.buffer r.front :: rest.1, rest.2)

/-- `ring_enqueue`: 1 on success. -/
def ringEnqueue (r : Ring) (value : UInt8) : Nat × Ring := r.writeRing [value]

/-- `ring_dequeue`. -/
def ringDequeue (r : Ring) : List UInt8 × Ring := r.readRing 1

/-- `ring_peek`. -/
def ringPeek (r : Ring) : UInt8 := r.buffer r.front

/-! ## The ring as a queue -/

/-- The indices are slots of the ring. -/
structure Ok (r : Ring) : Prop where
  front_lt : r.front < r.ringSize
  rear_lt : r.rear < r.ringSize

/-- The bytes of `n` slots from slot `i` on, around the ring. -/
def slots (buffer : Nat → UInt8) (size : Nat) : Nat → Nat → List UInt8
  | _, 0 => []
  | i, n + 1 => buffer i :: slots buffer size ((i + 1) % size) n

/-- The bytes in the ring, in the order they will be read. -/
def contents (r : Ring) : List UInt8 := slots r.buffer r.ringSize r.front r.ringLength

/-- A sum below twice the size wraps around once. -/
theorem mod_wrap {x s : Nat} (h : x < 2 * s) : x % s = if x < s then x else x - s := by
  split
  · next hlt => exact Nat.mod_eq_of_lt hlt
  · next hge => rw [Nat.mod_eq_sub_mod (by omega), Nat.mod_eq_of_lt (by omega)]

/-- The slot after slot `i`. -/
theorem succ_mod {i s : Nat} (h : i < s) :
    (i + 1 < s ∧ (i + 1) % s = i + 1) ∨ (i + 1 = s ∧ (i + 1) % s = 0) := by
  rcases Nat.lt_or_eq_of_le (Nat.succ_le_of_lt h) with hlt | heq
  · exact .inl ⟨hlt, Nat.mod_eq_of_lt hlt⟩
  · exact .inr ⟨heq, by rw [← heq, Nat.mod_self]⟩

/-- There are as many slots as asked for. -/
theorem length_slots (buffer : Nat → UInt8) (size : Nat) : ∀ i n : Nat,
    (slots buffer size i n).length = n
  | _, 0 => rfl
  | i, n + 1 => by rw [slots, List.length_cons, length_slots buffer size]

/-- They depend on their own places only. -/
theorem slots_congr {b b' : Nat → UInt8} {size : Nat} : ∀ {i n : Nat}, i < size →
    (∀ j < n, b ((i + j) % size) = b' ((i + j) % size)) → slots b size i n = slots b' size i n
  | _, 0, _, _ => rfl
  | i, n + 1, hi, h => by
    have hhead := h 0 (by omega)
    rw [Nat.add_zero, Nat.mod_eq_of_lt hi] at hhead
    have htail : slots b size ((i + 1) % size) n = slots b' size ((i + 1) % size) n := by
      refine slots_congr (Nat.mod_lt _ (by omega)) fun j hj => ?_
      have := h (j + 1) (by omega)
      rwa [Nat.mod_add_mod, Nat.add_assoc, Nat.add_comm 1]
    rw [slots, slots, hhead, htail]

/-- One more slot. -/
theorem slots_succ (b : Nat → UInt8) {size : Nat} : ∀ {i : Nat} (n : Nat), i < size →
    slots b size i (n + 1) = slots b size i n ++ [b ((i + n) % size)]
  | i, 0, hi => by simp [slots, Nat.mod_eq_of_lt hi]
  | i, n + 1, hi => by
    have ih := slots_succ b n (Nat.mod_lt (i + 1) (by omega : 0 < size))
    rw [slots, ih, Nat.mod_add_mod, Nat.add_assoc, Nat.add_comm 1 n]
    rfl

section
variable {r : Ring}

/-- The length of the queue, with `rear` before or behind `front`. -/
theorem ringLength_cases (h : r.Ok) :
    (r.front ≤ r.rear ∧ r.ringLength + r.front = r.rear) ∨
      (r.rear < r.front ∧ r.ringLength + r.front = r.rear + r.ringSize) := by
  have h₁ := h.front_lt
  have h₂ := h.rear_lt
  rw [ringLength, mod_wrap (by omega)]
  split <;> omega

/-- `ring_empty` tells whether the queue is empty. -/
theorem ringEmpty_iff (h : r.Ok) : r.ringEmpty = true ↔ r.contents = [] := by
  have h₁ := h.front_lt
  have h₂ := h.rear_lt
  have hlen := ringLength_cases h
  rw [← List.length_eq_zero_iff, contents, length_slots, ringEmpty, beq_iff_eq]
  omega

/-- A full ring holds one byte less than its size. -/
theorem ringFull_iff (h : r.Ok) : r.ringFull = true ↔ r.contents.length = r.ringSize - 1 := by
  have h₁ := h.front_lt
  have h₂ := h.rear_lt
  have hlen := ringLength_cases h
  have hnext := succ_mod h₂
  rw [contents, length_slots, ringFull, beq_iff_eq]
  omega

/-- A byte is put in, -/
theorem Ok.put (h : r.Ok) (v : UInt8) : (r.put v).Ok :=
  ⟨h.front_lt, Nat.mod_lt _ (Nat.zero_lt_of_lt h.rear_lt)⟩

/-- or taken out. -/
theorem Ok.get (h : r.Ok) : r.get.Ok :=
  ⟨Nat.mod_lt _ (Nat.zero_lt_of_lt h.front_lt), h.rear_lt⟩

/-- **Writing a byte** appends it. -/
theorem contents_put (h : r.Ok) (v : UInt8) (hfull : r.ringFull = false) :
    (r.put v).contents = r.contents ++ [v] := by
  have h₁ := h.front_lt
  have h₂ := h.rear_lt
  have hnext := succ_mod h₂
  have hcases := ringLength_cases h
  rw [ringFull, beq_eq_false_iff_ne] at hfull
  have hlen : (r.put v).ringLength = r.ringLength + 1 := by
    have hcases' := ringLength_cases (h.put v)
    simp only [Ring.put] at hcases' ⊢
    omega
  have hslot : ∀ j ≤ r.ringLength, (r.front + j) % r.ringSize = r.rear ↔ j = r.ringLength := by
    intro j hj
    rw [mod_wrap (by omega)]
    split <;> omega
  have hold : slots (r.put v).buffer r.ringSize r.front r.ringLength = r.contents := by
    refine slots_congr h₁ fun j hj => ?_
    have hne := mt (hslot j (Nat.le_of_lt hj)).1 (Nat.ne_of_lt hj)
    exact if_neg hne
  have hnew : (r.put v).buffer ((r.front + r.ringLength) % r.ringSize) = v :=
    if_pos ((hslot _ (Nat.le_refl _)).2 rfl)
  rw [contents, hlen]
  exact (slots_succ _ _ h₁).trans (by rw [hold, hnew])

/-- **Reading a byte** takes the head off. -/
theorem contents_get (h : r.Ok) (hne : r.ringEmpty = false) :
    r.contents = r.ringPeek :: r.get.contents := by
  have h₁ := h.front_lt
  have h₂ := h.rear_lt
  have hnext := succ_mod h₁
  have hcases := ringLength_cases h
  have hlen : r.ringLength = r.get.ringLength + 1 := by
    rw [ringEmpty, beq_eq_false_iff_ne] at hne
    have hcases' := ringLength_cases h.get
    simp only [Ring.get] at hcases' ⊢
    omega
  rw [contents, hlen]
  rfl

/-! ## Single bytes -/

/-- The empty ring of a given size. -/
def empty (size : Nat) : Ring := ⟨size, 0, 0, fun _ => 0⟩

/-- The empty ring is well formed, -/
theorem Ok.empty {size : Nat} (h : 0 < size) : (Ring.empty size).Ok := ⟨h, h⟩

/-- and has no contents. -/
theorem contents_empty {size : Nat} (h : 0 < size) : (Ring.empty size).contents = [] :=
  (ringEmpty_iff (.empty h)).1 rfl

/-- A full ring takes no byte, -/
theorem ringEnqueue_of_full (v : UInt8) (hf : r.ringFull = true) : r.ringEnqueue v = (0, r) := by
  rw [ringEnqueue, writeRing, if_pos hf]

/-- and another one takes it. -/
theorem ringEnqueue_of_not_full (v : UInt8) (hf : r.ringFull = false) :
    r.ringEnqueue v = (1, r.put v) := by
  rw [ringEnqueue, writeRing, if_neg (by simp [hf])]
  rfl

/-- An empty ring gives no byte, -/
theorem ringDequeue_of_empty (he : r.ringEmpty = true) : r.ringDequeue = ([], r) := by
  rw [ringDequeue, readRing, if_pos he]

/-- and another one gives its first. -/
theorem ringDequeue_of_not_empty (he : r.ringEmpty = false) :
    r.ringDequeue = ([r.ringPeek], r.get) := by
  rw [ringDequeue, readRing, if_neg (by simp [he])]
  rfl

/-- The ring stays well formed. -/
theorem Ok.ringDequeue (h : r.Ok) : r.ringDequeue.2.Ok := by
  cases he : r.ringEmpty with
  | true => rwa [ringDequeue_of_empty he]
  | false => rw [ringDequeue_of_not_empty he]; exact h.get

/-- Taking a byte out drops the head of the queue. -/
theorem contents_ringDequeue (h : r.Ok) : r.ringDequeue.2.contents = r.contents.tail := by
  cases he : r.ringEmpty with
  | true => rw [ringDequeue_of_empty he, (ringEmpty_iff h).1 he, List.tail_nil]
  | false => rw [ringDequeue_of_not_empty he, contents_get h he, List.tail_cons]

end

end Ring

end ZeldaOS
