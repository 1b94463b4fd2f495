import Mathlib.Data.UInt

/-!
# Byte memories

A memory maps every address to a byte. A word of `n` bytes is stored least significant byte first
(`Memory.read`, `Memory.write`), and `Memory.fill` is the effect of `memset`. A program that keeps
its data in words reasons about them with three facts: a word reads back the value written to it
(`read_write_self`), a write elsewhere leaves its bytes alone (`write_agreeOn`), and a range of zero
bytes reads as zero (`read_eq_zero`). Everything else follows from `read_congr`: a word depends on
its own bytes only.

What a memory of zeros holds after a list of stores, which may overlap, is a function of the list:
each byte is the one last stored there (`lastStored`, `stored`), and one store more is one write
more (`stored_snoc`).
-/

namespace ZeldaOS

/-- A memory: the byte stored at each address. -/
def Memory := Nat → UInt8

namespace Memory

variable {m m' : Memory} {a b n k v : Nat}

/-- The memory of zero bytes. -/
def zero : Memory := fun _ => 0

/-- The `n`-byte little-endian word at `a`. -/
def read (m : Memory) (a : Nat) : Nat → Nat
  | 0 => 0
  | n + 1 => (m a).toNat + 256 * read m (a + 1) n

/-- The `n` bytes from `a` on. -/
def bytes (m : Memory) (a : Nat) : Nat → List UInt8
  | 0 => []
  | n + 1 => m a :: bytes m (a + 1) n

/-- Store the `n` low bytes of `v` at `a`. -/
def write (m : Memory) (a n v : Nat) : Memory :=
  fun x => if a ≤ x ∧ x < a + n then UInt8.ofNat (v / 256 ^ (x - a)) else m x

/-- Store the byte `c` in each of the `n` bytes from `a` on. -/
def fill (m : Memory) (a n : Nat) (c : UInt8) : Memory :=
  fun x => if a ≤ x ∧ x < a + n then c else m x

/-- Two memories agree on the `n` bytes from `a` on. -/
def AgreeOn (m m' : Memory) (a n : Nat) : Prop :=
  ∀ x, a ≤ x → x < a + n → m x = m' x

/-- Memories that agree on a range agree on a smaller one. -/
theorem AgreeOn.mono (h : AgreeOn m m' a n) (hb : a ≤ b) (hk : b + k ≤ a + n) :
    AgreeOn m m' b k := fun x h₁ h₂ => h x (by omega) (by omega)

/-- A word depends on its own bytes only. -/
theorem read_congr : ∀ {n a : Nat}, AgreeOn m m' a n → m.read a n = m'.read a n
  | 0, _, _ => rfl
  | n + 1, a, h => by
    rw [read, read, h a (Nat.le_refl a) (by omega), read_congr (h.mono (by omega) (by omega))]

/-- A word of a memory that is found in another one from `b` on. -/
theorem read_congr_add : ∀ {n a : Nat}, (∀ x, a ≤ x → x < a + n → m (b + x) = m' x) →
    m.read (b + a) n = m'.read a n
  | 0, _, _ => rfl
  | n + 1, a, h => by
    rw [read, read, h a (Nat.le_refl a) (by omega), Nat.add_assoc,
      read_congr_add fun x h₁ h₂ => h x (by omega) (by omega)]

/-- The bytes of a range, one by one. -/
theorem getElem?_bytes : ∀ {n a j : Nat}, j < n → (m.bytes a n)[j]? = some (m (a + j))
  | _ + 1, _, 0, _ => rfl
  | n + 1, a, j + 1, h => by
    rw [bytes, List.getElem?_cons_succ, getElem?_bytes (by omega), Nat.add_assoc, Nat.add_comm 1 j]

/-- The bytes of a range depend on the range only. -/
theorem bytes_congr : ∀ {n a : Nat}, AgreeOn m m' a n → m.bytes a n = m'.bytes a n
  | 0, _, _ => rfl
  | n + 1, a, h => by
    rw [bytes, bytes, h a (Nat.le_refl a) (by omega), bytes_congr (h.mono (by omega) (by omega))]

/-- A range of one byte more ends with that byte. -/
theorem bytes_succ : ∀ {n a : Nat}, m.bytes a (n + 1) = m.bytes a n ++ [m (a + n)]
  | 0, _ => rfl
  | n + 1, a => by
    rw [bytes, bytes_succ, bytes, List.cons_append, Nat.add_assoc, Nat.add_comm 1 n]

/-- A word is made of the word of its low bytes and the word of its high bytes. -/
theorem read_add : ∀ {n a : Nat}, m.read a (n + k) = m.read a n + 256 ^ n * m.read (a + n) k
  | 0, a => by rw [Nat.zero_add, read, Nat.zero_add, Nat.pow_zero, Nat.one_mul, Nat.add_zero]
  | n + 1, a => by
    rw [Nat.add_right_comm, read, read_add, read, Nat.pow_succ', Nat.add_right_comm a 1 n,
      Nat.add_assoc a n 1, Nat.mul_add, Nat.mul_assoc, Nat.add_assoc]

/-- A number of `n` bytes. -/
theorem read_lt (m : Memory) : ∀ a n : Nat, m.read a n < 256 ^ n
  | _, 0 => Nat.one_pos
  | a, n + 1 => by
    have hbyte := (m a).toNat_lt
    have htail := read_lt m (a + 1) n
    rw [read, Nat.pow_succ']
    omega

/-! ## Writes -/

/-- What is written, -/
theorem write_apply_of_mem (h₁ : a ≤ b) (h₂ : b < a + n) :
    m.write a n v b = UInt8.ofNat (v / 256 ^ (b - a)) := if_pos ⟨h₁, h₂⟩

/-- and what is not. -/
theorem write_apply_of_not_mem (h : b < a ∨ a + n ≤ b) : m.write a n v b = m b :=
  if_neg (by omega)

/-- A write leaves every range disjoint from it as it was. -/
theorem write_agreeOn (h : b + k ≤ a ∨ a + n ≤ b) : AgreeOn (m.write a n v) m b k :=
  fun _ _ _ => write_apply_of_not_mem (by omega)

/-- The tail of a written word is the written word of the remaining bytes. -/
theorem write_succ_agreeOn :
    AgreeOn (m.write a (n + 1) v) (m.write (a + 1) n (v / 256)) (a + 1) n := by
  intro x h₁ h₂
  rw [write_apply_of_mem (by omega) (by omega), write_apply_of_mem h₁ h₂]
  have hx : x - a = x - (a + 1) + 1 := by omega
  rw [hx, Nat.pow_succ, Nat.mul_comm, Nat.div_div_eq_div_mul]

/-- **A written word reads back**, up to its width. -/
theorem read_write_self (m : Memory) : ∀ a n v : Nat, (m.write a n v).read a n = v % 256 ^ n
  | _, 0, v => by simp [read, Nat.mod_one]
  | a, n + 1, v => by
    have hb : (m.write a (n + 1) v a).toNat = v % 256 := by
      rw [write_apply_of_mem (Nat.le_refl a) (by omega), Nat.sub_self, Nat.pow_zero, Nat.div_one,
        UInt8.toNat_ofNat']
    rw [read, hb, read_congr write_succ_agreeOn, read_write_self m (a + 1) n (v / 256),
      Nat.pow_succ', Nat.mod_mul]

/-- A second write of the same word changes nothing. -/
theorem write_write_self (m : Memory) (a n v : Nat) :
    (m.write a n v).write a n v = m.write a n v := by
  funext x
  rw [write]
  split
  · next hx => rw [write_apply_of_mem hx.1 hx.2]
  · rfl

/-! ## Fills -/

/-- The bytes that are filled, -/
theorem fill_apply_of_mem {c : UInt8} (h₁ : a ≤ b) (h₂ : b < a + n) : m.fill a n c b = c :=
  if_pos ⟨h₁, h₂⟩

/-- and those that are not. -/
theorem fill_apply_of_not_mem {c : UInt8} (h : b < a ∨ a + n ≤ b) : m.fill a n c b = m b :=
  if_neg (by omega)

/-- A fill leaves every range disjoint from it as it was. -/
theorem fill_agreeOn {c : UInt8} (h : b + k ≤ a ∨ a + n ≤ b) : AgreeOn (m.fill a n c) m b k :=
  fun _ _ _ => fill_apply_of_not_mem (by omega)

/-- **Frame of a fill.** A word disjoint from the filled range is unchanged. -/
theorem read_fill_of_disjoint {c : UInt8} (h : b + k ≤ a ∨ a + n ≤ b) :
    (m.fill a n c).read b k = m.read b k := read_congr (fill_agreeOn h)

/-- A fill of no bytes changes nothing. -/
theorem fill_zero_length (m : Memory) (a : Nat) (c : UInt8) : m.fill a 0 c = m := by
  funext x
  exact fill_apply_of_not_mem (by omega)

/-- A zero written behind a range of zeros makes the range longer. -/
theorem fill_write (m : Memory) (a n k : Nat) :
    (m.fill a n 0).write (a + n) k 0 = m.fill a (n + k) 0 := by
  funext x
  by_cases hx : a + n ≤ x ∧ x < a + n + k
  · rw [write_apply_of_mem hx.1 hx.2, fill_apply_of_mem (by omega) (by omega), Nat.zero_div]
    rfl
  · rw [write_apply_of_not_mem (by omega)]
    by_cases hx' : a ≤ x ∧ x < a + n
    · rw [fill_apply_of_mem hx'.1 hx'.2, fill_apply_of_mem (by omega) (by omega)]
    · rw [fill_apply_of_not_mem (by omega), fill_apply_of_not_mem (by omega)]

/-- Two fills by the same byte reach what one of them reaches. -/
theorem fill_fill_apply_of_mem {c : UInt8} {x : Nat}
    (h : a ≤ x ∧ x < a + n ∨ b ≤ x ∧ x < b + k) : (m.fill a n c).fill b k c x = c := by
  by_cases hb : b ≤ x ∧ x < b + k
  · exact fill_apply_of_mem hb.1 hb.2
  · rw [fill_apply_of_not_mem (by omega), fill_apply_of_mem (by omega) (by omega)]

/-- Two fills leave what neither of them reaches. -/
theorem fill_fill_apply_of_not_mem {c : UInt8} {x : Nat} (ha : x < a ∨ a + n ≤ x)
    (hb : x < b ∨ b + k ≤ x) : (m.fill a n c).fill b k c x = m x := by
  rw [fill_apply_of_not_mem hb, fill_apply_of_not_mem ha]

/-- A word of zero bytes is zero. -/
theorem read_eq_zero : ∀ {n a : Nat}, (∀ x, a ≤ x → x < a + n → m x = 0) → m.read a n = 0
  | 0, _, _ => rfl
  | n + 1, a, h => by
    rw [read, h a (Nat.le_refl a) (by omega),
      read_eq_zero fun x h₁ h₂ => h x (by omega) (by omega)]
    rfl

/-- The bytes of a word that is zero. -/
theorem apply_eq_zero_of_read : ∀ {n a x : Nat}, m.read a n = 0 → a ≤ x → x < a + n → m x = 0
  | 0, _, _, _, _, _ => by omega
  | n + 1, a, x, h, h₁, h₂ => by
    rw [read] at h
    by_cases hx : x = a
    · rw [hx]
      exact UInt8.toNat_inj.1 (show (m a).toNat = 0 by omega)
    · exact apply_eq_zero_of_read (n := n) (a := a + 1) (by omega) (by omega) (by omega)

/-! ## Stores -/

/-- The store of the `size` low bytes of `value` at `addr`. -/
structure Store where
  addr : Nat
  size : Nat
  value : Nat

/-- The addresses that a store reaches. -/
def Store.Reaches (s : Store) (x : Nat) : Prop := s.addr ≤ x ∧ x < s.addr + s.size

instance (s : Store) (x : Nat) : Decidable (s.Reaches x) := inferInstanceAs (Decidable (_ ∧ _))

/-- The byte that a store leaves at an address it reaches. -/
def Store.byte? (s : Store) (x : Nat) : Option UInt8 :=
  if s.Reaches x then some (UInt8.ofNat (s.value / 256 ^ (x - s.addr))) else none

/-- The byte last stored at an address. -/
def lastStored (h : List Store) (x : Nat) : Option UInt8 := h.reverse.findSome? fun s => s.byte? x

/-- The memory of zeros after a list of stores. -/
def stored (h : List Store) : Memory := fun x => (lastStored h x).getD 0

variable {h : List Store} {s : Store} {x : Nat}

/-- The byte stored last, with one more store, -/
theorem lastStored_snoc : lastStored (h ++ [s]) x = (s.byte? x).or (lastStored h x) := by
  rw [lastStored, List.reverse_append, List.reverse_singleton, List.singleton_append,
    List.findSome?_cons]
  cases s.byte? x <;> rfl

/-- which does not count where it does not reach. -/
theorem lastStored_snoc_of_not_reaches (hx : ¬ s.Reaches x) :
    lastStored (h ++ [s]) x = lastStored h x := by
  rw [lastStored_snoc, Store.byte?, if_neg hx, Option.none_or]

/-- One store more is one write more. -/
theorem stored_snoc : stored (h ++ [s]) x = (stored h).write s.addr s.size s.value x := by
  by_cases hx : s.Reaches x
  · rw [write_apply_of_mem hx.1 hx.2, stored, lastStored_snoc, Store.byte?, if_pos hx,
      Option.some_or, Option.getD_some]
  · rw [stored, lastStored_snoc_of_not_reaches hx]
    exact (if_neg hx).symm

end Memory

end ZeldaOS
