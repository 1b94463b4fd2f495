import ZeldaOS.Guest.TrivialPaging

/-!
# The guest's memset

`memset` of `guest/lib.c` takes the address of a source where its callers pass 0. So it copies the
bytes at address 0, one after the other, and where the destination overlaps them it goes on with the
bytes it has just copied: byte `i` of the destination becomes byte `i % dst` of the memory
(`guestMemset_apply`). The callers mean to clear the destination. They do so exactly when the bytes
that are copied are zero.
-/

namespace ZeldaOS

section
variable {m : Memory} {dst src n x : Nat}

theorem guestMemset_apply_of_not_mem (h : x < dst ∨ dst + n ≤ x) :
    guestMemset m dst src n x = m x := by
  induction n with
  | zero => rfl
  | succ n ih =>
    rw [guestMemset, Memory.write_apply_of_not_mem (by omega)]
    exact ih (by omega)

/-- **The copy from address 0** repeats the bytes below the destination. -/
theorem guestMemset_apply {i : Nat} (hi : i < n) :
    guestMemset m dst 0 n (dst + i) = m (i % dst) := by
  induction n generalizing i with
  | zero => omega
  | succ n ih =>
    rw [guestMemset]
    by_cases hin : i < n
    · rw [Memory.write_apply_of_not_mem (by omega), ih hin]
    · obtain rfl : i = n := by omega
      have hsource : guestMemset m dst 0 i (0 + i) = m (i % dst) := by
        rw [Nat.zero_add]
        by_cases hlow : i < dst ∨ dst = 0
        · -- the source has not been written yet
          rw [guestMemset_apply_of_not_mem (by omega)]
          rcases hlow with hlow | rfl
          · rw [Nat.mod_eq_of_lt hlow]
          · rw [Nat.mod_zero]
        · -- the source is a byte of the destination
          have hrest := ih (i := i - dst) (by omega)
          rw [Nat.add_sub_cancel' (by omega)] at hrest
          rw [hrest, Nat.mod_eq_sub_mod (a := i) (by omega)]
      rw [Memory.write_apply_of_mem (by omega) (by omega), hsource, Nat.sub_self, Nat.pow_zero,
        Nat.div_one, UInt8.ofNat_toNat]

/-- It clears the destination when the bytes copied are zero. -/
theorem guestMemset_eq_fill_of_zero (h : ∀ i < n, m (i % dst) = 0) :
    guestMemset m dst 0 n = m.fill dst n 0 := by
  funext x
  by_cases hx : dst ≤ x ∧ x < dst + n
  · obtain ⟨i, rfl⟩ := Nat.exists_eq_add_of_le hx.1
    rw [guestMemset_apply (by omega), Memory.fill_apply_of_mem hx.1 hx.2, h i (by omega)]
  · rw [guestMemset_apply_of_not_mem (by omega), Memory.fill_apply_of_not_mem (by omega)]

end

/-- **When memset clears.** The call `memset(dst, 0x0, n)` changes nothing but the destination, and
it zero-fills the destination exactly when the bytes from address 0 on are zero, as many as are
copied from below the destination. -/
theorem guestMemset_clears_iff (m : Memory) (dst n : Nat) :
    (∀ x, x < dst ∨ dst + n ≤ x → guestMemset m dst 0 n x = m x) ∧
    ((∀ x, dst ≤ x → x < dst + n → guestMemset m dst 0 n x = 0) ↔
      ∀ i < n, i < dst ∨ dst = 0 → m i = 0) := by
  refine ⟨fun x hx => guestMemset_apply_of_not_mem hx, fun h i hi hlow => ?_, fun h x h₁ h₂ => ?_⟩
  · have hzero := h (dst + i) (by omega) (by omega)
    rw [guestMemset_apply hi] at hzero
    rcases hlow with hlow | rfl
    · rwa [Nat.mod_eq_of_lt hlow] at hzero
    · rwa [Nat.mod_zero] at hzero
  · have hzero : ∀ i < n, m (i % dst) = 0 := by
      intro i hi
      refine h _ (Nat.lt_of_le_of_lt (Nat.mod_le i dst) hi) ?_
      rcases Nat.eq_zero_or_pos dst with hdst | hdst
      · exact .inr hdst
      · exact .inl (Nat.mod_lt i hdst)
    rw [guestMemset_eq_fill_of_zero hzero, Memory.fill_apply_of_mem h₁ h₂]

/-- A page of the pool is not cleared if the byte at address 0 is not zero. -/
theorem guestMemset_copies_page_zero :
    guestMemset (fun _ => 1) 0x200000 0 4096 0x200000 ≠ 0 := by
  have hcopy : guestMemset (fun _ => 1) 0x200000 0 4096 (0x200000 + 0) = 1 :=
    guestMemset_apply (by decide)
  rw [Nat.add_zero] at hcopy
  rw [hcopy]
  decide

end ZeldaOS
