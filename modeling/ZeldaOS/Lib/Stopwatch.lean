import Mathlib.Data.List.Chain
import Mathlib.Order.Basic

/-!
# Stopwatches

A clock is read now and then, and some readings give an alarm. An alarm is due when the time since
the last alarm (since the first reading, if there was none) is no longer short: `NoneMissed` says
that every alarm that is due is given. A watch that every reading restarts compares each reading
with the one before it (`Restarted`), and so it forgets the time between an alarm and the reading
before. `noneMissed_iff` says when this does no harm: when no stretch of readings, each a short time
after the one before it, takes a long time altogether (`StretchesShort`).

A watch that only an alarm restarts gives exactly the alarms that are due (`Exact`). So its alarms
are a long time apart, and there are only so many of them (`Exact.count_le`).
-/

namespace ZeldaOS

section
variable {α : Type*}

/-- The reading that time is counted from: the last one with an alarm, or the first one. -/
def reference (readings : List (α × Bool)) : Option α :=
  ((readings.reverse.find? Prod.snd).or readings.head?).map Prod.fst

/-- Every reading a long time after the reference gives an alarm. -/
def NoneMissed (short : α → α → Prop) (readings : List (α × Bool)) : Prop :=
  ∀ before x after, readings = before ++ x :: after →
    ∀ r ∈ reference before, ¬ short r x.1 → x.2 = true

/-- A reading gives an alarm if it comes a long time after the reading before it. -/
def Restarted (short : α → α → Prop) (readings : List (α × Bool)) : Prop :=
  readings.IsChain fun x y => y.2 = true ↔ ¬ short x.1 y.1

/-- A stretch of readings, each a short time after the one before it, takes a short time. -/
def StretchesShort (short : α → α → Prop) (ts : List α) : Prop :=
  ∀ before a mid b after, ts = before ++ a :: (mid ++ b :: after) →
    (a :: (mid ++ [b])).IsChain short → short a b

/-- A reading gives an alarm if and only if it comes a long time after the reference. -/
def Exact (short : α → α → Prop) (readings : List (α × Bool)) : Prop :=
  ∀ before x after, readings = before ++ x :: after →
    (x.2 = true ↔ ∃ r ∈ reference before, ¬ short r x.1)

variable {short : α → α → Prop} {readings ws : List (α × Bool)} {x : α × Bool}

theorem reference_eq_none_iff : reference readings = none ↔ readings = [] := by
  cases readings with
  | nil => exact iff_of_true rfl rfl
  | cons x xs => simp [reference]

theorem reference_snoc : reference (readings ++ [x]) =
    if x.2 = true then some x.1 else (reference readings).or (some x.1) := by
  rw [reference, List.reverse_append, List.reverse_singleton, List.singleton_append,
    List.find?_cons]
  cases hx : x.2 with
  | true => simp
  | false => cases readings <;> simp [reference]

/-- Readings without an alarm leave the reference as it is. -/
theorem reference_append (hne : readings ≠ []) (hws : ∀ w ∈ ws, w.2 = false) :
    reference (readings ++ ws) = reference readings := by
  have hfind : ws.reverse.find? Prod.snd = none := by simpa using hws
  rw [reference, List.reverse_append, List.find?_append, hfind, Option.none_or,
    List.head?_append_of_ne_nil _ hne, reference]

/-- There is no alarm behind the reference. -/
theorem exists_of_reference {r : α} (h : reference readings = some r) :
    ∃ xs w ws, readings = xs ++ w :: ws ∧ w.1 = r ∧ ∀ v ∈ ws, v.2 = false := by
  induction readings using List.reverseRecOn with
  | nil => cases h
  | append_singleton readings x ih =>
    have hlast : x.1 = r → ∃ xs w ws, readings ++ [x] = xs ++ w :: ws ∧ w.1 = r ∧
      ∀ v ∈ ws, v.2 = false :=
      fun hx => ⟨readings, x, [], rfl, hx, by simp⟩
    rw [reference_snoc] at h
    cases hx : x.2 with
    | true => exact hlast (Option.some.inj (by simpa [hx] using h))
    | false =>
      rw [if_neg (by simp [hx])] at h
      cases hr : reference readings with
      | none => exact hlast (Option.some.inj (by simpa [hr] using h))
      | some r' =>
        obtain rfl : r' = r := Option.some.inj (by simpa [hr] using h)
        obtain ⟨xs, w, ws, rfl, hw, hws⟩ := ih hr
        refine ⟨xs, w, ws ++ [x], by simp, hw, ?_⟩
        rintro v hv
        rcases List.mem_append.1 hv with hv | hv
        · exact hws v hv
        · rwa [List.mem_singleton.1 hv]

/-- The reference is not later than the last reading. -/
theorem exists_reference_le [Preorder α]
    (h : ((readings ++ [x]).map Prod.fst).Pairwise (· ≤ ·)) :
    ∃ r, reference (readings ++ [x]) = some r ∧ r ≤ x.1 := by
  rw [reference_snoc]
  split
  · exact ⟨x.1, rfl, le_refl _⟩
  · cases hr : reference readings with
    | none => exact ⟨x.1, rfl, le_refl _⟩
    | some r =>
      obtain ⟨xs, w, ws, rfl, rfl, -⟩ := exists_of_reference hr
      rw [List.map_append, List.pairwise_append] at h
      exact ⟨w.1, rfl, h.2.2 w.1 (by simp) x.1 (by simp)⟩

/-- A stretch without an alarm is one of short steps. -/
theorem Restarted.isChain_iff (h : Restarted short (x :: ws)) :
    ((x :: ws).map Prod.fst).IsChain short ↔ ∀ w ∈ ws, w.2 = false := by
  induction ws generalizing x with
  | nil => simp
  | cons w ws ih =>
    obtain ⟨hxw, hrest⟩ := List.isChain_cons_cons.1 h
    have hstep : short x.1 w.1 ↔ w.2 = false := by
      rw [← Bool.not_eq_true, hxw, not_not]
    rw [List.map_cons, List.map_cons, List.isChain_cons_cons, hstep, ← List.map_cons, ih hrest,
      List.forall_mem_cons]

/-- **When a watch that every reading restarts misses no alarm.** -/
theorem Restarted.noneMissed_iff [Preorder α] (hmono : ∀ a b c, a ≤ b → short a c → short b c)
    (hts : (readings.map Prod.fst).Pairwise (· ≤ ·)) (h : Restarted short readings) :
    NoneMissed short readings ↔ StretchesShort short (readings.map Prod.fst) := by
  constructor
  · intro hnone before a mid b after heq hchain
    obtain ⟨xs, tail₁, rfl, -, h₁⟩ := List.map_eq_append_iff.1 heq
    obtain ⟨x, tail₂, rfl, rfl, h₂⟩ := List.map_eq_cons_iff.1 h₁
    obtain ⟨ws, tail₃, rfl, rfl, h₃⟩ := List.map_eq_append_iff.1 h₂
    obtain ⟨y, zs, rfl, rfl, -⟩ := List.map_eq_cons_iff.1 h₃
    have hsplit : xs ++ x :: (ws ++ y :: zs) = xs ++ (x :: (ws ++ [y]) ++ zs) := by simp
    rw [hsplit] at h
    have hquiet := (Restarted.isChain_iff h.right_of_append.left_of_append).1
      (by simpa using hchain)
    -- the stretch has no alarm, so its time is counted from its first reading or from an earlier
    -- one
    have hbefore : ((xs ++ [x]).map Prod.fst).Pairwise (· ≤ ·) := by
      refine hts.sublist (List.Sublist.map _ ?_)
      simp
    obtain ⟨r, hr, hle⟩ := exists_reference_le hbefore
    have href : reference (xs ++ x :: ws) = some r := by
      rw [List.append_cons, reference_append (by simp) fun w hw => hquiet w (by simp [hw]), hr]
    refine hmono r x.1 y.1 hle (by_contra fun hlong => ?_)
    have halarm := hnone (xs ++ x :: ws) y zs (by simp) r href hlong
    rw [hquiet y (by simp)] at halarm
    cases halarm
  · rintro hshort before y after rfl r hr hlong
    by_contra hy
    obtain ⟨xs, w, ws, rfl, rfl, hws⟩ := exists_of_reference hr
    have hsplit : xs ++ w :: ws ++ y :: after = xs ++ (w :: (ws ++ [y]) ++ after) := by simp
    rw [hsplit] at h
    have hquiet : ∀ v ∈ ws ++ [y], v.2 = false := by
      intro v hv
      rcases List.mem_append.1 hv with hv | hv
      · exact hws v hv
      · rw [List.mem_singleton.1 hv, Bool.eq_false_iff]
        exact hy
    have hchain := (Restarted.isChain_iff h.right_of_append.left_of_append).2 hquiet
    exact hlong (hshort (xs.map Prod.fst) w.1 (ws.map Prod.fst) y.1 (after.map Prod.fst) (by simp)
      (by simpa using hchain))

/-! ## Exact watches -/

theorem exact_nil : Exact short [] := by
  intro before x after heq
  cases before <;> cases heq

/-- One more reading of an exact watch. -/
theorem Exact.snoc (h : Exact short readings)
    (hx : x.2 = true ↔ ∃ r ∈ reference readings, ¬ short r x.1) :
    Exact short (readings ++ [x]) := by
  intro before y after heq
  rcases List.eq_nil_or_concat after with rfl | ⟨after', z, rfl⟩
  · obtain ⟨rfl, hy⟩ := List.append_inj' heq rfl
    cases hy
    exact hx
  · rw [List.concat_eq_append, ← List.cons_append, ← List.append_assoc] at heq
    exact h before y after' (List.append_inj' heq rfl).1

theorem Exact.init (h : Exact short (readings ++ [x])) : Exact short readings := by
  rintro before y after rfl
  exact h before y (after ++ [x]) (by simp)

/-- **The alarms of an exact watch are a long time apart.** Where a long time is at least `d` on the
scale `f`, each alarm takes the reference `d` further from the first reading. -/
theorem Exact.count_le {f : α → Nat} {d : Nat} (hd : ∀ a b, ¬ short a b → f a + d ≤ f b)
    (h : Exact short readings) {first r : α} (hfirst : (readings.map Prod.fst).head? = some first)
    (hr : reference readings = some r) : f first + d * readings.countP Prod.snd ≤ f r := by
  induction readings using List.reverseRecOn generalizing r with
  | nil => cases hr
  | append_singleton readings x ih =>
    have hx := h readings x [] rfl
    rw [reference_snoc] at hr
    rw [List.countP_append, List.countP_singleton]
    cases hprev : reference readings with
    | none =>
      -- the first reading gives no alarm
      obtain rfl := reference_eq_none_iff.1 hprev
      have hquiet : ¬ x.2 = true := fun halarm => by
        obtain ⟨r', hmem, -⟩ := hx.1 halarm
        cases hmem
      rw [if_neg hquiet, hprev, Option.none_or] at hr
      cases hfirst
      cases hr
      rw [if_neg hquiet, List.countP_nil]
      exact Nat.le_refl _
    | some r' =>
      have hne : readings ≠ [] := by
        rintro rfl
        cases hprev
      have hfirst' : (readings.map Prod.fst).head? = some first := by
        rwa [List.map_append, List.head?_append_of_ne_nil _ (by simpa using hne)] at hfirst
      have hle := ih h.init hfirst' hprev
      rw [hprev] at hx hr
      by_cases halarm : x.2 = true
      · rw [if_pos halarm] at hr
        obtain ⟨r'', hmem, hlong⟩ := hx.1 halarm
        cases hmem
        cases hr
        have hstep := hd r' x.1 hlong
        rw [if_pos halarm, Nat.mul_add]
        omega
      · rw [if_neg halarm] at hr
        cases hr
        rw [if_neg halarm]
        exact hle

end

end ZeldaOS
