import Mathlib.Data.List.Induction
import ZeldaOS.Lib.StablePerm

/-!
# The bubble sort

Model of the macro `SORT` of `lib64/include/sort.h`, over a comparator that may fail an assertion.
An array is the list of its elements in use.

The registries of the monitor keep their array in order and call `SORT` after they append one
element. What it does then is told by two lemmas. The new element moves to the left past the
elements that are above it, one pass of the outer loop for each (`sortFrom_moves`), and stays behind
the first one that is not (`sort_append`). If the comparison with that one fails, so does the sort
(`sort_append_eq_none`). Where the array is to be cut for them is found by `exists_cut_of_pairwise`.

For a comparator that never fails and orders all elements, `SORT` is a stable sort of any array
(`sort_spec`): a pass of the inner loop brings a largest element to its end (`bubble_spec`), and the
elements behind it are in place.
-/

namespace ZeldaOS

section
variable {α : Type*} (comp : α → α → Option Int)

/-- The inner loop of `SORT`, with `n` comparisons. -/
def bubble : Nat → List α → Option (List α)
  | n + 1, prevElem :: nextElem :: xs =>
    (comp prevElem nextElem).bind fun c =>
      if c > 0 then (bubble n (prevElem :: xs)).map (nextElem :: ·)
      else (bubble n (nextElem :: xs)).map (prevElem :: ·)
  | _, xs => some xs

/-- The outer loop of `SORT`, from `idx_out` down to 1. -/
def sortFrom : Nat → List α → Option (List α)
  | 0, xs => some xs
  | idxOut + 1, xs => (bubble comp (idxOut + 1) xs).bind (sortFrom idxOut)

/-- `SORT`. -/
def sort (xs : List α) : Option (List α) := sortFrom comp (xs.length - 1) xs

/-- The comparison leaves `x` before `y`. -/
def InOrder (x y : α) : Prop := ∃ c, comp x y = some c ∧ c ≤ 0

/-- The comparison puts `x` behind `y`. -/
def Above (x y : α) : Prop := ∃ c, comp x y = some c ∧ 0 < c

end

section
variable {α : Type*} {comp : α → α → Option Int} {x y r : α} {xs ys zs rest : List α} {n : Nat}

/-- A list is cut in two by a property that goes over to earlier elements. -/
theorem exists_cut_of_pairwise {R : α → α → Prop} {p : α → Prop} (h : xs.Pairwise R)
    (hp : ∀ x y, R x y → p y → p x) :
    ∃ ys zs, xs = ys ++ zs ∧ (∀ y ∈ ys, p y) ∧ ∀ z ∈ zs, ¬ p z := by
  induction h with
  | nil => exact ⟨[], [], rfl, by simp, by simp⟩
  | @cons x xs hx _ ih =>
    by_cases hpx : p x
    · obtain ⟨ys, zs, rfl, hys, hzs⟩ := ih
      exact ⟨x :: ys, zs, rfl, by simpa [hpx] using hys, hzs⟩
    · refine ⟨[], x :: xs, rfl, by simp, ?_⟩
      simp only [List.mem_cons, forall_eq_or_imp]
      exact ⟨hpx, fun y hy hpy => hpx (hp x y (hx y hy) hpy)⟩

theorem bubble_zero (xs : List α) : bubble comp 0 xs = some xs := by
  simp [bubble]

theorem bubble_of_inOrder (h : InOrder comp x y) :
    bubble comp (n + 1) (x :: y :: xs) = (bubble comp n (y :: xs)).map (x :: ·) := by
  obtain ⟨c, hc, hle⟩ := h
  rw [bubble, hc, Option.bind_some, if_neg (by omega)]

theorem bubble_of_above (h : Above comp x y) :
    bubble comp (n + 1) (x :: y :: xs) = (bubble comp n (x :: xs)).map (y :: ·) := by
  obtain ⟨c, hc, hlt⟩ := h
  rw [bubble, hc, Option.bind_some, if_pos hlt]

/-- A pass over elements in order reaches the last of them and changes nothing before it. -/
theorem bubble_append (h : (ys ++ [y]).Pairwise (InOrder comp)) (n : Nat) :
    bubble comp (ys.length + n) (ys ++ y :: rest) =
      (bubble comp n (y :: rest)).map (ys ++ ·) := by
  induction ys with
  | nil => simp
  | cons z ys ih =>
    rw [List.cons_append, List.pairwise_cons] at h
    have hstep : bubble comp ((z :: ys).length + n) (z :: ys ++ y :: rest) =
        (bubble comp (ys.length + n) (ys ++ y :: rest)).map (z :: ·) := by
      rw [List.length_cons, Nat.add_right_comm]
      -- the element after `z` is the first of `ys`, or `y`
      cases ys with
      | nil => exact bubble_of_inOrder (h.1 y (by simp))
      | cons w ys => exact bubble_of_inOrder (h.1 w (by simp))
    rw [hstep, ih h.2, Option.map_map]
    rfl

/-- Elements in order stay where they are. -/
theorem sortFrom_of_inOrder (h : ys.Pairwise (InOrder comp)) (hn : n < ys.length) :
    sortFrom comp n (ys ++ rest) = some (ys ++ rest) := by
  induction n with
  | zero => rfl
  | succ n ih =>
    obtain ⟨y, zs, hys⟩ : ∃ y zs, ys = ys.take (n + 1) ++ y :: zs :=
      ⟨ys[n + 1], ys.drop (n + 2), by simp⟩
    have hpre : (ys.take (n + 1) ++ [y]).Pairwise (InOrder comp) := by
      rw [hys, List.append_cons] at h
      exact (List.pairwise_append.1 h).1
    have hpass : bubble comp (n + 1) (ys ++ rest) = some (ys ++ rest) := by
      have happ : bubble comp _ (ys.take (n + 1) ++ y :: (zs ++ rest)) = _ := bubble_append hpre 0
      rw [List.length_take_of_le (by omega), Nat.add_zero, bubble_zero, Option.map_some,
        ← List.cons_append, ← List.append_assoc, ← hys] at happ
      exact happ
    rw [sortFrom, hpass, Option.bind_some, ih (by omega)]

/-- **The new element moves** past the elements above it, one pass for each. -/
theorem sortFrom_moves (h : (ys ++ zs).Pairwise (InOrder comp)) (hzs : ∀ z ∈ zs, Above comp z r) :
    sortFrom comp (ys ++ zs).length (ys ++ zs ++ r :: rest) =
      sortFrom comp ys.length (ys ++ r :: (zs ++ rest)) := by
  induction zs using List.reverseRecOn generalizing rest with
  | nil => simp
  | append_singleton zs z ih =>
    rw [← List.append_assoc] at h
    have hpass : bubble comp ((ys ++ zs).length + 1) (ys ++ zs ++ z :: r :: rest) =
        some (ys ++ zs ++ r :: z :: rest) := by
      rw [bubble_append h, bubble_of_above (hzs z (by simp))]
      rfl
    have hlen : (ys ++ (zs ++ [z])).length = (ys ++ zs).length + 1 := by
      simp only [List.length_append, List.length_singleton]
      omega
    have hxs : ys ++ (zs ++ [z]) ++ r :: rest = ys ++ zs ++ z :: r :: rest := by simp
    rw [hlen, hxs, sortFrom, hpass, Option.bind_some,
      ih (List.pairwise_append.1 h).1 fun z hz => hzs z (by simp [hz])]
    simp

/-- **Inserting by sorting.** The new element ends up behind the last element that is not above
it. -/
theorem sort_append (h : (ys ++ zs).Pairwise (InOrder comp)) (hzs : ∀ z ∈ zs, Above comp z r)
    (hys : ∀ y ∈ ys.getLast?, InOrder comp y r) :
    sort comp (ys ++ zs ++ [r]) = some (ys ++ r :: zs) := by
  have hlen : (ys ++ zs ++ [r]).length - 1 = (ys ++ zs).length := by simp
  rw [sort, hlen, sortFrom_moves h hzs, List.append_nil]
  rcases List.eq_nil_or_concat ys with rfl | ⟨ys, y, rfl⟩
  · rfl
  · rw [List.concat_eq_append] at h hys ⊢
    have hpre := (List.pairwise_append.1 h).1
    have hpass : bubble comp (ys.length + 1) (ys ++ y :: r :: zs) =
        some (ys ++ y :: r :: zs) := by
      rw [bubble_append hpre, bubble_of_inOrder (hys y (by simp))]
      rfl
    rw [List.length_append, List.length_singleton, sortFrom, List.append_assoc,
      List.singleton_append, hpass, Option.bind_some]
    have hstay : sortFrom comp ys.length (ys ++ [y] ++ r :: zs) = _ :=
      sortFrom_of_inOrder hpre (by simp)
    simpa using hstay

/-- The sort fails where the comparison with the new element does. -/
theorem sort_append_eq_none (h : (ys ++ y :: zs).Pairwise (InOrder comp))
    (hzs : ∀ z ∈ zs, Above comp z r) (hy : comp y r = none) :
    sort comp (ys ++ y :: zs ++ [r]) = none := by
  have hlen : (ys ++ y :: zs ++ [r]).length - 1 = (ys ++ [y] ++ zs).length := by simp
  have hxs : ys ++ y :: zs ++ [r] = ys ++ [y] ++ zs ++ [r] := by simp
  rw [List.append_cons] at h
  rw [sort, hlen, hxs, sortFrom_moves h hzs, List.append_nil, List.length_append,
    List.length_singleton, sortFrom, List.append_assoc, List.singleton_append,
    bubble_append (List.pairwise_append.1 h).1, bubble, hy]
  rfl

end

/-! ## Any array -/

/-- A comparator that orders all elements: of two elements one is at most the other, and the order
is transitive. -/
structure TotalPreorder {α : Type*} (cmp : α → α → Int) : Prop where
  total : ∀ x y, cmp x y ≤ 0 ∨ cmp y x ≤ 0
  trans : ∀ x y z, cmp x y ≤ 0 → cmp y z ≤ 0 → cmp x z ≤ 0

section
variable {α : Type*} {cmp : α → α → Int} {xs pre suf : List α} {n : Nat}

/-- The order of a comparator. -/
abbrev AtMost (cmp : α → α → Int) (x y : α) : Prop := cmp x y ≤ 0

/-- A comparator that never fails. -/
abbrev infallible (cmp : α → α → Int) (x y : α) : Option Int := some (cmp x y)

theorem TotalPreorder.refl (h : TotalPreorder cmp) (x : α) : AtMost cmp x x := by
  rcases h.total x x with hx | hx
  · exact hx
  · exact hx

/-- What is at most `z` or `z` itself is at most `z`. -/
theorem TotalPreorder.atMost_of_mem (h : TotalPreorder cmp) {x z : α} {low : List α}
    (hmax : ∀ x ∈ low, AtMost cmp x z) (hx : x ∈ low ++ [z]) : AtMost cmp x z := by
  rcases List.mem_append.1 hx with hx | hx
  · exact hmax x hx
  · rw [List.mem_singleton.1 hx]
    exact h.refl z

/-- **The inner loop** takes a largest of the first `n + 1` elements to their end. -/
theorem bubble_spec (h : TotalPreorder cmp) (hlen : pre.length = n + 1) (suf : List α) : ∃ low z,
    bubble (infallible cmp) n (pre ++ suf) = some (low ++ z :: suf) ∧ low.length = n ∧
    StablePerm (AtMost cmp) pre (low ++ [z]) ∧ ∀ x ∈ low, AtMost cmp x z := by
  induction n generalizing pre with
  | zero =>
    obtain ⟨z, rfl⟩ := List.length_eq_one_iff.1 hlen
    exact ⟨[], z, bubble_zero _, rfl, .refl _, by simp⟩
  | succ n ih =>
    obtain ⟨x, y, rest, rfl⟩ : ∃ x y rest, pre = x :: y :: rest := by
      cases pre with
      | nil => cases hlen
      | cons x pre =>
        cases pre with
        | nil => cases hlen
        | cons y rest => exact ⟨x, y, rest, rfl⟩
    have hrest : ∀ w, (w :: rest).length = n + 1 := fun w => by simpa using hlen
    by_cases hle : AtMost cmp x y
    · obtain ⟨low, z, heq, hlow, hperm, hmax⟩ := ih (hrest y)
      refine ⟨x :: low, z, ?_, by simp [hlow], hperm.cons x, ?_⟩
      · rw [List.cons_append, List.cons_append, bubble_of_inOrder ⟨_, rfl, hle⟩, ← List.cons_append,
          heq]
        rfl
      · -- `x` is at most `y`, and `y` at most the largest of the rest
        have hy : AtMost cmp y z := h.atMost_of_mem hmax (hperm.perm.mem_iff.1 List.mem_cons_self)
        simp only [List.mem_cons, forall_eq_or_imp]
        exact ⟨h.trans x y z hle hy, hmax⟩
    · obtain ⟨low, z, heq, hlow, hperm, hmax⟩ := ih (hrest x)
      refine ⟨y :: low, z, ?_, by simp [hlow], (StablePerm.swap h.trans hle rest).trans
        (hperm.cons y), ?_⟩
      · rw [List.cons_append, List.cons_append, bubble_of_above ⟨_, rfl, by omega⟩,
          ← List.cons_append, heq]
        rfl
      · have hx : AtMost cmp x z := h.atMost_of_mem hmax (hperm.perm.mem_iff.1 List.mem_cons_self)
        simp only [List.mem_cons, forall_eq_or_imp]
        exact ⟨h.trans y x z ((h.total x y).resolve_left hle) hx, hmax⟩

/-- **The outer loop.** What is behind the first `n + 1` elements is in place. -/
theorem sortFrom_spec (h : TotalPreorder cmp) (hlen : pre.length = n + 1)
    (hsuf : suf.Pairwise (AtMost cmp)) (hle : ∀ x ∈ pre, ∀ y ∈ suf, AtMost cmp x y) : ∃ ys,
    sortFrom (infallible cmp) n (pre ++ suf) = some ys ∧
    StablePerm (AtMost cmp) (pre ++ suf) ys ∧ ys.Pairwise (AtMost cmp) := by
  induction n generalizing pre suf with
  | zero =>
    obtain ⟨x, rfl⟩ := List.length_eq_one_iff.1 hlen
    exact ⟨_, rfl, .refl _, List.pairwise_cons.2 ⟨hle x List.mem_cons_self, hsuf⟩⟩
  | succ n ih =>
    obtain ⟨low, z, hpass, hlow, hperm, hmax⟩ := bubble_spec h hlen suf
    have hmem : ∀ x ∈ low ++ [z], ∀ y ∈ suf, AtMost cmp x y := fun x hx =>
      hle x (hperm.perm.mem_iff.2 hx)
    have hsuf' : (z :: suf).Pairwise (AtMost cmp) :=
      List.pairwise_cons.2 ⟨hmem z (by simp), hsuf⟩
    have hle' : ∀ x ∈ low, ∀ y ∈ z :: suf, AtMost cmp x y := by
      intro x hx y hy
      rcases List.mem_cons.1 hy with rfl | hy
      · exact hmax x hx
      · exact hmem x (by simp [hx]) y hy
    obtain ⟨ys, heq, hperm', hsorted⟩ := ih hlow hsuf' hle'
    refine ⟨ys, ?_, ?_, hsorted⟩
    · rw [sortFrom, hpass, Option.bind_some, heq]
    · have hfirst := hperm.append [] suf
      rw [List.nil_append, List.nil_append, List.append_assoc, List.singleton_append] at hfirst
      exact hfirst.trans hperm'

/-- **`SORT` is a stable sort.** -/
theorem sort_spec (h : TotalPreorder cmp) (xs : List α) : ∃ ys,
    sort (infallible cmp) xs = some ys ∧ StablePerm (AtMost cmp) xs ys ∧
    ys.Pairwise (AtMost cmp) := by
  rcases List.eq_nil_or_concat xs with rfl | ⟨ws, x, rfl⟩
  · exact ⟨[], rfl, .refl _, .nil⟩
  · have hlen : (ws.concat x).length = ws.length + 1 := List.length_concat
    have hle : ∀ y ∈ ws.concat x, ∀ z ∈ ([] : List α), AtMost cmp y z := by simp
    obtain ⟨ys, heq, hperm, hsorted⟩ := sortFrom_spec h hlen .nil hle
    rw [List.append_nil] at heq hperm
    refine ⟨ys, ?_, hperm, hsorted⟩
    rw [sort, List.length_concat, Nat.add_sub_cancel, heq]

end

end ZeldaOS
