import Mathlib.Logic.Function.Basic
import ZeldaOS.Lib64.Search
import ZeldaOS.Lib64.Sort
import ZeldaOS.Memory.PhysicalMemory

/-!
# Sorting and searching in place

The macros `SORT` and `SEARCH` (`lib64/include/sort.h`, `search.h`) as they work on memory: an array
is what `ELEM` finds at each index, in bounds or not, and the indices are of type `int`. The search
also records the indices of the elements that it passes to the comparator.

On the first `num` elements they do what the list models do (`bubble_slice`, `sortFrom_slice` and
`searchArrayFrom_of_searchFrom`), and they leave the others alone: the sort does not write them, the
search does not read them.
-/

namespace ZeldaOS

section
variable {α : Type*} (cmp : α → α → Int)

/-- The body of the loops of `SORT`: two neighbours that are out of order change places. -/
def compareSwap (a : Int → α) (idxIn : Int) : Int → α :=
  if cmp (a idxIn) (a (idxIn + 1)) > 0 then
    let tmpElem := a idxIn
    Function.update (Function.update a idxIn (a (idxIn + 1))) (idxIn + 1) tmpElem
  else a

/-- The inner loop, with `n` rounds to go. -/
def sortPass : Nat → Int → (Int → α) → Int → α
  | 0, _, a => a
  | n + 1, idxIn, a => sortPass n (idxIn + 1) (compareSwap cmp a idxIn)

/-- The outer loop, from `idx_out` down to 1. -/
def sortPasses : Nat → (Int → α) → Int → α
  | 0, a => a
  | idxOut + 1, a => sortPasses idxOut (sortPass cmp (idxOut + 1) 0 a)

/-- `SORT`. -/
def sortArray (a : Int → α) (num : Int) : Int → α := sortPasses cmp (int32 (num - 1)).toNat a

/-- The loop of `SEARCH`, for at most `fuel` iterations: the index of the element found, and the
indices of the elements compared. -/
def searchArrayFrom (a : Int → α) (target : α) : Nat → Int → Int → Option (Option Int × List Int)
  | 0, _, _ => none
  | fuel + 1, idxLow, idxHigh =>
    if idxLow ≤ idxHigh then
      if cmp target (a idxLow) = 0 then some (some idxLow, [idxLow])
      else if cmp target (a idxHigh) = 0 then some (some idxHigh, [idxLow, idxHigh])
      else
        let idxMid := (int32 (idxLow + idxHigh)).tdiv 2
        if idxMid = idxLow ∨ idxMid = idxHigh then some (none, [idxLow, idxHigh])
        else
          (if cmp target (a idxMid) < 0 then searchArrayFrom a target fuel idxLow idxMid
            else searchArrayFrom a target fuel idxMid idxHigh).map
            fun r => (r.1, idxLow :: idxHigh :: idxMid :: r.2)
    else some (none, [])

/-- `SEARCH`. -/
def searchArray (a : Int → α) (num : Int) (target : α) (fuel : Nat) :
    Option (Option Int × List Int) :=
  searchArrayFrom cmp a target fuel 0 (int32 (num - 1))

end

section
variable {α : Type*} {cmp : α → α → Int} {a : Int → α} {i j : Int} {n k : Nat} {target : α}

/-- The `n` elements from index `i` on. -/
def slice (a : Int → α) (i : Int) : Nat → List α
  | 0 => []
  | n + 1 => a i :: slice a (i + 1) n

/-- A slice depends on its own elements only, -/
theorem slice_congr {b : Int → α} (h : ∀ j, i ≤ j → j < i + n → a j = b j) :
    slice a i n = slice b i n := by
  induction n generalizing i with
  | zero => rfl
  | succ n ih => rw [slice, slice, h i (by omega) (by omega), ih fun j h₁ h₂ =>
      h j (by omega) (by omega)]

/-- and has as many as asked for, -/
@[simp] theorem slice_length : (slice a i n).length = n := by
  induction n generalizing i with
  | zero => rfl
  | succ n ih => rw [slice, List.length_cons, ih]

/-- one by one. -/
theorem slice_getElem? (hk : k < n) : (slice a i n)[k]? = some (a (i + k)) := by
  induction n generalizing i k with
  | zero => omega
  | succ n ih =>
    cases k with
    | zero => simp [slice]
    | succ k =>
      rw [slice, List.getElem?_cons_succ, ih (by omega)]
      exact congrArg (fun j => some (a j)) (by omega)

/-! ## The sort -/

/-- A comparison touches two neighbours only. -/
theorem compareSwap_of_ne (h₁ : j ≠ i) (h₂ : j ≠ i + 1) : compareSwap cmp a i j = a j := by
  rw [compareSwap]
  split
  · rw [Function.update_of_ne h₂, Function.update_of_ne h₁]
  · rfl

/-- A pass writes the elements it compares. -/
theorem sortPass_of_not_mem (h : j < i ∨ i + n < j) : sortPass cmp n i a j = a j := by
  induction n generalizing i a with
  | zero => rfl
  | succ n ih => rw [sortPass, ih (by omega), compareSwap_of_ne (by omega) (by omega)]

/-- **A pass in place** is a pass over the list. -/
theorem bubble_slice (h : n < k) : bubble (infallible cmp) n (slice a i k) =
    some (slice (sortPass cmp n i a) i k) := by
  induction n generalizing a i k with
  | zero => rw [bubble_zero, sortPass]
  | succ n ih =>
    obtain ⟨k, rfl⟩ : ∃ k', k = k' + 2 := ⟨k - 2, by omega⟩
    have hrest : slice (compareSwap cmp a i) (i + 1 + 1) k = slice a (i + 1 + 1) k :=
      slice_congr fun j h₁ _ => compareSwap_of_ne (by omega) (by omega)
    have hnext := ih (a := compareSwap cmp a i) (i := i + 1) (k := k + 1) (by omega)
    have hhead : sortPass cmp n (i + 1) (compareSwap cmp a i) i = compareSwap cmp a i i :=
      sortPass_of_not_mem (by omega)
    have hsplit : ∀ b : Int → α, slice b i (k + 2) = b i :: slice b (i + 1) (k + 1) := fun _ => rfl
    have hne : i ≠ i + 1 := by omega
    rw [slice, hrest] at hnext
    rw [hsplit, hsplit, slice, sortPass]
    by_cases habove : cmp (a i) (a (i + 1)) > 0
    · have hi : compareSwap cmp a i i = a (i + 1) := by
        rw [compareSwap, if_pos habove, Function.update_of_ne hne, Function.update_self]
      have hi' : compareSwap cmp a i (i + 1) = a i := by
        rw [compareSwap, if_pos habove, Function.update_self]
      rw [hi'] at hnext
      rw [bubble_of_above ⟨_, rfl, habove⟩, hnext, hhead, hi]
      rfl
    · have hstay : compareSwap cmp a i = a := if_neg habove
      rw [hstay] at hnext hhead ⊢
      rw [bubble_of_inOrder ⟨_, rfl, by omega⟩, hnext, hhead]
      rfl

/-- **The passes in place** are the passes over the list. -/
theorem sortFrom_slice (h : n < k) : sortFrom (infallible cmp) n (slice a 0 k) =
    some (slice (sortPasses cmp n a) 0 k) := by
  induction n generalizing a with
  | zero => rfl
  | succ n ih => rw [sortFrom, bubble_slice h, Option.bind_some, ih (by omega), sortPasses]

/-- The passes touch the elements in their range only. -/
theorem sortPasses_of_not_mem (h : j < 0 ∨ (n : Int) < j) : sortPasses cmp n a j = a j := by
  induction n generalizing a with
  | zero => rfl
  | succ n ih => rw [sortPasses, ih (by omega), sortPass_of_not_mem (by omega)]

/-! ## The search -/

/-- **The search in place** finds what the search in the list finds, and reads these elements
only. -/
theorem searchArrayFrom_of_searchFrom {fuel low high : Nat} {r : Option Nat} (hn : n ≤ 2 ^ 30)
    (hle : low ≤ high) (hhigh : high < n)
    (h : searchFrom (infallible cmp) (slice a 0 n) target fuel low high = some r) : ∃ reads,
    searchArrayFrom cmp a target fuel low high = some (r.map Int.ofNat, reads) ∧
    ∀ i ∈ reads, 0 ≤ i ∧ i < n := by
  induction fuel generalizing low high with
  | zero => cases h
  | succ fuel ih =>
    have hget : ∀ {k : Nat}, k < n → (slice a 0 n)[k]? = some (a k) := fun hk => by
      rw [slice_getElem? hk, Int.zero_add]
    have hmid : (int32 ((low : Int) + high)).tdiv 2 = ((low + high) / 2 : Nat) := by
      rw [int32_eq (by omega) (by omega), Int.tdiv_eq_ediv_of_nonneg (by omega)]
      omega
    rw [searchFrom, if_pos hle] at h
    simp only [hget (k := low) (by omega), hget hhigh, hget (k := (low + high) / 2) (by omega),
      Option.bind_some] at h
    rw [searchArrayFrom, if_pos (by omega)]
    simp only [hmid, Int.natCast_inj]
    split at h
    · next heq =>
      cases h
      exact ⟨_, if_pos heq, by simp; omega⟩
    next hne =>
    rw [if_neg hne]
    split at h
    · next heq =>
      cases h
      exact ⟨_, if_pos heq, by simp; omega⟩
    next hne' =>
    rw [if_neg hne']
    split at h
    · next hends =>
      cases h
      exact ⟨_, if_pos hends, by simp; omega⟩
    next hends =>
    rw [if_neg hends]
    split at h
    · next hneg =>
      obtain ⟨reads, heq, hreads⟩ := ih (by omega) (by omega) h
      rw [if_pos hneg, heq]
      refine ⟨_, rfl, ?_⟩
      simp only [List.mem_cons, forall_eq_or_imp]
      exact ⟨by omega, by omega, by omega, hreads⟩
    · next hpos =>
      obtain ⟨reads, heq, hreads⟩ := ih (by omega) hhigh h
      rw [if_neg hpos, heq]
      refine ⟨_, rfl, ?_⟩
      simp only [List.mem_cons, forall_eq_or_imp]
      exact ⟨by omega, by omega, by omega, hreads⟩

/-- The first `num` elements. -/
def firstElems (a : Int → α) (num : Int) : List α := slice a 0 num.toNat

/-- The first elements, one by one. -/
theorem firstElems_getElem? {num : Int} (h : (k : Int) < num) :
    (firstElems a num)[k]? = some (a k) := by
  rw [firstElems, slice_getElem? (by omega), Int.zero_add]

/-- **`SORT` in place** is a stable sort of the first `num` elements. -/
theorem sortArray_spec (hcmp : TotalPreorder cmp) (a : Int → α) {num : Int} (h₀ : 0 ≤ num)
    (h₁ : num < 2 ^ 30) :
    StablePerm (AtMost cmp) (firstElems a num) (firstElems (sortArray cmp a num) num) ∧
    (firstElems (sortArray cmp a num) num).Pairwise (AtMost cmp) := by
  obtain ⟨ys, heq, hperm, hsorted⟩ := sort_spec hcmp (firstElems a num)
  have hys : ys = firstElems (sortArray cmp a num) num := by
    rw [sort, firstElems, slice_length] at heq
    rw [firstElems, sortArray, int32_eq (by omega) (by omega)]
    rcases Int.lt_or_eq_of_le h₀ with hpos | rfl
    · have hlast : (num - 1).toNat = num.toNat - 1 := by omega
      rw [sortFrom_slice (by omega)] at heq
      rw [hlast, Option.some.inj heq]
    · exact (Option.some.inj heq).symm
  rw [← hys]
  exact ⟨hperm, hsorted⟩

/-- The array is the same outside of what is sorted. -/
theorem sortArray_of_not_mem {num : Int} (h₀ : 0 ≤ num) (h₁ : num < 2 ^ 30)
    (h : j < 0 ∨ num ≤ j) : sortArray cmp a num j = a j := by
  rw [sortArray, int32_eq (by omega) (by omega)]
  rcases Int.lt_or_eq_of_le h₀ with hpos | rfl
  · exact sortPasses_of_not_mem (by omega)
  · rfl

/-- **`SEARCH` in place** returns, with an element that compares as equal if there is one. -/
theorem searchArray_spec {num : Int} (h₀ : 0 ≤ num) (h₁ : num < 2 ^ 30)
    (h : MonotoneFor (infallible cmp) (firstElems a num) target (cmp target)) : ∃ fuel r reads,
    searchArray cmp a num target fuel = some (r.map Int.ofNat, reads) ∧
    (∀ i ∈ reads, 0 ≤ i ∧ i < num) ∧ SearchResult (firstElems a num) (cmp target) r := by
  obtain ⟨r, heq, hres⟩ := search_spec h
  rcases Int.lt_or_eq_of_le h₀ with hpos | rfl
  · have hne : firstElems a num ≠ [] := by
      rw [← List.length_pos_iff, firstElems, slice_length]
      omega
    have hhigh : int32 (num - 1) = (num.toNat - 1 : Nat) := by
      rw [int32_eq (by omega) (by omega)]
      omega
    rw [search, if_neg hne, firstElems, slice_length] at heq
    obtain ⟨reads, hfound, hreads⟩ :=
      searchArrayFrom_of_searchFrom (by omega) (Nat.zero_le _) (by omega) heq
    refine ⟨num.toNat, r, reads, ?_, fun i hi => ?_, hres⟩
    · rw [searchArray, hhigh]
      exact hfound
    · have := hreads i hi
      omega
  · -- the loop is not entered
    cases heq
    exact ⟨1, none, [], rfl, by simp, hres⟩

end

/-- **Sorting and searching.** For a comparator that orders all elements, `SORT` leaves the first
`num` elements in order, rearranged so that equal ones keep their places among each other, and
writes no other element. In the sorted array `SEARCH` returns for every target whose comparison is
monotone along it: an element that compares as equal exactly if there is one, having read none but
the first `num` elements. -/
theorem sort_search_correct {α : Type*} {cmp : α → α → Int} (hcmp : TotalPreorder cmp) (a : Int → α)
    {num : Int} (h₀ : 0 ≤ num) (h₁ : num < 2 ^ 30) :
    StablePerm (AtMost cmp) (firstElems a num) (firstElems (sortArray cmp a num) num) ∧
    (firstElems (sortArray cmp a num) num).Pairwise (AtMost cmp) ∧
    (∀ j, j < 0 ∨ num ≤ j → sortArray cmp a num j = a j) ∧
    ∀ target, MonotoneFor (infallible cmp) (firstElems (sortArray cmp a num) num)
      target (cmp target) →
      ∃ fuel r reads, searchArray cmp (sortArray cmp a num) num target fuel = some (r, reads) ∧
        (∀ i ∈ reads, 0 ≤ i ∧ i < num) ∧
        (∀ i, r = some i → 0 ≤ i ∧ i < num ∧ cmp target (sortArray cmp a num i) = 0) ∧
        (r.isSome ↔ ∃ i, 0 ≤ i ∧ i < num ∧ cmp target (sortArray cmp a num i) = 0) := by
  obtain ⟨hperm, hsorted⟩ := sortArray_spec hcmp a h₀ h₁
  refine ⟨hperm, hsorted, fun j hj => sortArray_of_not_mem h₀ h₁ hj, fun target htarget => ?_⟩
  obtain ⟨fuel, r, reads, heq, hreads, hres⟩ := searchArray_spec h₀ h₁ htarget
  refine ⟨fuel, _, reads, heq, hreads, ?_⟩
  cases r with
  | none =>
    refine ⟨fun i hi => ?_, fun hsome => ?_, ?_⟩
    · cases hi
    · cases hsome
    rintro ⟨i, hi₀, hi₁, hzero⟩
    obtain ⟨k, rfl⟩ := Int.eq_ofNat_of_zero_le hi₀
    exact absurd hzero (hres _ (List.mem_of_getElem? (firstElems_getElem? hi₁)))
  | some k =>
    obtain ⟨x, hx, hzero⟩ := hres
    have hk : (k : Int) < num := by
      have := (List.getElem?_eq_some_iff.1 hx).1
      rw [firstElems, slice_length] at this
      omega
    rw [firstElems_getElem? hk] at hx
    cases hx
    have hfound : 0 ≤ (k : Int) ∧ (k : Int) < num ∧ cmp target (sortArray cmp a num k) = 0 :=
      ⟨by omega, hk, hzero⟩
    refine ⟨fun i hi => ?_, fun _ => ⟨k, hfound⟩, fun _ => rfl⟩
    cases hi
    exact hfound

/-- Three numbers sorted by their difference, and a search for one of them. -/
theorem sort_search_correct_sample : ∃ fuel i reads,
    searchArray (fun x y : Int => x - y) (sortArray (fun x y => x - y) (fun i => -i) 3) 3
      (-1) fuel = some (some i, reads) := by
  have hcmp : TotalPreorder fun x y : Int => x - y :=
    ⟨fun x y => by omega, fun x y z h h' => by omega⟩
  obtain ⟨-, hsorted, -, hsearch⟩ := sort_search_correct hcmp (fun i => -i)
    (by decide : (0 : Int) ≤ 3) (by decide)
  obtain ⟨fuel, r, reads, heq, -, -, hfound⟩ := hsearch (-1)
    ⟨fun _ _ => rfl, hsorted.imp fun h => by simp only [AtMost] at h; omega⟩
  obtain ⟨i, rfl⟩ := Option.isSome_iff_exists.1 (hfound.2 ⟨1, by decide⟩)
  exact ⟨fuel, i, reads, heq⟩

end ZeldaOS
