import Mathlib.Data.List.Basic

/-!
# The binary search

Model of the macro `SEARCH` of `lib64/include/search.h`, over a comparator that may fail an
assertion. The search looks at both ends of the interval first and gives up when the midpoint meets
an end. It returns the index of the element it points to.

The array is in order for the target (`MonotoneFor`) when the sign of the comparison with the target
goes from positive over zero to negative. Then the search returns, with an element that compares as
equal if there is one (`search_spec`).
-/

namespace ZeldaOS

section
variable {α : Type*} (comp : α → α → Option Int)

/-- The loop of `SEARCH`, for at most `fuel` iterations. -/
def searchFrom (xs : List α) (target : α) : Nat → Nat → Nat → Option (Option Nat)
  | 0, _, _ => none
  | fuel + 1, idxLow, idxHigh =>
    if idxLow ≤ idxHigh then
      let idxMid := (idxLow + idxHigh) / 2
      match xs[idxLow]?, xs[idxHigh]?, xs[idxMid]? with
      | some elemLow, some elemHigh, some elemMid =>
        (comp target elemLow).bind fun c =>
          if c = 0 then some (some idxLow)
          else (comp target elemHigh).bind fun c =>
            if c = 0 then some (some idxHigh)
            else if idxMid = idxLow ∨ idxMid = idxHigh then some none
            else (comp target elemMid).bind fun c =>
              if c < 0 then searchFrom xs target fuel idxLow idxMid
              else searchFrom xs target fuel idxMid idxHigh
      | _, _, _ => none
    else some none

/-- `SEARCH`. For an empty array `idx_high` is -1 and the loop is not entered. The interval shrinks
in every iteration, so it takes at most as many as there are elements. -/
def search (xs : List α) (target : α) : Option (Option Nat) :=
  if xs = [] then some none else searchFrom comp xs target xs.length 0 (xs.length - 1)

/-- The comparisons of the target with the array are `f`, and go from positive to negative. -/
structure MonotoneFor (xs : List α) (target : α) (f : α → Int) : Prop where
  comp_eq : ∀ x ∈ xs, comp target x = some (f x)
  sign : xs.Pairwise fun x y => (f x < 0 → f y < 0) ∧ (0 < f y → 0 < f x)

end

section
variable {α : Type*} {comp : α → α → Option Int} {xs : List α} {target : α} {f : α → Int}

/-- What a search may return: the index of an element that compares as equal, or nothing if there is
none. -/
def SearchResult (xs : List α) (f : α → Int) : Option Nat → Prop
  | some i => ∃ x, xs[i]? = some x ∧ f x = 0
  | none => ∀ x ∈ xs, f x ≠ 0

/-- Nothing equal lies to the right of an element that is above the target. -/
theorem MonotoneFor.ne_zero_of_lt (h : MonotoneFor comp xs target f) {i : Nat} (hi : i < xs.length)
    (hneg : f xs[i] < 0) (j : Nat) (x : α) (hj : i < j) (hx : xs[j]? = some x) : f x ≠ 0 := by
  obtain ⟨hj', rfl⟩ := List.getElem?_eq_some_iff.1 hx
  have := (List.pairwise_iff_getElem.1 h.sign _ _ hi hj' hj).1 hneg
  omega

/-- Nothing equal lies to the left of an element that is below the target. -/
theorem MonotoneFor.ne_zero_of_gt (h : MonotoneFor comp xs target f) {i : Nat} (hi : i < xs.length)
    (hpos : 0 < f xs[i]) (j : Nat) (x : α) (hj : j < i) (hx : xs[j]? = some x) : f x ≠ 0 := by
  obtain ⟨hj', rfl⟩ := List.getElem?_eq_some_iff.1 hx
  have := (List.pairwise_iff_getElem.1 h.sign _ _ hj' hi hj).2 hpos
  omega

/-- **The loop.** Nothing equal lies to the right of the interval, nor to the left unless its lower
end is equal too. -/
theorem MonotoneFor.searchFrom (h : MonotoneFor comp xs target f) {fuel low high : Nat}
    (hle : low ≤ high) (hhigh : high < xs.length) (hfuel : high - low < fuel)
    (hleft : (∀ j x, j < low → xs[j]? = some x → f x ≠ 0) ∨ ∃ x, xs[low]? = some x ∧ f x = 0)
    (hright : ∀ j x, high < j → xs[j]? = some x → f x ≠ 0) :
    ∃ r, searchFrom comp xs target fuel low high = some r ∧ SearchResult xs f r := by
  induction fuel generalizing low high with
  | zero => omega
  | succ fuel ih =>
    have hlow : low < xs.length := by omega
    have hmid : (low + high) / 2 < xs.length := by omega
    have hcomp : ∀ {i} (hi : i < xs.length), comp target xs[i] = some (f xs[i]) := fun hi =>
      h.comp_eq _ (List.getElem_mem hi)
    rw [ZeldaOS.searchFrom, if_pos hle]
    simp only [List.getElem?_eq_getElem hlow, List.getElem?_eq_getElem hhigh,
      List.getElem?_eq_getElem hmid, hcomp hlow, hcomp hhigh, hcomp hmid, Option.bind_some]
    split
    · next heq => exact ⟨_, rfl, xs[low], List.getElem?_eq_getElem hlow, heq⟩
    next hne =>
    split
    · next heq => exact ⟨_, rfl, xs[high], List.getElem?_eq_getElem hhigh, heq⟩
    next hne' =>
    have hbelow : ∀ j x, j < low → xs[j]? = some x → f x ≠ 0 := by
      refine hleft.resolve_right ?_
      rintro ⟨x, hx, heq⟩
      rw [List.getElem?_eq_getElem hlow] at hx
      cases hx
      exact hne heq
    split
    · -- the interval is its two ends
      next hends =>
      refine ⟨_, rfl, fun x hx heq => ?_⟩
      obtain ⟨j, hj, rfl⟩ := List.getElem_of_mem hx
      rcases Nat.lt_or_ge j low with hlt | hge
      · exact hbelow j _ hlt (List.getElem?_eq_getElem hj) heq
      rcases Nat.lt_or_ge high j with hlt | hge'
      · exact hright j _ hlt (List.getElem?_eq_getElem hj) heq
      have hcases : j = low ∨ j = high := by omega
      rcases hcases with rfl | rfl
      · exact hne heq
      · exact hne' heq
    next hends =>
    split
    · next hneg =>
      exact ih (by omega) hmid (by omega) (.inl hbelow) (h.ne_zero_of_lt hmid hneg)
    · next hpos =>
      refine ih (by omega) hhigh (by omega) ?_ hright
      by_cases hzero : f xs[(low + high) / 2] = 0
      · exact .inr ⟨_, List.getElem?_eq_getElem hmid, hzero⟩
      · exact .inl (h.ne_zero_of_gt hmid (by omega))

/-- **The search** finds an equal element if there is one. -/
theorem search_spec (h : MonotoneFor comp xs target f) :
    ∃ r, search comp xs target = some r ∧ SearchResult xs f r := by
  rw [search]
  split
  · next hnil => exact ⟨_, rfl, by simp [SearchResult, hnil]⟩
  · next hne =>
    have hpos := List.length_pos_iff.2 hne
    refine h.searchFrom (Nat.zero_le _) (by omega) (by omega) (.inl fun j x hj => by omega) ?_
    intro j x hj hx
    obtain ⟨hj', -⟩ := List.getElem?_eq_some_iff.1 hx
    omega

end

end ZeldaOS
