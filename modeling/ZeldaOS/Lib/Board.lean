import Mathlib.Data.Int.Init
import Mathlib.Data.List.Basic

/-!
# Boards

A board is a rectangle of cells of `h` rows and `w` columns. A program that indexes it with integers
can leave the rectangle: `Board.get?` and `Board.set?` fail there, so that a program over boards
returns a result only when all its accesses are inside.

`Board.paint` is the effect of a loop of stores: it changes the cells of a list and no others.
`foldlM_eq_paint_of_stable` is the rule for such loops: when each round stores one cell inside the
board, the loop succeeds and paints the cells of its rounds.
-/

namespace ZeldaOS

/-- A position: the row and the column. -/
abbrev Pos := Int × Int

/-- The indices of a row of `n` cells. -/
theorem mem_range_ofNat {n : Nat} {x : Int} :
    x ∈ (List.range n).map Int.ofNat ↔ 0 ≤ x ∧ x < n := by
  rw [List.mem_map]
  constructor
  · rintro ⟨k, hk, rfl⟩
    have hk := List.mem_range.1 hk
    simp only [Int.ofNat_eq_natCast]
    omega
  · rintro ⟨h₁, h₂⟩
    exact ⟨x.toNat, List.mem_range.2 (by omega), Int.toNat_of_nonneg h₁⟩

/-- The positions of a board of `h` rows and `w` columns. -/
def InBoard (h w : Nat) (p : Pos) : Prop := 0 ≤ p.1 ∧ p.1 < h ∧ 0 ≤ p.2 ∧ p.2 < w

instance (h w : Nat) (p : Pos) : Decidable (InBoard h w p) := inferInstanceAs (Decidable (_ ∧ _))

/-- The contents of a board of `h` rows and `w` columns. -/
abbrev Board (_h _w : Nat) (α : Type*) := Pos → α

namespace Board

variable {h w : Nat} {α β : Type*} {b : Board h w α} {p q : Pos} {ps : List Pos}
  {f : Pos → α} {v : α}

/-- The cell at `p`. -/
def get? (b : Board h w α) (p : Pos) : Option α := if InBoard h w p then some (b p) else none

/-- Store `v` at `p`. -/
def set? (b : Board h w α) (p : Pos) (v : α) : Option (Board h w α) :=
  if InBoard h w p then some fun q => if q = p then v else b q else none

/-- The board with the cells `ps` changed to the values of `f`. -/
def paint (b : Board h w α) (ps : List Pos) (f : Pos → α) : Board h w α :=
  fun p => if p ∈ ps then f p else b p

/-- A place on the board can be read. -/
theorem get?_of_inBoard (hp : InBoard h w p) : b.get? p = some (b p) := if_pos hp

/-- What is painted, -/
theorem paint_apply_of_mem (hp : p ∈ ps) : b.paint ps f p = f p := if_pos hp

/-- and what is not. -/
theorem paint_apply_of_not_mem (hp : p ∉ ps) : b.paint ps f p = b p := if_neg hp

/-- A place on the board can be painted. -/
theorem set?_of_inBoard (f : Pos → α) (hp : InBoard h w p) :
    b.set? p (f p) = some (b.paint [p] f) := by
  rw [set?, if_pos hp]
  refine congrArg some (funext fun q => ?_)
  by_cases hq : q = p
  · subst hq
    rw [if_pos rfl, paint_apply_of_mem (List.mem_singleton.2 rfl)]
  · rw [if_neg hq, paint_apply_of_not_mem (mt List.mem_singleton.1 hq)]

/-- Nothing is painted, -/
@[simp] theorem paint_nil : b.paint [] f = b := funext fun _ => if_neg List.not_mem_nil

/-- or one place after the other. -/
theorem paint_paint : (b.paint [p] f).paint ps f = b.paint (p :: ps) f := by
  funext q
  by_cases hq : q ∈ ps
  · rw [paint_apply_of_mem hq, paint_apply_of_mem (List.mem_cons_of_mem _ hq)]
  · rw [paint_apply_of_not_mem hq]
    by_cases hp : q = p
    · subst hp
      rw [paint_apply_of_mem (List.mem_singleton.2 rfl), paint_apply_of_mem List.mem_cons_self]
    · rw [paint_apply_of_not_mem (mt List.mem_singleton.1 hp),
        paint_apply_of_not_mem (mt List.mem_cons.1 (not_or.2 ⟨hp, hq⟩))]

/-- **Loops of stores.** The value that a round stores may depend on the board, as long as the store
itself does not change it. -/
theorem foldlM_eq_paint_of_stable {step : Board h w α → β → Option (Board h w α)} {t : β → Pos}
    {f : Board h w α → Pos → α} {xs : List β}
    (hstep : ∀ b, ∀ x ∈ xs, step b x = some (b.paint [t x] (f b)))
    (hstable : ∀ b, ∀ x ∈ xs, f (b.paint [t x] (f b)) = f b) (b : Board h w α) :
    xs.foldlM step b = some (b.paint (xs.map t) (f b)) := by
  induction xs generalizing b with
  | nil =>
    rw [List.foldlM_nil, List.map_nil, paint_nil]
    rfl
  | cons x xs ih =>
    have ih := ih (fun b x hx => hstep b x (List.mem_cons_of_mem _ hx))
      (fun b x hx => hstable b x (List.mem_cons_of_mem _ hx)) (b.paint [t x] (f b))
    rw [hstable b x List.mem_cons_self, paint_paint] at ih
    rw [List.foldlM_cons, hstep b x List.mem_cons_self, Option.bind_eq_bind, Option.bind_some, ih,
      List.map_cons]

/-- Loops that store fixed values. -/
theorem foldlM_eq_paint {step : Board h w α → β → Option (Board h w α)} {t : β → Pos} {xs : List β}
    (hstep : ∀ b, ∀ x ∈ xs, step b x = some (b.paint [t x] f)) (b : Board h w α) :
    xs.foldlM step b = some (b.paint (xs.map t) f) :=
  foldlM_eq_paint_of_stable (f := fun _ => f) hstep (fun _ _ _ => rfl) b

end Board

end ZeldaOS
