import Mathlib.Data.List.DropRight
import ZeldaOS.Lib.Run

/-!
# Line buffers

A line buffer collects symbols and hands out a line, the collected symbols, when it gets the symbol
that ends lines or when it is full. Over any sequence of symbols it loses nothing: a line is the run
of symbols since the line before it, and the lines followed by what is still collected are all that
was put in (`run_push`).
-/

namespace ZeldaOS.LineBuffer

variable {α : Type*} {cap : Nat} {nl b : α} {cur line : List α} {t : List (α × Option (List α))}

/-- Put a symbol into a buffer of `cap` symbols, with the line that is handed out, if any. -/
def push [DecidableEq α] (cap : Nat) (nl : α) (cur : List α) (b : α) :
    Option (Option (List α) × List α) :=
  if cur.length + 1 = cap ∨ b = nl then some (some (cur ++ [b]), []) else some (none, cur ++ [b])

/-- What becomes of a symbol. -/
theorem push_cases [DecidableEq α] {r : Option (List α)} {cur' : List α}
    (h : push cap nl cur b = some (r, cur')) :
    (r = some (cur ++ [b]) ∧ cur' = []) ∨ (r = none ∧ cur' = cur ++ [b]) := by
  rw [push] at h
  split at h
  · cases h
    exact .inl ⟨rfl, rfl⟩
  · cases h
    exact .inr ⟨rfl, rfl⟩

/-- The lines of a trace. -/
def lines (t : List (α × Option (List α))) : List (List α) := t.filterMap Prod.snd

/-- The symbols of a trace since its last line. -/
def sinceLine (t : List (α × Option (List α))) : List α :=
  (t.rtakeWhile fun x => x.2.isNone).map Prod.fst

theorem sinceLine_snoc_none : sinceLine (t ++ [(b, none)]) = sinceLine t ++ [b] := by
  simp [sinceLine]

theorem sinceLine_snoc_some : sinceLine (t ++ [(b, some line)]) = [] := by
  simp [sinceLine]

/-- A line as it is handed out: not longer than the buffer, and ended by the symbol for that or by
the size of the buffer. -/
def IsLine (cap : Nat) (nl : α) (line : List α) : Prop :=
  line.length ≤ cap ∧ (line.getLast? = some nl ∨ line.length = cap)

/-- The lines of the trace are complete, each is the run of symbols since the line before, and with
`cur` they are everything. -/
structure Lossless (cap : Nat) (nl : α) (t : List (α × Option (List α))) (cur : List α) : Prop where
  isLine : ∀ line ∈ lines t, IsLine cap nl line
  run : ∀ t₁ x t₂, t = t₁ ++ x :: t₂ → ∀ line, x.2 = some line → line = sinceLine t₁ ++ [x.1]
  rest : sinceLine t = cur
  total : (lines t).flatten ++ cur = t.map Prod.fst

/-- **A line buffer is lossless.** -/
theorem run_push [DecidableEq α] {ok : List α → α → Prop} (hcap : 0 < cap)
    (h : Run (push cap nl) ok [] t cur) :
    Lossless cap nl t cur ∧ cur.length < cap := by
  induction h with
  | nil => exact ⟨⟨by simp [lines], by simp, rfl, rfl⟩, hcap⟩
  | snoc _ _ hst ih =>
    rename_i t cur b _ _ _ _
    obtain ⟨⟨hline, hrun, hrest, htotal⟩, hlen⟩ := ih
    rw [push] at hst
    split at hst
    · next hflush =>
      cases hst
      refine ⟨⟨?_, ?_, sinceLine_snoc_some, ?_⟩, hcap⟩
      · intro line hmem
        rw [lines, List.filterMap_append, List.mem_append] at hmem
        rcases hmem with hmem | hmem
        · exact hline line hmem
        · obtain rfl : line = cur ++ [b] := by simpa using hmem
          refine ⟨by rw [List.length_append, List.length_singleton]; omega, ?_⟩
          rcases hflush with hfull | rfl
          · exact .inr (by rw [List.length_append, List.length_singleton, hfull])
          · exact .inl (by simp)
      · intro t₁ x t₂ heq line hx
        rcases snoc_eq_append_cons heq with ⟨rfl, rfl, -⟩ | ⟨t₃, -, rfl⟩
        · cases hx
          rw [hrest]
        · exact hrun t₁ x t₃ rfl line hx
      · have hlines : lines (t ++ [(b, some (cur ++ [b]))]) = lines t ++ [cur ++ [b]] := by
          simp [lines]
        rw [hlines, List.flatten_append, List.map_append, ← htotal]
        simp
    · next hmore =>
      cases hst
      have hlines : lines (t ++ [(b, none)]) = lines t := by simp [lines]
      refine ⟨⟨by rwa [hlines], ?_, by rw [sinceLine_snoc_none, hrest], ?_⟩, ?_⟩
      · intro t₁ x t₂ heq line hx
        rcases snoc_eq_append_cons heq with ⟨rfl, rfl, -⟩ | ⟨t₃, -, rfl⟩
        · cases hx
        · exact hrun t₁ x t₃ rfl line hx
      · rw [hlines, ← List.append_assoc, htotal, List.map_append]
        rfl
      · rw [List.length_append, List.length_singleton]
        omega

/-! ## The lines of a sequence -/

/-- The lines of a sequence behind the symbols `cur`, and what is left. -/
def feed [DecidableEq α] (cap : Nat) (nl : α) : List α → List α → List (List α) × List α
  | cur, [] => ([], cur)
  | cur, b :: bs =>
    if cur.length + 1 = cap ∨ b = nl then
      let rest := feed cap nl [] bs
      ((cur ++ [b]) :: rest.1, rest.2)
    else feed cap nl (cur ++ [b]) bs

/-- The lines and the rest are all of the sequence. -/
theorem feed_total [DecidableEq α] (cap : Nat) (nl : α) (cur bs : List α) :
    (feed cap nl cur bs).1.flatten ++ (feed cap nl cur bs).2 = cur ++ bs := by
  induction bs generalizing cur with
  | nil => simp [feed]
  | cons b bs ih =>
    rw [feed]
    split
    · have htail : (feed cap nl [] bs).1.flatten ++ (feed cap nl [] bs).2 = bs := ih []
      dsimp only
      rw [List.flatten_cons, List.append_assoc, htail, List.append_assoc, List.singleton_append]
    · rw [ih, List.append_assoc, List.singleton_append]

/-- A sequence may be fed in two parts. -/
theorem feed_append [DecidableEq α] (cap : Nat) (nl : α) (cur as bs : List α) :
    feed cap nl cur (as ++ bs) =
      ((feed cap nl cur as).1 ++ (feed cap nl (feed cap nl cur as).2 bs).1,
        (feed cap nl (feed cap nl cur as).2 bs).2) := by
  induction as generalizing cur with
  | nil => rfl
  | cons a as ih =>
    rw [List.cons_append, feed, feed]
    split
    · rw [ih []]
      rfl
    · rw [ih (cur ++ [a])]

/-- One symbol is put into the buffer. -/
theorem feed_of_push [DecidableEq α] {r : Option (List α)} {cur' : List α}
    (h : push cap nl cur b = some (r, cur')) : feed cap nl cur [b] = (r.toList, cur') := by
  rw [push] at h
  split at h
  · next hline =>
    cases h
    rw [feed, if_pos hline]
    rfl
  · next hline =>
    cases h
    rw [feed, if_neg hline]
    rfl

/-- **A line buffer hands out these lines**; `g` is the symbol of an event. -/
theorem exec_push [DecidableEq α] {ε : Type*} (g : ε → α) (cur : List α) (es : List ε) :
    ∃ t, exec (fun cur e => push cap nl cur (g e)) cur es =
      some (t, (feed cap nl cur (es.map g)).2) ∧
      t.filterMap Prod.snd = (feed cap nl cur (es.map g)).1 := by
  induction es generalizing cur with
  | nil => exact ⟨[], rfl, rfl⟩
  | cons e es ih =>
    rw [exec, List.map_cons, feed, push]
    by_cases hline : cur.length + 1 = cap ∨ g e = nl
    · obtain ⟨t, hex, hlines⟩ := ih []
      refine ⟨(e, some (cur ++ [g e])) :: t, ?_, ?_⟩
      · simp only [if_pos hline, hex, Option.map_some]
      · rw [List.filterMap_cons, hlines, if_pos hline]
    · obtain ⟨t, hex, hlines⟩ := ih (cur ++ [g e])
      refine ⟨(e, none) :: t, ?_, ?_⟩
      · simp only [if_neg hline, hex, Option.map_some]
      · rw [List.filterMap_cons, hlines, if_neg hline]

end ZeldaOS.LineBuffer
