import ZeldaOS.Guest.TetrisBlocks

/-!
# Full rows

`purge_grid` drops the full rows of the grid. It collects the rows that are left from the bottom
upwards (`keptRows`), copies them to the bottom in this order and unsets the rows above. The copies
are made in place; a row is never overwritten before it is copied, because the rows left are met in
descending order and a row never moves up (`copyRows_eq`). So the result is what the player expects
(`purgeGrid_purged`): the rows left fall to the bottom in their order, and nothing else is set. In
the terms of the game this is line clearing, an operation on the rows of the grid from the bottom
upwards (`clearLines`).
-/

namespace ZeldaOS

/-- Every cell of the row is set. -/
def FullRow (grid : Grid) (row : Int) : Prop := ∀ x ∈ gridColumns, (grid (row, x)).isSet ≠ 0

instance (grid : Grid) (row : Int) : Decidable (FullRow grid row) :=
  inferInstanceAs (Decidable (∀ x ∈ gridColumns, _))

/-- The rows that are not full, from the bottom upwards. -/
def keptRows (grid : Grid) : List Int := gridRows.reverse.filter fun row => ¬ FullRow grid row

/-- The number of full rows. -/
def fullRows (grid : Grid) : Nat := gridRows.reverse.countP fun row => FullRow grid row

/-- `grid'` is `grid` without its full rows. -/
structure Purged (grid grid' : Grid) : Prop where
  fallen : ∀ (k : Nat) (row : Int), (keptRows grid)[k]? = some row →
    ∀ x, 0 ≤ x → x < 16 → grid' (19 - k, x) = grid (row, x)
  empty : ∀ y x : Int, 0 ≤ y → y < 20 - (keptRows grid).length → 0 ≤ x → x < 16 →
    (grid' (y, x)).isSet = 0

section
variable {grid : Grid} {row target source : Int}

/-! ## Collecting the rows -/

/-- The loop over the columns of a row finds out whether all of them are set. -/
theorem rowFull_eq (grid : Grid) (hrow : 0 ≤ row ∧ row < 20) (columns : List Int)
    (hcol : ∀ x ∈ columns, 0 ≤ x ∧ x < 16) :
    rowFull grid row columns = some (decide (∀ x ∈ columns, (grid (row, x)).isSet ≠ 0)) := by
  induction columns with
  | nil => simp [rowFull]
  | cons x columns ih =>
    have hx := hcol x List.mem_cons_self
    have hin : InBoard 20 16 (row, x) := ⟨hrow.1, hrow.2, hx.1, hx.2⟩
    rw [rowFull, Board.get?_of_inBoard hin, Option.bind_eq_bind, Option.bind_some,
      ih fun x hx => hcol x (List.mem_cons_of_mem _ hx)]
    by_cases hset : (grid (row, x)).isSet = 0
    · simp [hset]
    · simp [hset]

/-- A row is counted if it is full, and kept otherwise. -/
theorem sortRow_eq {acc : List Int × Nat} (hrow : 0 ≤ row ∧ row < 20) (hacc : acc.1.length < 20) :
    sortRow grid acc row =
      some (if FullRow grid row then (acc.1, acc.2 + 1) else (acc.1 ++ [row], acc.2)) := by
  rw [sortRow, rowFull_eq grid hrow gridColumns fun x hx => mem_gridColumns.1 hx,
    Option.bind_eq_bind, Option.bind_some]
  by_cases hfull : FullRow grid row
  · rw [if_pos hfull]
    exact if_pos (decide_eq_true hfull)
  · rw [if_neg hfull]
    refine (if_neg fun h => hfull (of_decide_eq_true h)).trans ?_
    exact if_pos hacc

/-- **The first loop** separates the full rows from the others, and `rows_left` is never too
short. -/
theorem foldlM_sortRow (rows : List Int) (hrows : ∀ y ∈ rows, 0 ≤ y ∧ y < 20)
    (acc : List Int × Nat) (hacc : acc.1.length + rows.length ≤ 20) :
    rows.foldlM (sortRow grid) acc =
      some (acc.1 ++ rows.filter fun y => ¬ FullRow grid y,
        acc.2 + rows.countP fun y => FullRow grid y) := by
  induction rows generalizing acc with
  | nil => simp
  | cons y rows ih =>
    rw [List.length_cons] at hacc
    rw [List.foldlM_cons, sortRow_eq (hrows y List.mem_cons_self) (by omega), Option.bind_eq_bind,
      Option.bind_some]
    have hrest : ∀ z ∈ rows, 0 ≤ z ∧ z < 20 := fun z hz => hrows z (List.mem_cons_of_mem _ hz)
    by_cases hfull : FullRow grid y
    · rw [if_pos hfull, ih hrest _ (by dsimp only; omega)]
      simp [hfull, Nat.add_assoc, Nat.add_comm 1]
    · rw [if_neg hfull,
        ih hrest _ (by simp only [List.length_append, List.length_singleton]; omega)]
      simp [hfull]

/-- The loop over all rows, from below. -/
theorem sortRows_eq (grid : Grid) : gridRows.reverse.foldlM (sortRow grid) ([], 0) =
    some (keptRows grid, fullRows grid) := by
  rw [foldlM_sortRow _ (fun y hy => mem_gridRows.1 (List.mem_reverse.1 hy)) _ (by decide)]
  simp [keptRows, fullRows]

/-! ## Moving the rows -/

/-- A row copied to another. -/
def rowCopied (grid : Grid) (target source : Int) : Grid := fun p =>
  if p.1 = target ∧ 0 ≤ p.2 ∧ p.2 < 16 then grid (source, p.2) else grid p

/-- The cells of a row. -/
theorem mem_rowCells {p : Pos} :
    p ∈ gridColumns.map (fun x => ((target, x) : Pos)) ↔ p.1 = target ∧ 0 ≤ p.2 ∧ p.2 < 16 := by
  rw [List.mem_map]
  constructor
  · rintro ⟨x, hx, rfl⟩
    exact ⟨rfl, mem_gridColumns.1 hx⟩
  · rintro ⟨rfl, hx⟩
    exact ⟨p.2, mem_gridColumns.2 hx, rfl⟩

/-- A row is copied within the grid. -/
theorem copyRow_eq (grid : Grid) (ht : 0 ≤ target ∧ target < 20) (hs : 0 ≤ source ∧ source < 20) :
    copyRow grid target source = some (rowCopied grid target source) := by
  have hpaint : copyRow grid target source =
      some (grid.paint (gridColumns.map fun x => (target, x)) fun q => grid (source, q.2)) := by
    refine Board.foldlM_eq_paint_of_stable (f := fun g q => g (source, q.2)) (fun g x hx => ?_)
      (fun g x _ => ?_) grid
    · have hx := mem_gridColumns.1 hx
      rw [Board.get?_of_inBoard ⟨hs.1, hs.2, hx.1, hx.2⟩, Option.bind_eq_bind, Option.bind_some]
      exact Board.set?_of_inBoard (fun q => g (source, q.2)) ⟨ht.1, ht.2, hx.1, hx.2⟩
    · -- a row copied onto itself stays as it is
      funext q
      by_cases hq : (source, q.2) = ((target, x) : Pos)
      · exact Board.paint_apply_of_mem (List.mem_singleton.2 hq)
      · exact Board.paint_apply_of_not_mem (mt List.mem_singleton.1 hq)
  rw [hpaint]
  refine congrArg some (funext fun p => ?_)
  rw [rowCopied, Board.paint]
  simp only [mem_rowCells]

/-- **The second loop.** The rows `rows` descend, so the row to copy has not been overwritten. -/
theorem copyRows_eq (rows : List Int) (grid : Grid) (target : Int) (htarget : target < 20)
    (hrows : ∀ y ∈ rows, 0 ≤ y ∧ y ≤ target) (hdesc : rows.Pairwise (· > ·))
    (hlen : (rows.length : Int) ≤ target + 1) : ∃ grid',
    copyRows grid target rows = some (grid', target - rows.length) ∧
    (∀ (k : Nat) (row : Int), rows[k]? = some row →
      ∀ x, 0 ≤ x → x < 16 → grid' (target - k, x) = grid (row, x)) ∧
    ∀ p : Pos, p.1 ≤ target - rows.length ∨ target < p.1 → grid' p = grid p := by
  induction rows generalizing grid target with
  | nil =>
    refine ⟨grid, by simp [copyRows], fun k row hk => ?_, fun p _ => rfl⟩
    cases hk
  | cons source rows ih =>
    have hs := hrows source List.mem_cons_self
    have hbelow : ∀ y ∈ rows, y < source := fun y hy => (List.pairwise_cons.1 hdesc).1 y hy
    rw [List.length_cons] at hlen ⊢
    obtain ⟨grid', heq, hfallen, hframe⟩ := ih (rowCopied grid target source)
      (target - 1) (by omega)
      (fun y hy => ⟨(hrows y (List.mem_cons_of_mem _ hy)).1, by have := hbelow y hy; omega⟩)
      (List.pairwise_cons.1 hdesc).2 (by omega)
    refine ⟨grid', ?_, fun k row hk x h₁ h₂ => ?_, fun p hp => ?_⟩
    · rw [copyRows, copyRow_eq grid ⟨by omega, htarget⟩ ⟨hs.1, by omega⟩, Option.bind_eq_bind,
        Option.bind_some, heq]
      refine congrArg some (Prod.ext rfl ?_)
      dsimp only
      omega
    · cases k with
      | zero =>
        cases hk
        have h := hframe (target, x) (.inr (by dsimp only; omega))
        rw [rowCopied, if_pos ⟨rfl, h₁, h₂⟩] at h
        rw [Int.natCast_zero, Int.sub_zero, h]
      | succ k =>
        rw [List.getElem?_cons_succ] at hk
        have hne : row ≠ target := by
          have := hbelow row (List.mem_of_getElem? hk)
          omega
        have h := hfallen k row hk x h₁ h₂
        rw [rowCopied, if_neg fun hc => hne hc.1] at h
        rw [← h]
        exact congrArg (fun y => grid' (y, x)) (by omega)
    · rw [hframe p (by omega), rowCopied, if_neg (by omega)]

/-- A row is cleared within the grid. -/
theorem clearRow_eq (grid : Grid) (ht : 0 ≤ target ∧ target < 20) : clearRow grid target =
    some (grid.paint (gridColumns.map fun x => (target, x)) fun q =>
      { grid q with isSet := 0 }) := by
  refine Board.foldlM_eq_paint_of_stable (f := fun g q => { g q with isSet := 0 })
    (fun g x hx => ?_) (fun g x _ => ?_) grid
  · have hx := mem_gridColumns.1 hx
    rw [Board.get?_of_inBoard ⟨ht.1, ht.2, hx.1, hx.2⟩, Option.bind_eq_bind, Option.bind_some]
    exact Board.set?_of_inBoard (b := g) (fun q => { g q with isSet := 0 }) ⟨ht.1, ht.2, hx.1, hx.2⟩
  · funext q
    by_cases hq : q = ((target, x) : Pos)
    · rw [Board.paint_apply_of_mem (List.mem_singleton.2 hq)]
    · rw [Board.paint_apply_of_not_mem (mt List.mem_singleton.1 hq)]

/-- **The last loop** unsets the rows above. -/
theorem clearRows_eq (n : Nat) (grid : Grid) (hn : n ≤ 20) : ∃ grid',
    clearRows grid n = some grid' ∧
    (∀ y x : Int, 0 ≤ y → y < n → 0 ≤ x → x < 16 → (grid' (y, x)).isSet = 0) ∧
    ∀ p : Pos, (n : Int) ≤ p.1 → grid' p = grid p := by
  induction n generalizing grid with
  | zero => exact ⟨grid, rfl, fun y x h₁ h₂ => by omega, fun p _ => rfl⟩
  | succ n ih =>
    obtain ⟨grid', heq, hzero, hframe⟩ := ih (grid.paint (gridColumns.map fun x => ((n : Int), x))
      fun q => { grid q with isSet := 0 }) (by omega)
    refine ⟨grid', ?_, fun y x h₁ h₂ h₃ h₄ => ?_, fun p hp => ?_⟩
    · rw [clearRows, clearRow_eq grid ⟨by omega, by omega⟩, Option.bind_eq_bind,
        Option.bind_some, heq]
    · by_cases hy : y < n
      · exact hzero y x h₁ hy h₃ h₄
      · rw [hframe (y, x) (by dsimp only; omega),
          Board.paint_apply_of_mem (mem_rowCells.2 ⟨by dsimp only; omega, h₃, h₄⟩)]
    · rw [hframe p (by omega), Board.paint_apply_of_not_mem]
      intro hmem
      have := (mem_rowCells.1 hmem).1
      omega

/-! ## The result -/

/-- The rows from below, counted from 0. -/
theorem gridRows_reverse_getElem? {k : Nat} (hk : k < 20) :
    gridRows.reverse[k]? = some (19 - k : Int) := by
  have hall : ∀ k : Fin 20, gridRows.reverse[k.val]? = some (19 - (k.val : Int)) := by decide
  exact hall ⟨k, hk⟩

/-- They go upwards. -/
theorem gridRows_reverse_pairwise : gridRows.reverse.Pairwise (· > ·) := by decide

/-- Every row is full or kept. -/
theorem keptRows_length_add (grid : Grid) : (keptRows grid).length + fullRows grid = 20 := by
  have h : gridRows.reverse.length = 20 := by decide
  rw [keptRows, fullRows, ← List.countP_eq_length_filter]
  rw [List.length_eq_countP_add_countP (fun row => decide (FullRow grid row))] at h
  simp only [decide_not, decide_eq_true_eq] at h ⊢
  omega

/-- A row that is kept is a row of the grid. -/
theorem mem_keptRows {grid : Grid} {row : Int} (h : row ∈ keptRows grid) : 0 ≤ row ∧ row < 20 :=
  mem_gridRows.1 (List.mem_reverse.1 (List.mem_of_mem_filter h))

/-- Without a full row nothing happens. -/
theorem purgeGrid_of_fullRows_eq_zero {s : Tetris} (h : fullRows s.grid = 0) :
    purgeGrid s = some s := by
  rw [purgeGrid, sortRows_eq, Option.bind_eq_bind, Option.bind_some]
  exact if_pos h

/-- **`purge_grid` drops the full rows**, and counts them in the score. -/
theorem purgeGrid_purged (s : Tetris) : ∃ grid',
    purgeGrid s = some { s with grid := grid', score := s.score + fullRows s.grid } ∧
    Purged s.grid grid' := by
  have hlen := keptRows_length_add s.grid
  by_cases hfull : fullRows s.grid = 0
  · -- no row is full, and every row stays where it is
    have hkept : keptRows s.grid = gridRows.reverse := by
      refine List.filter_eq_self.2 fun row hrow => ?_
      have hnone := List.countP_eq_zero.1 hfull row hrow
      simpa using hnone
    refine ⟨s.grid, ?_, fun k row hk x _ _ => ?_, fun y x h₁ h₂ => by omega⟩
    · rw [purgeGrid_of_fullRows_eq_zero hfull, hfull, Int.natCast_zero, Int.add_zero]
    · rw [hkept] at hk
      have hklt : k < 20 := (List.getElem?_eq_some_iff.1 hk).1
      rw [gridRows_reverse_getElem? hklt] at hk
      cases hk
      rfl
  · rw [purgeGrid, sortRows_eq, Option.bind_eq_bind, Option.bind_some]
    obtain ⟨g₁, hcopy, hfallen, -⟩ := copyRows_eq (keptRows s.grid) s.grid 19 (by omega)
      (fun y hy => by have := mem_keptRows hy; omega)
        (gridRows_reverse_pairwise.filter _) (by omega)
    have hcount : ((19 - ((keptRows s.grid).length : Int)) + 1).toNat = fullRows s.grid := by omega
    obtain ⟨g₂, hclear, hzero, hframe⟩ := clearRows_eq (fullRows s.grid) g₁ (by omega)
    refine ⟨g₂, ?_, fun k row hk x h₁ h₂ => ?_, fun y x h₁ h₂ h₃ h₄ =>
      hzero y x h₁ (by omega) h₃ h₄⟩
    · simp only [if_neg hfull, hcopy, Option.bind_eq_bind, Option.bind_some, hcount, hclear]
    · have hklt : k < (keptRows s.grid).length := (List.getElem?_eq_some_iff.1 hk).1
      rw [hframe _ (by dsimp only; omega), hfallen k row hk x h₁ h₂]

/-- Every cell of the result is unset or comes from the grid. -/
theorem Purged.cell {grid grid' : Grid} (h : Purged grid grid') {p : Pos} (hp : InBoard 20 16 p) :
    (grid' p).isSet = 0 ∨ ∃ q, InBoard 20 16 q ∧ grid' p = grid q := by
  obtain ⟨h₁, h₂, h₃, h₄⟩ := hp
  by_cases hlt : p.1 < 20 - ((keptRows grid).length : Int)
  · exact .inl (h.empty p.1 p.2 h₁ hlt h₃ h₄)
  · have hk : (19 - p.1).toNat < (keptRows grid).length := by omega
    have hrow := mem_keptRows (List.getElem_mem hk)
    refine .inr ⟨((keptRows grid)[(19 - p.1).toNat], p.2), ⟨hrow.1, hrow.2, h₃, h₄⟩, ?_⟩
    rw [← h.fallen _ _ (List.getElem?_eq_getElem hk) p.2 h₃ h₄]
    exact congrArg grid' (Prod.ext (by dsimp only; omega) rfl)

end

/-! ## Line clearing -/

/-- What the player sees of a cell: nothing unless it is set. -/
def GridElem.shown (e : GridElem) : Option GridElem := if e.isSet = 0 then none else some e

/-- The cells of a row. -/
def gridRow (grid : Grid) (row : Int) : List GridElem := gridColumns.map fun x => grid (row, x)

/-- The rows of the grid from the bottom upwards. -/
def rowsUpwards (grid : Grid) : List (List GridElem) := gridRows.reverse.map (gridRow grid)

/-- Every cell of the row is set. -/
def CompletelySet (cells : List GridElem) : Prop := ∀ e ∈ cells, e.isSet ≠ 0

instance (cells : List GridElem) : Decidable (CompletelySet cells) :=
  inferInstanceAs (Decidable (∀ e ∈ cells, _))

/-- Line clearing, as the player sees it: of the rows from the bottom upwards those that are not
completely set stay, and as many empty rows as are missing come on top. -/
def clearLines (rows : List (List GridElem)) : List (List (Option GridElem)) :=
  let left := rows.filter fun cells => ¬ CompletelySet cells
  left.map (·.map GridElem.shown) ++
    List.replicate (rows.length - left.length) (List.replicate 16 none)

section
variable {grid grid' : Grid} {row : Int}

/-- A row is full exactly if all its cells are set. -/
theorem completelySet_gridRow : CompletelySet (gridRow grid row) ↔ FullRow grid row := by
  rw [CompletelySet, gridRow, List.forall_mem_map, FullRow]

/-- The full rows among all rows, -/
theorem rowsUpwards_countP (grid : Grid) :
    (rowsUpwards grid).countP (fun cells => CompletelySet cells) = fullRows grid := by
  rw [rowsUpwards, List.countP_map, fullRows]
  refine List.countP_congr fun row _ => ?_
  simp only [Function.comp_apply, completelySet_gridRow]

/-- and the others, in their order. -/
theorem rowsUpwards_filter (grid : Grid) :
    (rowsUpwards grid).filter (fun cells => ¬ CompletelySet cells) =
      (keptRows grid).map (gridRow grid) := by
  rw [rowsUpwards, List.filter_map, keptRows]
  refine congrArg _ (List.filter_congr fun row _ => ?_)
  simp only [Function.comp_apply, completelySet_gridRow]

/-- A row of unset cells shows nothing. -/
theorem gridRow_shown_of_unset (h : ∀ x, 0 ≤ x → x < 16 → (grid (row, x)).isSet = 0) :
    (gridRow grid row).map GridElem.shown = List.replicate 16 none := by
  refine List.eq_replicate_iff.2 ⟨by simp [gridRow, gridColumns], fun e he => ?_⟩
  rw [gridRow, List.map_map, List.mem_map] at he
  obtain ⟨x, hx, rfl⟩ := he
  have hx := mem_gridColumns.1 hx
  exact if_pos (h x hx.1 hx.2)

/-- **Dropping the full rows is line clearing.** -/
theorem Purged.clearLines (h : Purged grid grid') :
    (rowsUpwards grid').map (·.map GridElem.shown) = clearLines (rowsUpwards grid) := by
  have hlen := keptRows_length_add grid
  have hrows : (rowsUpwards grid).length = 20 := by simp [rowsUpwards, gridRows]
  rw [ZeldaOS.clearLines, rowsUpwards_filter, hrows, List.length_map]
  refine List.ext_getElem? fun k => ?_
  by_cases hk : k < 20
  · have hnew : ((rowsUpwards grid').map (·.map GridElem.shown))[k]? =
        some ((gridRow grid' (19 - k)).map GridElem.shown) := by
      rw [List.getElem?_map, rowsUpwards, List.getElem?_map, gridRows_reverse_getElem? hk,
        Option.map_some, Option.map_some]
    rw [hnew]
    by_cases hkept : k < (keptRows grid).length
    · -- a row that is left
      rw [List.getElem?_append_left (by simpa using hkept), List.getElem?_map, List.getElem?_map,
        List.getElem?_eq_getElem hkept, Option.map_some, Option.map_some]
      have hrow : gridRow grid' (19 - k) = gridRow grid (keptRows grid)[k] := by
        refine List.map_congr_left fun x hx => ?_
        have hx := mem_gridColumns.1 hx
        exact h.fallen k _ (List.getElem?_eq_getElem hkept) x hx.1 hx.2
      rw [hrow]
    · -- an empty row
      rw [List.getElem?_append_right (by simpa using hkept), List.length_map, List.length_map,
        List.getElem?_replicate, if_pos (by omega)]
      refine congrArg some (gridRow_shown_of_unset fun x h₁ h₂ => ?_)
      exact h.empty _ x (by omega) (by omega) h₁ h₂
  · rw [List.getElem?_eq_none (by simpa [rowsUpwards, gridRows] using hk),
      List.getElem?_eq_none (by simp only [List.length_append, List.length_map,
        List.length_replicate]; omega)]

end

/-- **`purge_grid` clears lines.** The rows left fall to the bottom in their order, with the colors
of their set cells, the rows above are empty, the score counts the rows cleared, and without such a
row nothing changes. -/
theorem purgeGrid_clears_lines (s : Tetris) : ∃ s',
    purgeGrid s = some s' ∧
    (rowsUpwards s'.grid).map (·.map GridElem.shown) = clearLines (rowsUpwards s.grid) ∧
    s'.score = s.score + (rowsUpwards s.grid).countP (fun cells => CompletelySet cells) ∧
    s' = { s with grid := s'.grid, score := s'.score } ∧
    ((∀ cells ∈ rowsUpwards s.grid, ¬ CompletelySet cells) → s' = s) := by
  obtain ⟨grid', heq, hpurged⟩ := purgeGrid_purged s
  refine ⟨_, heq, hpurged.clearLines, ?_, rfl, fun hnone => ?_⟩
  · rw [rowsUpwards_countP]
  · have hzero : fullRows s.grid = 0 := by
      rw [← rowsUpwards_countP, List.countP_eq_zero]
      simpa using hnone
    rw [purgeGrid_of_fullRows_eq_zero hzero] at heq
    exact (Option.some.inj heq).symm

end ZeldaOS
