import ZeldaOS.Guest.Tetris

/-!
# Blocks on the grid and on the screen

What the functions of `tetris.c` do to the grid and to the screen, one lemma for each. A block
covers four cells (`Block.cells`); it is `Placed` when its pointers are good and its cells are on
the grid, and it `Fits` a grid when its cells are on it and unset. `is_block_clashing` decides
`Fits` (`isBlockClashing_eq`), and neither it nor the functions that store to the grid or draw leave
their bounds when the block is placed. `init_grid` draws every cell of the grid (`initGrid_eq`).
-/

namespace ZeldaOS

/-! ## Cells of a block -/

/-- The cells that a block covers. -/
def Block.cells (b : Block) : List Pos :=
  match b.shp with
  | none => []
  | some shp => shp.points.map fun point => (b.yPos + highNibble point, b.xPos + lowNibble point)

/-- The pointers of the block point to a group and to one of its shapes. -/
def Block.Valid (b : Block) : Prop :=
  ∃ grp shp, b.grp = some grp ∧ b.shp = some shp ∧ shp ∈ grp.shapes

/-- The block is valid, its cells are on the grid and its color is one of the screen's. -/
structure Block.Placed (b : Block) : Prop where
  valid : b.Valid
  inGrid : ∀ p ∈ b.cells, InBoard 20 16 p
  color_lt : b.color < 16

/-- The cells of the block are on the grid and unset. -/
def Fits (grid : Grid) (b : Block) : Prop := ∀ p ∈ b.cells, InBoard 20 16 p ∧ (grid p).isSet = 0

instance (grid : Grid) (b : Block) : Decidable (Fits grid b) :=
  inferInstanceAs (Decidable (∀ p ∈ b.cells, _))

section
variable {grid : Grid} {b : Block} {shp : Shape}

/-- The cells of a block, for its shape. -/
theorem Block.cells_eq (h : b.shp = some shp) : b.cells =
    shp.points.map fun point => (b.yPos + highNibble point, b.xPos + lowNibble point) := by
  rw [Block.cells, h]

/-- The rows and columns of the points of a shape. -/
theorem Shape.points_bounds (shp : Shape) : ∀ point ∈ shp.points,
    0 ≤ highNibble point ∧ highNibble point ≤ 3 ∧ 0 ≤ lowNibble point ∧ lowNibble point ≤ 3 := by
  cases shp <;> decide +kernel

/-- The four points of a shape are distinct. -/
theorem Shape.points_nodup (shp : Shape) :
    (shp.points.map fun point => (highNibble point, lowNibble point)).Nodup := by
  cases shp <;> decide +kernel

/-- Every shape has four points. -/
theorem Shape.points_length (shp : Shape) : shp.points.length = 4 := by
  cases shp <;> rfl

/-- So a block has four cells, -/
theorem Block.cells_length (h : b.shp = some shp) : b.cells.length = 4 := by
  rw [b.cells_eq h, List.length_map, shp.points_length]

/-- and they are different. -/
theorem Block.cells_nodup (h : b.shp = some shp) : b.cells.Nodup := by
  have hinj : Function.Injective fun o : Pos => ((b.yPos + o.1, b.xPos + o.2) : Pos) := by
    intro o o' heq
    have h₁ := congrArg Prod.fst heq
    have h₂ := congrArg Prod.snd heq
    exact Prod.ext (Int.add_left_cancel h₁) (Int.add_left_cancel h₂)
  have hmap := shp.points_nodup.map hinj
  rw [List.map_map] at hmap
  rw [b.cells_eq h]
  exact hmap

/-- A block that fits is on the grid. -/
theorem Fits.placed (h : Fits grid b) (hv : b.Valid) (hc : b.color < 16) : b.Placed :=
  ⟨hv, fun p hp => (h p hp).1, hc⟩

/-! ## Clashes -/

/-- The loop looks at the points until one is off the grid or on a cell that is set. -/
theorem clashLoop_eq (grid : Grid) (b : Block) (points : List UInt8) :
    clashLoop grid b points = some (!points.all fun point =>
      decide (InBoard 20 16 (b.yPos + highNibble point, b.xPos + lowNibble point)) &&
      (grid (b.yPos + highNibble point, b.xPos + lowNibble point)).isSet == 0) := by
  induction points with
  | nil => rfl
  | cons point points ih =>
    rw [clashLoop]
    by_cases hin : InBoard 20 16 (b.yPos + highNibble point, b.xPos + lowNibble point)
    · have hout : ¬ (b.xPos + lowNibble point < 0 ∨ b.xPos + lowNibble point ≥ 16 ∨
          b.yPos + highNibble point < 0 ∨ b.yPos + highNibble point ≥ 20) := by
        obtain ⟨h₁, h₂, h₃, h₄⟩ := hin
        dsimp only at h₁ h₂ h₃ h₄
        omega
      rw [if_neg hout, Board.get?_of_inBoard hin, Option.bind_eq_bind, Option.bind_some, ih]
      by_cases hset : (grid (b.yPos + highNibble point, b.xPos + lowNibble point)).isSet = 0
      · simp [hin, hset]
      · simp [hset]
    · have hout : b.xPos + lowNibble point < 0 ∨ b.xPos + lowNibble point ≥ 16 ∨
          b.yPos + highNibble point < 0 ∨ b.yPos + highNibble point ≥ 20 := by
        rw [InBoard] at hin
        omega
      rw [if_pos hout]
      simp [hin]

/-- **`is_block_clashing` decides whether the block fits.** -/
theorem isBlockClashing_eq (grid : Grid) (hv : b.Valid) :
    isBlockClashing grid b = some (!decide (Fits grid b)) := by
  obtain ⟨grp, shp, -, hshp, -⟩ := hv
  rw [isBlockClashing, hshp, Option.bind_eq_bind, Option.bind_some, clashLoop_eq]
  refine congrArg (fun c => some !c) (Bool.eq_iff_iff.2 ?_)
  simp only [List.all_eq_true, Bool.and_eq_true, decide_eq_true_eq, beq_iff_eq, Fits,
    b.cells_eq hshp, List.forall_mem_map]

/-- A valid block does not clash exactly if it fits. -/
theorem isBlockClashing_eq_false (hv : b.Valid) :
    isBlockClashing grid b = some false ↔ Fits grid b := by
  rw [isBlockClashing_eq grid hv]
  simp

/-! ## Locking -/

/-- **`finalize_block` sets the cells of the block.** -/
theorem finalizeBlock_eq (grid : Grid) (hp : b.Placed) :
    finalizeBlock grid b = some (grid.paint b.cells fun _ => ⟨1, UInt8.ofNat b.color⟩) := by
  obtain ⟨grp, shp, -, hshp, -⟩ := hp.valid
  have hin := hp.inGrid
  rw [b.cells_eq hshp] at hin ⊢
  rw [finalizeBlock, hshp, Option.bind_eq_bind, Option.bind_some]
  refine Board.foldlM_eq_paint (fun grid point hpoint => ?_) grid
  exact Board.set?_of_inBoard (fun _ => _) (hin _ (List.mem_map_of_mem hpoint))

end

/-! ## Moves -/

/-- A change of the block that depends on its pointers and its position only. -/
structure Moves (move : Block → Option Block) : Prop where
  valid : ∀ b : Block, b.Valid → ∃ b', move b = some b' ∧ b'.Valid ∧ b'.color = b.color
  plotted : ∀ (b : Block) (k : Nat),
    move { b with plotted := k } = (move b).map fun b' => { b' with plotted := k }

/-- The step to the left moves a block. -/
theorem moves_left : Moves moveLeft := by
  refine ⟨fun b hv => ⟨_, rfl, ?_, rfl⟩, fun b k => rfl⟩
  exact hv

/-- The step to the right moves a block. -/
theorem moves_right : Moves moveRight := by
  refine ⟨fun b hv => ⟨_, rfl, ?_, rfl⟩, fun b k => rfl⟩
  exact hv

/-- The step down moves a block. -/
theorem moves_down : Moves moveDown := by
  refine ⟨fun b hv => ⟨_, rfl, ?_, rfl⟩, fun b k => rfl⟩
  exact hv

/-- `rotate_block` gives the block a shape of its group. -/
theorem moves_rotate : Moves rotateBlock := by
  refine ⟨fun b hv => ?_, fun b k => ?_⟩
  · obtain ⟨grp, shp, hgrp, hshp, hmem⟩ := hv
    have hpos : 0 < grp.shapes.length := List.length_pos_of_mem hmem
    have hlt : nextIndex grp b.shp < grp.shapes.length := by
      rw [nextIndex]
      split
      · exact hpos
      · exact Nat.mod_lt _ hpos
    rw [rotateBlock, hgrp, Option.bind_eq_bind, Option.bind_some, List.getElem?_eq_getElem hlt,
      Option.bind_eq_bind, Option.bind_some]
    exact ⟨_, rfl, ⟨grp, grp.shapes[nextIndex grp b.shp], rfl, rfl, List.getElem_mem hlt⟩, rfl⟩
  · simp only [rotateBlock]
    cases b.grp with
    | none => rfl
    | some grp =>
      simp only [Option.bind_eq_bind, Option.bind_some]
      cases grp.shapes[nextIndex grp b.shp]? with
      | none => rfl
      | some shp => rfl

/-- **`new_block` places a block**, and keeps the flag of the one before. -/
theorem newBlock_placed (r : Rand) (b : Block) :
    ∃ b', newBlock r b = some b' ∧ b'.Placed ∧ b'.plotted = b.plotted := by
  have hgrp : r.grp % 4 < shapeGrps.length := Nat.mod_lt _ (by decide)
  have hcolor : r.color % colors.length < colors.length := Nat.mod_lt _ (by decide)
  have hlt : ∀ c ∈ colors, c < 16 := by decide
  generalize hg : shapeGrps[r.grp % 4] = grp
  have hpos : 0 < grp.shapes.length := by
    cases grp <;> decide
  have hshp : r.shp % grp.shapes.length < grp.shapes.length := Nat.mod_lt _ hpos
  refine ⟨{ b with
    grp := some grp
    shp := some grp.shapes[r.shp % grp.shapes.length]
    color := colors[r.color % colors.length]
    xPos := 8
    yPos := 0 }, ?_,
      ⟨⟨grp, _, rfl, rfl, List.getElem_mem hshp⟩, ?_, hlt _ (List.getElem_mem hcolor)⟩,
    rfl⟩
  · rw [newBlock, List.getElem?_eq_getElem hgrp, hg, Option.bind_eq_bind, Option.bind_some,
      List.getElem?_eq_getElem hshp, Option.bind_eq_bind, Option.bind_some,
      List.getElem?_eq_getElem hcolor, Option.bind_eq_bind, Option.bind_some]
  · intro p hp
    obtain ⟨point, hpoint, rfl⟩ := List.mem_map.1 hp
    obtain ⟨h₁, h₂, h₃, h₄⟩ := Shape.points_bounds _ point hpoint
    exact ⟨by dsimp only; omega, by dsimp only; omega, by dsimp only; omega, by dsimp only; omega⟩

/-! ## Drawing -/

/-- The place of a cell of the grid on the screen. -/
def onScreen (p : Pos) : Pos := (p.1 + 4, p.2 + 62)

/-- Different cells are shown at different places. -/
theorem onScreen_inj {p q : Pos} : onScreen p = onScreen q ↔ p = q := by
  simp only [onScreen, Prod.ext_iff]
  omega

/-- A cell of the grid is shown on the screen. -/
theorem InBoard.onScreen {p : Pos} (h : InBoard 20 16 p) : InBoard 25 80 (onScreen p) := by
  obtain ⟨h₁, h₂, h₃, h₄⟩ := h
  exact ⟨by dsimp only [ZeldaOS.onScreen]; omega, by dsimp only [ZeldaOS.onScreen]; omega,
    by dsimp only [ZeldaOS.onScreen]; omega, by dsimp only [ZeldaOS.onScreen]; omega⟩

/-- The screen with the cells `ps` of the grid drawn as `c`. -/
def drawn (screen : Screen) (ps : List Pos) (c : CharCell) : Screen :=
  screen.paint (ps.map onScreen) fun _ => c

section
variable {screen : Screen} {ps : List Pos} {c : CharCell} {p : Pos} {b : Block}

/-- A place shows one of the cells exactly if it is the place of one of them. -/
theorem mem_map_onScreen : onScreen p ∈ ps.map onScreen ↔ p ∈ ps := by
  rw [List.mem_map]
  constructor
  · rintro ⟨q, hq, heq⟩
    rwa [← onScreen_inj.1 heq]
  · exact fun h => ⟨p, h, rfl⟩

/-- A cell that is drawn shows the character. -/
theorem drawn_of_mem (h : p ∈ ps) : drawn screen ps c (onScreen p) = c :=
  Board.paint_apply_of_mem (mem_map_onScreen.2 h)

/-- The other cells are shown as before. -/
theorem drawn_of_not_mem (h : p ∉ ps) : drawn screen ps c (onScreen p) = screen (onScreen p) :=
  Board.paint_apply_of_not_mem (mt mem_map_onScreen.1 h)

/-- The loops of `plot_shape` and `unplot_shape`. -/
theorem plotLoop_eq {shp : Shape} (hshp : b.shp = some shp) (hin : ∀ p ∈ b.cells, InBoard 20 16 p) :
    shp.points.foldlM (fun screen point => screen.set?
      (b.yPos + 4 + highNibble point, b.xPos + 62 + lowNibble point) c) screen =
      some (drawn screen b.cells c) := by
  rw [b.cells_eq hshp] at hin
  have hpos : ∀ point : UInt8,
    ((b.yPos + 4 + highNibble point, b.xPos + 62 + lowNibble point) : Pos) =
      onScreen (b.yPos + highNibble point, b.xPos + lowNibble point) := by
    intro point
    simp only [onScreen, Prod.ext_iff]
    omega
  rw [drawn, b.cells_eq hshp, List.map_map]
  refine Board.foldlM_eq_paint (fun screen point hpoint => ?_) screen
  rw [hpos]
  exact Board.set?_of_inBoard (fun _ => c) (hin _ (List.mem_map_of_mem hpoint)).onScreen

/-- The screen with the block plotted. -/
def plotted (screen : Screen) (b : Block) : Screen :=
  drawn screen b.cells ⟨0x20, makeByte b.color 0xf⟩

/-- The screen with the block removed, if it was plotted. -/
def unplotted (screen : Screen) (b : Block) : Screen :=
  if b.plotted = 0 then screen else drawn screen b.cells ⟨0x2e, makeByte 0x0 0x1⟩

/-- **`plot_block` draws a placed block.** -/
theorem plotBlock_eq {s : Tetris} (hp : s.blk.Placed) : plotBlock s =
    some { s with screen := plotted s.screen s.blk, blk := { s.blk with plotted := 1 } } := by
  obtain ⟨grp, shp, -, hshp, -⟩ := hp.valid
  rw [plotBlock, hshp, Option.bind_eq_bind, Option.bind_some, plotShape]
  simp only [plotLoop_eq hshp hp.inGrid]
  rfl

/-- **`unplot_block` removes a placed block.** -/
theorem unplotBlock_eq {s : Tetris} (hp : s.blk.Placed) : unplotBlock s =
    some { s with screen := unplotted s.screen s.blk, blk := { s.blk with plotted := 0 } } := by
  obtain ⟨grp, shp, -, hshp, -⟩ := hp.valid
  rw [unplotBlock, unplotted]
  split
  · next h =>
    have hblk : ({ s.blk with plotted := 0 } : Block) = s.blk := by
      rw [← h]
    rw [hblk]
  · rw [hshp, Option.bind_eq_bind, Option.bind_some, unplotShape]
    simp only [plotLoop_eq hshp hp.inGrid]
    rfl

end

/-! ## Drawing the grid -/

/-- The columns are 0 to 15. -/
theorem mem_gridColumns {x : Int} : x ∈ gridColumns ↔ 0 ≤ x ∧ x < 16 := mem_range_ofNat

/-- The rows are 0 to 19. -/
theorem mem_gridRows {y : Int} : y ∈ gridRows ↔ 0 ≤ y ∧ y < 20 := mem_range_ofNat

/-- The cells that are drawn are all of the grid. -/
theorem mem_gridCells {p : Pos} : p ∈ gridCells ↔ InBoard 20 16 p := by
  obtain ⟨y, x⟩ := p
  simp only [gridCells, List.mem_flatMap, List.mem_map, mem_gridRows, mem_gridColumns, InBoard]
  constructor
  · rintro ⟨y', ⟨h₁, h₂⟩, x', ⟨h₃, h₄⟩, heq⟩
    cases heq
    exact ⟨h₁, h₂, h₃, h₄⟩
  · rintro ⟨h₁, h₂, h₃, h₄⟩
    exact ⟨y, ⟨h₁, h₂⟩, x, ⟨h₃, h₄⟩, rfl⟩

/-- `draw_grid` shows every cell of the grid. -/
theorem drawGrid_eq (grid : Grid) (screen : Screen) : drawGrid grid screen =
    some (screen.paint (gridCells.map onScreen) fun q => gridCell (grid (q.1 - 4, q.2 - 62))) := by
  refine Board.foldlM_eq_paint (fun screen p hp => ?_) screen
  have hin := mem_gridCells.1 hp
  have hback : (((onScreen p).1 - 4, (onScreen p).2 - 62) : Pos) = p := by
    simp only [onScreen, Prod.ext_iff]
    omega
  have hset := Board.set?_of_inBoard (b := screen)
    (fun q : Pos => gridCell (grid (q.1 - 4, q.2 - 62))) hin.onScreen
  simp only [hback] at hset
  rw [Board.get?_of_inBoard hin, Option.bind_eq_bind, Option.bind_some]
  exact hset

/-- The frame is on the screen and around the grid. -/
theorem mem_frameCells {q : Pos} (h : q ∈ frameCells) :
    InBoard 25 80 q ∧ ∀ p, InBoard 20 16 p → q ≠ onScreen p := by
  have hplace : (q.1 = 24 ∧ 61 ≤ q.2 ∧ q.2 < 79) ∨
      (4 ≤ q.1 ∧ q.1 < 24 ∧ (q.2 = 61 ∨ q.2 = 78)) := by
    simp only [frameCells, List.mem_append, List.mem_map, List.mem_range, List.mem_flatMap,
      mem_gridRows, List.mem_cons, List.not_mem_nil, or_false] at h
    rcases h with ⟨x, hx, rfl⟩ | ⟨y, hy, rfl | rfl⟩
    · left
      dsimp only
      omega
    · right
      dsimp only
      omega
    · right
      dsimp only
      omega
  refine ⟨by rw [InBoard]; omega, fun p hp heq => ?_⟩
  obtain ⟨h₁, h₂, h₃, h₄⟩ := hp
  have hrow : q.1 = p.1 + 4 := congrArg Prod.fst heq
  have hcol : q.2 = p.2 + 62 := congrArg Prod.snd heq
  omega

/-- `draw_frame` shows the frame. -/
theorem drawFrame_eq (screen : Screen) : drawFrame screen =
    some (screen.paint (frameCells.map id) fun _ => ⟨0x3d, makeByte 0x0 0xf⟩) := by
  refine Board.foldlM_eq_paint (fun screen p hp => ?_) screen
  exact Board.set?_of_inBoard (fun _ => _) (mem_frameCells hp).1

/-- **`init_grid` draws every cell of the grid.** -/
theorem initGrid_eq (s : Tetris) (inner : Bool) : ∃ screen,
    initGrid s inner = some { s with screen := screen } ∧
    ∀ p, InBoard 20 16 p → screen (onScreen p) = gridCell (s.grid p) := by
  have hgrid : ∀ p, InBoard 20 16 p → (s.screen.paint (gridCells.map onScreen)
      fun q => gridCell (s.grid (q.1 - 4, q.2 - 62))) (onScreen p) = gridCell (s.grid p) := by
    intro p hp
    rw [Board.paint_apply_of_mem (mem_map_onScreen.2 (mem_gridCells.2 hp))]
    simp only [onScreen, Int.add_sub_cancel]
  cases inner with
  | true =>
    refine ⟨_, ?_, hgrid⟩
    rw [initGrid, drawGrid_eq, Option.bind_eq_bind, Option.bind_some, if_pos rfl]
  | false =>
    refine ⟨_, by rw [initGrid, drawGrid_eq, Option.bind_eq_bind, Option.bind_some,
      if_neg Bool.false_ne_true, drawFrame_eq, Option.bind_some], fun p hp => ?_⟩
    refine Eq.trans (Board.paint_apply_of_not_mem fun hmem => ?_) (hgrid p hp)
    rw [List.map_id] at hmem
    exact (mem_frameCells hmem).2 p hp rfl

end ZeldaOS
