import ZeldaOS.Lib.Board
import ZeldaOS.Lib.Memory
import ZeldaOS.Lib.Run

/-!
# The guest's game

Model of `guest/tetris.c` with the keyboard handler of `guest/keyboard.c` and the texts of
`guest/video.c`: a game on a grid of 20 rows and 16 columns, drawn on a text screen of 25 rows and
80 columns. An access outside the grid or the screen, and the use of a pointer that points to no
shape, has no result.

The guest's `memset` copies the bytes at its second argument, so `memset(grid, 0x0, ..)` makes the
grid out of the bytes at address 0. They are below the guest's image and nothing in the guest writes
them; what they are is a parameter (`GuestLow`).
-/

namespace ZeldaOS

/-! ## Shapes -/

/-- `MAKE_BYTE`. -/
def makeByte (hi lo : Nat) : UInt8 := UInt8.ofNat (((hi <<< 4) &&& 0xf0) ||| (lo &&& 0xf))

/-- `LOW_NIBBLE`. -/
def lowNibble (b : UInt8) : Int := (b.toNat &&& 0xf : Nat)

/-- `HIGH_NIBBLE`. -/
def highNibble (b : UInt8) : Int := ((b.toNat >>> 4) &&& 0xf : Nat)

/-- The `struct shape`s. -/
inductive Shape
  | shape0 | shape1 | shape2 | shape3 | shape4 | shape5 | shape6 | shape7 | shape8
deriving DecidableEq, Repr

/-- The points of a shape: the row of a point is the high nibble, the column the low one. -/
def Shape.points : Shape → List UInt8
  | .shape0 => [makeByte 0 0, makeByte 0 1, makeByte 1 1, makeByte 1 2]
  | .shape1 => [makeByte 0 1, makeByte 1 1, makeByte 1 0, makeByte 2 0]
  | .shape2 => [makeByte 0 0, makeByte 1 0, makeByte 2 0, makeByte 3 0]
  | .shape3 => [makeByte 0 0, makeByte 0 1, makeByte 0 2, makeByte 0 3]
  | .shape4 => [makeByte 0 1, makeByte 1 0, makeByte 1 1, makeByte 1 2]
  | .shape5 => [makeByte 0 0, makeByte 1 0, makeByte 1 1, makeByte 2 0]
  | .shape6 => [makeByte 0 0, makeByte 0 1, makeByte 0 2, makeByte 1 1]
  | .shape7 => [makeByte 0 1, makeByte 1 0, makeByte 1 1, makeByte 2 1]
  | .shape8 => [makeByte 0 0, makeByte 0 1, makeByte 1 0, makeByte 1 1]

/-- The `struct shape_group`s. -/
inductive ShapeGroup
  | grp0 | grp1 | grp2 | grp3
deriving DecidableEq, Repr

/-- The shapes of a group: the rotations of one piece, in turn. -/
def ShapeGroup.shapes : ShapeGroup → List Shape
  | .grp0 => [.shape0, .shape1]
  | .grp1 => [.shape2, .shape3]
  | .grp2 => [.shape4, .shape5, .shape6, .shape7]
  | .grp3 => [.shape8]

/-- `shape_grps`. -/
def shapeGrps : List ShapeGroup := [.grp0, .grp1, .grp2, .grp3]

/-- `colors`: red, purple, gray, cyan, yellow and brown. -/
def colors : List Nat := [0x4, 0x5, 0x7, 0x3, 0xe, 0x6]

/-! ## State -/

/-- `struct grid_elem`. -/
structure GridElem where
  isSet : UInt8
  color : UInt8
deriving DecidableEq, Repr

/-- `struct block`. The pointers point to a shape and to a group, or to neither. -/
structure Block where
  plotted : Nat
  xPos : Int
  yPos : Int
  color : Nat
  shp : Option Shape
  grp : Option ShapeGroup
deriving DecidableEq, Repr

/-- A character cell of the video buffer: the character and its attribute byte. -/
structure CharCell where
  char : UInt8
  attr : UInt8
deriving DecidableEq, Repr

/-- The grid, `GRID_HEIGHT` rows of `GRID_WIDTH` columns. -/
abbrev Grid := Board 20 16 GridElem

/-- The screen, `VIDEO_BUFFER_ROW` rows of `VIDEO_BUFFER_COL` columns. -/
abbrev Screen := Board 25 80 CharCell

/-- The variables of `tetris.c`, `ctrl_down` of `keyboard.c` and the video buffer. -/
structure Tetris where
  grid : Grid
  blk : Block
  isRunning : Bool
  started : Bool
  /-- A C `int`. The model does not bound it: it would take 2^31 rows to overflow. -/
  score : Int
  ctrlDown : Bool
  screen : Screen

/-- What the game finds in the guest: the bytes at address 0, where the shapes and the groups are,
and the lines of the banner of `video_remap`. -/
structure GuestLow where
  low : Memory
  shapeAt : Nat → Option Shape
  groupAt : Nat → Option ShapeGroup
  banner : List (List UInt8)

/-- The grid that `memset(grid, 0x0, sizeof(grid))` leaves. -/
def GuestLow.grid (env : GuestLow) : Grid := fun p =>
  let offset := (2 * (16 * p.1 + p.2)).toNat
  ⟨env.low offset, env.low (offset + 1)⟩

/-- The block that `memset(&blk, 0x0, sizeof(blk))` leaves. -/
def GuestLow.blk (env : GuestLow) : Block where
  plotted := env.low.read 0 4
  xPos := Int.bmod (env.low.read 4 4) (2 ^ 32)
  yPos := Int.bmod (env.low.read 8 4) (2 ^ 32)
  color := env.low.read 12 4
  shp := env.shapeAt (env.low.read 16 8)
  grp := env.groupAt (env.low.read 24 8)

/-! ## Texts -/

/-- `set_font_color`. -/
def setFontColor (screen : Screen) (background front : Nat) : Screen := fun p =>
  if InBoard 25 80 p then { screen p with attr := UInt8.ofNat (background <<< 4 ||| front) }
  else screen p

/-- `reset_text`. -/
def resetText (screen : Screen) : Screen := fun p =>
  if InBoard 25 80 p then { screen p with char := 0 } else screen p

/-- The loops of `print_text` and `print_text_with_color`: the characters go to consecutive cells of
the video buffer, `offset` being the next one; `color` is the attribute, if one is given. -/
def printLoop (screen : Screen) (offset : Nat) (color : Option UInt8) : List UInt8 → Screen
  | [] => screen
  | c :: text =>
    let p : Pos := ((offset / 80 : Nat), (offset % 80 : Nat))
    let screen : Screen := fun q =>
      if q = p then ⟨c, color.getD (screen q).attr⟩ else screen q
    printLoop screen (offset + 1) color text

/-- `print_text`. -/
def printText (screen : Screen) (row col : Nat) (text : List UInt8) : Screen :=
  printLoop screen (row * 80 + col) none text

/-- `print_text_with_color`, of a literal. -/
def printTextWithColor (screen : Screen) (row col : Nat) (text : String) (color : UInt8) : Screen :=
  printLoop screen (row * 80 + col) (some color) (text.toList.map fun c => UInt8.ofNat c.toNat)

/-- The lines of the banner from row `idx` on. -/
def printBanner (screen : Screen) (idx : Nat) : List (List UInt8) → Screen
  | [] => screen
  | line :: lines => printBanner (printText screen idx 0 line) (idx + 1) lines

/-- `video_remap`. -/
def videoRemap (env : GuestLow) (screen : Screen) : Screen :=
  let screen := setFontColor screen 0x0 0x2
  let screen := resetText screen
  let screen := printBanner screen 0 env.banner
  let yellow := makeByte 0x0 0xe
  let screen := printTextWithColor screen 15 2 "Instructions:" yellow
  let screen := printTextWithColor screen 16 2 "  [ Enter ] suspend/resume the game" yellow
  let screen := printTextWithColor screen 17 2 "  [ Ctrl+R] reset the game" yellow
  let screen := printTextWithColor screen 18 2 "  [ blank]  rotate the shape" yellow
  let screen := printTextWithColor screen 19 2
    "  [ down arrow ]  adjust the axis Y position by +1" yellow
  let screen := printTextWithColor screen 20 2
    "  [ left arrow ]  adjust the axis X position by -1" yellow
  printTextWithColor screen 21 2 "  [ right arrow]  adjust the axis X position by +1" yellow

/-! ## Drawing -/

/-- `plot_shape`. -/
def plotShape (screen : Screen) (shp : Shape) (color : Nat) (xPos yPos : Int) : Option Screen :=
  let xBase := xPos + 62
  let yBase := yPos + 4
  shp.points.foldlM (fun screen point =>
    screen.set? (yBase + highNibble point, xBase + lowNibble point)
      ⟨0x20, makeByte color 0xf⟩) screen

/-- `unplot_shape`. -/
def unplotShape (screen : Screen) (shp : Shape) (xPos yPos : Int) : Option Screen :=
  let xBase := xPos + 62
  let yBase := yPos + 4
  shp.points.foldlM (fun screen point =>
    screen.set? (yBase + highNibble point, xBase + lowNibble point) ⟨0x2e, makeByte 0x0 0x1⟩) screen

/-- `plot_block(&blk)`. -/
def plotBlock (s : Tetris) : Option Tetris := do
  let shp ← s.blk.shp
  let screen ← plotShape s.screen shp s.blk.color s.blk.xPos s.blk.yPos
  some { s with screen := screen, blk := { s.blk with plotted := 1 } }

/-- `unplot_block(&blk)`. -/
def unplotBlock (s : Tetris) : Option Tetris :=
  if s.blk.plotted = 0 then some s
  else do
    let shp ← s.blk.shp
    let screen ← unplotShape s.screen shp s.blk.xPos s.blk.yPos
    some { s with screen := screen, blk := { s.blk with plotted := 0 } }

/-- The rows of the grid, from the top. -/
def gridRows : List Int := (List.range 20).map Int.ofNat

/-- The columns of the grid, from the left. -/
def gridColumns : List Int := (List.range 16).map Int.ofNat

/-- The cells of the grid in the order of the two loops of `init_grid`. -/
def gridCells : List Pos := gridRows.flatMap fun y => gridColumns.map fun x => (y, x)

/-- The character cell that `init_grid` writes for a cell of the grid. -/
def gridCell (e : GridElem) : CharCell :=
  if e.isSet ≠ 0 then ⟨0x20, makeByte e.color.toNat 0x1⟩ else ⟨0x2e, makeByte 0x0 0x1⟩

/-- The cells of the frame, in the order in which `init_grid` writes them: the bottom, then the two
sides. -/
def frameCells : List Pos :=
  ((List.range 18).map fun x : Nat => (24, 61 + (x : Int))) ++
    gridRows.flatMap fun y => [(4 + y, 61), (4 + y, 78)]

/-- The loops of `init_grid` over the grid. -/
def drawGrid (grid : Grid) (screen : Screen) : Option Screen :=
  gridCells.foldlM (fun screen p => do
    let e ← grid.get? p
    screen.set? (p.1 + 4, p.2 + 62) (gridCell e)) screen

/-- The loops of `init_grid` over the frame. -/
def drawFrame (screen : Screen) : Option Screen :=
  frameCells.foldlM (fun screen p => screen.set? p ⟨0x3d, makeByte 0x0 0xf⟩) screen

/-- `init_grid`. -/
def initGrid (s : Tetris) (innerFrameOnly : Bool) : Option Tetris := do
  let screen ← drawGrid s.grid s.screen
  if innerFrameOnly then some { s with screen := screen }
  else
    let screen ← drawFrame screen
    some { s with screen := screen }

/-! ## Blocks -/

/-- The index in the group of the shape after `shp`. -/
def nextIndex (grp : ShapeGroup) (shp : Option Shape) : Nat :=
  match grp.shapes.findIdx? fun shp' => some shp' = shp with
  | none => 0
  | some currentIndex => (currentIndex + 1) % grp.shapes.length

/-- `rotate_block`. -/
def rotateBlock (blk : Block) : Option Block := do
  let grp ← blk.grp
  let shp ← grp.shapes[nextIndex grp blk.shp]?
  some { blk with shp := some shp }

/-- The loop of `is_block_clashing` over the points that are left. -/
def clashLoop (grid : Grid) (blk : Block) : List UInt8 → Option Bool
  | [] => some false
  | point :: points => do
    let xPos := blk.xPos + lowNibble point
    let yPos := blk.yPos + highNibble point
    if xPos < 0 ∨ xPos ≥ 16 ∨ yPos < 0 ∨ yPos ≥ 20 then some true
    else
      let e ← grid.get? (yPos, xPos)
      if e.isSet ≠ 0 then some true else clashLoop grid blk points

/-- `is_block_clashing`. -/
def isBlockClashing (grid : Grid) (blk : Block) : Option Bool := do
  let shp ← blk.shp
  clashLoop grid blk shp.points

/-- `finalize_block`. -/
def finalizeBlock (grid : Grid) (blk : Block) : Option Grid := do
  let shp ← blk.shp
  shp.points.foldlM (fun grid point =>
    grid.set? (blk.yPos + highNibble point, blk.xPos + lowNibble point)
      ⟨1, UInt8.ofNat blk.color⟩) grid

/-- The three readings of the time stamp counter that `new_block` makes through `rand`. -/
structure Rand where
  grp : Nat
  shp : Nat
  color : Nat
deriving DecidableEq, Repr

/-- `new_block`. It keeps `plotted`. -/
def newBlock (r : Rand) (blk : Block) : Option Block := do
  let grp ← shapeGrps[r.grp % 4]?
  let shp ← grp.shapes[r.shp % grp.shapes.length]?
  let color ← colors[r.color % colors.length]?
  some { blk with grp := some grp, shp := some shp, color := color, xPos := 8, yPos := 0 }

/-! ## Full rows -/

/-- The loop of `purge_grid` over a row: whether all of its cells from `columns` are set. -/
def rowFull (grid : Grid) (row : Int) : List Int → Option Bool
  | [] => some true
  | x :: columns => do
    let e ← grid.get? (row, x)
    if e.isSet = 0 then some false else rowFull grid row columns

/-- A round of the first loop of `purge_grid`: a row that is not full goes to `rows_left`, an array
of 20 bytes; the others are counted. -/
def sortRow (grid : Grid) (acc : List Int × Nat) (idx : Int) : Option (List Int × Nat) := do
  if ← rowFull grid idx gridColumns then some (acc.1, acc.2 + 1)
  else if acc.1.length < 20 then some (acc.1 ++ [idx], acc.2) else none

/-- Copy the row `source` to the row `target`, cell by cell. -/
def copyRow (grid : Grid) (target source : Int) : Option Grid :=
  gridColumns.foldlM (fun grid x => do
    let e ← grid.get? (source, x)
    grid.set? (target, x) e) grid

/-- The second loop of `purge_grid`: the rows left go to the bottom, from `target` upwards. -/
def copyRows (grid : Grid) (target : Int) : List Int → Option (Grid × Int)
  | [] => some (grid, target)
  | source :: rows => do
    let grid ← copyRow grid target source
    copyRows grid (target - 1) rows

/-- Unset the cells of a row; they keep their color. -/
def clearRow (grid : Grid) (target : Int) : Option Grid :=
  gridColumns.foldlM (fun grid x => do
    let e ← grid.get? (target, x)
    grid.set? (target, x) { e with isSet := 0 }) grid

/-- The last loop of `purge_grid`, over the `n` rows above the copied ones. -/
def clearRows (grid : Grid) : Nat → Option Grid
  | 0 => some grid
  | n + 1 => do
    let grid ← clearRow grid n
    clearRows grid n

/-- `purge_grid`. -/
def purgeGrid (s : Tetris) : Option Tetris := do
  let (rowsLeft, purgedCount) ← gridRows.reverse.foldlM (sortRow s.grid) ([], 0)
  if purgedCount = 0 then some s
  else
    let (grid, target) ← copyRows s.grid 19 rowsLeft
    let grid ← clearRows grid (target + 1).toNat
    some { s with grid := grid, score := s.score + purgedCount }

/-! ## Events -/

/-- Replace the current block by the one that `move` makes of it, on the screen too. -/
def replaceBlock (move : Block → Option Block) (s : Tetris) : Option Tetris := do
  let s ← unplotBlock s
  let blk ← move s.blk
  plotBlock { s with blk := blk }

/-- The handlers that move the block unless it would clash. -/
def tryMove (move : Block → Option Block) (s : Tetris) : Option Tetris :=
  if s.isRunning = false then some s
  else do
    let tmp ← move s.blk
    if ← isBlockClashing s.grid tmp then some s else replaceBlock move s

def moveLeft (blk : Block) : Option Block := some { blk with xPos := blk.xPos - 1 }

def moveRight (blk : Block) : Option Block := some { blk with xPos := blk.xPos + 1 }

def moveDown (blk : Block) : Option Block := some { blk with yPos := blk.yPos + 1 }

/-- `on_key_blank`. -/
def onKeyBlank (s : Tetris) : Option Tetris := tryMove rotateBlock s

/-- `on_key_arrow_left`. -/
def onKeyArrowLeft (s : Tetris) : Option Tetris := tryMove moveLeft s

/-- `on_key_arrow_right`. -/
def onKeyArrowRight (s : Tetris) : Option Tetris := tryMove moveRight s

/-- The branch of `on_key_arrow_down` for a block that has landed. -/
def lockBlock (r : Rand) (s : Tetris) : Option Tetris := do
  let grid ← finalizeBlock s.grid s.blk
  let s ← purgeGrid { s with grid := grid }
  let s ← initGrid s true
  let blk ← newBlock r s.blk
  let s := { s with blk := blk }
  if ← isBlockClashing s.grid s.blk then some { s with isRunning := false } else plotBlock s

/-- `on_key_arrow_down`. -/
def onKeyArrowDown (r : Rand) (s : Tetris) : Option Tetris :=
  if s.isRunning = false then some s
  else do
    let tmp ← moveDown s.blk
    if ← isBlockClashing s.grid tmp then lockBlock r s else replaceBlock moveDown s

/-- `tetris_start`. -/
def tetrisStart (env : GuestLow) (r : Rand) (s : Tetris) : Option Tetris := do
  if s.started = false then
    let s ← initGrid { s with screen := videoRemap env s.screen } false
    let blk ← newBlock r s.blk
    some { s with blk := blk, started := true, isRunning := !s.isRunning }
  else some { s with isRunning := !s.isRunning }

/-- `tetris_reset`. -/
def tetrisReset (env : GuestLow) (r : Rand) (s : Tetris) : Option Tetris := do
  if s.started = false then some s
  else
    let s ← initGrid { s with grid := env.grid } false
    let blk ← newBlock r s.blk
    some { s with blk := blk, isRunning := true }

/-- The game after `tetris_init`, on the screen `screen`. -/
def tetrisInit (env : GuestLow) (screen : Screen) : Tetris :=
  let yellow := makeByte 0x0 0xe
  let screen := printTextWithColor screen 19 15
    "Press [Enter] to start the Demo: \x7bGame: TETRIS\x7d" yellow
  let screen := printTextWithColor screen 15 15 "VM STATE     :   READY" yellow
  let screen := printTextWithColor screen 16 15 "Hypervisor   :   ZeldaOS" yellow
  let screen := printTextWithColor screen 17 15 "Acrhitecture :   x86_64" yellow
  { grid := env.grid, blk := env.blk, isRunning := false, started := false, score := 0,
    ctrlDown := false, screen := screen }

/-- `keyboard_interrupt_handler` on the scancode `code`. -/
def keyboardInterruptHandler (env : GuestLow) (code : UInt8) (r : Rand) (s : Tetris) :
    Option Tetris :=
  if code = 0x1c then tetrisStart env r s
  else if code = 0x13 then if s.ctrlDown then tetrisReset env r s else some s
  else if code = 0x1d then some { s with ctrlDown := true }
  else if code = 0x9d then some { s with ctrlDown := false }
  else if code = 0x50 then onKeyArrowDown r s
  else if code = 0x4b then onKeyArrowLeft s
  else if code = 0x4d then onKeyArrowRight s
  else if code = 0x39 then onKeyBlank s
  else some s

/-- What the game reacts to, with the readings of the counter that it would make. -/
inductive TetrisEvent
  /-- The keyboard interrupt with a scancode. -/
  | key (code : UInt8) (r : Rand)
  /-- The timer interrupt when half a second has passed. -/
  | drop (r : Rand)
deriving DecidableEq, Repr

/-- One event. -/
def tetrisStep (env : GuestLow) (s : Tetris) : TetrisEvent → Option (Unit × Tetris)
  | .key code r => (keyboardInterruptHandler env code r s).map fun s => ((), s)
  | .drop r => (onKeyArrowDown r s).map fun s => ((), s)

end ZeldaOS
