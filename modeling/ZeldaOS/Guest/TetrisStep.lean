import ZeldaOS.Guest.TetrisRows

/-!
# Steps of the game

What one event can do to the game (`Step`): nothing, move the block, lock it, start the game, stop
or resume it, reset it. Once the game was started its block is placed, and it does not run before
(`Tetris.Safe`); from such a state every event has a result, which is one of these steps
(`tetrisStep_step`), and the next state is safe again. So no sequence of events makes the game index
out of bounds (`tetris_in_bounds`).
-/

namespace ZeldaOS

/-- The states between events. -/
structure Tetris.Safe (s : Tetris) : Prop where
  stopped : s.started = false → s.isRunning = false
  placed : s.started = true → s.blk.Placed

/-- The move that an event makes. -/
def moveOf : TetrisEvent → Option (Block → Option Block)
  | .key code _ =>
    if code = 0x50 then some moveDown
    else if code = 0x4b then some moveLeft
    else if code = 0x4d then some moveRight
    else if code = 0x39 then some rotateBlock
    else none
  | .drop _ => some moveDown

/-- The game after the block was replaced by `b`. -/
def Tetris.moved (s : Tetris) (b : Block) : Tetris :=
  { s with blk := { b with plotted := 1 }, screen := plotted (unplotted s.screen s.blk) b }

/-- The screen shows the cells of the grid. -/
def Shows (screen : Screen) (grid : Grid) : Prop :=
  ∀ p, InBoard 20 16 p → screen (onScreen p) = gridCell (grid p)

/-- The grid with the cells of the block locked. -/
def locked (grid : Grid) (b : Block) : Grid :=
  grid.paint b.cells fun _ => ⟨1, UInt8.ofNat b.color⟩

/-- The steps of the game. -/
inductive Step (env : GuestLow) (s : Tetris) : TetrisEvent → Tetris → Prop
  /-- The event is ignored, or a control key. -/
  | stay (e : TetrisEvent) (c : Bool) : Step env s e { s with ctrlDown := c }
  /-- The block moves to a place that fits. -/
  | move {e move b} : s.isRunning = true → moveOf e = some move → move s.blk = some b →
      b.Placed → Fits s.grid b → Step env s e (s.moved b)
  /-- The block is locked and the next one does not fit: the game is over. -/
  | lockLast {e grid score screen b} : s.isRunning = true → Purged (locked s.grid s.blk) grid →
      Shows screen grid → b.Placed → b.plotted = s.blk.plotted → ¬ Fits grid b →
      Step env s e { s with grid, score, screen, blk := b, isRunning := false }
  /-- The block is locked and the next one appears. -/
  | lockNext {e grid score screen b} : s.isRunning = true → Purged (locked s.grid s.blk) grid →
      Shows screen grid → b.Placed → Fits grid b →
      Step env s e { s with
        grid, score, screen := plotted screen b, blk := { b with plotted := 1 } }
  /-- The first start. -/
  | start {r screen b} : s.started = false → newBlock r s.blk = some b → b.Placed →
      Shows screen s.grid →
      Step env s (.key 0x1c r) { s with screen, blk := b, started := true, isRunning := true }
  /-- The game is stopped or resumed. -/
  | toggle {r} : s.started = true → Step env s (.key 0x1c r) { s with isRunning := !s.isRunning }
  /-- The game is reset. -/
  | reset {r screen b} : s.ctrlDown = true → s.started = true → newBlock r s.blk = some b →
      b.Placed → Shows screen env.grid →
      Step env s (.key 0x13 r) { s with grid := env.grid, screen, blk := b, isRunning := true }

section
variable {env : GuestLow} {s s' : Tetris} {e : TetrisEvent}
  {move : Block → Option Block} {b : Block}

/-- A step leads to a safe state. -/
theorem Step.safe (h : s.Safe) (hst : Step env s e s') : s'.Safe := by
  cases hst with
  | stay c => exact ⟨h.stopped, h.placed⟩
  | move hrun _ _ hp _ =>
    refine ⟨fun hs => ?_, fun _ => ⟨hp.valid, hp.inGrid, hp.color_lt⟩⟩
    exact absurd ((h.stopped hs).symm.trans hrun) Bool.false_ne_true
  | lockLast _ _ _ hp => exact ⟨fun _ => rfl, fun _ => hp⟩
  | lockNext hrun _ _ hp =>
    refine ⟨fun hs => ?_, fun _ => ⟨hp.valid, hp.inGrid, hp.color_lt⟩⟩
    exact absurd ((h.stopped hs).symm.trans hrun) Bool.false_ne_true
  | start _ _ hp => exact ⟨fun hs => absurd hs.symm Bool.false_ne_true, fun _ => hp⟩
  | toggle hs => exact ⟨fun hs' => absurd (hs'.symm.trans hs) Bool.false_ne_true, h.placed⟩
  | reset _ hs _ hp => exact ⟨fun hs' => absurd (hs'.symm.trans hs) Bool.false_ne_true, fun _ => hp⟩

/-! ## Moves -/

/-- The keys that move a block. -/
theorem moveOf_key {code : UInt8} {r : Rand} (h : moveOf (.key code r) = some move) :
    (code = 0x50 ∧ move = moveDown) ∨ (code = 0x4b ∧ move = moveLeft) ∨
    (code = 0x4d ∧ move = moveRight) ∨ (code = 0x39 ∧ move = rotateBlock) := by
  rw [moveOf] at h
  split at h
  · next hc => exact .inl ⟨hc, (Option.some.inj h).symm⟩
  split at h
  · next hc => exact .inr (.inl ⟨hc, (Option.some.inj h).symm⟩)
  split at h
  · next hc => exact .inr (.inr (.inl ⟨hc, (Option.some.inj h).symm⟩))
  split at h
  · next hc => exact .inr (.inr (.inr ⟨hc, (Option.some.inj h).symm⟩))
  · cases h

/-- An event that moves a block moves it as one. -/
theorem moves_of_moveOf (h : moveOf e = some move) : Moves move := by
  cases e with
  | drop r =>
    cases h
    exact moves_down
  | key code r =>
    rcases moveOf_key h with ⟨-, rfl⟩ | ⟨-, rfl⟩ | ⟨-, rfl⟩ | ⟨-, rfl⟩
    · exact moves_down
    · exact moves_left
    · exact moves_right
    · exact moves_rotate

/-- The game is running only with a placed block. -/
theorem Tetris.Safe.placed_of_running (h : s.Safe) (hrun : s.isRunning = true) : s.blk.Placed := by
  refine h.placed ?_
  by_contra hs
  exact absurd ((h.stopped (Bool.eq_false_iff.2 hs)).symm.trans hrun) Bool.false_ne_true

/-- The block is replaced by the one that the move makes of it. -/
theorem replaceBlock_eq (hm : Moves move) (hp : s.blk.Placed) (hb : move s.blk = some b)
    (hb' : b.Placed) : replaceBlock move s = some (s.moved b) := by
  have hmove : move { s.blk with plotted := 0 } = some { b with plotted := 0 } := by
    rw [hm.plotted, hb, Option.map_some]
  have hplaced : ({ b with plotted := 0 } : Block).Placed := ⟨hb'.valid, hb'.inGrid, hb'.color_lt⟩
  rw [replaceBlock, unplotBlock_eq hp, Option.bind_eq_bind, Option.bind_some, hmove,
    Option.bind_eq_bind, Option.bind_some, plotBlock_eq hplaced]
  rfl

/-- A move that fits is made. -/
theorem tryMove_eq (hm : Moves move) (hrun : s.isRunning = true) (hp : s.blk.Placed)
    (hb : move s.blk = some b) (hv : b.Valid) (hc : b.color < 16) :
    tryMove move s = some (if Fits s.grid b then s.moved b else s) := by
  rw [tryMove, if_neg (by simp [hrun]), hb, Option.bind_eq_bind, Option.bind_some,
    isBlockClashing_eq s.grid hv, Option.bind_eq_bind, Option.bind_some]
  by_cases hfit : Fits s.grid b
  · rw [if_pos hfit, decide_eq_true hfit, replaceBlock_eq hm hp hb (hfit.placed hv hc)]
    rfl
  · rw [if_neg hfit, decide_eq_false hfit]
    rfl

/-- The handlers of the keys that move the block. -/
theorem tryMove_step (h : s.Safe) (hmove : moveOf e = some move) :
    ∃ s', tryMove move s = some s' ∧ Step env s e s' := by
  cases hrun : s.isRunning with
  | false => exact ⟨s, by rw [tryMove, if_pos hrun], .stay e s.ctrlDown⟩
  | true =>
    have hm := moves_of_moveOf hmove
    have hp := h.placed_of_running hrun
    obtain ⟨b, hb, hv, hc⟩ := hm.valid s.blk hp.valid
    have hlt : b.color < 16 := hc ▸ hp.color_lt
    refine ⟨_, tryMove_eq hm hrun hp hb hv hlt, ?_⟩
    by_cases hfit : Fits s.grid b
    · rw [if_pos hfit]
      exact .move hrun hmove hb (hfit.placed hv hlt) hfit
    · rw [if_neg hfit]
      exact .stay e s.ctrlDown

/-! ## Locking -/

/-- A block that cannot fall is locked. -/
theorem lockBlock_step (r : Rand) (h : s.Safe) (hrun : s.isRunning = true) :
    ∃ s', lockBlock r s = some s' ∧ Step env s e s' := by
  have hp := h.placed_of_running hrun
  obtain ⟨grid, hpurge, hpurged⟩ := purgeGrid_purged { s with grid := locked s.grid s.blk }
  obtain ⟨screen, hinit, hshows⟩ := initGrid_eq { s with
    grid := grid
    score := s.score + fullRows (locked s.grid s.blk) } true
  obtain ⟨b, hb, hplaced, hflag⟩ := newBlock_placed r s.blk
  have hgrid : finalizeBlock s.grid s.blk = some (locked s.grid s.blk) := finalizeBlock_eq s.grid hp
  have hlock : lockBlock r s =
      (if Fits grid b then plotBlock else fun s => some { s with isRunning := false })
        { s with grid, score := s.score + fullRows (locked s.grid s.blk), screen, blk := b } := by
    rw [lockBlock, hgrid, Option.bind_eq_bind, Option.bind_some, hpurge, Option.bind_eq_bind,
      Option.bind_some, hinit, Option.bind_eq_bind, Option.bind_some, hb, Option.bind_eq_bind,
      Option.bind_some]
    simp only [isBlockClashing_eq grid hplaced.valid, Option.bind_some]
    by_cases hfit : Fits grid b
    · simp [hfit]
    · simp [hfit]
  rw [hlock]
  by_cases hfit : Fits grid b
  · rw [if_pos hfit, plotBlock_eq hplaced]
    exact ⟨_, rfl, .lockNext hrun hpurged hshows hplaced hfit⟩
  · rw [if_neg hfit]
    exact ⟨_, rfl, .lockLast hrun hpurged hshows hplaced hflag hfit⟩

/-- The block moves down, or is locked. -/
theorem onKeyArrowDown_eq (r : Rand) (hrun : s.isRunning = true) (hp : s.blk.Placed)
    (hb : moveDown s.blk = some b) :
    onKeyArrowDown r s = if Fits s.grid b then some (s.moved b) else lockBlock r s := by
  obtain ⟨b', hb', hv, hc⟩ := moves_down.valid s.blk hp.valid
  cases hb.symm.trans hb'
  have hlt : b.color < 16 := hc ▸ hp.color_lt
  rw [onKeyArrowDown, if_neg (by simp [hrun]), hb, Option.bind_eq_bind, Option.bind_some,
    isBlockClashing_eq s.grid hv, Option.bind_eq_bind, Option.bind_some]
  by_cases hfit : Fits s.grid b
  · rw [if_pos hfit, decide_eq_true hfit, replaceBlock_eq moves_down hp hb (hfit.placed hv hlt)]
    rfl
  · rw [if_neg hfit, decide_eq_false hfit]
    rfl

/-- The arrow down is a step down, or locks the block. -/
theorem onKeyArrowDown_step (r : Rand) (h : s.Safe) (hmove : moveOf e = some moveDown) :
    ∃ s', onKeyArrowDown r s = some s' ∧ Step env s e s' := by
  cases hrun : s.isRunning with
  | false => exact ⟨s, by rw [onKeyArrowDown, if_pos hrun], .stay e s.ctrlDown⟩
  | true =>
    have hp := h.placed_of_running hrun
    obtain ⟨b, hb, hv, hc⟩ := moves_down.valid s.blk hp.valid
    rw [onKeyArrowDown_eq r hrun hp hb]
    by_cases hfit : Fits s.grid b
    · rw [if_pos hfit]
      exact ⟨_, rfl, .move hrun hmove hb (hfit.placed hv (hc ▸ hp.color_lt)) hfit⟩
    · rw [if_neg hfit]
      exact lockBlock_step r h hrun

/-! ## Starting and resetting -/

/-- The first start, with the block `b`. -/
theorem tetrisStart_first (env : GuestLow) {r : Rand} (h : s.Safe) (hs : s.started = false)
    (hb : newBlock r s.blk = some b) : ∃ screen,
    tetrisStart env r s = some { s with screen, blk := b, started := true, isRunning := true } ∧
    Shows screen s.grid := by
  obtain ⟨screen, hinit, hshows⟩ := initGrid_eq { s with screen := videoRemap env s.screen } false
  refine ⟨screen, ?_, hshows⟩
  rw [tetrisStart, if_pos hs, hinit, Option.bind_eq_bind, Option.bind_some, hb, Option.bind_eq_bind,
    Option.bind_some]
  simp only [h.stopped hs, Bool.not_false]

/-- Return pauses a game that has started, or resumes it. -/
theorem tetrisStart_toggle (env : GuestLow) (r : Rand) (hs : s.started = true) :
    tetrisStart env r s = some { s with isRunning := !s.isRunning } := by
  rw [tetrisStart, if_neg (by simp [hs])]

/-- A reset, with the block `b`. -/
theorem tetrisReset_eq (env : GuestLow) {r : Rand} (hs : s.started = true)
    (hb : newBlock r s.blk = some b) : ∃ screen,
    tetrisReset env r s = some { s with grid := env.grid, screen, blk := b, isRunning := true } ∧
    Shows screen env.grid := by
  obtain ⟨screen, hinit, hshows⟩ := initGrid_eq { s with grid := env.grid } false
  refine ⟨screen, ?_, hshows⟩
  rw [tetrisReset, if_neg (by simp [hs]), hinit, Option.bind_eq_bind, Option.bind_some, hb,
    Option.bind_eq_bind, Option.bind_some]

/-- Return is a step, -/
theorem tetrisStart_step (env : GuestLow) (r : Rand) (h : s.Safe) :
    ∃ s', tetrisStart env r s = some s' ∧ Step env s (.key 0x1c r) s' := by
  cases hs : s.started with
  | true => exact ⟨_, tetrisStart_toggle env r hs, .toggle hs⟩
  | false =>
    obtain ⟨b, hb, hplaced, -⟩ := newBlock_placed r s.blk
    obtain ⟨screen, heq, hshows⟩ := tetrisStart_first env h hs hb
    exact ⟨_, heq, .start hs hb hplaced hshows⟩

/-- and so is Ctrl and R. -/
theorem tetrisReset_step (env : GuestLow) (r : Rand) (hctrl : s.ctrlDown = true) :
    ∃ s', tetrisReset env r s = some s' ∧ Step env s (.key 0x13 r) s' := by
  cases hs : s.started with
  | false => exact ⟨s, by rw [tetrisReset, if_pos hs], .stay _ s.ctrlDown⟩
  | true =>
    obtain ⟨b, hb, hplaced, -⟩ := newBlock_placed r s.blk
    obtain ⟨screen, heq, hshows⟩ := tetrisReset_eq env hs hb
    exact ⟨_, heq, .reset hctrl hs hb hplaced hshows⟩

/-! ## Events -/

/-- Every key is a step. -/
theorem keyboardInterruptHandler_step (env : GuestLow) (code : UInt8) (r : Rand) (h : s.Safe) :
    ∃ s', keyboardInterruptHandler env code r s = some s' ∧ Step env s (.key code r) s' := by
  rw [keyboardInterruptHandler]
  split
  · next hc => exact hc ▸ tetrisStart_step env r h
  next h1c =>
  split
  · next hc =>
    split
    · next hctrl => exact hc ▸ tetrisReset_step env r hctrl
    · exact ⟨s, rfl, .stay _ s.ctrlDown⟩
  next h13 =>
  split
  · exact ⟨_, rfl, .stay _ true⟩
  split
  · exact ⟨_, rfl, .stay _ false⟩
  split
  · next hc => exact onKeyArrowDown_step r h (by rw [moveOf, if_pos hc])
  next h50 =>
  split
  · next hc => exact tryMove_step h (by rw [moveOf, if_neg h50, if_pos hc])
  next h4b =>
  split
  · next hc => exact tryMove_step h (by rw [moveOf, if_neg h50, if_neg h4b, if_pos hc])
  next h4d =>
  split
  · next hc =>
    exact tryMove_step h (by rw [moveOf, if_neg h50, if_neg h4b, if_neg h4d, if_pos hc])
  · exact ⟨s, rfl, .stay _ s.ctrlDown⟩

/-- **Every event has a result**, and the result is a step of the game. -/
theorem tetrisStep_step (env : GuestLow) (e : TetrisEvent) (h : s.Safe) :
    ∃ s', tetrisStep env s e = some ((), s') ∧ Step env s e s' := by
  cases e with
  | key code r =>
    obtain ⟨s', heq, hst⟩ := keyboardInterruptHandler_step env code r h
    exact ⟨s', by rw [tetrisStep, heq, Option.map_some], hst⟩
  | drop r =>
    have hdown : ∃ s', onKeyArrowDown r s = some s' ∧ Step env s (.drop r) s' :=
      onKeyArrowDown_step r h rfl
    obtain ⟨s', heq, hst⟩ := hdown
    exact ⟨s', by rw [tetrisStep, heq, Option.map_some], hst⟩

/-- Enter, for the first time. -/
theorem tetrisStep_first (env : GuestLow) {r : Rand} (h : s.Safe) (hs : s.started = false)
    (hb : newBlock r s.blk = some b) : ∃ screen, tetrisStep env s (.key 0x1c r) =
      some ((), { s with screen, blk := b, started := true, isRunning := true }) ∧
    Shows screen s.grid := by
  obtain ⟨screen, heq, hshows⟩ := tetrisStart_first env h hs hb
  exact ⟨screen, congrArg (Option.map fun s => ((), s)) heq, hshows⟩

/-- Enter, once the game was started. -/
theorem tetrisStep_toggle (env : GuestLow) (r : Rand) (hs : s.started = true) :
    tetrisStep env s (.key 0x1c r) = some ((), { s with isRunning := !s.isRunning }) :=
  congrArg (Option.map fun s => ((), s)) (tetrisStart_toggle env r hs)

/-- Ctrl+R. -/
theorem tetrisStep_reset (env : GuestLow) {r : Rand} (hctrl : s.ctrlDown = true)
    (hs : s.started = true) (hb : newBlock r s.blk = some b) : ∃ screen,
    tetrisStep env s (.key 0x13 r) =
      some ((), { s with grid := env.grid, screen, blk := b, isRunning := true }) ∧
    Shows screen env.grid := by
  obtain ⟨screen, heq, hshows⟩ := tetrisReset_eq env hs hb
  have hkey : keyboardInterruptHandler env 0x13 r s = tetrisReset env r s := if_pos hctrl
  exact ⟨screen, congrArg (Option.map fun s => ((), s)) (hkey.trans heq), hshows⟩

/-- An event that moves the block to a place that fits. -/
theorem tetrisStep_move (env : GuestLow) (h : s.Safe) (hrun : s.isRunning = true)
    (hmove : moveOf e = some move) (hb : move s.blk = some b) (hfit : Fits s.grid b) :
    tetrisStep env s e = some ((), s.moved b) := by
  have hp := h.placed_of_running hrun
  have hm := moves_of_moveOf hmove
  obtain ⟨b', hb', hv, hc⟩ := hm.valid s.blk hp.valid
  cases hb.symm.trans hb'
  have htry : tryMove move s = some (s.moved b) := by
    rw [tryMove_eq hm hrun hp hb hv (hc ▸ hp.color_lt), if_pos hfit]
  have hdown : ∀ r, move = moveDown → onKeyArrowDown r s = some (s.moved b) := by
    rintro r rfl
    rw [onKeyArrowDown_eq r hrun hp hb, if_pos hfit]
  cases e with
  | drop r => rw [tetrisStep, hdown r (Option.some.inj hmove).symm, Option.map_some]
  | key code r =>
    have hkey : keyboardInterruptHandler env code r s = some (s.moved b) := by
      rcases moveOf_key hmove with ⟨rfl, hm⟩ | ⟨rfl, rfl⟩ | ⟨rfl, rfl⟩ | ⟨rfl, rfl⟩
      · exact hdown r hm
      · exact htry
      · exact htry
      · exact htry
    rw [tetrisStep, hkey, Option.map_some]

/-- Every event is a step. -/
theorem step_of_tetrisStep {o : Unit} (h : s.Safe) (hst : tetrisStep env s e = some (o, s')) :
    Step env s e s' := by
  obtain ⟨s₁, heq, hstep⟩ := tetrisStep_step env e h
  cases heq.symm.trans hst
  exact hstep

/-- The game is safe at the start. -/
theorem tetrisInit_safe (env : GuestLow) (screen : Screen) : (tetrisInit env screen).Safe :=
  ⟨fun _ => rfl, fun h => absurd h Bool.false_ne_true⟩

/-- An event has a result, and the state after it is safe. -/
theorem Tetris.Safe.tetrisStep (h : s.Safe) (env : GuestLow) (e : TetrisEvent) :
    ∃ o s', tetrisStep env s e = some (o, s') ∧ s'.Safe := by
  obtain ⟨s', heq, hst⟩ := tetrisStep_step env e h
  exact ⟨(), s', heq, hst.safe h⟩

/-- Every sequence of events has a run, seen step by step. -/
theorem tetris_observed (env : GuestLow) (screen : Screen) (es : List TetrisEvent) :
    ∃ t s, exec (observed (tetrisStep env)) (tetrisInit env screen) es = some (t, s) :=
  exec_observed_of_inv Tetris.Safe (fun _ e h => h.tetrisStep env e) es (tetrisInit_safe env screen)

/-- **No sequence of events makes the game index out of bounds**: each has a result, and between its
events the block has good pointers and is on the grid, once the game was started. -/
theorem tetris_in_bounds (env : GuestLow) (screen : Screen) (es : List TetrisEvent) :
    ∃ t s, exec (tetrisStep env) (tetrisInit env screen) es = some (t, s) ∧ s.Safe :=
  exec_of_inv Tetris.Safe (fun _ e h => h.tetrisStep env e) es (tetrisInit_safe env screen)

end

end ZeldaOS
