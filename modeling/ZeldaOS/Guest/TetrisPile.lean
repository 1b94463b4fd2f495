import ZeldaOS.Guest.TetrisStep

/-!
# The falling piece and the pile

While the game runs its block should fit the grid, so that locking it sets four cells that were
unset and overwrites no color (`FallsFree`). Every handler of a move keeps this, and so does
locking, since the game stops when the next block does not fit. What breaks it is the Enter key:
`tetris_start` only flips `is_running`, so after the end of the game it resumes with the block that
did not fit (`resumes_overlapping`). The property holds in every state of a run exactly when the
game is never set running with a block that does not fit (`fallsFree_iff`).
-/

namespace ZeldaOS

/-- `grid'` is `grid` with four unset cells set. -/
def LocksFour (grid grid' : Grid) : Prop :=
  ∃ ps : List Pos, ps.length = 4 ∧ ps.Nodup ∧
    (∀ p ∈ ps, InBoard 20 16 p ∧ (grid p).isSet = 0 ∧ (grid' p).isSet ≠ 0) ∧
    ∀ p, p ∉ ps → grid' p = grid p

/-- A running game has a block that does not clash, and locking it sets four unset cells. -/
def FallsFree (s : Tetris) : Prop :=
  s.isRunning = true → isBlockClashing s.grid s.blk = some false ∧
    ∃ grid', finalizeBlock s.grid s.blk = some grid' ∧ LocksFour s.grid grid'

/-- The event does not set the game running with a block that does not fit: neither Enter, whether
the game is started or resumed, nor Ctrl+R. -/
def ResumesFit (env : GuestLow) (s : Tetris) : TetrisEvent → Prop
  | .key code r =>
    (code = 0x1c → s.started = false → ∀ b, newBlock r s.blk = some b → Fits s.grid b) ∧
    (code = 0x1c → s.started = true → s.isRunning = false → Fits s.grid s.blk) ∧
    (code = 0x13 → s.ctrlDown = true → s.started = true →
      ∀ b, newBlock r s.blk = some b → Fits env.grid b)
  | .drop _ => True

section
variable {env : GuestLow} {s s' : Tetris} {e : TetrisEvent} {b : Block} {grid : Grid}

/-- Locking a block that fits. -/
theorem Fits.locksFour (h : Fits grid b) (hp : b.Placed) : LocksFour grid (locked grid b) := by
  obtain ⟨grp, shp, -, hshp, -⟩ := hp.valid
  refine ⟨b.cells, b.cells_length hshp, b.cells_nodup hshp, fun p hmem => ?_, fun p hmem => ?_⟩
  · refine ⟨(h p hmem).1, (h p hmem).2, ?_⟩
    rw [locked, Board.paint_apply_of_mem hmem]
    exact show (1 : UInt8) ≠ 0 by decide
  · rw [locked, Board.paint_apply_of_not_mem hmem]

/-- The invariant of the runs in which the condition holds. -/
structure Tetris.Free (s : Tetris) : Prop where
  safe : s.Safe
  fits : s.isRunning = true → Fits s.grid s.blk

theorem Tetris.Free.fallsFree (h : s.Free) : FallsFree s := by
  intro hrun
  have hp := h.safe.placed_of_running hrun
  refine ⟨(isBlockClashing_eq_false hp.valid).2 (h.fits hrun), _, finalizeBlock_eq s.grid hp, ?_⟩
  exact (h.fits hrun).locksFour hp

theorem FallsFree.fits (h : FallsFree s) (hs : s.Safe) (hrun : s.isRunning = true) :
    Fits s.grid s.blk :=
  (isBlockClashing_eq_false (hs.placed_of_running hrun).valid).1 (h hrun).1

/-- A step that meets the condition keeps the block off the pile. -/
theorem Tetris.Free.step (h : s.Free) (hc : ResumesFit env s e) (hst : Step env s e s') :
    s'.Free := by
  refine ⟨hst.safe h.safe, ?_⟩
  cases hst with
  | stay c => exact h.fits
  | move _ _ _ _ hfit => exact fun _ => hfit
  | lockLast => exact fun hrun => absurd hrun Bool.false_ne_true
  | lockNext _ _ _ _ hfit => exact fun _ => hfit
  | start hs hb _ _ => exact fun _ => hc.1 rfl hs _ hb
  | toggle hs =>
    intro hrun
    exact hc.2.1 rfl hs (by simpa using hrun)
  | reset hctrl hs hb _ _ => exact fun _ => hc.2.2 rfl hctrl hs _ hb

/-- A step that does not meet the condition sets the game running with a block that clashes. -/
theorem Tetris.Free.not_fallsFree (h : s.Free) (hc : ¬ ResumesFit env s e) {o : Unit}
    (hst : tetrisStep env s e = some (o, s')) : ¬ FallsFree s' := by
  intro hfree
  have hsafe := (step_of_tetrisStep h.safe hst).safe h.safe
  have hfits := hfree.fits hsafe
  refine hc ?_
  cases e with
  | drop r => trivial
  | key code r =>
    refine ⟨?_, ?_, ?_⟩
    · rintro rfl hs b hb
      obtain ⟨screen, hkey, -⟩ := tetrisStep_first env h.safe hs hb
      cases hkey.symm.trans hst
      exact hfits rfl
    · rintro rfl hs hstop
      cases (tetrisStep_toggle env r hs).symm.trans hst
      exact hfits (by simp [hstop])
    · rintro rfl hctrl hs b hb
      obtain ⟨screen, hkey, -⟩ := tetrisStep_reset env hctrl hs hb
      cases hkey.symm.trans hst
      exact hfits rfl

end

/-- **When the falling piece stays off the pile.** Every sequence of events has a run, and the piece
is off the pile in every state of it exactly when no event sets the game running with a block that
does not fit. -/
theorem fallsFree_iff (env : GuestLow) (screen : Screen) (es : List TetrisEvent) :
    ∃ t s, exec (observed (tetrisStep env)) (tetrisInit env screen) es = some (t, s) ∧
      ((∀ x ∈ t, FallsFree x.2.after) ↔ ∀ x ∈ t, ResumesFit env x.2.before x.1) := by
  have hfree : (tetrisInit env screen).Free :=
    ⟨tetrisInit_safe env screen, fun h => absurd h Bool.false_ne_true⟩
  obtain ⟨t, s, hex⟩ := tetris_observed env screen es
  refine ⟨t, s, hex, ?_⟩
  exact Run.observed_iff hfree (fun s h => h.fallsFree)
    (fun s e o s' h hc hst => h.step hc (step_of_tetrisStep h.safe hst))
    (fun s e o s' h hc hst => h.not_fallsFree hc hst)
    (Run.nil.exec (fun _ _ _ => trivial) hex)

/-- A guest whose bytes at address 0 are zero. -/
def zeroGuest : GuestLow where
  low := Memory.zero
  shapeAt := fun _ => none
  groupAt := fun _ => none
  banner := []

/-- The readings of the counter for a vertical bar, `shape2`. -/
def verticalBar : Rand := ⟨1, 0, 0⟩

/-- Enter, then five vertical bars that fall in one column: they take 17, 13, 9, 5 and 1 steps. -/
def pileUp : List TetrisEvent :=
  .key 0x1c verticalBar :: List.replicate 45 (.key 0x50 verticalBar)

/-- **Enter after the end of the game.** The sixth bar does not fit, and the game is over; Enter
then resumes it with this bar on top of the fifth. -/
theorem resumes_overlapping : ∃ t s,
    exec (tetrisStep zeroGuest) (tetrisInit zeroGuest fun _ => ⟨0, 0⟩)
      (pileUp ++ [.key 0x1c verticalBar]) = some (t, s) ∧
    s.isRunning = true ∧ isBlockClashing s.grid s.blk = some true ∧ ¬ FallsFree s := by
  have hrun : (exec (tetrisStep zeroGuest) (tetrisInit zeroGuest fun _ => ⟨0, 0⟩)
      (pileUp ++ [.key 0x1c verticalBar])).map
      (fun r => (r.2.isRunning, isBlockClashing r.2.grid r.2.blk)) = some (true, some true) := by
    decide +kernel
  obtain ⟨⟨t, s⟩, hex, heq⟩ := Option.map_eq_some_iff.1 hrun
  have hrunning : s.isRunning = true := congrArg Prod.fst heq
  have hclash : isBlockClashing s.grid s.blk = some true := congrArg Prod.snd heq
  refine ⟨t, s, hex, hrunning, hclash, fun h => ?_⟩
  cases hclash.symm.trans (h hrunning).1

end ZeldaOS
