import ZeldaOS.Guest.TetrisPile

/-!
# The screen and the grid

The screen should show the grid (`Agrees`): a locked cell as a blank on its color, and an unset cell
that the block does not cover as a dot. The screen is redrawn as a whole when a block is locked and
when the game is started or reset, and in between a move draws dots over the old place of the block,
if it is flagged as plotted, and the block over the new one.

The flag outlives the block. At the end of the game the last block is not drawn, but `plotted` is
still set from the block before; when Enter resumes the game and a key moves the block away, the
dots go over locked cells (`move_erases_locked`). A grid made of the bytes at address 0 can also
have colors that the attribute byte has no room for. Apart from these two the screen always agrees
with the grid (`agrees_iff`).
-/

namespace ZeldaOS

/-- The locked cell `p` is shown as a blank with its color as the background. -/
def LockedShown (screen : Screen) (grid : Grid) (p : Pos) : Prop :=
  (screen (onScreen p)).char = 0x20 ∧ (screen (onScreen p)).attr >>> 4 = (grid p).color

/-- The current piece is drawn: the screen shows it at all its cells. -/
def Drawn (s : Tetris) : Prop :=
  ∀ p ∈ s.blk.cells, s.screen (onScreen p) = ⟨0x20, makeByte s.blk.color 0xf⟩

/-- The screen agrees with the grid. -/
structure Agrees (s : Tetris) : Prop where
  locked : ∀ p, InBoard 20 16 p → (s.grid p).isSet ≠ 0 →
    (Drawn s ∧ p ∈ s.blk.cells) ∨ LockedShown s.screen s.grid p
  dot : ∀ p, InBoard 20 16 p → (s.grid p).isSet = 0 → p ∉ s.blk.cells →
    (s.screen (onScreen p)).char = 0x2e

/-- The colors of the locked cells fit in the high nibble of an attribute. -/
def ColorsShown (grid : Grid) : Prop :=
  ∀ p, InBoard 20 16 p → (grid p).isSet ≠ 0 → (grid p).color.toNat < 16

/-- The event does not move a plotted block off the pile, and the grid it starts or resets the game
with has colors that can be shown. -/
def DrawsRight (env : GuestLow) (s : Tetris) (e : TetrisEvent) : Prop :=
  (∀ move b, moveOf e = some move → s.isRunning = true → s.blk.plotted ≠ 0 → move s.blk = some b →
    Fits s.grid b → Fits s.grid s.blk) ∧
  (∀ r, e = .key 0x1c r → s.started = false → ColorsShown s.grid) ∧
  (∀ r, e = .key 0x13 r → s.ctrlDown = true → s.started = true → ColorsShown env.grid)

section
variable {env : GuestLow} {s s' : Tetris} {e : TetrisEvent} {b : Block} {grid : Grid}
  {screen : Screen} {p : Pos}

/-! ## Colors -/

/-- The color is read back from the attribute. -/
theorem makeByte_shiftRight {c : UInt8} (hc : c.toNat < 16) : makeByte c.toNat 0x1 >>> 4 = c := by
  have hall : ∀ n : Fin 16, makeByte n.val 0x1 >>> 4 = UInt8.ofNat n.val := by decide
  have h := hall ⟨c.toNat, hc⟩
  rwa [UInt8.ofNat_toNat] at h

/-- A color is four bits. -/
theorem shiftRight_lt (c : UInt8) : (c >>> 4).toNat < 16 := by
  have hlt := c.toNat_lt
  have hval : (c >>> 4).toNat = c.toNat / 2 ^ 4 := by
    rw [UInt8.toNat_shiftRight, Nat.shiftRight_eq_div_pow]
    rfl
  omega

/-- The front colors of a plotted block and of a locked cell differ. -/
theorem makeByte_front_ne (c c' : Nat) : makeByte c 0xf ≠ makeByte c' 0x1 := by
  intro h
  have hmod : ∀ c lo : Nat, (makeByte c lo).toNat % 2 ^ 4 = lo % 2 ^ 4 := by
    intro c lo
    rw [makeByte, UInt8.toNat_ofNat', Nat.mod_mod_of_dvd _ (Nat.pow_dvd_pow 2 (by omega)),
      Nat.or_mod_two_pow, Nat.and_mod_two_pow, show 0xf0 % 2 ^ 4 = 0 from rfl, Nat.and_zero,
      Nat.zero_or, show 0xf = 2 ^ 4 - 1 from rfl, Nat.and_two_pow_sub_one_eq_mod, Nat.mod_mod]
  have h₁ := hmod c 0xf
  rw [h, hmod c' 0x1] at h₁
  omega

/-- A cell that is shown has a color of four bits. -/
theorem LockedShown.color_lt (h : LockedShown screen grid p) : (grid p).color.toNat < 16 :=
  h.2 ▸ shiftRight_lt _

/-! ## The invariant -/

/-- The screen of the runs in which the condition holds: every locked cell is shown, also below the
block, and the block covers dots only where it is flagged as plotted. -/
structure Tetris.Clean (s : Tetris) : Prop where
  locked : ∀ p, InBoard 20 16 p → (s.grid p).isSet ≠ 0 → LockedShown s.screen s.grid p
  dot : ∀ p, InBoard 20 16 p → (s.grid p).isSet = 0 → ¬ (s.blk.plotted ≠ 0 ∧ p ∈ s.blk.cells) →
    (s.screen (onScreen p)).char = 0x2e

/-- A cell that `init_grid` has drawn. -/
theorem Shows.lockedShown (h : Shows screen grid) (hc : ColorsShown grid) (hp : InBoard 20 16 p)
    (hset : (grid p).isSet ≠ 0) : LockedShown screen grid p := by
  rw [LockedShown, h p hp, gridCell, if_pos hset]
  exact ⟨rfl, makeByte_shiftRight (hc p hp hset)⟩

/-- A cell that is not set shows a dot. -/
theorem Shows.char_eq_dot (h : Shows screen grid) (hp : InBoard 20 16 p)
    (hset : (grid p).isSet = 0) : (screen (onScreen p)).char = 0x2e := by
  rw [h p hp, gridCell, if_neg (not_not.2 hset)]

/-- A redrawn screen. -/
theorem Shows.clean (h : Shows s.screen s.grid) (hc : ColorsShown s.grid) : s.Clean :=
  ⟨fun _ hp hset => h.lockedShown hc hp hset, fun _ hp hset _ => h.char_eq_dot hp hset⟩

/-- A redrawn screen with a block plotted off the pile. -/
theorem Shows.clean_plotted (h : Shows screen grid) (hc : ColorsShown grid) (hfit : Fits grid b)
    (hgrid : s.grid = grid) (hscreen : s.screen = plotted screen b)
    (hblk : s.blk = { b with plotted := 1 }) : s.Clean := by
  have hcells : s.blk.cells = b.cells := by
    rw [hblk]
    rfl
  refine ⟨fun p hp hset => ?_, fun p hp hset hcov => ?_⟩
  · rw [hgrid] at hset ⊢
    rw [LockedShown, hscreen, plotted, drawn_of_not_mem fun hmem => hset (hfit p hmem).2]
    exact h.lockedShown hc hp hset
  · rw [hgrid] at hset
    rw [hcells, hblk] at hcov
    rw [hscreen, plotted, drawn_of_not_mem fun hmem => hcov ⟨one_ne_zero, hmem⟩]
    exact h.char_eq_dot hp hset

/-- A clean screen agrees with the grid, -/
theorem Tetris.Clean.agrees (h : s.Clean) : Agrees s :=
  ⟨fun p hp hset => .inr (h.locked p hp hset),
    fun p hp hset hmem => h.dot p hp hset fun hcov => hmem hcov.2⟩

/-- and shows its colors. -/
theorem Tetris.Clean.colorsShown (h : s.Clean) : ColorsShown s.grid :=
  fun p hp hset => (h.locked p hp hset).color_lt

/-- Locking a block and dropping the full rows keeps the colors in range. -/
theorem Tetris.Clean.colorsShown_locked (h : s.Clean) (hp : s.blk.Placed)
    (hpurged : Purged (ZeldaOS.locked s.grid s.blk) grid) : ColorsShown grid := by
  intro p hin hset
  rcases hpurged.cell hin with hzero | ⟨q, hq, heq⟩
  · exact absurd hzero hset
  · rw [heq] at hset ⊢
    by_cases hmem : q ∈ s.blk.cells
    · rw [ZeldaOS.locked, Board.paint_apply_of_mem hmem, UInt8.toNat_ofNat']
      have := hp.color_lt
      omega
    · rw [ZeldaOS.locked, Board.paint_apply_of_not_mem hmem] at hset ⊢
      exact h.colorsShown q hq hset

/-- The cells that unplotting a block leaves alone. -/
theorem unplotted_of_not_mem (h : b.plotted ≠ 0 → p ∉ b.cells) :
    unplotted screen b (onScreen p) = screen (onScreen p) := by
  rw [unplotted]
  split
  · rfl
  · next hplot => exact drawn_of_not_mem (h hplot)

/-- A block that is taken off the screen leaves dots. -/
theorem unplotted_of_mem (hplot : b.plotted ≠ 0) (h : p ∈ b.cells) :
    (unplotted screen b (onScreen p)).char = 0x2e := by
  rw [unplotted, if_neg hplot, drawn_of_mem h]

/-- **A move keeps the screen clean** when a plotted block was off the pile. -/
theorem Tetris.Clean.moved (h : s.Clean) (hfit : Fits s.grid b)
    (hold : s.blk.plotted ≠ 0 → Fits s.grid s.blk) : (s.moved b).Clean := by
  refine ⟨fun p hp hset => ?_, fun p hp hset hcov => ?_⟩
  · have hnew : p ∉ b.cells := fun hmem => hset (hfit p hmem).2
    have hout : s.blk.plotted ≠ 0 → p ∉ s.blk.cells := fun hplot hmem => hset (hold hplot p hmem).2
    have hscreen : (s.moved b).screen (onScreen p) = s.screen (onScreen p) :=
      (drawn_of_not_mem hnew).trans (unplotted_of_not_mem hout)
    rw [LockedShown, hscreen]
    exact h.locked p hp hset
  · have hnew : p ∉ b.cells := fun hmem => hcov ⟨one_ne_zero, hmem⟩
    have hscreen : (s.moved b).screen (onScreen p) = unplotted s.screen s.blk (onScreen p) :=
      drawn_of_not_mem hnew
    rw [hscreen]
    by_cases hmem : s.blk.plotted ≠ 0 ∧ p ∈ s.blk.cells
    · exact unplotted_of_mem hmem.1 hmem.2
    · rw [unplotted_of_not_mem fun hplot hin => hmem ⟨hplot, hin⟩]
      exact h.dot p hp hset hmem

/-! ## Steps -/

/-- The invariant of the runs in which the condition holds. -/
structure Tetris.Neat (s : Tetris) : Prop where
  safe : s.Safe
  clean : s.started = true → s.Clean

/-- A running game was started. -/
theorem Tetris.Safe.started_of_running (h : s.Safe) (hrun : s.isRunning = true) :
    s.started = true := by
  by_contra hs
  exact absurd ((h.stopped (Bool.eq_false_iff.2 hs)).symm.trans hrun) Bool.false_ne_true

/-- A step that meets the condition keeps the screen clean. -/
theorem Tetris.Neat.step (h : s.Neat) (hc : DrawsRight env s e) (hst : Step env s e s') :
    s'.Neat := by
  refine ⟨hst.safe h.safe, ?_⟩
  cases hst with
  | stay c => exact fun hs => ⟨(h.clean hs).locked, (h.clean hs).dot⟩
  | move hrun hmove hb _ hfit =>
    intro hs
    exact (h.clean hs).moved hfit fun hplot => hc.1 _ _ hmove hrun hplot hb hfit
  | lockLast hrun hpurged hshows _ _ _ =>
    intro hs
    have hp := h.safe.placed_of_running hrun
    exact Shows.clean hshows ((h.clean hs).colorsShown_locked hp hpurged)
  | lockNext hrun hpurged hshows _ hfit =>
    intro hs
    have hp := h.safe.placed_of_running hrun
    have hcolors := (h.clean hs).colorsShown_locked hp hpurged
    exact hshows.clean_plotted hcolors hfit rfl rfl rfl
  | start hs _ _ hshows => exact fun _ => Shows.clean hshows (hc.2.1 _ rfl hs)
  | toggle _ => exact fun hs => ⟨(h.clean hs).locked, (h.clean hs).dot⟩
  | reset hctrl hs _ _ hshows => exact fun _ => Shows.clean hshows (hc.2.2 _ rfl hctrl hs)

/-- A redrawn screen agrees with the grid only when every color has room: a locked cell that has
none is not shown, and the block is not drawn over it. -/
theorem Agrees.colorsShown (h : Agrees s) (hshows : Shows s.screen s.grid) :
    ColorsShown s.grid := by
  intro p hp hset
  rcases h.locked p hp hset with ⟨hdrawn, hmem⟩ | hshown
  · have hcell := hdrawn p hmem
    rw [hshows p hp, gridCell, if_pos hset] at hcell
    exact absurd (congrArg CharCell.attr hcell).symm (makeByte_front_ne _ _)
  · exact hshown.color_lt

/-- A plotted block that moves off the pile leaves a dot on a locked cell. -/
theorem Tetris.Safe.not_agrees_moved (h : s.Safe) (hrun : s.isRunning = true)
    (hplot : s.blk.plotted ≠ 0) (hfit : Fits s.grid b) (hold : ¬ Fits s.grid s.blk) :
    ¬ Agrees (s.moved b) := by
  intro hagrees
  refine hold fun p hmem => ?_
  have hin := (h.placed_of_running hrun).inGrid p hmem
  refine ⟨hin, ?_⟩
  by_contra hset
  have hnew : p ∉ b.cells := fun hmem' => hset (hfit p hmem').2
  rcases hagrees.locked p hin hset with ⟨-, hmem'⟩ | hshown
  · exact hnew hmem'
  · have hscreen : (s.moved b).screen (onScreen p) = unplotted s.screen s.blk (onScreen p) :=
      drawn_of_not_mem hnew
    have hdot : (unplotted s.screen s.blk (onScreen p)).char = 0x2e := unplotted_of_mem hplot hmem
    rw [LockedShown, hscreen, hdot] at hshown
    exact absurd hshown.1 (by decide)

/-- A step that does not meet the condition ends with a screen that does not agree. -/
theorem Tetris.Neat.not_agrees (h : s.Neat) (hc : ¬ DrawsRight env s e) {o : Unit}
    (hst : tetrisStep env s e = some (o, s')) : ¬ (s'.started = true → Agrees s') := by
  intro hagrees
  refine hc ⟨fun move b hmove hrun hplot hb hfit => ?_, ?_, ?_⟩
  · cases (tetrisStep_move env h.safe hrun hmove hb hfit).symm.trans hst
    by_contra hold
    exact h.safe.not_agrees_moved hrun hplot hfit hold (hagrees (h.safe.started_of_running hrun))
  · rintro r rfl hs
    obtain ⟨b, hb, -, -⟩ := newBlock_placed r s.blk
    obtain ⟨screen, hkey, hshows⟩ := tetrisStep_first env h.safe hs hb
    cases hkey.symm.trans hst
    exact (hagrees rfl).colorsShown hshows
  · rintro r rfl hctrl hs
    obtain ⟨b, hb, -, -⟩ := newBlock_placed r s.blk
    obtain ⟨screen, hkey, hshows⟩ := tetrisStep_reset env hctrl hs hb
    cases hkey.symm.trans hst
    exact (hagrees hs).colorsShown hshows

end

/-- **When the screen agrees with the grid.** Every sequence of events has a run, and the screen
agrees with the grid in every state of it from the first start on exactly when no event moves a
plotted block off the pile or makes a grid with colors that cannot be shown. -/
theorem agrees_iff (env : GuestLow) (screen : Screen) (es : List TetrisEvent) :
    ∃ t s, exec (observed (tetrisStep env)) (tetrisInit env screen) es = some (t, s) ∧
      ((∀ x ∈ t, x.2.after.started = true → Agrees x.2.after) ↔
        ∀ x ∈ t, DrawsRight env x.2.before x.1) := by
  have hneat : (tetrisInit env screen).Neat :=
    ⟨tetrisInit_safe env screen, fun h => absurd h Bool.false_ne_true⟩
  obtain ⟨t, s, hex⟩ := tetris_observed env screen es
  refine ⟨t, s, hex, ?_⟩
  exact Run.observed_iff hneat (fun s h hs => (h.clean hs).agrees)
    (fun s e o s' h hc hst => h.step hc (step_of_tetrisStep h.safe hst))
    (fun s e o s' h hc hst => h.not_agrees hc hst)
    (Run.nil.exec (fun _ _ _ => trivial) hex)

/-- **A dot on a locked cell.** After the end of the game Enter and the left arrow move the sixth
bar off the fifth; the cell in row 0 and column 8 is locked in red, and the screen shows a dot
there. -/
theorem move_erases_locked : ∃ t s,
    exec (tetrisStep zeroGuest) (tetrisInit zeroGuest fun _ => ⟨0, 0⟩)
      (pileUp ++ [.key 0x1c verticalBar, .key 0x4b verticalBar]) = some (t, s) ∧
    s.started = true ∧ s.grid (0, 8) = ⟨1, 4⟩ ∧ (0, 8) ∉ s.blk.cells ∧
    (s.screen (onScreen (0, 8))).char = 0x2e ∧ ¬ Agrees s := by
  have hrun : (exec (tetrisStep zeroGuest) (tetrisInit zeroGuest fun _ => ⟨0, 0⟩)
      (pileUp ++ [.key 0x1c verticalBar, .key 0x4b verticalBar])).map
      (fun r => (r.2.started, r.2.grid (0, 8), decide ((0, 8) ∈ r.2.blk.cells),
        (r.2.screen (onScreen (0, 8))).char)) = some (true, ⟨1, 4⟩, false, 0x2e) := by
    decide +kernel
  obtain ⟨⟨t, s⟩, hex, heq⟩ := Option.map_eq_some_iff.1 hrun
  simp only [Prod.mk.injEq, decide_eq_false_iff_not] at heq
  obtain ⟨hs, hgrid, hmem, hchar⟩ := heq
  refine ⟨t, s, hex, hs, hgrid, hmem, hchar, fun h => ?_⟩
  have hset : (s.grid (0, 8)).isSet ≠ 0 := by
    rw [hgrid]
    decide
  rcases h.locked (0, 8) (by decide) hset with ⟨-, hin⟩ | hshown
  · exact hmem hin
  · rw [LockedShown, hchar] at hshown
    exact absurd hshown.1 (by decide)

end ZeldaOS
