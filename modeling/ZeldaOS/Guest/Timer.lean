import ZeldaOS.Guest.TetrisPile
import ZeldaOS.VmMonitor.HostStack
import ZeldaOS.VmMonitor.TimerCorrect
import ZeldaOS.VmMonitor.VmExit

/-!
# The guest's timer

Model of `guest/timer.c`, with the `rdtsc` of `guest/lib.h`, and of the two interrupts that drive
the game. The counter of the guest is the host's: its `rdtsc` exits, and the monitor answers with
the host's counter, and with the frequency in RCX, where `get_cpu_frequency` looks for it
(`rdtscExit_reading`).

The handler takes a time stamp when the block falls, and not at every interrupt as the monitor's
timer does (`VmMonitor.TimerCorrect`). So it is an exact watch: in every order of timer and keyboard
interrupts the game is the one that its events make, with a fall at each timer interrupt that comes
half a second or more after the last fall, and at no other one (`game_paced`).
-/

namespace ZeldaOS

/-! ## The handlers -/

/-- `rdtsc` of the guest, on the registers after the instruction. -/
def guestRdtsc (vcpu : GuestCpuState) : Nat :=
  ((vcpu.rdx % 2 ^ 32) <<< 32) ||| (vcpu.rax % 2 ^ 32)

/-- `get_cpu_frequency`, on the registers after its `rdtsc`. -/
def getCpuFrequency (vcpu : GuestCpuState) : Nat := vcpu.rcx

/-- The variables of `timer.c`, and the game. -/
structure GuestGame where
  tscLast : Nat
  cpuFreq : Nat
  tetris : Tetris

/-- `timer_init`, on the registers after the `rdtsc` of `get_cpu_frequency`. -/
def timerInit (vcpu : GuestCpuState) (tetris : Tetris) : GuestGame :=
  { tscLast := 0, cpuFreq := getCpuFrequency vcpu, tetris }

/-- `timer_interrupt_handler`, and whether the block falls. A division by zero has no result. -/
def timerInterruptHandler (tscNow : Nat) (r : Rand) (g : GuestGame) : Option (Bool × GuestGame) :=
  let tscLast := if g.tscLast = 0 then tscNow else g.tscLast
  let tscDiff := (tscNow + 2 ^ 64 - tscLast) % 2 ^ 64
  if g.cpuFreq = 0 then none
  else
    let msec := 1000 * tscDiff % 2 ^ 64 / g.cpuFreq
    if msec ≥ 500 then
      (onKeyArrowDown r g.tetris).map fun tetris => (true, { g with tscLast := tscNow, tetris })
    else some (false, { g with tscLast })

/-- An interrupt of the guest: the timer, with the counter that its handler reads, or the
keyboard. -/
inductive GuestInterrupt
  | timer (tscNow : Nat) (r : Rand)
  | keyboard (code : UInt8) (r : Rand)
deriving DecidableEq, Repr

/-- The handler of an interrupt, and whether the timer makes the block fall. -/
def gameStep (env : GuestLow) (g : GuestGame) : GuestInterrupt → Option (Bool × GuestGame)
  | .timer tscNow r => timerInterruptHandler tscNow r g
  | .keyboard code r =>
    (keyboardInterruptHandler env code r g.tetris).map fun tetris => (false, { g with tetris })

/-! ## What the game sees -/

/-- The event of the game that an interrupt makes. -/
def gameEvent : GuestInterrupt × Bool → Option TetrisEvent
  | (.timer _ r, true) => some (.drop r)
  | (.timer _ _, false) => none
  | (.keyboard code r, _) => some (.key code r)

/-- The counter of a timer interrupt, and whether the block fell. -/
def gameTick : GuestInterrupt × Bool → Option (Nat × Bool)
  | (.timer tscNow _, fell) => some (tscNow, fell)
  | (.keyboard _ _, _) => none

/-- The reading of the counter that an interrupt makes. -/
def GuestInterrupt.reading : GuestInterrupt → Option Nat
  | .timer tscNow _ => some tscNow
  | .keyboard _ _ => none

/-- The readings of a list of interrupts. -/
def tscReadings (is : List GuestInterrupt) : List Nat := is.filterMap GuestInterrupt.reading

/-- The counter is not 0 and does not go back, and from one timer interrupt to the next one it moves
so little that the handler's product is a word. -/
structure ReadingsOk (ts : List Nat) : Prop where
  ne_zero : ∀ t ∈ ts, t ≠ 0
  steps : ts.IsChain fun a b => a ≤ b ∧ 1000 * (b - a) + 500 * cpuFrequency ≤ 2 ^ 64

section
variable {D : Type} {input : HostInput} {info : VmexitInfo} {s s' : ExitState D}

/-- **The counter of the guest is the host's.** -/
theorem rdtscExit_reading (h : rdtscExitSubHandler input info s = some s')
    (htsc : input.tsc < 2 ^ 64) :
    guestRdtsc s'.vcpu = input.tsc := by
  cases h
  have hmask : 0xffffffff = 2 ^ 32 - 1 := rfl
  change (((input.tsc >>> 32) &&& 0xffffffff) % 2 ^ 32) <<< 32 |||
    ((input.tsc &&& 0xffffffff) % 2 ^ 32) = input.tsc
  rw [hmask, and_mask_eq_mod, and_mask_eq_mod, Nat.shiftRight_eq_div_pow, Nat.shiftLeft_eq,
    or_offset_eq_add (k := 32) (by omega) (by omega)]
  omega

/-- The frequency that an exit for `rdtsc` gives. -/
theorem rdtscExit_frequency (h : rdtscExitSubHandler input info s = some s') :
    getCpuFrequency s'.vcpu = cpuFrequency := by
  cases h
  rfl

end

/-! ## One interrupt -/

section
variable {env : GuestLow} {g g' : GuestGame} {i : GuestInterrupt} {fell : Bool}

/-- Half a second has passed, where the product of the handler is a word. -/
theorem msec_lt_iff {tscLast tscNow : Nat} (hle : tscLast ≤ tscNow)
    (hword : 1000 * (tscNow - tscLast) < 2 ^ 64) :
    1000 * ((tscNow + 2 ^ 64 - tscLast) % 2 ^ 64) % 2 ^ 64 / cpuFrequency < 500 ↔
      ShorterThan 500 tscLast tscNow := by
  have hdiff : (tscNow + 2 ^ 64 - tscLast) % 2 ^ 64 = tscNow - tscLast := by omega
  rw [hdiff, Nat.mod_eq_of_lt hword, ShorterThan, Nat.mul_comm]

/-- What the timer interrupt does: the block falls and the time is stamped, or the game is
unchanged. -/
theorem timerInterruptHandler_cases {tscNow : Nat} {r : Rand} (hfreq : g.cpuFreq = cpuFrequency)
    (h : timerInterruptHandler tscNow r g = some (fell, g')) :
    g'.cpuFreq = cpuFrequency ∧
    ((fell = true ∧ g'.tscLast = tscNow ∧ onKeyArrowDown r g.tetris = some g'.tetris) ∨
      (fell = false ∧ g'.tscLast = (if g.tscLast = 0 then tscNow else g.tscLast) ∧
        g'.tetris = g.tetris)) ∧
    (fell = false ↔
      1000 * ((tscNow + 2 ^ 64 - if g.tscLast = 0 then tscNow else g.tscLast) % 2 ^ 64) %
      2 ^ 64 / cpuFrequency < 500) := by
  have hne : ¬ cpuFrequency = 0 := by decide
  rw [timerInterruptHandler, hfreq] at h
  generalize (if g.tscLast = 0 then tscNow else g.tscLast) = tscLast at h ⊢
  dsimp only at h
  rw [if_neg hne] at h
  split at h
  · next hdue =>
    obtain ⟨tetris, hdown, heq⟩ := Option.map_eq_some_iff.1 h
    cases heq
    exact ⟨rfl, .inl ⟨rfl, rfl, hdown⟩, by simpa using hdue⟩
  · next hdue =>
    cases h
    exact ⟨rfl, .inr ⟨rfl, rfl, rfl⟩, by simpa using hdue⟩

/-- An interrupt is an event of the game, or it leaves the game as it is. -/
theorem gameStep_tetris (hfreq : g.cpuFreq = cpuFrequency)
    (h : gameStep env g i = some (fell, g')) :
    g'.cpuFreq = cpuFrequency ∧
    match gameEvent (i, fell) with
    | none => g'.tetris = g.tetris
    | some e => tetrisStep env g.tetris e = some ((), g'.tetris) := by
  cases i with
  | timer tscNow r =>
    obtain ⟨hfreq', ⟨rfl, -, hdown⟩ | ⟨rfl, -, htetris⟩, -⟩ := timerInterruptHandler_cases hfreq h
    · exact ⟨hfreq', congrArg (Option.map fun s => ((), s)) hdown⟩
    · exact ⟨hfreq', htetris⟩
  | keyboard code r =>
    obtain ⟨tetris, hkey, heq⟩ := Option.map_eq_some_iff.1 h
    cases heq
    exact ⟨hfreq, congrArg (Option.map fun s => ((), s)) hkey⟩

/-- Every interrupt returns, and the game stays safe. -/
theorem gameStep_safe (env : GuestLow) (i : GuestInterrupt)
    (h : g.cpuFreq = cpuFrequency ∧ g.tetris.Safe) :
    ∃ fell g', gameStep env g i = some (fell, g') ∧ g'.cpuFreq = cpuFrequency ∧ g'.tetris.Safe := by
  obtain ⟨hfreq, hsafe⟩ := h
  have hne : ¬ cpuFrequency = 0 := by decide
  cases i with
  | timer tscNow r =>
    obtain ⟨o, s', hdrop, hsafe'⟩ := hsafe.tetrisStep env (.drop r)
    obtain ⟨tetris, hdown, heq⟩ := Option.map_eq_some_iff.1 hdrop
    cases heq
    rw [gameStep, timerInterruptHandler, hfreq, if_neg hne, hdown]
    generalize (if g.tscLast = 0 then tscNow else g.tscLast) = tscLast
    dsimp only
    split
    · exact ⟨true, _, rfl, rfl, hsafe'⟩
    · exact ⟨false, _, rfl, rfl, hsafe⟩
  | keyboard code r =>
    obtain ⟨o, s', hkey, hsafe'⟩ := hsafe.tetrisStep env (.key code r)
    obtain ⟨tetris, hcode, heq⟩ := Option.map_eq_some_iff.1 hkey
    cases heq
    rw [gameStep, hcode]
    exact ⟨false, _, rfl, hfreq, hsafe'⟩

end

/-! ## The watch -/

/-- The time stamp is the reference of the readings, which are those of an exact watch, and the last
of them is a short time after it. -/
structure Watch (tscLast : Nat) (ticks : List (Nat × Bool)) : Prop where
  exact : Exact (ShorterThan 500) ticks
  reference_eq : reference ticks = if tscLast = 0 then none else some tscLast
  last : ∀ x ∈ ticks.getLast?, tscLast ≤ x.1 ∧ ShorterThan 500 tscLast x.1

section
variable {ticks : List (Nat × Bool)} {tscLast tscNow : Nat} {fell : Bool}

/-- A watch that has not been read. -/
theorem watch_nil : Watch 0 [] := ⟨exact_nil, rfl, by simp⟩

/-- No time is short. -/
theorem shorterThan_self (a : Nat) : ShorterThan 500 a a := by
  rw [ShorterThan, Nat.sub_self, Nat.zero_mul, Nat.zero_div]
  decide

/-- **One timer interrupt is one reading of an exact watch.** -/
theorem Watch.tick (h : Watch tscLast ticks)
    (hok : ReadingsOk ((ticks ++ [(tscNow, fell)]).map Prod.fst))
    (hfell : fell = false ↔ 1000 * ((tscNow + 2 ^ 64 - if tscLast = 0 then tscNow else tscLast) %
      2 ^ 64) % 2 ^ 64 / cpuFrequency < 500) :
    Watch (if fell = true then tscNow else if tscLast = 0 then tscNow else tscLast)
      (ticks ++ [(tscNow, fell)]) := by
  have hzero : tscNow ≠ 0 := hok.ne_zero tscNow (by simp)
  by_cases hfirst : tscLast = 0
  · -- the first reading, at which the watch starts
    have href := h.reference_eq
    rw [if_pos hfirst] at href hfell
    obtain rfl := reference_eq_none_iff.1 href
    have hshort := (msec_lt_iff (Nat.le_refl tscNow) (by omega)).2 (shorterThan_self tscNow)
    obtain rfl := hfell.2 hshort
    rw [if_neg (by decide), if_pos hfirst]
    refine ⟨exact_nil.snoc (by simp [reference]), ?_, ?_⟩
    · rw [if_neg hzero]
      rfl
    · rintro x hx
      cases hx
      exact ⟨Nat.le_refl _, shorterThan_self _⟩
  · have href := h.reference_eq
    rw [if_neg hfirst] at href hfell
    rw [if_neg hfirst]
    have hne : ticks ≠ [] := by
      rintro rfl
      cases href
    -- the product is a word: the reading before this one is a short time after the time stamp
    obtain ⟨x, hx⟩ := Option.isSome_iff_exists.1 (List.getLast?_isSome.2 hne)
    obtain ⟨hle, hshort⟩ := h.last x hx
    have hstep : x.1 ≤ tscNow ∧ 1000 * (tscNow - x.1) + 500 * cpuFrequency ≤ 2 ^ 64 := by
      have hsteps := hok.steps
      rw [List.map_append, List.isChain_append] at hsteps
      exact hsteps.2.2 x.1 (by rw [List.getLast?_map, hx]; rfl) tscNow rfl
    have hlt : (x.1 - tscLast) * 1000 < 500 * cpuFrequency :=
      (Nat.div_lt_iff_lt_mul (by decide)).1 hshort
    rw [msec_lt_iff (by omega) (by omega)] at hfell
    have halarm : fell = true ↔ ∃ r ∈ reference ticks, ¬ ShorterThan 500 r tscNow := by
      rw [href]
      simp [← hfell]
    refine ⟨h.exact.snoc halarm, ?_, ?_⟩
    · rw [reference_snoc, href]
      cases fell with
      | true => rw [if_pos rfl, if_pos rfl, if_neg hzero]
      | false =>
        change some tscLast = if tscLast = 0 then none else some tscLast
        rw [if_neg hfirst]
    · rintro y hy
      obtain rfl : (tscNow, fell) = y := by simpa using hy
      cases fell with
      | true => exact ⟨Nat.le_refl _, shorterThan_self _⟩
      | false => exact ⟨Nat.le_trans hle hstep.1, hfell.1 rfl⟩

/-- The falls are half a second apart. -/
theorem Watch.count_le {first last : Nat} (h : Watch tscLast ticks)
    (hfirst : (ticks.map Prod.fst).head? = some first)
    (hlast : (ticks.map Prod.fst).getLast? = some last) :
    1000 * first + 500 * cpuFrequency * ticks.countP Prod.snd ≤ 1000 * last := by
  have hscale : ∀ a b, ¬ ShorterThan 500 a b → 1000 * a + 500 * cpuFrequency ≤ 1000 * b := by
    intro a b hlong
    have hge := (Nat.le_div_iff_mul_le (show 0 < cpuFrequency by decide)).1 (Nat.not_lt.1 hlong)
    have hpos : 0 < 500 * cpuFrequency := by decide
    omega
  rw [List.getLast?_map, Option.map_eq_some_iff] at hlast
  obtain ⟨x, hx, rfl⟩ := hlast
  have hne : ticks ≠ [] := by
    rintro rfl
    cases hx
  have href := h.reference_eq
  split at href
  · exact absurd (reference_eq_none_iff.1 href) hne
  · have hcount := h.exact.count_le hscale hfirst href
    have hle := (h.last x hx).1
    omega

end

/-! ## Runs -/

/-- The game is the one that its events make, and the timer is an exact watch. -/
structure GameInv (env : GuestLow) (screen : Screen) (t : List (GuestInterrupt × Bool))
    (g : GuestGame) : Prop where
  cpuFreq_eq : g.cpuFreq = cpuFrequency
  game : ∃ t', Run (tetrisStep env) (fun _ _ => True) (tetrisInit env screen) t' g.tetris ∧
    t'.map Prod.fst = t.filterMap gameEvent
  watch : ReadingsOk ((t.filterMap gameTick).map Prod.fst) → Watch g.tscLast (t.filterMap gameTick)

section
variable {env : GuestLow} {screen : Screen} {t : List (GuestInterrupt × Bool)} {g g' : GuestGame}
  {i : GuestInterrupt} {fell : Bool}

/-- The readings up to one of them. -/
theorem ReadingsOk.of_append {ts us : List Nat} (h : ReadingsOk (ts ++ us)) : ReadingsOk ts where
  ne_zero t ht := h.ne_zero t (List.mem_append_left _ ht)
  steps := h.steps.left_of_append

/-- **One interrupt** keeps the invariant. -/
theorem GameInv.step (h : GameInv env screen t g) (hst : gameStep env g i = some (fell, g')) :
    GameInv env screen (t ++ [(i, fell)]) g' := by
  obtain ⟨hfreq', htetris⟩ := gameStep_tetris h.cpuFreq_eq hst
  obtain ⟨t', hrun, hevents⟩ := h.game
  refine ⟨hfreq', ?_, ?_⟩
  · rw [filterMap_snoc]
    cases he : gameEvent (i, fell) with
    | none =>
      rw [he] at htetris
      refine ⟨t', htetris ▸ hrun, ?_⟩
      rw [hevents, Option.toList_none, List.append_nil]
    | some e =>
      rw [he] at htetris
      refine ⟨t' ++ [(e, ())], hrun.snoc trivial htetris, ?_⟩
      rw [List.map_append, hevents]
      rfl
  · rw [filterMap_snoc]
    cases i with
    | timer tscNow r =>
      intro hok
      have hwatch := h.watch (by rw [List.map_append] at hok; exact hok.of_append)
      obtain ⟨-, hcases, hfell⟩ := timerInterruptHandler_cases h.cpuFreq_eq hst
      have hlast : g'.tscLast =
          if fell = true then tscNow else if g.tscLast = 0 then tscNow else g.tscLast := by
        rcases hcases with ⟨rfl, hlast, -⟩ | ⟨rfl, hlast, -⟩
        · exact hlast
        · exact hlast
      rw [hlast]
      exact hwatch.tick hok hfell
    | keyboard code r =>
      obtain ⟨tetris, -, heq⟩ := Option.map_eq_some_iff.1 hst
      cases heq
      change ReadingsOk ((t.filterMap gameTick ++ []).map Prod.fst) →
        Watch g.tscLast (t.filterMap gameTick ++ [])
      rw [List.append_nil]
      exact h.watch

/-- The readings of the watch are those of the interrupts. -/
theorem tscReadings_map (t : List (GuestInterrupt × Bool)) :
    (t.filterMap gameTick).map Prod.fst = tscReadings (t.map Prod.fst) := by
  rw [tscReadings, List.map_filterMap, List.filterMap_map]
  refine List.filterMap_congr fun x _ => ?_
  obtain ⟨i, fell⟩ := x
  cases i <;> rfl

end

/-- **The game keeps its pace.** The timer is initialised through an exit for `rdtsc`. Then every
sequence of timer and keyboard interrupts has a result. The game is in the state that its own events
lead to, and safe. The block falls at a timer interrupt exactly if half a second has passed since
the last fall (since the first timer interrupt, if there was none), so all falls together take at
most the time that passes. -/
theorem game_paced {D : Type} (env : GuestLow) (screen : Screen) {input : HostInput}
    {info : VmexitInfo} {s₀ s₁ : ExitState D} (hinit : rdtscExitSubHandler input info s₀ = some s₁)
    (is : List GuestInterrupt) (hok : ReadingsOk (tscReadings is)) :
    ∃ t g t', exec (gameStep env) (timerInit s₁.vcpu (tetrisInit env screen)) is = some (t, g) ∧
      Run (tetrisStep env) (fun _ _ => True) (tetrisInit env screen) t' g.tetris ∧
      t'.map Prod.fst = t.filterMap gameEvent ∧ g.tetris.Safe ∧
      Exact (ShorterThan 500) (t.filterMap gameTick) ∧
      ∀ first last, (tscReadings is).head? = some first → (tscReadings is).getLast? = some last →
        1000 * first + 500 * cpuFrequency * (t.filterMap gameTick).countP Prod.snd ≤
          1000 * last := by
  have hfreq := rdtscExit_frequency hinit
  obtain ⟨t, g, hex, -, hsafe'⟩ := exec_of_inv
    (fun g : GuestGame => g.cpuFreq = cpuFrequency ∧ g.tetris.Safe)
    (fun g i h => gameStep_safe env i h) is
    (show (timerInit s₁.vcpu (tetrisInit env screen)).cpuFreq = cpuFrequency ∧ _ from
      ⟨hfreq, tetrisInit_safe env screen⟩)
  have hrun : Run (gameStep env) (fun _ _ => True)
    (timerInit s₁.vcpu (tetrisInit env screen)) t g :=
    Run.nil.exec (fun _ _ _ => trivial) hex
  have hinv : GameInv env screen t g := hrun.inv (GameInv env screen)
    ⟨hfreq, ⟨[], .nil, rfl⟩, fun _ => watch_nil⟩ fun _ _ _ _ _ h _ hst => h.step hst
  obtain ⟨t', hgame, hevents⟩ := hinv.game
  have hreadings : (t.filterMap gameTick).map Prod.fst = tscReadings is := by
    rw [tscReadings_map, exec_events hex]
  rw [← hreadings] at hok ⊢
  have hwatch := hinv.watch hok
  exact ⟨t, g, t', hex, hgame, hevents, hsafe', hwatch.exact,
    fun first last hfirst hlast => hwatch.count_le hfirst hlast⟩

/-- Two timer interrupts, half a second apart: the block falls once at most. -/
theorem game_paced_twice :
    ∃ (s₁ : ExitState Unit) (t : List (GuestInterrupt × Bool)) (g : GuestGame),
    rdtscExitSubHandler ⟨1, 0, 0⟩ ⟨16, 0, 2⟩ ⟨fun _ => 0, sampleGuest, ()⟩ = some s₁ ∧
    exec (gameStep zeroGuest) (timerInit s₁.vcpu (tetrisInit zeroGuest fun _ => ⟨0, 0⟩))
      [.timer 2494254000 verticalBar, .timer 3741381000 verticalBar] = some (t, g) ∧
    g.tetris.Safe ∧ (t.filterMap gameTick).countP Prod.snd ≤ 1 := by
  have hok : ReadingsOk [2494254000, 3741381000] := ⟨by decide, by decide⟩
  have hfreq : cpuFrequency = 2494254000 := rfl
  obtain ⟨s₁, hinit⟩ : ∃ s₁, rdtscExitSubHandler ⟨1, 0, 0⟩ ⟨16, 0, 2⟩
      (⟨fun _ => 0, sampleGuest, ()⟩ : ExitState Unit) = some s₁ := ⟨_, rfl⟩
  obtain ⟨t, g, -, hex, -, -, hsafe, -, hcount⟩ := game_paced zeroGuest (fun _ => ⟨0, 0⟩) hinit
    [.timer 2494254000 verticalBar, .timer 3741381000 verticalBar] hok
  have hle := hcount 2494254000 3741381000 rfl rfl
  rw [hfreq] at hle
  exact ⟨s₁, t, g, hinit, hex, hsafe, by omega⟩

end ZeldaOS
