import ZeldaOS.Guest.Timer
import ZeldaOS.VmMonitor.GuestService

/-!
# The game in the monitor

The whole way of a key: the interrupt of the host's keyboard, the buffer of the monitor, the
injected interrupt, the port that the guest reads, and the game. A move of the system of
`VmMonitor.GuestService` that runs a handler of the guest is here an interrupt of the game of
`Guest.Timer` too (`playStep`).

The runs of this system are runs of both parts (`PlayInv`). So in every order of the moves the game
plays the scancodes that the monitor accepted, in their order and each one once, at the pace of its
timer, and when the system is at rest it has played all of them, if a key ever found the line of the
keyboard unmasked (`keys_reach_game`).
-/

namespace ZeldaOS

/-! ## The system -/

/-- `try_retrieve_scancode` of the guest on the byte that the port gives. For the byte 0 it returns
0 and its caller, which does not look at the result, goes on with the `stale` content of its
variable. -/
def tryRetrieveScancode (data stale : UInt8) : UInt8 := if data = 0 then stale else data

/-- A move, with what a handler of the guest finds if the move runs one. -/
structure PlayEvent where
  move : SystemEvent
  tscNow : Nat
  stale : UInt8
  r : Rand
deriving DecidableEq, Repr

/-- The interrupt of the game that a service is. -/
def PlayEvent.interrupt (e : PlayEvent) : Served → Option GuestInterrupt
  | .tick => some (.timer e.tscNow e.r)
  | .key code => some (.keyboard (tryRetrieveScancode code e.stale) e.r)
  | .unrecognized _ => none

/-- The output of the system, and the interrupt of the game with its result. -/
structure PlayOutput where
  system : SystemOutput
  game : Option (GuestInterrupt × Bool)
deriving DecidableEq, Repr

/-- The monitor and the guest, and the game that runs in the guest. -/
structure PlayState where
  system : GuestSystem
  game : GuestGame

/-- One move. -/
def playStep (env : GuestLow) (s : PlayState) (e : PlayEvent) : Option (PlayOutput × PlayState) :=
  (systemStep s.system e.move).bind fun (o, system) =>
    match o.served.bind e.interrupt with
    | none => some (⟨o, none⟩, ⟨system, s.game⟩)
    | some i => (gameStep env s.game i).map fun (fell, game) =>
      (⟨o, some (i, fell)⟩, ⟨system, game⟩)

/-- The moves that the system can make. -/
def PlayOk (s : PlayState) (e : PlayEvent) : Prop := SystemOk s.system e.move

instance (s : PlayState) (e : PlayEvent) : Decidable (PlayOk s e) :=
  inferInstanceAs (Decidable (SystemOk _ _))

/-- The system when the guest is launched. The game is as the boot leaves it, since no handler runs
before the end of the boot; its `timer_init` made an exit for `rdtsc` that left the registers
`vcpu`. -/
def playStart (procBasedControls entryInterruptionInfo : Nat) (vcpu : GuestCpuState)
    (env : GuestLow) (screen : Screen) : PlayState :=
  ⟨systemStart procBasedControls entryInterruptionInfo, timerInit vcpu (tetrisInit env screen)⟩

/-! ## The two parts of a run -/

/-- The run of the monitor and its guest. -/
def systemTrace (t : List (PlayEvent × PlayOutput)) : List (SystemEvent × SystemOutput) :=
  t.map fun x => (x.1.move, x.2.system)

/-- The interrupts of the game. -/
def gameTrace (t : List (PlayEvent × PlayOutput)) : List (GuestInterrupt × Bool) :=
  t.filterMap (·.2.game)

/-- The scancode of an event. -/
def TetrisEvent.key? : TetrisEvent → Option UInt8
  | .key code _ => some code
  | .drop _ => none

/-- The scancodes that the game plays. -/
def keysPlayed (t : List (GuestInterrupt × Bool)) : List UInt8 :=
  (t.filterMap gameEvent).filterMap TetrisEvent.key?

/-- The game plays the scancode that the port gives, unless that is 0. -/
def PlayedFor (data code : UInt8) : Prop := data ≠ 0 → code = data

section
variable {procBasedControls entryInterruptionInfo : Nat} {vcpu : GuestCpuState}
  {env : GuestLow} {screen : Screen} {t : List (PlayEvent × PlayOutput)} {s s' : PlayState}
  {e : PlayEvent} {o : PlayOutput}

/-- What the handler plays for the byte at the port. -/
theorem tryRetrieveScancode_playedFor (data stale : UInt8) :
    PlayedFor data (tryRetrieveScancode data stale) := fun hne => if_neg hne

/-- A move is a move of the system, and where it runs a handler an interrupt of the game. -/
theorem playStep_cases (h : playStep env s e = some (o, s')) :
    systemStep s.system e.move = some (o.system, s'.system) ∧
    ((o.system.served.bind e.interrupt = none ∧ o.game = none ∧ s'.game = s.game) ∨
      ∃ i fell, o.system.served.bind e.interrupt = some i ∧ o.game = some (i, fell) ∧
        gameStep env s.game i = some (fell, s'.game)) := by
  obtain ⟨⟨o', system⟩, hsystem, hgame⟩ := Option.bind_eq_some_iff.1 h
  dsimp only at hgame
  cases hi : o'.served.bind e.interrupt with
  | none =>
    rw [hi] at hgame
    cases hgame
    exact ⟨hsystem, .inl ⟨hi, rfl, rfl⟩⟩
  | some i =>
    rw [hi] at hgame
    obtain ⟨⟨fell, game⟩, hst, heq⟩ := Option.map_eq_some_iff.1 hgame
    cases heq
    exact ⟨hsystem, .inr ⟨i, fell, hi, rfl, hst⟩⟩

/-- The game has no part in whether a move has a result. -/
theorem playStep_isSome (h : s.game.cpuFreq = cpuFrequency ∧ s.game.tetris.Safe)
    (hsystem : (systemStep s.system e.move).isSome) : (playStep env s e).isSome := by
  obtain ⟨⟨o, system⟩, hsome⟩ := Option.isSome_iff_exists.1 hsystem
  rw [playStep, hsome, Option.bind_some]
  dsimp only
  cases o.served.bind e.interrupt with
  | none => rfl
  | some i =>
    obtain ⟨fell, game, hst, -⟩ := gameStep_safe env i h
    dsimp only
    rw [hst]
    rfl

/-! ## One move -/

/-- The invariant: both parts are runs of their own, and the game plays what the guest reads. -/
structure PlayInv (procBasedControls entryInterruptionInfo : Nat) (env : GuestLow)
    (screen : Screen) (t : List (PlayEvent × PlayOutput)) (s : PlayState) : Prop where
  system : Run systemStep SystemOk (systemStart procBasedControls entryInterruptionInfo)
    (systemTrace t) s.system
  game : GameInv env screen (gameTrace t) s.game
  safe : s.game.tetris.Safe
  keys : List.Forall₂ PlayedFor (keysOf (systemTrace t)) (keysPlayed (gameTrace t))

/-- The scancodes that are played with one more interrupt. -/
theorem keysPlayed_snoc (t : List (GuestInterrupt × Bool)) (x : GuestInterrupt × Bool) :
    keysPlayed (t ++ [x]) = keysPlayed t ++ ((gameEvent x).bind TetrisEvent.key?).toList := by
  rw [keysPlayed, filterMap_snoc, List.filterMap_append]
  cases gameEvent x with
  | none => rfl
  | some e =>
    change _ ++ List.filterMap TetrisEvent.key? ([] ++ [e]) = _
    rw [filterMap_snoc]
    rfl

/-- The key of a service is the key of its interrupt. -/
theorem PlayEvent.interrupt_keys {served : Served} {i : GuestInterrupt}
    (h : e.interrupt served = some i) (fell : Bool) :
    List.Forall₂ PlayedFor served.key?.toList
      ((gameEvent (i, fell)).bind TetrisEvent.key?).toList := by
  cases served with
  | tick =>
    cases h
    cases fell <;> exact .nil
  | key code =>
    cases h
    exact .cons (tryRetrieveScancode_playedFor code e.stale) .nil
  | unrecognized vector => cases h

/-- Without an interrupt there is no key. -/
theorem PlayEvent.no_interrupt_keys {served : Option Served} (h : served.bind e.interrupt = none) :
    served.bind Served.key? = none := by
  cases served with
  | none => rfl
  | some served =>
    cases served with
    | tick | key code => cases h
    | unrecognized vector => rfl

/-- The launch. -/
theorem PlayInv.start {D : Type} {input : HostInput} {info : VmexitInfo} {s₀ s₁ : ExitState D}
    (hinit : rdtscExitSubHandler input info s₀ = some s₁) :
    PlayInv procBasedControls entryInterruptionInfo env screen []
      (playStart procBasedControls entryInterruptionInfo s₁.vcpu env screen) where
  system := .nil
  game := ⟨rdtscExit_frequency hinit, ⟨[], .nil, rfl⟩, fun _ => watch_nil⟩
  safe := tetrisInit_safe env screen
  keys := .nil

/-- **One move** is a move of the system, and of the game if a handler runs. -/
theorem PlayInv.step (h : PlayInv procBasedControls entryInterruptionInfo env screen t s)
    (hok : PlayOk s e) (hst : playStep env s e = some (o, s')) :
    PlayInv procBasedControls entryInterruptionInfo env screen (t ++ [(e, o)]) s' := by
  obtain ⟨hsystem, hgame⟩ := playStep_cases hst
  have htrace : systemTrace (t ++ [(e, o)]) = systemTrace t ++ [(e.move, o.system)] :=
    List.map_append
  have hrun : Run systemStep SystemOk (systemStart procBasedControls entryInterruptionInfo)
      (systemTrace (t ++ [(e, o)])) s'.system := by
    rw [htrace]
    exact h.system.snoc hok hsystem
  rcases hgame with ⟨hnone, hout, hsame⟩ | ⟨i, fell, hsome, hout, hgame⟩
  · -- no handler runs
    have hplayed : gameTrace (t ++ [(e, o)]) = gameTrace t := by
      rw [gameTrace, filterMap_snoc, hout]
      exact List.append_nil _
    have hkeys : keysOf (systemTrace (t ++ [(e, o)])) = keysOf (systemTrace t) := by
      rw [htrace, keysOf_snoc, PlayEvent.no_interrupt_keys hnone]
      exact List.append_nil _
    refine ⟨hrun, ?_, ?_, ?_⟩
    · rw [hplayed, hsame]
      exact h.game
    · rw [hsame]
      exact h.safe
    · rw [hplayed, hkeys]
      exact h.keys
  · -- a handler runs, and the game with it
    have hplayed : gameTrace (t ++ [(e, o)]) = gameTrace t ++ [(i, fell)] := by
      rw [gameTrace, filterMap_snoc, hout]
      rfl
    obtain ⟨served, hserved, hi⟩ := Option.bind_eq_some_iff.1 hsome
    obtain ⟨fell', game', hst', -, hsafe⟩ := gameStep_safe env i ⟨h.game.cpuFreq_eq, h.safe⟩
    obtain ⟨rfl, rfl⟩ := Prod.mk.inj (Option.some.inj (hst'.symm.trans hgame))
    refine ⟨hrun, ?_, hsafe, ?_⟩
    · rw [hplayed]
      exact h.game.step hgame
    · rw [hplayed, htrace, keysOf_snoc, keysPlayed_snoc, hserved]
      exact List.rel_append h.keys (PlayEvent.interrupt_keys hi fell')

/-! ## All moves -/

/-- **The keys reach the game.** From the launch on, whatever the order of the moves, none of them
halts the monitor or breaks the game, and the game is in the state that its own events lead to. The
keys among these are the first of the scancodes that the monitor accepted, in order; all of them if
neither the guest nor the monitor has a move left and a key has ever raised its line; and the timer
is an exact watch, if the counter does not jump. -/
theorem keys_reach_game {D : Type} {input : HostInput} {info : VmexitInfo} {s₀ s₁ : ExitState D}
    (hinit : rdtscExitSubHandler input info s₀ = some s₁)
    (h : Run (playStep env) PlayOk
      (playStart procBasedControls entryInterruptionInfo s₁.vcpu env screen) t s) :
    (∀ e, PlayOk s e → (playStep env s e).isSome) ∧ s.game.tetris.Safe ∧
    (∃ t' n, Run (tetrisStep env) (fun _ _ => True) (tetrisInit env screen) t' s.game.tetris ∧
      t'.map Prod.fst = (gameTrace t).filterMap gameEvent ∧
      List.Forall₂ PlayedFor ((acceptedOf (systemTrace t)).take n) (keysPlayed (gameTrace t)) ∧
      ((∀ e, ¬ InternalOk s.system e) → keyRaised (systemTrace t) = true →
        (acceptedOf (systemTrace t)).length ≤ n)) ∧
    (ReadingsOk (((gameTrace t).filterMap gameTick).map Prod.fst) →
      Exact (ShorterThan 500) ((gameTrace t).filterMap gameTick)) := by
  have hinv : PlayInv procBasedControls entryInterruptionInfo env screen t s :=
    h.inv (PlayInv procBasedControls entryInterruptionInfo env screen) (.start hinit)
      fun _ _ _ _ _ h hok hst => h.step hok hst
  have hsystem := (SystemInv.of_run hinv.system).1
  obtain ⟨t', hrun, hevents⟩ := hinv.game.game
  obtain ⟨j, n, -, -, hkeys⟩ := hsystem.service
  refine ⟨fun e he => ?_, hinv.safe, ⟨t', n, hrun, hevents, ?_, fun hrest hraised => ?_⟩,
    fun hok => ?_⟩
  · exact playStep_isSome ⟨hinv.game.cpuFreq_eq, hinv.safe⟩ (hsystem.progress he)
  · rw [← hkeys]
    exact hinv.keys
  · obtain ⟨-, hread⟩ := hsystem.rest hrest
    rw [hraised] at hread
    have hall := hread.1
    rw [hkeys] at hall
    exact List.take_eq_self_iff _ |>.1 hall
  · exact (hinv.game.watch hok).exact

/-- The moves when Ctrl is pressed on the host after the boot, until the system is at rest. -/
def ctrlMoves : List PlayEvent :=
  (bootMoves ++ .hostKeyboard 0x1d 0 :: drainMoves).map fun move => ⟨move, 0, 0, verticalBar⟩

/-- The game plays the key. -/
theorem keys_reach_game_ctrl :
    ∃ (s₁ : ExitState Unit) (t : List (PlayEvent × PlayOutput)) (s : PlayState),
    rdtscExitSubHandler ⟨1, 0, 0⟩ ⟨16, 0, 2⟩ ⟨fun _ => 0, sampleGuest, ()⟩ = some s₁ ∧
    Run (playStep zeroGuest) PlayOk (playStart 0 0 s₁.vcpu zeroGuest fun _ => ⟨0, 0⟩) t s ∧
    acceptedOf (systemTrace t) = [0x1d] ∧ keysPlayed (gameTrace t) = [0x1d] ∧
    s.game.tetris.Safe := by
  obtain ⟨s₁, hinit, hexec⟩ : ∃ s₁, rdtscExitSubHandler ⟨1, 0, 0⟩ ⟨16, 0, 2⟩
      (⟨fun _ => 0, sampleGuest, ()⟩ : ExitState Unit) = some s₁ ∧
      (exec (guarded PlayOk (playStep zeroGuest))
        (playStart 0 0 s₁.vcpu zeroGuest fun _ => ⟨0, 0⟩) ctrlMoves).map
        (fun r => (acceptedOf (systemTrace r.1), keysPlayed (gameTrace r.1))) =
        some ([0x1d], [0x1d]) :=
    ⟨_, rfl, by decide +kernel⟩
  obtain ⟨⟨t, s⟩, hr, hlast⟩ := Option.map_eq_some_iff.1 hexec
  obtain ⟨haccepted, hplayed⟩ := Prod.mk.inj hlast
  have hrun := Run.of_guarded hr
  obtain ⟨-, hsafe, -⟩ := keys_reach_game hinit hrun
  exact ⟨s₁, t, s, hinit, hrun, haccepted, hplayed, hsafe⟩

end

end ZeldaOS
