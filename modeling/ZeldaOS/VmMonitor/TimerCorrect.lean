import ZeldaOS.Lib.Stopwatch
import ZeldaOS.VmMonitor.InterruptCorrect

/-!
# The virtual timer

The guest's timer line is raised from the timer interrupts of the host, when the threshold that the
guest programmed has passed. The handler keeps one time stamp, and moves it at every interrupt, so
it measures the time since the last interrupt of the host and not since the last raise
(`Run.restarted`). The time of an interrupt that did not raise the line is lost: a guest that wants
an interrupt every 2 ms never gets one from a host timer of 1 ms (`timer_loses_time`). No time is
lost exactly if no stretch of host interrupts, each less than the threshold after the one before it,
takes the threshold or longer (`timer_keeps_time_iff`).
-/

namespace ZeldaOS

/-! ## The timer in a trace -/

/-- A timer interrupt of the host: its TSC and whether it raised line 0. -/
def tick : Event × Output → Option (Nat × Bool)
  | (.timer currTsc, o) => some (currTsc, o.raised.map Fin.val == some 0)
  | _ => none

/-- The timer interrupts of a trace. -/
def ticks (t : List (Event × Output)) : List (Nat × Bool) := t.filterMap tick

/-- Less than `threshold` milliseconds pass between two values of the TSC. -/
def ShorterThan (threshold a b : Nat) : Prop := (b - a) * 1000 / cpuFrequency < threshold

/-- The events of interest: at a timer interrupt line 0 is not masked, and only the timer raises
it. -/
def TimerOk (m : Monitor) : Event → Prop
  | .timer _ => isInterruptPinMasked m.pic 0 = false
  | .raise vector => vector ≠ 0
  | _ => True

instance (m : Monitor) : (e : Event) → Decidable (TimerOk m e)
  | .timer _ => inferInstanceAs (Decidable (_ = _))
  | .raise _ => inferInstanceAs (Decidable (_ ≠ _))
  | .windowExit _ | .picWrite _ _ | .keyboard _ _ | .keyboardRead => inferInstanceAs
      (Decidable True)

/-- The values of the TSC are not 0 and increase, each time by so little that a thousand times as
much is a word. -/
structure TscsOk (ts : List Nat) : Prop where
  ne_zero : ∀ t ∈ ts, t ≠ 0
  increasing : ts.Pairwise (· < ·)
  gaps : ts.IsChain fun a b => (b - a) * 1000 < 2 ^ 64

section
variable {m m' : Monitor} {e : Event} {o : Output} {t : List (Event × Output)}

/-- The ticks with one more event. -/
theorem ticks_snoc (t : List (Event × Output)) (x : Event × Output) :
    ticks (t ++ [x]) = ticks t ++ (tick x).toList := by
  rw [ticks, List.filterMap_append, ticks]
  cases h : tick x <;> simp [h]

/-- The readings up to one of them. -/
theorem TscsOk.of_append {ts us : List Nat} (h : TscsOk (ts ++ us)) : TscsOk ts where
  ne_zero t ht := h.ne_zero t (List.mem_append_left _ ht)
  increasing := (List.pairwise_append.1 h.increasing).1
  gaps := h.gaps.left_of_append

/-- The last two values. -/
theorem TscsOk.last {ts : List Nat} {x currTsc : Nat} (h : TscsOk (ts ++ [currTsc]))
    (hx : x ∈ ts.getLast?) : x ≠ 0 ∧ x < currTsc ∧ (currTsc - x) * 1000 < 2 ^ 64 := by
  have hmem : x ∈ ts := List.mem_of_getLast? hx
  refine ⟨h.ne_zero x (List.mem_append_left _ hmem), ?_, ?_⟩
  · exact (List.pairwise_append.1 h.increasing).2.2 x hmem currTsc (by simp)
  · exact (List.isChain_append.1 h.gaps).2.2 x hx currTsc (by simp)

/-! ## What a step does to the timer -/

/-- Raising a line does not touch the timer, -/
theorem raiseInterrupt_pit {vector : Nat} {raised : Option (Fin 15)}
    (h : raiseInterrupt m vector = some (raised, m')) : m'.pit = m.pit := by
  rcases raiseInterrupt_inv h with ⟨-, rfl⟩ | ⟨v, -, -, rfl⟩ <;> rfl

/-- nor does a window exit. -/
theorem interruptWindowExit_pit {rflags : Nat} {r : WindowResult}
    (h : interruptWindowExit m rflags = some (r, m')) : m'.pit = m.pit := by
  rw [interruptWindowExit] at h
  split at h
  · cases h
  split at h
  · cases h
    rfl
  · obtain ⟨⟨cleared, m₁⟩, hr, heq⟩ := Option.map_eq_some_iff.1 h
    have hretired : m₁.pit = m.pit := by
      cases retireDelivered_retires hr <;> rfl
    have hdelivered : (deliverNext m₁).2.pit = m₁.pit := by
      rw [deliverNext]
      cases firstRequest m₁.interruptRequestBitmap <;> rfl
    rw [← hretired, ← hdelivered]
    cases heq
    dsimp only
    split <;> rfl

/-- Only the timer moves its time stamp, and nothing moves its threshold. -/
theorem step_pit (h : m.step e = some (o, m')) (he : ∀ currTsc, e ≠ .timer currTsc) :
    m'.pit = m.pit := by
  cases e with
  | raise vector =>
    obtain ⟨⟨r, m₁⟩, hr, heq⟩ := Option.map_eq_some_iff.1 h
    cases heq
    exact raiseInterrupt_pit hr
  | windowExit rflags =>
    obtain ⟨⟨r, m₁⟩, hr, heq⟩ := Option.map_eq_some_iff.1 h
    cases heq
    exact interruptWindowExit_pit hr
  | picWrite portId byte =>
    obtain ⟨pic, hr, heq⟩ := Option.map_eq_some_iff.1 h
    cases heq
    rfl
  | timer currTsc => exact absurd rfl (he currTsc)
  | keyboard code stale =>
    obtain ⟨⟨accepted, r, m₁⟩, hk, heq⟩ := Option.map_eq_some_iff.1 h
    cases heq
    have hpit := raiseInterrupt_pit (keyboardInterrupt_inv hk).2
    exact hpit
  | keyboardRead =>
    cases h
    rfl

/-- An unmasked line is raised. -/
theorem raiseInterrupt_unmasked (hmask : isInterruptPinMasked m.pic 0 = false) :
    ∃ raised m', raiseInterrupt m 0 = some (raised, m') ∧ raised.map Fin.val = some 0 := by
  rw [raiseInterrupt, dif_pos (by decide), if_neg (by simp [hmask])]
  exact ⟨_, _, rfl, rfl⟩

/-- **One timer interrupt** moves the time stamp, and raises the line if the threshold has passed
since the last one. -/
theorem timerInterrupt_spec {currTsc : Nat} {raised : Option (Fin 15)}
    (hmask : isInterruptPinMasked m.pic 0 = false)
    (h : timerInterrupt m currTsc = some (raised, m')) :
    m'.pit = { m.pit with lastTsc := currTsc } ∧
      ((raised.map Fin.val == some 0) = true ↔
        m.pit.lastTsc ≠ 0 ∧ diffMseconds m.pit currTsc ≥ m.pit.threshold) := by
  obtain ⟨m₁, rfl, ⟨hdue, hr⟩ | ⟨hdue, rfl, rfl⟩⟩ := timerInterrupt_inv h
  · obtain ⟨r', m₂, hraise, hline⟩ := raiseInterrupt_unmasked hmask
    cases hr.symm.trans hraise
    exact ⟨by rw [raiseInterrupt_pit hr], by simp [hline, hdue]⟩
  · exact ⟨rfl, by simp [hdue]⟩

/-- The milliseconds between two interrupts, where nothing wraps. -/
theorem diffMseconds_eq {pit : Pit} {currTsc : Nat} (hlast : pit.lastTsc < currTsc)
    (hgap : (currTsc - pit.lastTsc) * 1000 < 2 ^ 64) :
    diffMseconds pit currTsc = (currTsc - pit.lastTsc) * 1000 / cpuFrequency := by
  have hsub : (currTsc + 2 ^ 64 - pit.lastTsc) % 2 ^ 64 = currTsc - pit.lastTsc := by omega
  rw [diffMseconds, hsub, Nat.mod_eq_of_lt hgap]

/-! ## Runs -/

/-- The time stamp is the TSC of the last timer interrupt, and each one restarted the watch. -/
structure TimerInv (threshold : Nat) (t : List (Event × Output)) (m : Monitor) : Prop where
  threshold_eq : m.pit.threshold = threshold
  lastTsc_eq : ∀ x ∈ (ticks t).getLast?, m.pit.lastTsc = x.1
  restarted : TscsOk ((ticks t).map Prod.fst) → Restarted (ShorterThan threshold) (ticks t)

/-- **One step** keeps the invariant. -/
theorem TimerInv.step {threshold : Nat} (h : TimerInv threshold t m) (hok : TimerOk m e)
    (hst : m.step e = some (o, m')) : TimerInv threshold (t ++ [(e, o)]) m' := by
  by_cases he : ∃ currTsc, e = .timer currTsc
  · obtain ⟨currTsc, rfl⟩ := he
    obtain ⟨⟨raised, m₁⟩, hr, heq⟩ := Option.map_eq_some_iff.1 hst
    cases heq
    obtain ⟨hpit, hraised⟩ := timerInterrupt_spec hok hr
    have hticks : ticks (t ++ [(.timer currTsc, { raised := raised })]) =
        ticks t ++ [(currTsc, raised.map Fin.val == some 0)] := ticks_snoc t _
    refine ⟨by rw [hpit, h.threshold_eq], by rw [hticks, hpit]; simp, fun hts => ?_⟩
    rw [hticks, List.map_append] at hts
    rw [hticks, Restarted, List.isChain_append]
    refine ⟨h.restarted hts.of_append, .singleton _, ?_⟩
    -- the tick before this one left its TSC as the time stamp
    intro x hx y hy
    cases hy
    have hlast := h.lastTsc_eq x hx
    obtain ⟨hzero, hlt, hgap⟩ := hts.last (x := x.1) (by rw [List.getLast?_map, hx]; rfl)
    rw [← hlast] at hzero hlt hgap
    rw [hraised, diffMseconds_eq hlt hgap, h.threshold_eq, ShorterThan, Nat.not_lt, ← hlast]
    exact and_iff_right hzero
  · have hne : ∀ currTsc, e ≠ .timer currTsc := fun currTsc heq => he ⟨currTsc, heq⟩
    have htick : tick (e, o) = none := by
      cases e <;> first | rfl | exact absurd rfl (hne _)
    have hticks : ticks (t ++ [(e, o)]) = ticks t := by
      rw [ticks_snoc, htick, Option.toList_none, List.append_nil]
    have hpit := step_pit hst hne
    refine ⟨by rw [hpit, h.threshold_eq], ?_, ?_⟩
    · rw [hticks, hpit]
      exact h.lastTsc_eq
    · rw [hticks]
      exact h.restarted

/-- In every run the timer interrupts restart the watch. -/
theorem Run.restarted {m₀ : Monitor} (hrun : Run Monitor.step TimerOk m₀ t m)
    (hts : TscsOk ((ticks t).map Prod.fst)) :
    Restarted (ShorterThan m₀.pit.threshold) (ticks t) := by
  have hinv : TimerInv m₀.pit.threshold t m :=
    hrun.inv (TimerInv m₀.pit.threshold) ⟨rfl, by simp [ticks], fun _ => .nil⟩
      fun _ _ _ _ _ h hok hst => h.step hok hst
  exact hinv.restarted hts

end

/-- **When the virtual timer loses no time.** In every run with an unmasked timer line: at every
timer interrupt of the host at least the threshold after the last raise (after the first interrupt,
if there was none) the line is raised, exactly if no stretch of interrupts, each less than the
threshold after the one before it, takes the threshold or longer. -/
theorem timer_keeps_time_iff {threshold : Nat} {m₀ m : Monitor} {t : List (Event × Output)}
    (hthreshold : m₀.pit.threshold = threshold) (hrun : Run Monitor.step TimerOk m₀ t m)
    (hts : TscsOk ((ticks t).map Prod.fst)) :
    NoneMissed (ShorterThan threshold) (ticks t) ↔
      StretchesShort (ShorterThan threshold) ((ticks t).map Prod.fst) := by
  subst hthreshold
  refine (hrun.restarted hts).noneMissed_iff (fun a b c hab hshort => ?_)
    (hts.increasing.imp fun hlt => Nat.le_of_lt hlt)
  have hle : (c - b) * 1000 / cpuFrequency ≤ (c - a) * 1000 / cpuFrequency :=
    Nat.div_le_div_right (Nat.mul_le_mul_right _ (Nat.sub_le_sub_left hab c))
  exact Nat.lt_of_le_of_lt hle hshort

/-- The state that `pre_initialize_vmcs` leaves, with a threshold. -/
def timerSample (threshold : Nat) : Monitor :=
  { preInitialized 0 0 with pit := { threshold, lastTsc := 0 } }

/-- The guest unmasks the timer line, then the host interrupts every millisecond. -/
def timerSampleEvents : List Event :=
  [.picWrite 0x21 0, .timer 2494254, .timer 4988508, .timer 7482762]

/-- The readings of the sample, one each millisecond. -/
theorem tscsOk_timerSample : TscsOk [2494254, 4988508, 7482762] :=
  ⟨by decide, by decide, by decide⟩

/-- The second and the third one raise the line. -/
theorem timer_keeps_time_sample : ∃ t m, Run Monitor.step TimerOk (timerSample 1) t m ∧
    ticks t = [(2494254, false), (4988508, true), (7482762, true)] ∧
    (NoneMissed (ShorterThan 1) (ticks t) ↔
      StretchesShort (ShorterThan 1) [2494254, 4988508, 7482762]) := by
  have hex : (exec (guarded TimerOk Monitor.step) (timerSample 1) timerSampleEvents).map
      (fun r => ticks r.1) = some [(2494254, false), (4988508, true), (7482762, true)] := by decide
  obtain ⟨⟨t, m⟩, hrun, hticks⟩ := Option.map_eq_some_iff.1 hex
  have hrun : Run Monitor.step TimerOk (timerSample 1) t m := Run.of_guarded hrun
  refine ⟨t, m, hrun, hticks, ?_⟩
  dsimp only at hticks
  have hts : TscsOk ((ticks t).map Prod.fst) := by
    rw [hticks]
    exact tscsOk_timerSample
  have hiff : NoneMissed (ShorterThan 1) (ticks t) ↔
      StretchesShort (ShorterThan 1) ((ticks t).map Prod.fst) := timer_keeps_time_iff rfl hrun hts
  rwa [hticks] at hiff ⊢

/-- **Lost time.** With a threshold of 2 ms and a host timer of 1 ms, the third interrupt comes 2 ms
after the first one and does not raise the line. -/
theorem timer_loses_time : ∃ t m, Run Monitor.step TimerOk (timerSample 2) t m ∧
    TscsOk ((ticks t).map Prod.fst) ∧
    ticks t = [(2494254, false), (4988508, false), (7482762, false)] ∧
    ¬ NoneMissed (ShorterThan 2) (ticks t) := by
  have hex : (exec (guarded TimerOk Monitor.step) (timerSample 2) timerSampleEvents).map
      (fun r => ticks r.1) = some [(2494254, false), (4988508, false), (7482762, false)] := by
        decide
  obtain ⟨⟨t, m⟩, hrun, hticks⟩ := Option.map_eq_some_iff.1 hex
  dsimp only at hticks
  refine ⟨t, m,
    Run.of_guarded hrun, by rw [hticks]; exact tscsOk_timerSample, hticks, fun hnone => ?_⟩
  rw [hticks] at hnone
  have hraised := hnone [(2494254, false), (4988508, false)] (7482762, false) [] rfl 2494254 rfl
    (by simp [ShorterThan, cpuFrequency])
  cases hraised

end ZeldaOS
