import ZeldaOS.VmMonitor.Monitor

/-!
# Delivery of virtual interrupts

What holds in every run of the interrupt machine. Only window exits retire and inject lines
(`Passive`), and a window exit does so only if no line is in service (`windowExit_cases`). So at
most one interrupt is in service at a time, and the vector delivered last is a line or invalid
(`injections_separated`).

A request can be lost. The bit of the line delivered last is cleared at the window exit after its
EOI, so a request of the same line that came in between is dropped with it; and since
`pre_initialize_vmcs` leaves 0 as the last vector, the first window exit drops a request of line 0
(`raise_lost`). These are the only ways: in the runs without a request for the line delivered last,
every request that is cleared was followed by an injection (`cleared_answered`).
-/

namespace ZeldaOS

/-! ## What a step does -/

/-- The event is an EOI: the byte 0x20 on one of the command ports. -/
def Event.IsEoi (e : Event) : Prop := e = .picWrite 0x20 picEoi ∨ e = .picWrite 0xa0 picEoi

instance (e : Event) : Decidable e.IsEoi := inferInstanceAs (Decidable (_ ∨ _))

section
variable {m m' : Monitor} {e : Event} {o : Output}

/-- A command that is an EOI ends the service, whatever else the chip stores of it. -/
theorem eoi_cases {pic pic' : Pic} {byte : UInt8} {port : Prop} [Decidable port] (hport : port)
    (hvec : pic'.interruptDeliveryVector = pic.interruptDeliveryVector)
    (hpend : pic'.interruptDeliveryPending = pic.interruptDeliveryPending) :
    (if byte = picEoi then { pic' with interruptDeliveryPending := false }
      else pic').interruptDeliveryVector = pic.interruptDeliveryVector ∧
    (if byte = picEoi then { pic' with interruptDeliveryPending := false }
      else pic').interruptDeliveryPending =
        if port ∧ byte = picEoi then false else pic.interruptDeliveryPending := by
  by_cases hbyte : byte = picEoi
  · rw [if_pos hbyte, if_pos ⟨hport, hbyte⟩]
    exact ⟨hvec, rfl⟩
  · rw [if_neg hbyte, if_neg fun h => hbyte h.2]
    exact ⟨hvec, hpend⟩

/-- A write to the master ends the service if it is the EOI, and touches nothing else of it. -/
theorem masterPicOutb_cases {pic pic' : Pic} {portId : Nat} {byte : UInt8}
    (h : masterPicOutb pic portId byte = some pic') :
    pic'.interruptDeliveryVector = pic.interruptDeliveryVector ∧
      pic'.interruptDeliveryPending =
        if portId = 0x20 ∧ byte = picEoi then false else pic.interruptDeliveryPending := by
  rw [masterPicOutb] at h
  split at h
  · next hport =>
    cases h
    refine eoi_cases hport ?_ ?_
    · split <;> rfl
    · split <;> rfl
  · next hport =>
    rw [if_neg fun heq => hport heq.1]
    split at h
    · cases h
      dsimp only
      split <;> exact ⟨rfl, rfl⟩
    · cases h

/-- So does one to the slave. -/
theorem slavePicOutb_cases {pic pic' : Pic} {portId : Nat} {byte : UInt8}
    (h : slavePicOutb pic portId byte = some pic') :
    pic'.interruptDeliveryVector = pic.interruptDeliveryVector ∧
      pic'.interruptDeliveryPending =
        if portId = 0xa0 ∧ byte = picEoi then false else pic.interruptDeliveryPending := by
  rw [slavePicOutb] at h
  split at h
  · next hport =>
    cases h
    refine eoi_cases hport ?_ ?_
    · split <;> rfl
    · split <;> rfl
  · next hport =>
    rw [if_neg fun heq => hport heq.1]
    split at h
    · cases h
      dsimp only
      split <;> exact ⟨rfl, rfl⟩
    · cases h

/-- A write to the controller ends the service if it is an EOI, and leaves the last vector alone. -/
theorem picOutb_cases {pic pic' : Pic} {portId : Nat} {byte : UInt8}
    (h : picOutb pic portId byte = some pic') :
    pic'.interruptDeliveryVector = pic.interruptDeliveryVector ∧
      pic'.interruptDeliveryPending =
        if (Event.picWrite portId byte).IsEoi then false else pic.interruptDeliveryPending := by
  rw [picOutb] at h
  simp only [Event.IsEoi, Event.picWrite.injEq]
  split at h
  · next hport =>
    obtain ⟨hvec, hpend⟩ := masterPicOutb_cases h
    refine ⟨hvec, hpend.trans (if_congr ⟨.inl, ?_⟩ rfl rfl)⟩
    exact fun heq => heq.resolve_right fun ⟨hslave, _⟩ => by omega
  · next hport =>
    obtain ⟨hvec, hpend⟩ := slavePicOutb_cases h
    refine ⟨hvec, hpend.trans (if_congr ⟨.inr, ?_⟩ rfl rfl)⟩
    exact fun heq => heq.resolve_left fun ⟨hmaster, _⟩ => hport (.inl hmaster)

/-- The request bits after the line `raised`, if any, was requested. -/
def withRequest (bitmap : Fin 15 → Bool) (raised : Option (Fin 15)) : Fin 15 → Bool :=
  raised.elim bitmap fun v => Function.update bitmap v true

/-- The requests with one more line. -/
theorem withRequest_eq_true {bitmap : Fin 15 → Bool} {raised : Option (Fin 15)} {v : Fin 15} :
    withRequest bitmap raised v = true ↔ bitmap v = true ∨ raised = some v := by
  cases raised with
  | none => simp [withRequest]
  | some w =>
    by_cases h : v = w
    · subst h
      simp [withRequest]
    · simp [withRequest, h, Ne.symm h]

/-- **What raising a line does.** A masked line is ignored; for another one the request is set and
the window opened. -/
theorem raiseInterrupt_inv {vector : Nat} {raised : Option (Fin 15)}
    (h : raiseInterrupt m vector = some (raised, m')) :
    (raised = none ∧ m' = m) ∨
    ∃ v : Fin 15, v.val = vector ∧ raised = some v ∧
      m' = enableInterruptWindow
        { m with interruptRequestBitmap := withRequest m.interruptRequestBitmap (some v) } := by
  rw [raiseInterrupt] at h
  split at h
  · split at h
    · cases h
      exact .inl ⟨rfl, rfl⟩
    · cases h
      exact .inr ⟨_, rfl, rfl, rfl⟩
  · cases h

/-- Raising a line changes its request bit and the window only. -/
theorem raiseInterrupt_cases {vector : Nat} {raised : Option (Fin 15)}
    (h : raiseInterrupt m vector = some (raised, m')) :
    m'.pic = m.pic ∧ m'.kbd = m.kbd ∧
      m'.interruptRequestBitmap = withRequest m.interruptRequestBitmap raised ∧
      ∀ v, raised = some v → v.val = vector := by
  rcases raiseInterrupt_inv h with ⟨rfl, rfl⟩ | ⟨v, rfl, rfl, rfl⟩
  · exact ⟨rfl, rfl, rfl, by simp⟩
  · exact ⟨rfl, rfl, rfl, fun w hw => by cases hw; rfl⟩

/-- **What the timer interrupt does.** Line 0 is raised if the threshold has passed, and the time
stamp moves in any case. -/
theorem timerInterrupt_inv {currTsc : Nat} {raised : Option (Fin 15)}
    (h : timerInterrupt m currTsc = some (raised, m')) :
    ∃ m₁ : Monitor, m' = { m₁ with pit := { m₁.pit with lastTsc := currTsc } } ∧
      (((m.pit.lastTsc ≠ 0 ∧ diffMseconds m.pit currTsc ≥ m.pit.threshold) ∧
          raiseInterrupt m 0 = some (raised, m₁)) ∨
        (¬ (m.pit.lastTsc ≠ 0 ∧ diffMseconds m.pit currTsc ≥ m.pit.threshold) ∧
          raised = none ∧ m₁ = m)) := by
  rw [timerInterrupt] at h
  obtain ⟨⟨r, m₁⟩, hr, heq⟩ := Option.map_eq_some_iff.1 h
  cases heq
  refine ⟨m₁, rfl, ?_⟩
  split at hr
  · next hdue => exact .inl ⟨hdue, hr⟩
  · next hdue =>
    cases hr
    exact .inr ⟨hdue, rfl, rfl⟩

/-- The timer of the host raises line 0, or nothing. -/
theorem timerInterrupt_cases {currTsc : Nat} {raised : Option (Fin 15)}
    (h : timerInterrupt m currTsc = some (raised, m')) :
    m'.pic = m.pic ∧ m'.kbd = m.kbd ∧
      m'.interruptRequestBitmap = withRequest m.interruptRequestBitmap raised ∧
      ∀ v, raised = some v → v.val = 0 := by
  obtain ⟨m₁, rfl, ⟨-, hr⟩ | ⟨-, rfl, rfl⟩⟩ := timerInterrupt_inv h
  · obtain ⟨hpic, hkbd, hbit, hline⟩ := raiseInterrupt_cases hr
    exact ⟨hpic, hkbd, hbit, hline⟩
  · exact ⟨rfl, rfl, rfl, by simp⟩

/-- **What the keyboard interrupt does.** The byte goes to the buffer, if there is room, and line 1
is raised. -/
theorem keyboardInterrupt_inv {code stale : UInt8} {accepted : Option UInt8}
    {raised : Option (Fin 15)} (h : keyboardInterrupt m code stale = some (accepted, raised, m')) :
    accepted = (if (m.kbd.ringEnqueue (if code = 0 then stale else code)).1 = 1
      then some (if code = 0 then stale else code) else none) ∧
    raiseInterrupt { m with kbd := (m.kbd.ringEnqueue (if code = 0 then stale else code)).2 } 1 =
      some (raised, m') := by
  rw [keyboardInterrupt] at h
  obtain ⟨⟨r, m₁⟩, hr, heq⟩ := Option.map_eq_some_iff.1 h
  cases heq
  exact ⟨rfl, hr⟩

/-- The keyboard's byte goes to the buffer, if there is room, and its line is raised. -/
theorem keyboardInterrupt_cases {code stale : UInt8} {accepted : Option UInt8}
    {raised : Option (Fin 15)} (h : keyboardInterrupt m code stale = some (accepted, raised, m')) :
    m'.pic = m.pic ∧
      ((m.kbd.ringFull = true ∧ accepted = none ∧ m'.kbd = m.kbd) ∨
        (m.kbd.ringFull = false ∧ accepted = some (if code = 0 then stale else code) ∧
          m'.kbd = m.kbd.put (if code = 0 then stale else code))) ∧
      m'.interruptRequestBitmap = withRequest m.interruptRequestBitmap raised ∧
      ∀ v, raised = some v → v.val = 1 := by
  obtain ⟨rfl, hr⟩ := keyboardInterrupt_inv h
  obtain ⟨hpic, hkbd, hbit⟩ := raiseInterrupt_cases hr
  refine ⟨hpic, ?_, hbit⟩
  cases hf : m.kbd.ringFull with
  | true =>
    rw [Ring.ringEnqueue_of_full _ hf] at hkbd ⊢
    exact .inl ⟨rfl, rfl, hkbd⟩
  | false =>
    rw [Ring.ringEnqueue_of_not_full _ hf] at hkbd ⊢
    exact .inr ⟨rfl, rfl, hkbd⟩

/-- What an exit other than that of the interrupt window may do: request a line, and end the service
if it is an EOI. -/
structure Passive (m : Monitor) (e : Event) (o : Output) (m' : Monitor) : Prop where
  vector : m'.pic.interruptDeliveryVector = m.pic.interruptDeliveryVector
  pending : m'.pic.interruptDeliveryPending =
    if e.IsEoi then false else m.pic.interruptDeliveryPending
  cleared : o.cleared = none
  injected : o.injected = none
  bitmap : m'.interruptRequestBitmap = withRequest m.interruptRequestBitmap o.raised

/-- All events but window exits are passive. -/
theorem step_passive (h : m.step e = some (o, m')) (he : ∀ rflags, e ≠ .windowExit rflags) :
    Passive m e o m' := by
  cases e with
  | raise vector =>
    obtain ⟨⟨r, m₁⟩, hr, heq⟩ := Option.map_eq_some_iff.1 h
    cases heq
    obtain ⟨hpic, -, hbit, -⟩ := raiseInterrupt_cases hr
    exact ⟨by rw [hpic], by rw [hpic, if_neg (by simp [Event.IsEoi])], rfl, rfl, hbit⟩
  | windowExit rflags => exact absurd rfl (he rflags)
  | picWrite portId byte =>
    obtain ⟨pic, hr, heq⟩ := Option.map_eq_some_iff.1 h
    cases heq
    obtain ⟨hvec, hpend⟩ := picOutb_cases hr
    exact ⟨hvec, hpend, rfl, rfl, rfl⟩
  | timer currTsc =>
    obtain ⟨⟨r, m₁⟩, hr, heq⟩ := Option.map_eq_some_iff.1 h
    cases heq
    obtain ⟨hpic, -, hbit, -⟩ := timerInterrupt_cases hr
    exact ⟨by rw [hpic], by rw [hpic, if_neg (by simp [Event.IsEoi])], rfl, rfl, hbit⟩
  | keyboard code stale =>
    obtain ⟨⟨accepted, r, m₁⟩, hr, heq⟩ := Option.map_eq_some_iff.1 h
    cases heq
    obtain ⟨hpic, -, hbit, -⟩ := keyboardInterrupt_cases hr
    exact ⟨by rw [hpic], by rw [hpic, if_neg (by simp [Event.IsEoi])], rfl, rfl, hbit⟩
  | keyboardRead =>
    cases h
    exact ⟨rfl, by rw [if_neg (by simp [Event.IsEoi])], rfl, rfl, rfl⟩

/-! ## Window exits -/

/-- How the line delivered last is retired. -/
inductive Retires (m : Monitor) : Option (Fin 15) → Monitor → Prop
  | idle : m.pic.interruptDeliveryVector = picInvalidVector → Retires m none m
  | keyboard : m.pic.interruptDeliveryVector = 1 → m.kbd.ringDequeue.2.ringEmpty = false →
      Retires m none { m with kbd := m.kbd.ringDequeue.2 }
  | lastKey : m.pic.interruptDeliveryVector = 1 → m.kbd.ringDequeue.2.ringEmpty = true →
      Retires m (some 1)
        { m with
          kbd := m.kbd.ringDequeue.2
          interruptRequestBitmap := Function.update m.interruptRequestBitmap 1 false
          pic := { m.pic with interruptDeliveryVector := picInvalidVector } }
  | line (v : Fin 15) : m.pic.interruptDeliveryVector.toNat = v → v ≠ 1 →
      Retires m (some v)
        { m with
          interruptRequestBitmap := Function.update m.interruptRequestBitmap v false
          pic := { m.pic with interruptDeliveryVector := picInvalidVector } }

/-- The first part of a window exit is one of the cases. -/
theorem retireDelivered_retires {cleared : Option (Fin 15)}
    (h : retireDelivered m = some (cleared, m')) : Retires m cleared m' := by
  rw [retireDelivered] at h
  dsimp only at h
  split at h
  · next hv =>
    cases h
    exact .idle hv
  split at h
  · next hlt =>
    split at h
    · next hv =>
      have hone : (⟨m.pic.interruptDeliveryVector.toNat, hlt⟩ : Fin 15) = 1 := by
        simp only [hv]
        rfl
      split at h
      · next hempty =>
        cases h
        rw [hone]
        exact .lastKey hv hempty
      · next hempty =>
        cases h
        exact .keyboard hv (Bool.eq_false_iff.2 hempty)
    · next hv =>
      cases h
      refine .line ⟨_, hlt⟩ rfl fun hone => hv ?_
      have hval : m.pic.interruptDeliveryVector.toNat = 1 := congrArg Fin.val hone
      exact UInt8.toNat_inj.1 hval
  · cases h

/-- How the next line is injected. -/
inductive Delivers (m : Monitor) : Option (Fin 15) → Monitor → Prop
  | idle : (∀ i, m.interruptRequestBitmap i = false) → Delivers m none m
  | line (idx : Fin 15) : m.interruptRequestBitmap idx = true →
      (∀ i < idx, m.interruptRequestBitmap i = false) →
      Delivers m (some idx)
        { m with
          entryInterruptionInfo := injectedInfo (m.pic.masterPicOffset.toNat + idx)
          pic := { m.pic with
            interruptDeliveryVector := UInt8.ofNat idx
            interruptDeliveryPending := true } }

/-- There is no first request exactly if there is none. -/
theorem firstRequest_eq_none {bitmap : Fin 15 → Bool} :
    firstRequest bitmap = none ↔ ∀ i, bitmap i = false := by
  rw [firstRequest, ← Fin.find?_eq_find?_finRange, Fin.find?_eq_none_iff]

/-- The first request is requested, and no line before it is. -/
theorem firstRequest_eq_some {bitmap : Fin 15 → Bool} {idx : Fin 15} :
    firstRequest bitmap = some idx ↔ bitmap idx = true ∧ ∀ i < idx, bitmap i = false := by
  rw [firstRequest, ← Fin.find?_eq_find?_finRange, Fin.find?_eq_some_iff]

/-- The second part of a window exit is one of the cases. -/
theorem deliverNext_delivers (m : Monitor) : Delivers m (deliverNext m).1 (deliverNext m).2 := by
  cases h : firstRequest m.interruptRequestBitmap with
  | none =>
    rw [deliverNext, h]
    exact .idle (firstRequest_eq_none.1 h)
  | some idx =>
    obtain ⟨hidx, hmin⟩ := firstRequest_eq_some.1 h
    rw [deliverNext, h]
    exact .line idx hidx hmin

/-- **What a window exit does.** With a line in service, nothing; otherwise it retires the line
delivered last and injects the next one. -/
theorem windowExit_cases {rflags : Nat} {r : WindowResult}
    (h : interruptWindowExit m rflags = some (r, m')) :
    (m.pic.interruptDeliveryPending = true ∧ r = ⟨none, none⟩ ∧ m' = m) ∨
    (m.pic.interruptDeliveryPending = false ∧ ∃ m₁ m₂, Retires m r.cleared m₁ ∧
      Delivers m₁ r.injected m₂ ∧ m'.pic = m₂.pic ∧ m'.kbd = m₂.kbd ∧
      m'.interruptRequestBitmap = m₂.interruptRequestBitmap ∧
      (m₂.pic.interruptDeliveryPending = true → m' = m₂)) := by
  rw [interruptWindowExit] at h
  split at h
  · cases h
  split at h
  · next hpend =>
    cases h
    exact .inl ⟨hpend, rfl, rfl⟩
  · next hpend =>
    obtain ⟨⟨cleared, m₁⟩, hr, heq⟩ := Option.map_eq_some_iff.1 h
    have hd := deliverNext_delivers m₁
    dsimp only at heq
    generalize deliverNext m₁ = next at hd heq
    cases heq
    refine .inr ⟨Bool.eq_false_iff.2 hpend, m₁, next.2, retireDelivered_retires hr, hd, ?_⟩
    split
    · exact ⟨rfl, rfl, rfl, fun _ => rfl⟩
    · next hf => exact ⟨rfl, rfl, rfl, fun ht => absurd ht hf⟩

/-- What a step of the machine does. -/
inductive StepCase (m : Monitor) (e : Event) (o : Output) (m' : Monitor) : Prop
  | passive : (∀ rflags, e ≠ .windowExit rflags) → Passive m e o m' → StepCase m e o m'
  | inService : ¬ e.IsEoi → m.pic.interruptDeliveryPending = true → o = {} → m' = m →
      StepCase m e o m'
  | window (m₁ m₂ : Monitor) : (∃ rflags, e = .windowExit rflags) →
      m.pic.interruptDeliveryPending = false → o.raised = none → o.accepted = none →
        Retires m o.cleared m₁ → Delivers m₁ o.injected m₂ → m'.pic = m₂.pic →
      m'.kbd = m₂.kbd → m'.interruptRequestBitmap = m₂.interruptRequestBitmap → StepCase m e o m'

/-- Every step is one of the cases. -/
theorem step_cases (h : m.step e = some (o, m')) : StepCase m e o m' := by
  by_cases he : ∃ rflags, e = .windowExit rflags
  · obtain ⟨rflags, rfl⟩ := he
    obtain ⟨⟨r, m₁⟩, hr, heq⟩ := Option.map_eq_some_iff.1 h
    cases heq
    rcases windowExit_cases hr with ⟨hpend, rfl, rfl⟩ | ⟨hpend, m₁, m₂, hre, hde,
      hpic, hkbd, hbit, -⟩
    · exact .inService (by simp [Event.IsEoi]) hpend rfl rfl
    · exact .window m₁ m₂ ⟨rflags, rfl⟩ hpend rfl rfl hre hde hpic hkbd hbit
  · have hne : ∀ rflags, e ≠ .windowExit rflags := fun rflags heq => he ⟨rflags, heq⟩
    exact .passive hne (step_passive h hne)

/-! ## One interrupt at a time -/

/-- The step wrote an interruption to be injected. -/
def Injects (x : Event × Output) : Prop := x.2.injected ≠ none

/-- The step was an EOI. -/
def Eoi (x : Event × Output) : Prop := x.1.IsEoi

/-- The last vector is invalid or a line. -/
def VectorOk (m : Monitor) : Prop :=
  m.pic.interruptDeliveryVector = picInvalidVector ∨ m.pic.interruptDeliveryVector.toNat < 15

/-- The invariant of the service: an injection that was not answered by an EOI is pending. -/
structure ServiceInv (t : List (Event × Output)) (m : Monitor) : Prop where
  separated : Separated Injects Eoi t
  answered : m.pic.interruptDeliveryPending = false → Answered Injects Eoi t
  vector : VectorOk m

/-- After retiring a line the last vector is invalid, or that of a keyboard with more to read. -/
theorem Retires.vector {cleared : Option (Fin 15)} (h : Retires m cleared m') :
    m'.pic.interruptDeliveryVector = picInvalidVector ∨ m'.pic.interruptDeliveryVector = 1 := by
  cases h with
  | idle hv => exact .inl hv
  | keyboard hv => exact .inr hv
  | lastKey => exact .inl rfl
  | line => exact .inl rfl

/-- The number of a line fits in a byte. -/
theorem toNat_ofNat_line (idx : Fin 15) : (UInt8.ofNat idx).toNat = idx := by
  rw [UInt8.toNat_ofNat', Nat.mod_eq_of_lt (by omega)]

/-- Injecting puts the line in service, and not injecting changes nothing. -/
theorem Delivers.cases {injected : Option (Fin 15)} (h : Delivers m injected m') :
    (injected = none ∧ m' = m ∧ ∀ i, m.interruptRequestBitmap i = false) ∨
      ∃ idx, injected = some idx ∧ m.interruptRequestBitmap idx = true ∧
        m'.pic.interruptDeliveryVector.toNat = idx ∧ m'.pic.interruptDeliveryPending = true ∧
        m'.kbd = m.kbd ∧ m'.interruptRequestBitmap = m.interruptRequestBitmap := by
  cases h with
  | idle hnone => exact .inl ⟨rfl, rfl, hnone⟩
  | line idx hidx => exact .inr ⟨idx, rfl, hidx, toNat_ofNat_line idx, rfl, rfl, rfl⟩

/-- One step keeps the service invariant. -/
theorem ServiceInv.step {t : List (Event × Output)} (h : ServiceInv t m)
    (hst : m.step e = some (o, m')) : ServiceInv (t ++ [(e, o)]) m' := by
  cases step_cases hst with
  | passive _ hp =>
    have hno : ¬ Injects (e, o) := fun hi => hi hp.injected
    refine ⟨separated_snoc.2 ⟨h.separated, fun hi => absurd hi hno⟩, fun hpend => ?_, ?_⟩
    · rw [hp.pending] at hpend
      refine answered_snoc.2 ⟨hno, ?_⟩
      by_cases heoi : e.IsEoi
      · exact .inl heoi
      · rw [if_neg heoi] at hpend
        exact .inr (h.answered hpend)
    · rw [VectorOk, hp.vector]
      exact h.vector
  | inService _ hpend ho hm =>
    subst ho hm
    have hno : ¬ Injects (e, {}) := fun hi => hi rfl
    refine ⟨separated_snoc.2 ⟨h.separated, fun hi => absurd hi hno⟩, fun hf => ?_, h.vector⟩
    rw [hpend] at hf
    cases hf
  | window m₁ m₂ _ hpend _ _ hre hde hpic =>
    have hans := h.answered hpend
    rcases hde.cases with ⟨hi, rfl, -⟩ | ⟨idx, hi, -, hvec, hserv, -⟩
    · have hno : ¬ Injects (e, o) := fun hne => hne hi
      refine ⟨separated_snoc.2 ⟨h.separated, fun _ => hans⟩, fun _ => ?_, ?_⟩
      · exact answered_snoc.2 ⟨hno, .inr hans⟩
      · rw [VectorOk, hpic]
        rcases hre.vector with hv | hv
        · exact .inl hv
        · exact .inr (by rw [hv]; decide)
    · refine ⟨separated_snoc.2 ⟨h.separated, fun _ => hans⟩, fun hf => ?_, .inr ?_⟩
      · rw [hpic, hserv] at hf
        cases hf
      · rw [hpic, hvec]
        exact idx.isLt

/-- With the last vector in range a window exit of a guest that takes interrupts does not halt. -/
theorem interruptWindowExit_isSome (h : VectorOk m) {rflags : Nat} (hif : rflags.testBit 9 = true) :
    (interruptWindowExit m rflags).isSome := by
  rw [interruptWindowExit, if_neg (by simp [hif])]
  split
  · rfl
  · rw [Option.isSome_map, retireDelivered]
    dsimp only
    split
    · rfl
    · next hv =>
      rw [dif_pos (h.resolve_left hv)]
      split
      · split <;> rfl
      · rfl

/-- **At most one interrupt is in service.** In every run of the machine there is an EOI between any
two injections, and the last vector is invalid or a line, so that the window exit's assertion holds
whenever the guest takes interrupts. -/
theorem injections_separated {procBasedControls entryInterruptionInfo : Nat}
    {t : List (Event × Output)}
    (hrun : Run Monitor.step (fun _ _ => True)
      (preInitialized procBasedControls entryInterruptionInfo) t m) :
    Separated Injects Eoi t ∧ VectorOk m ∧
      ∀ rflags : Nat, rflags.testBit 9 = true → (interruptWindowExit m rflags).isSome := by
  have hzero : (0 : UInt8).toNat < 15 := by decide
  have hinv : ServiceInv t m := by
    refine hrun.inv ServiceInv ⟨separated_nil, fun _ => answered_nil, .inr hzero⟩ ?_
    intro t s e o s' h _ hst
    exact h.step hst
  exact ⟨hinv.separated, hinv.vector, fun rflags hif => interruptWindowExit_isSome hinv.vector hif⟩

/-- Two lines are injected, with an EOI between them. -/
theorem injections_separated_sample : ∃ t m,
    Run Monitor.step (fun _ _ => True) (preInitialized 0 0) t m ∧
      t.filterMap (fun x => x.2.injected) = [3, 5] ∧ Separated Injects Eoi t := by
  have hex : (exec Monitor.step (preInitialized 0 0) [.picWrite 0x21 0, .raise 3, .raise 5,
      .windowExit 0x202, .picWrite 0x20 0x20, .windowExit 0x202]).map
        (fun r => r.1.filterMap fun x => x.2.injected) = some [3, 5] := by decide +kernel
  obtain ⟨⟨t, m⟩, hm, ht⟩ := Option.map_eq_some_iff.1 hex
  have hrun : Run Monitor.step (fun _ _ => True) (preInitialized 0 0) t m :=
    Run.nil.exec (fun _ _ _ => trivial) hm
  exact ⟨t, m, hrun, ht, (injections_separated hrun).1⟩

/-! ## Lost requests -/

/-- The step requested line `v`. -/
def Raises (v : Fin 15) (x : Event × Output) : Prop := x.2.raised = some v

/-- The step injected line `v`. -/
def InjectsLine (v : Fin 15) (x : Event × Output) : Prop := x.2.injected = some v

/-- The step cleared the request of line `v`. -/
def Clears (v : Fin 15) (x : Event × Output) : Prop := x.2.cleared = some v

/-- The exit requests line `v` only if it is not the line delivered last. -/
def NotLate (v : Fin 15) (m : Monitor) (e : Event) : Prop :=
  ∀ r ∈ m.step e, r.1.raised = some v → m.pic.interruptDeliveryVector.toNat ≠ v

instance (v : Fin 15) (m : Monitor) (e : Event) : Decidable (NotLate v m e) :=
  inferInstanceAs (Decidable (∀ r ∈ m.step e, _))

/-- Whenever a request of line `v` is cleared, its last request was followed by an injection, and
the same holds as long as the line is the one delivered last. -/
structure LineInv (v : Fin 15) (t : List (Event × Output)) (m : Monitor) : Prop where
  cleared : AtEach (Clears v) (Answered (Raises v) (InjectsLine v)) t
  answered : m.pic.interruptDeliveryVector.toNat = v → Answered (Raises v) (InjectsLine v) t

/-- Only the line delivered last is cleared. -/
theorem Retires.cleared {v : Fin 15} (hv : v ≠ 1) (h : Retires m (some v) m') :
    m.pic.interruptDeliveryVector.toNat = v := by
  cases h with
  | lastKey => exact absurd rfl hv
  | line _ heq => exact heq

/-- One step keeps the invariant of a line. -/
theorem LineInv.step {v : Fin 15} (hv : v ≠ 1) {t : List (Event × Output)} (h : LineInv v t m)
    (hok : NotLate v m e) (hst : m.step e = some (o, m')) : LineInv v (t ++ [(e, o)]) m' := by
  cases step_cases hst with
  | passive _ hp =>
    refine ⟨atEach_snoc.2 ⟨h.cleared, fun hc => ?_⟩, fun heq => ?_⟩
    · cases hp.cleared.symm.trans hc
    · rw [hp.vector] at heq
      exact answered_snoc.2 ⟨fun hr => hok (o, m') hst hr heq, .inr (h.answered heq)⟩
  | inService _ _ ho hm =>
    subst ho hm
    refine ⟨atEach_snoc.2 ⟨h.cleared, fun hc => ?_⟩, fun heq => ?_⟩
    · cases hc
    · exact answered_snoc.2 ⟨nofun, .inr (h.answered heq)⟩
  | window m₁ m₂ _ _ hraised _ hre hde hpic =>
    refine ⟨atEach_snoc.2 ⟨h.cleared, fun hc => ?_⟩, fun heq => ?_⟩
    · rw [show o.cleared = some v from hc] at hre
      exact h.answered (hre.cleared hv)
    · rw [hpic] at heq
      refine answered_snoc.2 ⟨fun hr => ?_, .inl ?_⟩
      · cases hraised.symm.trans hr
      · rcases hde.cases with ⟨-, rfl, -⟩ | ⟨idx, hi, -, hvec, -⟩
        · -- the retired line leaves no vector but that of the keyboard
          have hne : (1 : Fin 15).val ≠ v := fun hone => hv (Fin.ext hone.symm)
          have hlt := v.isLt
          rcases hre.vector with hinv | hone
          · rw [hinv] at heq
            exact absurd heq (show (0xff : Nat) ≠ v by omega)
          · rw [hone] at heq
            exact absurd heq hne
        · exact hi.trans (congrArg some (Fin.ext (hvec.symm.trans heq)))

/-- **Requests that are not late are not lost.** In every run in which line `v`, other than the
keyboard's, is requested only while it is not the line delivered last, its request is cleared only
after an injection that followed the last request. -/
theorem cleared_answered {v : Fin 15} (hv : v ≠ 1) {procBasedControls entryInterruptionInfo : Nat}
    {t : List (Event × Output)}
    (hrun : Run Monitor.step (NotLate v)
      (preInitialized procBasedControls entryInterruptionInfo) t m) :
    AtEach (Clears v) (Answered (Raises v) (InjectsLine v)) t := by
  have hinv : LineInv v t m := by
    refine hrun.inv (LineInv v) ⟨atEach_nil, fun _ => answered_nil⟩ ?_
    intro t s e o s' h hok hst
    exact h.step hv hok hst
  exact hinv.cleared

/-- A line is raised, injected and cleared. -/
theorem cleared_answered_sample : ∃ t m, Run Monitor.step (NotLate 3) (preInitialized 0 0) t m ∧
    t.map (fun x => (x.2.raised, x.2.injected, x.2.cleared)) =
      [(none, none, none), (some 3, none, none), (none, some 3, some 0), (none, none, none),
        (none, none, some 3)] ∧
    AtEach (Clears 3) (Answered (Raises 3) (InjectsLine 3)) t := by
  have hex : (exec (guarded (NotLate 3) Monitor.step) (preInitialized 0 0) [.picWrite 0x21 0,
      .raise 3, .windowExit 0x202, .picWrite 0x20 0x20, .windowExit 0x202]).map
        (fun r => r.1.map fun x => (x.2.raised, x.2.injected, x.2.cleared)) =
      some [(none, none, none), (some 3, none, none), (none, some 3, some 0), (none, none, none),
        (none, none, some 3)] := by decide +kernel
  obtain ⟨⟨t, m⟩, hm, ht⟩ := Option.map_eq_some_iff.1 hex
  have hrun : Run Monitor.step (NotLate 3) (preInitialized 0 0) t m := Run.of_guarded hm
  exact ⟨t, m, hrun, ht, cleared_answered (by decide) hrun⟩

/-- **Lost requests.** A request of line 0 before the first window exit is cleared by that exit,
which finds 0 as the last vector. A request of line 3 while it is in service is cleared by the
window exit after the EOI. Neither is followed by an injection. -/
theorem raise_lost :
    (∃ t m, exec Monitor.step (preInitialized 0 0) [.picWrite 0x21 0, .raise 0,
        .windowExit 0x202] = some (t, m) ∧
      ¬ AtEach (Clears 0) (Answered (Raises 0) (InjectsLine 0)) t) ∧
    (∃ t m, exec Monitor.step (preInitialized 0 0) [.picWrite 0x21 0, .raise 3, .windowExit 0x202,
        .raise 3, .picWrite 0x20 0x20, .windowExit 0x202] = some (t, m) ∧
      ¬ AtEach (Clears 3) (Answered (Raises 3) (InjectsLine 3)) t) := by
  constructor
  · have hex : (exec Monitor.step (preInitialized 0 0) [.picWrite 0x21 0, .raise 0,
        .windowExit 0x202]).map Prod.fst = some [(.picWrite 0x21 0, {}),
          (.raise 0, { raised := some 0 }), (.windowExit 0x202, { cleared := some 0 })] := by
      decide +kernel
    obtain ⟨⟨t, m⟩, hm, rfl⟩ := Option.map_eq_some_iff.1 hex
    refine ⟨_, m, hm, fun h => ?_⟩
    obtain ⟨y, hy, -⟩ := h [_, _] _ [] rfl rfl [_] _ [] rfl rfl
    cases hy
  · have hex : (exec Monitor.step (preInitialized 0 0) [.picWrite 0x21 0, .raise 3,
        .windowExit 0x202, .raise 3, .picWrite 0x20 0x20, .windowExit 0x202]).map Prod.fst =
        some [(.picWrite 0x21 0, {}), (.raise 3, { raised := some 3 }),
          (.windowExit 0x202, { cleared := some 0, injected := some 3 }),
          (.raise 3, { raised := some 3 }), (.picWrite 0x20 0x20, {}),
          (.windowExit 0x202, { cleared := some 3 })] := by decide +kernel
    obtain ⟨⟨t, m⟩, hm, rfl⟩ := Option.map_eq_some_iff.1 hex
    refine ⟨_, m, hm, fun h => ?_⟩
    obtain ⟨y, hy, hinj⟩ := h [_, _, _, _, _] _ [] rfl rfl [_, _, _] _ [_] rfl rfl
    obtain rfl := List.mem_singleton.1 hy
    cases hinj

end

end ZeldaOS
