import ZeldaOS.VmMonitor.InterruptCorrect

/-!
# The interrupt window and the injected line

The interrupt window is opened where a line is requested and closed where nothing is left to do, in
different handlers. `WindowInv` ties the two together: as long as a line is requested or in service
the window is open, so no accepted request is stranded (`window_open_of_pending`).

What the window exit injects is the first requested line that it does not retire (`NextLine`). The
mask of the line was consulted when it was requested, and is not consulted again; and the vector is
always counted from the offset of the master. So the delivery is right exactly if that line is not
masked in the meantime and, for a line of the slave, the two offsets are eight apart
(`deliveries_right_iff`).
-/

namespace ZeldaOS

section
variable {m m' m₁ : Monitor} {e : Event} {o : Output}

/-! ## The window -/

theorem enableInterruptWindow_testBit (m : Monitor) :
    (enableInterruptWindow m).procBasedControls.testBit 2 = true := by
  have hbit : (1 <<< 2).testBit 2 = true := by decide
  rw [enableInterruptWindow, Nat.testBit_or, hbit, Bool.or_true]

/-- A request opens the window; without one nothing changes. -/
theorem raiseInterrupt_window {vector : Nat} {raised : Option (Fin 15)}
    (h : raiseInterrupt m vector = some (raised, m')) :
    m'.procBasedControls.testBit 2 = true ∨
      (raised = none ∧ m'.procBasedControls = m.procBasedControls) := by
  rcases raiseInterrupt_inv h with ⟨rfl, rfl⟩ | ⟨v, -, -, rfl⟩
  · exact .inr ⟨rfl, rfl⟩
  · exact .inl (enableInterruptWindow_testBit _)

/-- The same for every exit but that of the window. -/
theorem step_window (h : m.step e = some (o, m')) (he : ∀ rflags, e ≠ .windowExit rflags) :
    m'.procBasedControls.testBit 2 = true ∨
      (o.raised = none ∧ m'.procBasedControls = m.procBasedControls) := by
  cases e with
  | raise vector =>
    obtain ⟨⟨r, m₁⟩, hr, heq⟩ := Option.map_eq_some_iff.1 h
    cases heq
    exact raiseInterrupt_window hr
  | windowExit rflags => exact absurd rfl (he rflags)
  | picWrite portId byte =>
    obtain ⟨pic, hr, heq⟩ := Option.map_eq_some_iff.1 h
    cases heq
    exact .inr ⟨rfl, rfl⟩
  | timer currTsc =>
    obtain ⟨⟨r, m₁⟩, ht, heq⟩ := Option.map_eq_some_iff.1 h
    cases heq
    obtain ⟨m₂, rfl, ⟨-, hr⟩ | ⟨-, rfl, rfl⟩⟩ := timerInterrupt_inv ht
    · have hwin := raiseInterrupt_window hr
      exact hwin
    · exact .inr ⟨rfl, rfl⟩
  | keyboard code stale =>
    obtain ⟨⟨accepted, r, m₁⟩, hk, heq⟩ := Option.map_eq_some_iff.1 h
    cases heq
    have hwin := raiseInterrupt_window (keyboardInterrupt_inv hk).2
    exact hwin
  | keyboardRead =>
    cases h
    exact .inr ⟨rfl, rfl⟩

/-- Retiring a line touches neither the service nor the controls, the masks and the offsets. -/
theorem Retires.frame {cleared : Option (Fin 15)} (h : Retires m cleared m') :
    m'.procBasedControls = m.procBasedControls ∧
      m'.pic = { m.pic with interruptDeliveryVector := m'.pic.interruptDeliveryVector } := by
  cases h <;> exact ⟨rfl, rfl⟩

/-- The line of the guest's timer. -/
abbrev timerLine : Fin 15 := 0

/-- The line of the guest's keyboard. -/
abbrev keyboardLine : Fin 15 := 1

/-- The exit is about to clear the request of line `i`: it is the line delivered last and, for the
keyboard, its buffer runs empty. -/
def Retiring (m : Monitor) (i : Fin 15) : Prop :=
  m.pic.interruptDeliveryVector.toNat = i ∧ (i = 1 → m.kbd.ringDequeue.2.ringEmpty = true)

instance (m : Monitor) (i : Fin 15) : Decidable (Retiring m i) :=
  inferInstanceAs (Decidable (_ ∧ _))

/-- Retiring clears that request and no other. -/
theorem Retires.bitmap {cleared : Option (Fin 15)} (h : Retires m cleared m') (i : Fin 15) :
    m'.interruptRequestBitmap i = true ↔ m.interruptRequestBitmap i = true ∧ ¬ Retiring m i := by
  have hlt := i.isLt
  cases h with
  | idle hv =>
    have hno : ¬ Retiring m i := by
      rintro ⟨hvec, -⟩
      rw [hv] at hvec
      exact absurd hvec (show (0xff : Nat) ≠ i by omega)
    simp [hno]
  | keyboard hv hempty =>
    have hno : ¬ Retiring m i := by
      rintro ⟨hvec, hkey⟩
      rw [hv] at hvec
      rw [hkey (Fin.ext hvec.symm)] at hempty
      cases hempty
    simp [hno]
  | lastKey hv hempty =>
    have hiff : Retiring m i ↔ i = 1 := by
      refine ⟨fun ⟨hvec, _⟩ => ?_, fun hi => ?_⟩
      · rw [hv] at hvec
        exact Fin.ext hvec.symm
      · subst hi
        exact ⟨by rw [hv]; rfl, fun _ => hempty⟩
    rw [hiff]
    by_cases hi : i = 1 <;> simp [hi]
  | line v hv hne =>
    have hiff : Retiring m i ↔ i = v := by
      refine ⟨fun ⟨hvec, _⟩ => Fin.ext (hvec.symm.trans hv), fun hi => ?_⟩
      subst hi
      exact ⟨hv, fun hone => absurd hone hne⟩
    rw [hiff]
    by_cases hi : i = v <;> simp [hi]

theorem Delivers.frame {injected : Option (Fin 15)} (h : Delivers m injected m') :
    m'.procBasedControls = m.procBasedControls := by
  cases h <;> rfl

/-- **The window stays open or there is nothing to do.** If a window exit finds a line to deliver or
in service it leaves the controls as they were; otherwise no line is in service after it and none is
requested. -/
theorem windowExit_window {rflags : Nat} {r : WindowResult}
    (h : interruptWindowExit m rflags = some (r, m')) :
    (((∃ i, m.interruptRequestBitmap i = true) ∨ m.pic.interruptDeliveryPending = true) ∧
        m'.procBasedControls = m.procBasedControls) ∨
      (m'.pic.interruptDeliveryPending = false ∧ ∀ i, m'.interruptRequestBitmap i = false) := by
  rcases windowExit_cases h with ⟨hpend, -, rfl⟩ | ⟨hpend, m₁, m₂, hre, hde, hpic, -, hbit, hopen⟩
  · exact .inl ⟨.inr hpend, rfl⟩
  · obtain ⟨hctl, hpic₁⟩ := hre.frame
    rcases hde.cases with ⟨-, rfl, hnone⟩ | ⟨idx, -, hidx, -, hserv, -⟩
    · refine .inr ⟨?_, fun i => by rw [hbit, hnone]⟩
      rw [hpic, hpic₁]
      exact hpend
    · obtain rfl := hopen hserv
      exact .inl ⟨.inl ⟨idx, ((hre.bitmap idx).1 hidx).1⟩, hde.frame.trans hctl⟩

/-- As long as a line is requested or in service, the window is open. -/
def WindowInv (m : Monitor) : Prop :=
  (∃ i, m.interruptRequestBitmap i = true) ∨ m.pic.interruptDeliveryPending = true →
    m.procBasedControls.testBit 2 = true

/-- One exit keeps the window open. -/
theorem WindowInv.step (h : WindowInv m) (hst : m.step e = some (o, m')) : WindowInv m' := by
  intro hbusy
  by_cases he : ∃ rflags, e = .windowExit rflags
  · obtain ⟨rflags, rfl⟩ := he
    obtain ⟨⟨r, m₁⟩, hr, heq⟩ := Option.map_eq_some_iff.1 hst
    cases heq
    rcases windowExit_window hr with ⟨hold, hctl⟩ | ⟨hpend, hnone⟩
    · rw [hctl]
      exact h hold
    · rcases hbusy with ⟨i, hi⟩ | hserv
      · simp [hnone i] at hi
      · simp [hpend] at hserv
  · have hne : ∀ rflags, e ≠ .windowExit rflags := fun rflags heq => he ⟨rflags, heq⟩
    have hp := step_passive hst hne
    rcases step_window hst hne with hopen | ⟨hraised, hctl⟩
    · exact hopen
    · rw [hctl]
      refine h ?_
      rcases hbusy with ⟨i, hi⟩ | hserv
      · rw [hp.bitmap, withRequest_eq_true, hraised] at hi
        exact .inl ⟨i, hi.resolve_right nofun⟩
      · rw [hp.pending] at hserv
        split at hserv
        · cases hserv
        · exact .inr hserv

/-- **Pending work keeps the window open.** Let the controls have the window open at the start. In
every state that any exits of the guest lead to, a line that is requested or in service has the
window open; and a window exit that closes it leaves no line requested and none in service. -/
theorem window_open_of_pending {procBasedControls entryInterruptionInfo : Nat}
    {t : List (Exit × Output)} (hbit : procBasedControls.testBit 2 = true)
    (hrun : Run Monitor.exitStep (fun _ _ => True)
      (preInitialized procBasedControls entryInterruptionInfo) t m) :
    ((∃ i, m.interruptRequestBitmap i = true) ∨ m.pic.interruptDeliveryPending = true →
      m.procBasedControls.testBit 2 = true) ∧
    ∀ rflags r m', interruptWindowExit m rflags = some (r, m') →
      m.procBasedControls.testBit 2 = true → m'.procBasedControls.testBit 2 = false →
      (∀ i, m'.interruptRequestBitmap i = false) ∧ m'.pic.interruptDeliveryPending = false := by
  refine ⟨?_, fun rflags r m' hr hopen hclosed => ?_⟩
  · refine hrun.inv (fun _ m => WindowInv m) (fun _ => hbit) ?_
    intro t s e o s' h _ hst
    cases e with
    | interrupt e => exact h.step hst
    | other pit =>
      cases hst
      exact h
  · rcases windowExit_window hr with ⟨-, hctl⟩ | ⟨hpend, hnone⟩
    · rw [hctl, hopen] at hclosed
      cases hclosed
    · exact ⟨hnone, hpend⟩

theorem window_open_of_pending_sample : ∃ t m,
    Run Monitor.exitStep (fun _ _ => True) (preInitialized 4 0) t m ∧
      m.interruptRequestBitmap 5 = true ∧ m.procBasedControls.testBit 2 = true := by
  have hex : (exec Monitor.exitStep (preInitialized 4 0) [.interrupt (.windowExit 0x202),
      .other ⟨10, 0⟩, .interrupt (.picWrite 0x21 0), .interrupt (.raise 5)]).map
        (fun r => r.2.interruptRequestBitmap 5) = some true := by decide +kernel
  obtain ⟨⟨t, m⟩, hm, hreq⟩ := Option.map_eq_some_iff.1 hex
  have hrun : Run Monitor.exitStep (fun _ _ => True) (preInitialized 4 0) t m :=
    Run.nil.exec (fun _ _ _ => trivial) hm
  exact ⟨t, m, hrun, hreq, (window_open_of_pending (by decide) hrun).1 (.inl ⟨5, hreq⟩)⟩

/-! ## The injected line -/

/-- Line `i` is masked in its controller. -/
def lineMasked (pic : Pic) (i : Fin 15) : Bool :=
  if i.val < 8 then pic.masterPicData.toNat.testBit i
  else pic.slavePicData.toNat.testBit (i - 8)

/-- The vector of line `i`, counted from the offset of its controller. -/
def lineVector (pic : Pic) (i : Fin 15) : Nat :=
  if i.val < 8 then (pic.masterPicOffset.toNat + i) % 256
  else (pic.slavePicOffset.toNat + (i - 8)) % 256

/-- With the machine's shift, `is_interrupt_pin_masked` tests the mask of the line's controller. -/
theorem isInterruptPinMasked_eq (pic : Pic) (i : Fin 15) :
    isInterruptPinMasked pic i = lineMasked pic i := by
  have hlt := i.isLt
  rw [isInterruptPinMasked, lineMasked]
  split
  · next hi =>
    -- the bit tested in the slave's byte lies beyond it
    have hbyte : pic.slavePicData.toNat < 2 ^ ((i.val + 24) % 32) := by
      rw [Nat.mod_eq_of_lt (by omega)]
      exact Nat.lt_of_lt_of_le pic.slavePicData.toNat_lt
        (Nat.pow_le_pow_right (by decide) (by omega))
    rw [Nat.testBit_lt_two_pow hbyte, Bool.or_false, decide_eq_true (by omega), Bool.true_and]
  · next hi =>
    rw [decide_eq_false (by omega), Bool.false_and, Bool.false_or,
      show (i.val + 24) % 32 = i - 8 by omega]

/-- The delivery of line `i` is right: the line is requested and not masked, no lower line is, and
the vector is that of the line. -/
structure RightDelivery (m : Monitor) (i : Fin 15) : Prop where
  requested : m.interruptRequestBitmap i = true
  unmasked : lineMasked m.pic i = false
  first : ∀ j < i, ¬ (m.interruptRequestBitmap j = true ∧ lineMasked m.pic j = false)
  vector : m.entryInterruptionInfo % 256 = lineVector m.pic i

/-- Whatever line the exit injects, the delivery is right. -/
def DeliversRight (x : Event × Observation Monitor Output) : Prop :=
  ∀ i, x.2.output.injected = some i → RightDelivery x.2.after i

/-- The first requested line that a window exit would not retire. -/
structure NextLine (m : Monitor) (i : Fin 15) : Prop where
  requested : m.interruptRequestBitmap i = true
  kept : ¬ Retiring m i
  first : ∀ j < i, m.interruptRequestBitmap j = true → Retiring m j

/-- If the exit is that of the window and no line is in service, the next line is not masked and, if
it is one of the slave, the offset of the slave is eight behind that of the master. -/
def Deliverable (m : Monitor) (e : Event) : Prop :=
  ∀ rflags i, e = .windowExit rflags → m.pic.interruptDeliveryPending = false → NextLine m i →
    lineMasked m.pic i = false ∧ (8 ≤ i.val → m.pic.slavePicOffset = m.pic.masterPicOffset + 8)

instance (m : Monitor) (i : Fin 15) : Decidable (NextLine m i) :=
  decidable_of_iff (m.interruptRequestBitmap i = true ∧ ¬ Retiring m i ∧
      ∀ j < i, m.interruptRequestBitmap j = true → Retiring m j)
    ⟨fun h => ⟨h.1, h.2.1, h.2.2⟩, fun h => ⟨h.requested, h.kept, h.first⟩⟩

/-- The line a window exit injects is the next line. -/
theorem nextLine_iff {cleared injected : Option (Fin 15)} (hre : Retires m cleared m₁)
    (hde : Delivers m₁ injected m') (i : Fin 15) : NextLine m i ↔ injected = some i := by
  have hlast : ∀ j, NextLine m j ↔ m₁.interruptRequestBitmap j = true ∧
      ∀ k < j, m₁.interruptRequestBitmap k = false := by
    intro j
    refine ⟨fun h => ⟨(hre.bitmap j).2 ⟨h.requested, h.kept⟩, fun k hk => ?_⟩, fun ⟨hj, hmin⟩ => ?_⟩
    · refine Bool.eq_false_iff.2 fun hreq => ?_
      obtain ⟨hreq, hkept⟩ := (hre.bitmap k).1 hreq
      exact hkept (h.first k hk hreq)
    · obtain ⟨hreq, hkept⟩ := (hre.bitmap j).1 hj
      refine ⟨hreq, hkept, fun k hk hk' => Classical.byContradiction fun hno => ?_⟩
      have htrue := (hre.bitmap k).2 ⟨hk', hno⟩
      rw [hmin k hk] at htrue
      cases htrue
  rw [hlast]
  cases hde with
  | idle hnone => simp [hnone i]
  | line idx hidx hmin =>
    refine ⟨fun ⟨hi, hmini⟩ => ?_, fun heq => ?_⟩
    · rcases Nat.lt_trichotomy i idx with hlt | heq | hlt
      · simp [hmin i hlt] at hi
      · rw [Fin.ext heq]
      · simp [hmini idx hlt] at hidx
    · cases heq
      exact ⟨hidx, hmin⟩

/-- The vector in the low byte of what is written to the VMCS. -/
theorem injectedInfo_mod (vector : Nat) : injectedInfo vector % 256 = vector % 256 := by
  have hconst : 0xffffffff80000000 % 2 ^ 8 = 0 := by decide
  rw [injectedInfo, show 256 = 2 ^ 8 from rfl, Nat.or_mod_two_pow, hconst, Nat.or_zero,
    show 0xff = 2 ^ 8 - 1 from rfl, Nat.and_two_pow_sub_one_eq_mod, Nat.mod_mod]

/-- The vector counted from the master's offset is that of the line. -/
theorem vector_right_iff (pic : Pic) (i : Fin 15) :
    (pic.masterPicOffset.toNat + i) % 256 = lineVector pic i ↔
      (8 ≤ i.val → pic.slavePicOffset = pic.masterPicOffset + 8) := by
  have hadd : (pic.masterPicOffset + 8).toNat = (pic.masterPicOffset.toNat + 8) % 256 :=
    UInt8.toNat_add _ _
  have hm := pic.masterPicOffset.toNat_lt
  have hs := pic.slavePicOffset.toNat_lt
  have hlt := i.isLt
  rw [lineVector, ← UInt8.toNat_inj, hadd]
  split <;> omega

/-- An injected line is delivered right exactly if it is unmasked and its vector counts from the
master's offset. -/
theorem Delivers.right_iff {cleared : Option (Fin 15)} {i : Fin 15} (hre : Retires m cleared m₁)
    (hde : Delivers m₁ (some i) m') :
    RightDelivery m' i ↔
      lineMasked m.pic i = false ∧
        (8 ≤ i.val → m.pic.slavePicOffset = m.pic.masterPicOffset + 8) := by
  obtain ⟨-, hpic⟩ := hre.frame
  have hmask : ∀ j, lineMasked m₁.pic j = lineMasked m.pic j := fun j => by rw [hpic]; rfl
  have hvec : lineVector m₁.pic i = lineVector m.pic i := by rw [hpic]; rfl
  have hoff : m₁.pic.masterPicOffset = m.pic.masterPicOffset := by rw [hpic]
  cases hde with
  | line _ hidx hmin =>
    have hinfo : injectedInfo (m₁.pic.masterPicOffset.toNat + i) % 256 = lineVector m₁.pic i ↔
        (8 ≤ i.val → m.pic.slavePicOffset = m.pic.masterPicOffset + 8) := by
      rw [injectedInfo_mod, hvec, hoff]
      exact vector_right_iff m.pic i
    refine ⟨fun h => ⟨(hmask i).symm.trans h.unmasked, hinfo.1 h.vector⟩, fun ⟨hun, hslave⟩ => ?_⟩
    refine ⟨hidx, (hmask i).trans hun, fun j hj hboth => ?_, hinfo.2 hslave⟩
    have hreq := hboth.1
    rw [show _ = false from hmin j hj] at hreq
    cases hreq

/-- **One exit** delivers right exactly if it meets the condition. -/
theorem deliversRight_iff (hst : m.step e = some (o, m')) :
    DeliversRight (e, ⟨m, o, m'⟩) ↔ Deliverable m e := by
  by_cases he : ∃ rflags, e = .windowExit rflags
  · obtain ⟨rflags, rfl⟩ := he
    obtain ⟨⟨r, m₁⟩, hr, heq⟩ := Option.map_eq_some_iff.1 hst
    cases heq
    rcases windowExit_cases hr with ⟨hpend, rfl, rfl⟩ | ⟨hpend, m₁, m₂, hre, hde, -, -, -, hopen⟩
    · refine ⟨fun _ _ _ _ hf => ?_, fun _ i hi => nomatch hi⟩
      rw [hpend] at hf
      cases hf
    · have hnext := nextLine_iff hre hde
      constructor
      · intro h _ i _ _ hi
        have hinj := (hnext i).1 hi
        have hright := h i hinj
        rw [hinj] at hde
        obtain rfl := hopen (by cases hde; rfl)
        exact (hde.right_iff hre).1 hright
      · intro h i hinj
        have hcond := h rflags i rfl hpend ((hnext i).2 hinj)
        rw [show r.injected = some i from hinj] at hde
        obtain rfl := hopen (by cases hde; rfl)
        exact (hde.right_iff hre).2 hcond
  · have hp := step_passive hst fun rflags heq => he ⟨rflags, heq⟩
    refine ⟨fun _ rflags _ heq => absurd ⟨rflags, heq⟩ he, fun _ i hi => ?_⟩
    cases hp.injected.symm.trans hi

/-- **When deliveries are right.** In every run of the machine every injection delivers a requested
and unmasked line, before which no lower one is, with the vector of its controller, exactly if at
every window exit with no line in service the next line is unmasked and, for a line of the slave,
the offsets are eight apart. -/
theorem deliveries_right_iff {procBasedControls entryInterruptionInfo : Nat}
    {t : List (Event × Observation Monitor Output)}
    (hrun : Run (observed Monitor.step) (fun _ _ => True)
      (preInitialized procBasedControls entryInterruptionInfo) t m) :
    (∀ x ∈ t, DeliversRight x) ↔ ∀ x ∈ t, Deliverable x.2.before x.1 := by
  have hstep := hrun.observed_step
  constructor
  · intro h x hx
    exact (deliversRight_iff (hstep x hx)).1 (h x hx)
  · intro h x hx
    exact (deliversRight_iff (hstep x hx)).2 (h x hx)

theorem deliveries_right_iff_sample : ∃ t m,
    Run (observed Monitor.step) (fun _ _ => True) (preInitialized 0 0) t m ∧
      t.map (fun x => x.2.output.injected) = [none, none, none, none, some 3] ∧
      ∀ x ∈ t, DeliversRight x := by
  have hex : (exec (observed Monitor.step) (preInitialized 0 0) [.picWrite 0x20 0x11,
      .picWrite 0x21 0x20, .picWrite 0x21 0, .raise 3, .windowExit 0x202]).map
        (fun r => (r.1.map fun x => x.2.output.injected,
          r.1.all fun x => decide (∀ i, NextLine x.2.before i →
            lineMasked x.2.before.pic i = false ∧ i.val < 8))) =
      some ([none, none, none, none, some 3], true) := by decide +kernel
  obtain ⟨⟨t, m⟩, hm, heq⟩ := Option.map_eq_some_iff.1 hex
  simp only [Prod.mk.injEq, List.all_eq_true, decide_eq_true_eq] at heq
  obtain ⟨hinj, hall⟩ := heq
  have hrun : Run (observed Monitor.step) (fun _ _ => True) (preInitialized 0 0) t m :=
    Run.nil.exec (fun _ _ _ => trivial) hm
  refine ⟨t, m, hrun, hinj, (deliveries_right_iff hrun).2 fun x hx _ i _ _ hi => ?_⟩
  obtain ⟨hun, hlt⟩ := hall x hx i hi
  exact ⟨hun, fun hge => absurd hge (by omega)⟩

/-- **Wrong deliveries.** A line that the guest masks after its request is injected all the same.
And with the offsets 0x20 and 0x70 line 8 is injected with the vector 0x28 instead of 0x70. -/
theorem deliveries_wrong :
    (∃ t m, exec (observed Monitor.step) (preInitialized 0 0) [.picWrite 0x21 0, .raise 3,
        .picWrite 0x21 0xff, .windowExit 0x202] = some (t, m) ∧
      ∃ x ∈ t, x.2.output.injected = some 3 ∧ lineMasked x.2.after.pic 3 = true ∧
        ¬ DeliversRight x) ∧
    (∃ t m, exec (observed Monitor.step) (preInitialized 0 0) [.picWrite 0x20 0x11,
        .picWrite 0x21 0x20, .picWrite 0xa0 0x11, .picWrite 0xa1 0x70, .picWrite 0x21 0,
        .picWrite 0xa1 0, .raise 8, .windowExit 0x202] = some (t, m) ∧
      ∃ x ∈ t, x.2.output.injected = some 8 ∧ x.2.after.entryInterruptionInfo % 256 = 0x28 ∧
        lineVector x.2.after.pic 8 = 0x70 ∧ ¬ DeliversRight x) := by
  constructor
  · have hex : (exec (observed Monitor.step) (preInitialized 0 0) [.picWrite 0x21 0, .raise 3,
        .picWrite 0x21 0xff, .windowExit 0x202]).map (fun r => r.1.getLast?.map fun x =>
          (x.2.output.injected, lineMasked x.2.after.pic 3)) = some (some (some 3, true)) := by
      decide +kernel
    obtain ⟨⟨t, m⟩, hm, hlast⟩ := Option.map_eq_some_iff.1 hex
    obtain ⟨x, hx, heq⟩ := Option.map_eq_some_iff.1 hlast
    simp only [Prod.mk.injEq] at heq
    obtain ⟨hinj, hmask⟩ := heq
    refine ⟨t, m, hm, x, List.mem_of_getLast? hx, hinj, hmask, fun h => ?_⟩
    have hun := (h 3 hinj).unmasked
    rw [hmask] at hun
    cases hun
  · have hex : (exec (observed Monitor.step) (preInitialized 0 0) [.picWrite 0x20 0x11,
        .picWrite 0x21 0x20, .picWrite 0xa0 0x11, .picWrite 0xa1 0x70, .picWrite 0x21 0,
        .picWrite 0xa1 0, .raise 8, .windowExit 0x202]).map (fun r => r.1.getLast?.map fun x =>
          (x.2.output.injected, x.2.after.entryInterruptionInfo % 256,
            lineVector x.2.after.pic 8)) =
        some (some (some 8, 0x28, 0x70)) := by decide +kernel
    obtain ⟨⟨t, m⟩, hm, hlast⟩ := Option.map_eq_some_iff.1 hex
    obtain ⟨x, hx, heq⟩ := Option.map_eq_some_iff.1 hlast
    simp only [Prod.mk.injEq] at heq
    obtain ⟨hinj, hinfo, hvec⟩ := heq
    refine ⟨t, m, hm, x, List.mem_of_getLast? hx, hinj, hinfo, hvec, fun h => ?_⟩
    have hright := (h 8 hinj).vector
    rw [hinfo, hvec] at hright
    cases hright

end

end ZeldaOS
