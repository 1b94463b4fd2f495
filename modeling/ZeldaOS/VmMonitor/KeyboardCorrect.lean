import ZeldaOS.VmMonitor.InterruptCorrect

/-!
# Delivery of scancodes

The keyboard interrupt of the host puts a scancode in the guest's buffer and requests line 1. The
guest peeks at the buffer's head when line 1 is injected, and the window exit after its EOI removes
that byte. The request stays up while bytes are left, and the timer, whose line comes first, may be
injected between two of them.

The invariant counts injections of line 1 against bytes: the buffer holds the accepted scancodes
from the `j`-th on (`Ring.Holds`), and line 1 was injected `j` times, or once more while its byte is
on show (`KeyboardInv`). Hence the `k`-th injection presents the `k`-th accepted scancode
(`keyboard_fifo`).
-/

namespace ZeldaOS

/-! ## The buffer -/

/-- The ring holds the bytes of `accepted` from the `j`-th on. -/
structure Ring.Holds (r : Ring) (accepted : List UInt8) (j : Nat) : Prop where
  ok : r.Ok
  size : 1 < r.ringSize
  count : j ≤ accepted.length
  contents : r.contents = accepted.drop j

section
variable {r : Ring} {accepted : List UInt8} {j : Nat}

/-- A full buffer has contents. -/
theorem Ring.Holds.ne_nil_of_full (h : r.Holds accepted j) (hf : r.ringFull = true) :
    r.contents ≠ [] := by
  have hlen := (Ring.ringFull_iff h.ok).1 hf
  have hsize := h.size
  intro hnil
  rw [hnil, List.length_nil] at hlen
  omega

/-- One more scancode is accepted, -/
theorem Ring.Holds.put (h : r.Holds accepted j) (c : UInt8) (hf : r.ringFull = false) :
    (r.put c).Holds (accepted ++ [c]) j := by
  refine ⟨h.ok.put c, h.size, ?_, ?_⟩
  · exact h.count.trans (by simp)
  · rw [Ring.contents_put h.ok c hf, h.contents, List.drop_append_of_le_length h.count]

/-- or one is taken out. -/
theorem Ring.Holds.ringDequeue (h : r.Holds accepted j) (hne : r.contents ≠ []) :
    r.ringDequeue.2.Holds accepted (j + 1) := by
  have hempty : r.ringEmpty = false := Bool.eq_false_iff.2 fun he =>
    hne ((Ring.ringEmpty_iff h.ok).1 he)
  have hcount : j < accepted.length := by
    by_contra hge
    exact hne (h.contents.trans (List.drop_eq_nil_of_le (by omega)))
  refine ⟨h.ok.ringDequeue, ?_, hcount, ?_⟩
  · rw [Ring.ringDequeue_of_not_empty hempty]
    exact h.size
  · rw [Ring.contents_ringDequeue h.ok, h.contents, List.tail_drop]

/-- The guest sees the first byte of the ring. -/
theorem Ring.Holds.peek (h : r.Holds accepted j) (hne : r.contents ≠ []) :
    r.ringEmpty = false ∧ accepted[j]? = some r.ringPeek := by
  have hempty : r.ringEmpty = false := Bool.eq_false_iff.2 fun he =>
    hne ((Ring.ringEmpty_iff h.ok).1 he)
  refine ⟨hempty, ?_⟩
  have hhead : (accepted.drop j)[0]? = some r.ringPeek := by
    rw [← h.contents, Ring.contents_get h.ok hempty, List.getElem?_cons_zero]
  rwa [List.getElem?_drop, Nat.add_zero] at hhead

end

/-! ## The machine -/

/-- The scancode that the step accepted: that of a keyboard interrupt that found room. -/
def acceptedScancode (x : Event × Output) : Option UInt8 :=
  match x.1 with
  | .keyboard code _ => if x.2.accepted = none then none else some code
  | _ => none

/-- The accepted scancodes, in arrival order. -/
def acceptedScancodes (t : List (Event × Output)) : List UInt8 := t.filterMap acceptedScancode

/-- How often line `v` was injected. -/
def injections (v : Fin 15) (t : List (Event × Output)) : Nat :=
  t.countP fun x => x.2.injected = some v

/-- The keyboard's line is raised by the keyboard only, and its scancodes are not 0. -/
def KeyboardOk (_ : Monitor) (e : Event) : Prop := e ≠ .raise 1 ∧ ∀ stale, e ≠ .keyboard 0 stale

section
variable {t : List (Event × Output)} {m m₁ m' : Monitor} {e : Event} {o : Output} {j : Nat}

/-- What an exit other than that of the interrupt window does to the keyboard's buffer. -/
theorem step_kbd (hok : KeyboardOk m e) (h : m.step e = some (o, m'))
    (he : ∀ rflags, e ≠ .windowExit rflags) :
    (acceptedScancode (e, o) = none ∧ m'.kbd = m.kbd ∧
      (o.raised = some 1 → m.kbd.ringFull = true)) ∨
    (∃ c, acceptedScancode (e, o) = some c ∧ m.kbd.ringFull = false ∧ m'.kbd = m.kbd.put c) := by
  cases e with
  | raise vector =>
    obtain ⟨⟨r, m₁⟩, hr, heq⟩ := Option.map_eq_some_iff.1 h
    cases heq
    obtain ⟨-, hkbd, -, hline⟩ := raiseInterrupt_cases hr
    refine .inl ⟨rfl, hkbd, fun hone => absurd ?_ hok.1⟩
    rw [← hline 1 hone]
    rfl
  | windowExit rflags => exact absurd rfl (he rflags)
  | picWrite portId byte =>
    obtain ⟨pic, -, heq⟩ := Option.map_eq_some_iff.1 h
    cases heq
    exact .inl ⟨rfl, rfl, nofun⟩
  | timer currTsc =>
    obtain ⟨⟨r, m₁⟩, hr, heq⟩ := Option.map_eq_some_iff.1 h
    cases heq
    obtain ⟨-, hkbd, -, hline⟩ := timerInterrupt_cases hr
    exact .inl ⟨rfl, hkbd, fun hone => absurd (hline 1 hone) (by decide)⟩
  | keyboard code stale =>
    obtain ⟨⟨accepted, r, m₁⟩, hr, heq⟩ := Option.map_eq_some_iff.1 h
    cases heq
    have hcode : code ≠ 0 := fun hzero => hok.2 stale (by rw [hzero])
    obtain ⟨-, hacc, -, -⟩ := keyboardInterrupt_cases hr
    rw [if_neg hcode] at hacc
    rcases hacc with ⟨hf, rfl, hkbd⟩ | ⟨hf, rfl, hkbd⟩
    · exact .inl ⟨rfl, hkbd, fun _ => hf⟩
    · exact .inr ⟨code, rfl, hf, hkbd⟩
  | keyboardRead =>
    cases h
    exact .inl ⟨rfl, rfl, nofun⟩

/-- The accepted scancodes with one more event. -/
theorem acceptedScancodes_snoc (x : Event × Output) :
    acceptedScancodes (t ++ [x]) = acceptedScancodes t ++ (acceptedScancode x).toList := by
  rw [acceptedScancodes, List.filterMap_append]
  cases h : acceptedScancode x <;> simp [h, acceptedScancodes]

/-- An event that accepts none has none. -/
theorem acceptedScancode_of_none (h : o.accepted = none) : acceptedScancode (e, o) = none := by
  rw [acceptedScancode]
  split
  · exact if_pos h
  · rfl

/-- The injections with one more event. -/
theorem injections_snoc (v : Fin 15) (x : Event × Output) :
    injections v (t ++ [x]) = injections v t + if x.2.injected = some v then 1 else 0 := by
  simp [injections, List.countP_append, List.countP_singleton]

/-- The scancodes in the buffer are those from the `j`-th on; line 1 was injected once for each
earlier one, and once for the first of them if it is the line delivered last. -/
structure KeyboardInv (t : List (Event × Output)) (m : Monitor) (j : Nat) : Prop where
  holds : m.kbd.Holds (acceptedScancodes t) j
  shown : injections 1 t = j + if m.pic.interruptDeliveryVector = 1 then 1 else 0
  requested : m.interruptRequestBitmap 1 = true → m.kbd.contents ≠ []
  presented : m.pic.interruptDeliveryVector = 1 → m.interruptRequestBitmap 1 = true

/-- Once the line delivered last is retired, line 1 was injected once for each earlier scancode. -/
structure KeyboardRetired (t : List (Event × Output)) (m : Monitor) : Prop where
  holds : m.kbd.Holds (acceptedScancodes t) (injections 1 t)
  requested : m.interruptRequestBitmap 1 = true → m.kbd.contents ≠ []
  presented : m.pic.interruptDeliveryVector = 1 → m.interruptRequestBitmap 1 = true

/-- The invalid vector is no line. -/
theorem picInvalidVector_ne_one : picInvalidVector ≠ 1 := by decide

/-- Retiring the keyboard's line removes the scancode that was on show. -/
theorem KeyboardInv.retires {cleared : Option (Fin 15)} (h : KeyboardInv t m j)
    (hre : Retires m cleared m₁) : KeyboardRetired t m₁ := by
  cases hre with
  | idle hv =>
    have hcount := h.shown
    rw [hv, if_neg picInvalidVector_ne_one, Nat.add_zero] at hcount
    exact ⟨hcount ▸ h.holds, h.requested, h.presented⟩
  | keyboard hv hempty =>
    have hcount := h.shown
    rw [hv, if_pos rfl] at hcount
    have hdeq := h.holds.ringDequeue (h.requested (h.presented hv))
    refine ⟨hcount ▸ hdeq, fun _ hnil => ?_, h.presented⟩
    rw [(Ring.ringEmpty_iff hdeq.ok).2 hnil] at hempty
    cases hempty
  | lastKey hv =>
    have hcount := h.shown
    rw [hv, if_pos rfl] at hcount
    have hdeq := h.holds.ringDequeue (h.requested (h.presented hv))
    refine ⟨hcount ▸ hdeq, fun hbit => ?_, fun hone => ?_⟩
    · dsimp only at hbit
      rw [Function.update_self] at hbit
      cases hbit
    · exact absurd hone picInvalidVector_ne_one
  | line v hv hne =>
    have hother : m.pic.interruptDeliveryVector ≠ 1 := fun hone =>
      hne (Fin.ext (hv.symm.trans (by rw [hone]; rfl)))
    have hcount := h.shown
    rw [if_neg hother, Nat.add_zero] at hcount
    refine ⟨hcount ▸ h.holds, fun hbit => ?_, fun hone => ?_⟩
    · dsimp only at hbit
      rw [Function.update_of_ne (Ne.symm hne)] at hbit
      exact h.requested hbit
    · exact absurd hone picInvalidVector_ne_one

/-- The invariant after a window exit that injected a line or nothing. -/
theorem KeyboardRetired.delivers {m₂ : Monitor} (h : KeyboardRetired t m₁)
    (hacc : acceptedScancode (e, o) = none) (hde : Delivers m₁ o.injected m₂)
    (hpic : m'.pic = m₂.pic) (hkbd : m'.kbd = m₂.kbd)
    (hbit : m'.interruptRequestBitmap = m₂.interruptRequestBitmap) :
    KeyboardInv (t ++ [(e, o)]) m' (injections 1 t) := by
  have hcodes : acceptedScancodes (t ++ [(e, o)]) = acceptedScancodes t := by
    rw [acceptedScancodes_snoc, hacc, Option.toList_none, List.append_nil]
  have hcount := injections_snoc (t := t) 1 (e, o)
  rcases hde.cases with ⟨hi, rfl, hnone⟩ | ⟨idx, hi, hreq, hvec, -, hkbd₂, hbit₂⟩
  · -- no line is requested, so the last one is not the keyboard's
    have hother : m'.pic.interruptDeliveryVector ≠ 1 := fun hone => by
      rw [hpic] at hone
      exact absurd (h.presented hone) (by simp [hnone])
    refine ⟨by rw [hkbd, hcodes]; exact h.holds, ?_, ?_, fun hone => absurd hone hother⟩
    · rw [hcount, if_neg hother, hi]
      rfl
    · rw [hbit, hnone]
      exact nofun
  · have hone : m'.pic.interruptDeliveryVector = 1 ↔ idx = 1 := by
      rw [hpic, ← UInt8.toNat_inj, hvec]
      exact (Fin.ext_iff (b := 1)).symm
    refine ⟨by rw [hkbd, hkbd₂, hcodes]; exact h.holds, ?_, ?_, fun hv => ?_⟩
    · rw [hcount, hi]
      simp only [hone, Option.some.injEq]
    · rw [hbit, hbit₂, hkbd, hkbd₂]
      exact h.requested
    · rw [hbit, hbit₂, ← hone.1 hv]
      exact hreq

/-- **One step** keeps the invariant, for the same scancode or the next one. -/
theorem KeyboardInv.step (h : KeyboardInv t m j) (hok : KeyboardOk m e)
    (hst : m.step e = some (o, m')) : ∃ j', KeyboardInv (t ++ [(e, o)]) m' j' := by
  cases step_cases hst with
  | passive hne hp =>
    have hcount : injections 1 (t ++ [(e, o)]) =
        j + if m'.pic.interruptDeliveryVector = 1 then 1 else 0 := by
      rw [injections_snoc, hp.injected, hp.vector, h.shown]
      rfl
    have hpres : m'.pic.interruptDeliveryVector = 1 → m'.interruptRequestBitmap 1 = true := by
      intro hv
      rw [hp.vector] at hv
      rw [hp.bitmap]
      exact withRequest_eq_true.2 (.inl (h.presented hv))
    rcases step_kbd hok hst hne with ⟨hacc, hkbd, hfull⟩ | ⟨c, hacc, hroom, hkbd⟩
    · refine ⟨j, ?_, hcount, fun hbit => ?_, hpres⟩
      · rw [acceptedScancodes_snoc, hacc, hkbd, Option.toList_none, List.append_nil]
        exact h.holds
      · rw [hkbd]
        rw [hp.bitmap] at hbit
        rcases withRequest_eq_true.1 hbit with hbit | hraised
        · exact h.requested hbit
        · exact h.holds.ne_nil_of_full (hfull hraised)
    · refine ⟨j, ?_, hcount, fun _ => ?_, hpres⟩
      · rw [acceptedScancodes_snoc, hacc, hkbd, Option.toList_some]
        exact h.holds.put c hroom
      · rw [hkbd, Ring.contents_put h.holds.ok c hroom]
        simp
  | inService _ _ ho hm =>
    subst ho hm
    have hacc : acceptedScancode (e, {}) = none := acceptedScancode_of_none rfl
    refine ⟨j, ?_, ?_, h.requested, h.presented⟩
    · rw [acceptedScancodes_snoc, hacc, Option.toList_none, List.append_nil]
      exact h.holds
    · rw [injections_snoc, h.shown]
      rfl
  | window m₁ m₂ _ _ _ hacc hre hde hpic hkbd hbit =>
    exact ⟨_, (h.retires hre).delivers (acceptedScancode_of_none hacc) hde hpic hkbd hbit⟩

/-- The invariant at the start. -/
theorem keyboardInv_preInitialized (procBasedControls entryInterruptionInfo : Nat) :
    KeyboardInv [] (preInitialized procBasedControls entryInterruptionInfo) 0 := by
  have hsize : 1 < scancodeBufferLength := by decide
  refine ⟨⟨.empty (by omega), hsize, Nat.zero_le _, ?_⟩, rfl, nofun, fun hone => ?_⟩
  · exact Ring.contents_empty (by omega)
  · have hzero : (0 : UInt8) ≠ 1 := by decide
    exact absurd hone hzero

/-! ## The scancode on show -/

/-- The trace has a window exit after an EOI. -/
def Ended (t : List (Event × Output)) : Prop :=
  ∃ t₁ x t₂, t = t₁ ++ x :: t₂ ∧ Eoi x ∧ ∃ y ∈ t₂, ∃ rflags, y.1 = .windowExit rflags

/-- A service that has just begun has not ended. -/
theorem not_ended_nil : ¬ Ended [] := by
  rintro ⟨t₁, x, t₂, h, -⟩
  simp at h

/-- A service that has ended stays so. -/
theorem Ended.snoc (h : Ended t) (z : Event × Output) : Ended (t ++ [z]) := by
  obtain ⟨t₁, x, t₂, rfl, hx, y, hy, hwin⟩ := h
  exact ⟨t₁, x, t₂ ++ [z], by simp, hx, y, by simp [hy], hwin⟩

/-- Line `v` is the line delivered last, it was not injected again, and it is in service unless the
guest ended it. -/
structure OnShow (v : Fin 15) (k : Nat) (since t : List (Event × Output)) (m : Monitor) : Prop where
  vector : m.pic.interruptDeliveryVector.toNat = v
  shown : injections v t = k
  service : m.pic.interruptDeliveryPending = true ∨ ∃ x ∈ since, Eoi x

/-- An injected line stays on show until the window exit after its EOI. -/
theorem OnShow.step {v : Fin 15} {k : Nat} {since : List (Event × Output)}
    (h : OnShow v k since t m) (hst : m.step e = some (o, m'))
    (hnot : ¬ Ended (since ++ [(e, o)])) :
    OnShow v k (since ++ [(e, o)]) (t ++ [(e, o)]) m' := by
  cases step_cases hst with
  | passive _ hp =>
    refine ⟨?_, ?_, ?_⟩
    · rw [hp.vector]
      exact h.vector
    · rw [injections_snoc, hp.injected, h.shown]
      rfl
    · by_cases heoi : e.IsEoi
      · exact .inr ⟨(e, o), by simp, heoi⟩
      · rw [hp.pending, if_neg heoi]
        exact h.service.imp_right fun ⟨x, hx, hex⟩ => ⟨x, by simp [hx], hex⟩
  | inService _ hpend ho hm =>
    subst ho hm
    exact ⟨h.vector, by rw [injections_snoc, h.shown]; rfl, .inl hpend⟩
  | window m₁ m₂ hwin hpend =>
    refine absurd ?_ hnot
    obtain ⟨x, hx, heoi⟩ := h.service.resolve_left fun hserv => by simp [hpend] at hserv
    obtain ⟨t₁, t₂, rfl⟩ := List.append_of_mem hx
    exact ⟨t₁, x, t₂ ++ [(e, o)], by simp, heoi, (e, o), by simp, hwin⟩

/-- The injection of a line puts it on show. -/
theorem OnShow.injected {v : Fin 15} (hst : m.step e = some (o, m')) (hi : o.injected = some v) :
    OnShow v (injections v t + 1) [] (t ++ [(e, o)]) m' := by
  cases step_cases hst with
  | passive _ hp => cases hp.injected.symm.trans hi
  | inService _ _ ho =>
    rw [ho] at hi
    cases hi
  | window m₁ m₂ _ _ _ _ _ hde hpic =>
    rcases hde.cases with ⟨hnone, -, -⟩ | ⟨idx, hidx, -, hvec, hserv, -⟩
    · cases hnone.symm.trans hi
    · cases hidx.symm.trans hi
      refine ⟨by rw [hpic, hvec], ?_, .inl (by rw [hpic, hserv])⟩
      rw [injections_snoc, if_pos hi]

/-- An injected line stays on show through the rest of a run that has no window exit after an
EOI. -/
theorem Run.onShow {ok : Monitor → Event → Prop} {m₀ : Monitor} {v : Fin 15} {z : Event × Output}
    (hz : InjectsLine v z) : ∀ {t₂ : List (Event × Output)} {m : Monitor},
    Run Monitor.step ok m₀ (t ++ z :: t₂) m → ¬ Ended t₂ →
      OnShow v (injections v t + 1) t₂ (t ++ z :: t₂) m := by
  intro t₂
  induction t₂ using List.reverseRecOn with
  | nil =>
    intro m hrun _
    obtain ⟨m₁, -, -, hst⟩ := hrun.snoc_inv
    exact OnShow.injected hst hz
  | append_singleton t₂ y ih =>
    intro m hrun hnot
    rw [← List.cons_append, ← List.append_assoc] at hrun ⊢
    obtain ⟨m₁, hrun₁, -, hst⟩ := hrun.snoc_inv
    exact (ih hrun₁ fun h => hnot (h.snoc y)).step hst hnot

/-- **Keyboard delivery is first in, first out and exactly once.** In every run in which the
keyboard's line is raised by the keyboard only, the `k`-th injection of line 1 finds the accepted
scancodes from the `k`-th on in the buffer, and until the window exit after the next EOI the guest
reads the `k`-th of them. -/
theorem keyboard_fifo {procBasedControls entryInterruptionInfo : Nat}
    (hrun : Run Monitor.step KeyboardOk
      (preInitialized procBasedControls entryInterruptionInfo) t m) :
    (∀ t₁ z, t = t₁ ++ [z] → InjectsLine 1 z →
      m.kbd.contents = (acceptedScancodes t).drop (injections 1 t₁) ∧ m.kbd.contents ≠ []) ∧
    (∀ t₁ z t₂, t = t₁ ++ z :: t₂ → InjectsLine 1 z → ¬ Ended t₂ →
      ∃ b, (acceptedScancodes t)[injections 1 t₁]? = some b ∧
        m.step .keyboardRead = some ({ value := some b }, m)) := by
  obtain ⟨j, hinv⟩ : ∃ j, KeyboardInv t m j := by
    refine hrun.inv (fun t m => ∃ j, KeyboardInv t m j) ⟨0, ?_⟩ ?_
    · exact keyboardInv_preInitialized _ _
    · rintro t s e o s' ⟨j, h⟩ hok hst
      exact h.step hok hst
  -- at an injection, and as long as it is on show, `j` injections came before it
  have hshow : ∀ t₁ z t₂, t = t₁ ++ z :: t₂ → InjectsLine 1 z → ¬ Ended t₂ →
      j = injections 1 t₁ ∧ m.kbd.contents ≠ [] := by
    rintro t₁ z t₂ rfl hz hnot
    have hon := Run.onShow hz hrun hnot
    have hone : m.pic.interruptDeliveryVector = 1 := UInt8.toNat_inj.1 hon.vector
    have hcount := hinv.shown
    rw [hon.shown, if_pos hone] at hcount
    exact ⟨by omega, hinv.requested (hinv.presented hone)⟩
  refine ⟨fun t₁ z ht hz => ?_, fun t₁ z t₂ ht hz hnot => ?_⟩
  · obtain ⟨hj, hne⟩ := hshow t₁ z [] ht hz not_ended_nil
    exact ⟨hj ▸ hinv.holds.contents, hne⟩
  · obtain ⟨hj, hne⟩ := hshow t₁ z t₂ ht hz hnot
    obtain ⟨hempty, hpeek⟩ := hinv.holds.peek hne
    refine ⟨m.kbd.ringPeek, hj ▸ hpeek, ?_⟩
    simp [Monitor.step, keyboardDataInb, keyboardByte, hempty]

/-- With two keys in the buffer, the second injection shows the second one. -/
theorem keyboard_fifo_sample : ∃ t m z t₁,
    Run Monitor.step KeyboardOk (preInitialized 0 0) t m ∧ t = t₁ ++ [z] ∧ InjectsLine 1 z ∧
      injections 1 t₁ = 1 ∧ m.kbd.contents = [0x30, 0x2e] ∧
      m.step .keyboardRead = some ({ value := some 0x30 }, m) := by
  have hex : (exec Monitor.step (preInitialized 0 0) [.picWrite 0x21 0, .keyboard 0x1e 0,
      .keyboard 0x30 0, .windowExit 0x202, .keyboard 0x2e 0, .picWrite 0x20 0x20,
      .windowExit 0x202]).map (fun r => (acceptedScancodes r.1, injections 1 r.1.dropLast,
        r.1.getLast?.map fun z => z.2.injected)) =
      some ([0x1e, 0x30, 0x2e], 1, some (some 1)) := by decide +kernel
  obtain ⟨⟨t, m⟩, hm, heq⟩ := Option.map_eq_some_iff.1 hex
  simp only [Prod.mk.injEq] at heq
  obtain ⟨hcodes, hcount, hlast⟩ := heq
  obtain ⟨z, hz, hinj⟩ := Option.map_eq_some_iff.1 hlast
  have ht : t = t.dropLast ++ [z] := (List.dropLast_append_getLast? z hz).symm
  have hrun : Run Monitor.step KeyboardOk (preInitialized 0 0) t m :=
    Run.nil.exec (by simp [KeyboardOk]) hm
  obtain ⟨hfifo, hread⟩ := keyboard_fifo hrun
  have hcont := (hfifo _ _ ht hinj).1
  obtain ⟨b, hb, hstep⟩ := hread _ _ [] ht hinj not_ended_nil
  rw [hcount, hcodes] at hcont hb
  cases hb
  exact ⟨t, m, z, _, hrun, ht, hinj, hcount, hcont, hstep⟩

end

end ZeldaOS
