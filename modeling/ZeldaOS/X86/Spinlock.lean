import Mathlib.Data.UInt
import ZeldaOS.Lib.Interleave

/-!
# Spinlocks

Model of `x86_64/spinlock.c` and of `xchg32` of `x86_64/include/atomic.h`. The processors share one
lock, and each calls `spinlock_acquire_raw` and `spinlock_release_raw` alternately. Every access to
the lock is a step of its own (`spinStep`); the processor is at one of the accesses or outside the
two functions (`SpinPc`). An assertion that fails stops the processor.

The lock word tells whether a processor holds the lock. The owner field is written by the processor
that holds it and by no other, first to the processor's id and then back to 0xff, so between the two
writes it is that id (`OwnerInv`). From this follow mutual exclusion and that no assertion fails
(`spinlock_mutual_exclusion`).
-/

namespace ZeldaOS

/-- `struct spinlock`, without the pointer that the lock's users may keep in it. -/
structure Spinlock where
  lock : UInt32
  cpu : UInt32
deriving DecidableEq, Repr

/-- `spinlock_init`. -/
def spinlockInit : Spinlock := ⟨0, 0xff⟩

/-- `xchg32`: the new value of the word goes in, the old one comes out. -/
def xchg32 (word exchangeValue : UInt32) : UInt32 × UInt32 := (word, exchangeValue)

/-- Where a processor is. -/
inductive SpinPc
  /-- Before a call of `spinlock_acquire_raw`. -/
  | outside
  /-- At the exchange of the loop. -/
  | exchange
  /-- Behind the loop, at the write of the owner. -/
  | setOwner
  /-- Before a call of `spinlock_release_raw`. -/
  | inside
  /-- At the first half of the first assertion. -/
  | assertOwner
  /-- At the second half of the first assertion. -/
  | assertLocked
  /-- At the reset of the owner. -/
  | resetOwner
  /-- At the exchange in the second assertion. -/
  | exchangeBack
deriving DecidableEq, Repr

/-- Between the successful exchange of an acquire and the exchange of the release. -/
def SpinPc.holds : SpinPc → Bool
  | .outside | .exchange => false
  | _ => true

/-- Between the two writes of the owner. -/
def SpinPc.owns : SpinPc → Bool
  | .inside | .assertOwner | .assertLocked | .resetOwner => true
  | _ => false

/-- One step of the processor with the id `cpu`. -/
def spinStep (cpu : UInt32) (l : Spinlock) : SpinPc → Option (Spinlock × SpinPc)
  | .outside => some (l, .exchange)
  | .exchange =>
    let r := xchg32 l.lock 1
    some ({ l with lock := r.2 }, if r.1 ≠ 0 then .exchange else .setOwner)
  | .setOwner => some ({ l with cpu := cpu }, .inside)
  | .inside => some (l, .assertOwner)
  | .assertOwner => if l.cpu = cpu then some (l, .assertLocked) else none
  | .assertLocked => if l.lock = 1 then some (l, .resetOwner) else none
  | .resetOwner => some ({ l with cpu := 0xff }, .exchangeBack)
  | .exchangeBack =>
    let r := xchg32 l.lock 0
    if r.1 = 1 then some ({ l with lock := r.2 }, .outside) else none

section
variable {P : Type*} {cpu : P → UInt32} {p q : P} {l l' : Spinlock} {c c' d : SpinPc}

/-- What a processor knows of the lock: it is taken while the processor holds it, and shows its id
between the writes of the owner. -/
structure OwnerInv (cpu : UInt32) (l : Spinlock) (c : SpinPc) : Prop where
  locked : c.holds = true → l.lock = 1
  owner : c.owns = true → l.cpu = cpu

/-- No two processors hold the lock. -/
def Excludes (c d : SpinPc) : Prop := ¬ (c.holds = true ∧ d.holds = true)

/-- A processor that owns the lock holds it. -/
theorem SpinPc.holds_of_owns (h : c.owns = true) : c.holds = true := by
  cases c <;> simp_all [SpinPc.owns, SpinPc.holds]

/-- An assertion of the release that holds changes nothing. -/
theorem spinStep_assert {id : UInt32} (hc : c = .assertOwner ∨ c = .assertLocked)
    (hst : spinStep id l c = some (l', c')) : l' = l ∧ c'.holds = true ∧ c'.owns = true := by
  rcases hc with rfl | rfl
  all_goals
    rw [spinStep] at hst
    split at hst
    · cases hst
      exact ⟨rfl, rfl, rfl⟩
    · cases hst

/-- The exchange of the release gives the lock back. -/
theorem spinStep_exchangeBack {id : UInt32} (hst : spinStep id l .exchangeBack = some (l', c')) :
    l'.lock = 0 ∧ c' = .outside := by
  rw [spinStep] at hst
  split at hst
  · cases hst
    exact ⟨rfl, rfl⟩
  · cases hst

/-- A step of a processor keeps what it knows. -/
theorem OwnerInv.own {id : UInt32} (h : OwnerInv id l c) (hst : spinStep id l c = some (l', c')) :
    OwnerInv id l' c' := by
  obtain ⟨hl, ho⟩ := h
  cases c with
  | outside | setOwner | inside | resetOwner =>
    cases hst
    exact ⟨by simp_all [SpinPc.holds], by simp_all [SpinPc.owns]⟩
  | exchange =>
    cases hst
    exact ⟨fun _ => rfl, by split <;> simp [SpinPc.owns]⟩
  | assertOwner =>
    obtain ⟨rfl, -, -⟩ := spinStep_assert (.inl rfl) hst
    exact ⟨fun _ => hl rfl, fun _ => ho rfl⟩
  | assertLocked =>
    obtain ⟨rfl, -, -⟩ := spinStep_assert (.inr rfl) hst
    exact ⟨fun _ => hl rfl, fun _ => ho rfl⟩
  | exchangeBack =>
    obtain ⟨-, rfl⟩ := spinStep_exchangeBack hst
    exact ⟨by simp [SpinPc.holds], by simp [SpinPc.owns]⟩

/-- A step of a processor keeps what another one knows, and that they exclude each other: the lock
is taken by an exchange that finds 0, so while no processor holds it, and only the processor that
holds it writes the owner or gives it back. -/
theorem OwnerInv.other {id id' : UInt32} (hc : OwnerInv id l c) (hd : OwnerInv id' l d)
    (hex : Excludes c d) (hst : spinStep id l c = some (l', c')) :
    OwnerInv id' l' d ∧ Excludes c' d := by
  obtain ⟨hl, ho⟩ := hd
  -- a processor that holds the lock keeps every other one out of its section
  have hfree : c.holds = true → d.holds = false := fun h => by
    cases hdh : d.holds with
    | false => rfl
    | true => exact absurd ⟨h, hdh⟩ hex
  have hvac : c.holds = true → OwnerInv id' l' d ∧ Excludes c' d := fun h => by
    have hd := hfree h
    refine ⟨⟨fun h => ?_, fun h => ?_⟩, fun h => ?_⟩
    · rw [hd] at h
      cases h
    · rw [SpinPc.holds_of_owns h] at hd
      cases hd
    · rw [hd] at h
      cases h.2
  cases c with
  | outside =>
    cases hst
    exact ⟨⟨hl, ho⟩, by simp [Excludes, SpinPc.holds]⟩
  | exchange =>
    cases hst
    refine ⟨⟨fun _ => rfl, ho⟩, fun h => ?_⟩
    have hheld := hl h.2
    simp [xchg32, hheld, SpinPc.holds] at h
  | setOwner | inside | assertOwner | assertLocked | resetOwner | exchangeBack => exact hvac rfl

/-- No assertion fails for a processor that knows this. -/
theorem OwnerInv.isSome {id : UInt32} (h : OwnerInv id l c) : (spinStep id l c).isSome = true := by
  obtain ⟨hl, ho⟩ := h
  cases c with
  | outside | exchange | setOwner | inside | resetOwner => rfl
  | assertOwner => simp [spinStep, ho rfl]
  | assertLocked => simp [spinStep, hl rfl]
  | exchangeBack => simp [spinStep, xchg32, hl rfl]

/-- A lock that is taken behind a step of a processor which does not hold it was taken before the
step, and not by that processor. -/
theorem spinStep_taken {id : UInt32} (hst : spinStep id l c = some (l', c')) (htaken : l'.lock ≠ 0)
    (hnot : c'.holds = false) : l.lock ≠ 0 ∧ c.holds = false := by
  cases c with
  | outside =>
    cases hst
    exact ⟨htaken, rfl⟩
  | exchange =>
    cases hst
    refine ⟨fun h => ?_, rfl⟩
    simp [xchg32, h, SpinPc.holds] at hnot
  | setOwner | inside | resetOwner =>
    cases hst
    cases hnot
  | assertOwner =>
    rw [(spinStep_assert (.inl rfl) hst).2.1] at hnot
    cases hnot
  | assertLocked =>
    rw [(spinStep_assert (.inr rfl) hst).2.1] at hnot
    cases hnot
  | exchangeBack => exact absurd (spinStep_exchangeBack hst).1 htaken

end

/-- The processors with their lock. -/
def spinMachine {P : Type*} [DecidableEq P] (cpu : P → UInt32) :
    Spinlock × (P → SpinPc) → P → Option (Unit × (Spinlock × (P → SpinPc))) :=
  interleave fun p => spinStep (cpu p)

/-- A lock that is taken is held by a processor. -/
theorem exists_holds_of_taken {P : Type*} [DecidableEq P] {cpu : P → UInt32} {t : List (P × Unit)}
    {s : Spinlock × (P → SpinPc)}
    (hrun : Run (spinMachine cpu) (fun _ _ => True) (spinlockInit, fun _ => .outside) t s) :
    s.1.lock ≠ 0 → ∃ p, (s.2 p).holds = true := by
  induction hrun with
  | nil => exact fun h => absurd rfl h
  | snoc _ _ hst ih =>
    rename_i s p _ s' _ _
    obtain ⟨c', hst, hpc⟩ := interleave_eq_some.1 hst
    intro htaken
    cases hc' : c'.holds with
    | true => exact ⟨p, by rw [hpc, Function.update_self, hc']⟩
    | false =>
      obtain ⟨hbefore, hp⟩ := spinStep_taken hst htaken hc'
      obtain ⟨q, hq⟩ := ih hbefore
      have hne : q ≠ p := by
        rintro rfl
        rw [hp] at hq
        cases hq
      exact ⟨q, by rw [hpc, Function.update_of_ne hne, hq]⟩

/-- **Mutual exclusion.** In every interleaving of any number of processors on an initialised lock,
at most one processor holds the lock, the lock word is 1 exactly when one does, the owner field
shows its id between the two writes, and no assertion fails. -/
theorem spinlock_mutual_exclusion {P : Type*} [DecidableEq P] (cpu : P → UInt32)
    {t : List (P × Unit)} {s : Spinlock × (P → SpinPc)}
    (hrun : Run (spinMachine cpu) (fun _ _ => True) (spinlockInit, fun _ => .outside) t s) :
    (∀ p q, (s.2 p).holds = true → (s.2 q).holds = true → p = q) ∧
      (s.1.lock = 1 ↔ ∃ p, (s.2 p).holds = true) ∧
      (∀ p, (s.2 p).owns = true → s.1.cpu = cpu p) ∧
      ∀ p, (spinMachine cpu s p).isSome = true := by
  obtain ⟨hinv, hex⟩ := hrun.interleave_inv (fun p => OwnerInv (cpu p)) Excludes
    (fun p => ⟨by simp [SpinPc.holds], by simp [SpinPc.owns]⟩)
    (fun p q _ => by simp [Excludes, SpinPc.holds])
    (fun p l c l' c' h hst => h.own hst)
    (fun p q l c d l' c' _ hc hd hcd _ hst => by
      obtain ⟨hinv, hex⟩ := hc.other hd hcd hst
      exact ⟨hinv, hex, fun h => hex h.symm⟩)
  refine ⟨fun p q hp hq => ?_, ⟨fun h => ?_, fun ⟨p, hp⟩ => (hinv p).locked hp⟩,
    fun p => (hinv p).owner, fun p => ?_⟩
  · by_contra hne
    exact hex p q hne ⟨hp, hq⟩
  · exact exists_holds_of_taken hrun (by rw [h]; decide)
  · rw [spinMachine, interleave, Option.isSome_map]
    exact (hinv p).isSome

/-- One of two processors takes the lock, and the other one spins. -/
theorem spinlock_mutual_exclusion_sample : ∃ t s,
    Run (spinMachine fun p : Fin 2 => UInt32.ofNat p) (fun _ _ => True)
      (spinlockInit, fun _ => .outside) t s ∧
    (s.2 1).holds = true ∧ s.2 0 = .exchange ∧ s.1.lock = 1 := by
  have hex : (exec (spinMachine fun p : Fin 2 => UInt32.ofNat p) (spinlockInit, fun _ => .outside)
      [0, 1, 1, 0, 0]).map (fun r => (r.2.2 0, r.2.2 1)) = some (.exchange, .setOwner) := by
    decide +kernel
  obtain ⟨⟨t, s⟩, hrun, heq⟩ := Option.map_eq_some_iff.1 hex
  obtain ⟨h₀, h₁⟩ := Prod.mk.inj heq
  have hrun : Run (spinMachine fun p : Fin 2 => UInt32.ofNat p) (fun _ _ => True) _ t s :=
    Run.nil.exec (fun _ _ _ => trivial) hrun
  have hholds : (s.2 1).holds = true := by rw [h₁]; rfl
  exact ⟨t, s, hrun, hholds, h₀, (spinlock_mutual_exclusion _ hrun).2.1.2 ⟨1, hholds⟩⟩

end ZeldaOS
