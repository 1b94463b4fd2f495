import Mathlib.Logic.Function.Basic
import ZeldaOS.Lib.Run

/-!
# Interleavings of processes

Processes share a state `σ`, and each has a state `τ` of its own, a program counter say. The machine
`interleave step` moves one process at a time; its event is the process that moves, so its runs are
the interleavings.

`Run.interleave_inv` is the rule for what holds in all of them. It takes an assertion about one
process and the shared state, and a relation between the own states of two processes. A step has to
keep the assertion of the process that moves, and the assertions of the others, for which it may use
that they are related.

What the processes produce is a list of entries with their process, and `thread p` is the part of
`p`.
-/

namespace ZeldaOS

section
variable {P σ τ : Type*} [DecidableEq P]

/-- The machine in which a process moves at a time. -/
def interleave (step : P → σ → τ → Option (σ × τ)) (s : σ × (P → τ)) (p : P) :
    Option (Unit × (σ × (P → τ))) :=
  (step p s.1 (s.2 p)).map fun r => ((), r.1, Function.update s.2 p r.2)

variable {step : P → σ → τ → Option (σ × τ)} {ok : σ × (P → τ) → P → Prop} {s₀ s s' : σ × (P → τ)}
  {p : P} {u : Unit} {t : List (P × Unit)}

/-- A step changes the shared state and the own state of the process that moves. -/
theorem interleave_eq_some : interleave step s p = some (u, s') ↔
    ∃ c, step p s.1 (s.2 p) = some (s'.1, c) ∧ s'.2 = Function.update s.2 p c := by
  rw [interleave, Option.map_eq_some_iff]
  constructor
  · rintro ⟨⟨g, c⟩, hst, heq⟩
    cases heq
    exact ⟨c, hst, rfl⟩
  · rintro ⟨c, hst, heq⟩
    exact ⟨(s'.1, c), hst, by rw [← heq]⟩

/-- **The rule for interleavings.** -/
theorem Run.interleave_inv (A : P → σ → τ → Prop) (R : τ → τ → Prop)
    (h₀ : ∀ p, A p s₀.1 (s₀.2 p)) (hR₀ : ∀ p q, p ≠ q → R (s₀.2 p) (s₀.2 q))
    (hown : ∀ p g c g' c', A p g c → step p g c = some (g', c') → A p g' c')
    (hother : ∀ p q g c d g' c', p ≠ q → A p g c → A q g d → R c d → R d c →
      step p g c = some (g', c') → A q g' d ∧ R c' d ∧ R d c')
    (h : Run (interleave step) ok s₀ t s) :
    (∀ p, A p s.1 (s.2 p)) ∧ ∀ p q, p ≠ q → R (s.2 p) (s.2 q) := by
  induction h with
  | nil => exact ⟨h₀, hR₀⟩
  | snoc _ _ hst ih =>
    rename_i s p _ s' _ _
    obtain ⟨hA, hR⟩ := ih
    obtain ⟨c', hst, hown'⟩ := interleave_eq_some.1 hst
    -- what the step of `p` does to any other process
    have hq : ∀ q, p ≠ q → A q s'.1 (s.2 q) ∧ R c' (s.2 q) ∧ R (s.2 q) c' := fun q hne =>
      hother p q _ _ _ _ _ hne (hA p) (hA q) (hR p q hne) (hR q p hne.symm) hst
    rw [hown']
    refine ⟨fun q => ?_, fun q r hqr => ?_⟩
    · by_cases hne : q = p
      · subst hne
        rw [Function.update_self]
        exact hown _ _ _ _ _ (hA q) hst
      · rw [Function.update_of_ne hne]
        exact (hq q (Ne.symm hne)).1
    · by_cases hp : q = p
      · subst hp
        rw [Function.update_self, Function.update_of_ne hqr.symm]
        exact (hq r hqr).2.1
      · rw [Function.update_of_ne hp]
        by_cases hr : r = p
        · subst hr
          rw [Function.update_self]
          exact (hq q hqr.symm).2.2
        · rw [Function.update_of_ne hr]
          exact hR q r hqr

/-! ## Threads -/

variable {α : Type*} {l : List (P × α)} {q : P} {a : α}

/-- The entries of a process. -/
def thread (p : P) (l : List (P × α)) : List α := (l.filter fun x => x.1 = p).map Prod.snd

@[simp] theorem thread_nil : thread p ([] : List (P × α)) = [] := rfl

theorem thread_snoc_self : thread p (l ++ [(p, a)]) = thread p l ++ [a] := by
  simp [thread, List.filter_append]

theorem thread_snoc_of_ne (h : q ≠ p) : thread p (l ++ [(q, a)]) = thread p l := by
  simp [thread, List.filter_append, h]

end

end ZeldaOS
