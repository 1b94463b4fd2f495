import Mathlib.Data.List.Basic
import Mathlib.Data.List.Forall2

/-!
# Runs of a labelled machine

A machine is a partial step function: on an event it halts (`none`) or gives an output and the next
state. `Run step ok s₀ t s` says that `s` is reached from `s₀` by steps whose events `ok` admits in
the state they meet, and `t` is the trace: the events with their outputs, in order. `Run.inv` is the
induction every safety property goes through: what holds at the start and is kept by one step holds
after every run.

A property of single steps is a property of a run through `observed`, the machine whose outputs show
the state before and after each step. `Run.simulate` is the rule for refinement: a relation between
the states of two machines that every step keeps, with equal outputs, gives every run of the one as
a run of the other with the same trace.

Three properties of a trace recur. `Answered p q t`: each `p` of the trace is followed by a `q`.
`Separated p q t`: between any two `p`s there is a `q`. `AtEach p P t`: at each `p`, `P` holds of
the trace so far. All are decided one entry at a time (`answered_snoc`, `separated_snoc`,
`atEach_snoc`).
-/

namespace ZeldaOS

section
variable {σ ε ω : Type*}

/-- The runs of `step` from `s₀` whose events are admitted by `ok`. -/
inductive Run (step : σ → ε → Option (ω × σ)) (ok : σ → ε → Prop) (s₀ : σ) :
    List (ε × ω) → σ → Prop
  | nil : Run step ok s₀ [] s₀
  | snoc {t s e o s'} : Run step ok s₀ t s → ok s e → step s e = some (o, s') →
      Run step ok s₀ (t ++ [(e, o)]) s'

variable {step : σ → ε → Option (ω × σ)} {ok : σ → ε → Prop} {s₀ s : σ} {t : List (ε × ω)}

/-- **The invariant rule.** -/
theorem Run.inv (I : List (ε × ω) → σ → Prop) (h₀ : I [] s₀)
    (hs : ∀ t s e o s', I t s → ok s e → step s e = some (o, s') → I (t ++ [(e, o)]) s')
    (h : Run step ok s₀ t s) : I t s := by
  induction h with
  | nil => exact h₀
  | snoc _ hok he ih => exact hs _ _ _ _ _ ih hok he

/-- The last step of a run. -/
theorem Run.snoc_inv {a : ε × ω} (h : Run step ok s₀ (t ++ [a]) s) :
    ∃ s₁, Run step ok s₀ t s₁ ∧ ok s₁ a.1 ∧ step s₁ a.1 = some (a.2, s) := by
  generalize ht : t ++ [a] = t' at h
  cases h with
  | nil => simp at ht
  | snoc hr hok he =>
    obtain ⟨rfl, h⟩ := List.append_inj' ht rfl
    cases h
    exact ⟨_, hr, hok, he⟩

/-- Runs compose. -/
theorem Run.trans {s₁ : σ} {t' : List (ε × ω)} (h : Run step ok s₀ t s) (h' : Run step ok s t' s₁) :
    Run step ok s₀ (t ++ t') s₁ := by
  induction h' with
  | nil => rwa [List.append_nil]
  | snoc _ hok hst ih =>
    rw [← List.append_assoc]
    exact ih.snoc hok hst

/-- Run the machine on a list of events. -/
def exec (step : σ → ε → Option (ω × σ)) : σ → List ε → Option (List (ε × ω) × σ)
  | s, [] => some ([], s)
  | s, e :: es =>
    match step s e with
    | none => none
    | some (o, s') => (exec step s' es).map fun r => ((e, o) :: r.1, r.2)

/-- **The progress rule.** A machine that never halts in the states of an invariant, and keeps it,
runs on every list of events. -/
theorem exec_of_inv (I : σ → Prop) (hs : ∀ s e, I s → ∃ o s', step s e = some (o, s') ∧ I s')
    (es : List ε) {s : σ} (h : I s) : ∃ t s', exec step s es = some (t, s') ∧ I s' := by
  induction es generalizing s with
  | nil => exact ⟨[], s, rfl, h⟩
  | cons e es ih =>
    obtain ⟨o, s₁, hst, h₁⟩ := hs s e h
    obtain ⟨t, s', hr, h'⟩ := ih h₁
    exact ⟨(e, o) :: t, s', by simp [exec, hst, hr], h'⟩

/-- A machine that never halts on the events of a list runs on the list. -/
theorem exec_of_events {es : List ε} (htotal : ∀ e ∈ es, ∀ s, ∃ r, step s e = some r) (s : σ) :
    ∃ t s', exec step s es = some (t, s') := by
  induction es generalizing s with
  | nil => exact ⟨[], s, rfl⟩
  | cons e es ih =>
    obtain ⟨⟨o, s₁⟩, hst⟩ := htotal e List.mem_cons_self s
    obtain ⟨t, s', hr⟩ := ih (fun e he => htotal e (List.mem_cons_of_mem _ he)) s₁
    exact ⟨(e, o) :: t, s', by simp [exec, hst, hr]⟩

/-- A machine that never halts runs on every list of events. -/
theorem exec_of_total (htotal : ∀ s e, ∃ r, step s e = some r) (s : σ) (es : List ε) :
    ∃ t s', exec step s es = some (t, s') := exec_of_events (fun e _ s => htotal s e) s

/-- A run extended by an execution is a run. -/
theorem Run.exec : ∀ {es : List ε} {s s' : σ} {t t' : List (ε × ω)}, Run step ok s₀ t s →
    (∀ e ∈ es, ∀ s, ok s e) → exec step s es = some (t', s') → Run step ok s₀ (t ++ t') s'
  | [], _, _, _, _, h, _, he => by
    cases he
    simpa using h
  | e :: es, s, s', t, t', h, hok, he => by
    rw [ZeldaOS.exec] at he
    split at he
    · cases he
    · next o s₁ hst =>
      obtain ⟨⟨t₁, s₂⟩, hr, heq⟩ := Option.map_eq_some_iff.1 he
      cases heq
      have h₁ := (h.snoc (hok e (List.mem_cons_self ..) s) hst).exec
        (fun e he => hok e (List.mem_cons_of_mem _ he)) hr
      simpa [List.append_assoc] using h₁

/-- The events of an execution are the events it was given. -/
theorem exec_events : ∀ {es : List ε} {s s' : σ} {t : List (ε × ω)}, exec step s es = some (t, s') →
    t.map Prod.fst = es
  | [], _, _, _, h => by
    cases h
    rfl
  | e :: es, s, s', t, h => by
    rw [ZeldaOS.exec] at h
    split at h
    · cases h
    · obtain ⟨⟨t₁, s₁⟩, hr, heq⟩ := Option.map_eq_some_iff.1 h
      cases heq
      rw [List.map_cons, exec_events hr]

/-- **The lockstep rule.** Two machines that move together on every event run together on every list
of events; `f` is how the outputs of the one look on the other. -/
theorem exec_lockstep {τ ω' : Type*} {astep : τ → ε → Option (ω' × τ)} {f : ω' → ω} {E : ε → Prop}
    (R : σ → τ → Prop)
    (hs : ∀ s a e, R s a → E e →
      ∃ o a' s', astep a e = some (o, a') ∧ step s e = some (f o, s') ∧ R s' a') :
    ∀ {es : List ε} {s : σ} {a : τ}, R s a → (∀ e ∈ es, E e) →
      ∃ t a' s', exec astep a es = some (t, a') ∧
        exec step s es = some (t.map (Prod.map id f), s') ∧ R s' a'
  | [], s, a, hR, _ => ⟨[], a, s, rfl, rfl, hR⟩
  | e :: es, s, a, hR, hE => by
    obtain ⟨o, a₁, s₁, ha, hs₁, hR₁⟩ := hs s a e hR (hE e List.mem_cons_self)
    obtain ⟨t, a', s', ha', hs', hR'⟩ :=
      exec_lockstep R hs hR₁ fun e he => hE e (List.mem_cons_of_mem _ he)
    exact ⟨(e, o) :: t, a',
      s', by simp [ZeldaOS.exec, ha, ha'], by simp [ZeldaOS.exec, hs₁, hs'], hR'⟩

/-- The machine that halts on events that are not admitted. -/
def guarded (ok : σ → ε → Prop) [∀ s e, Decidable (ok s e)] (step : σ → ε → Option (ω × σ)) (s : σ)
    (e : ε) : Option (ω × σ) :=
  if ok s e then step s e else none

/-- An execution of the guarded machine is a run in which every event was admitted. -/
theorem Run.of_guarded [∀ s e, Decidable (ok s e)] {es : List ε}
    (h : ZeldaOS.exec (guarded ok step) s₀ es = some (t, s)) : Run step ok s₀ t s := by
  have hrun : Run (guarded ok step) (fun _ _ => True) s₀ t s :=
    Run.nil.exec (fun _ _ _ => trivial) h
  clear h
  induction hrun with
  | nil => exact .nil
  | snoc _ _ hst ih =>
    rw [guarded] at hst
    split at hst
    · next hok => exact ih.snoc hok hst
    · cases hst

/-- **The descent rule.** If in every state of an invariant that is not yet a goal some admitted
step of the kind `E` lowers a measure and keeps the invariant, then a goal is reached by steps of
that kind. -/
theorem Run.exists_of_measure (I : σ → Prop) (goal : σ → Prop) (μ : σ → Nat) (E : ε → Prop)
    (hs : ∀ s, I s → ¬ goal s →
      ∃ e o s', E e ∧ ok s e ∧ step s e = some (o, s') ∧ I s' ∧ μ s' < μ s)
    (hI : I s) : ∃ t s', Run step ok s t s' ∧ goal s' ∧ ∀ x ∈ t, E x.1 := by
  induction hn : μ s using Nat.strongRecOn generalizing s with
  | ind n ih =>
    by_cases hgoal : goal s
    · exact ⟨[], s, .nil, hgoal, fun x hx => by cases hx⟩
    · obtain ⟨e, o, s', hE, he, hst, hI', hlt⟩ := hs s hI hgoal
      obtain ⟨t, s'', hrun, hgoal', hkind⟩ := ih (μ s') (hn ▸ hlt) hI' rfl
      have hone : Run step ok s ([] ++ [(e, o)]) s' := .snoc .nil he hst
      refine ⟨[(e, o)] ++ t, s'', hone.trans hrun, hgoal', fun x hx => ?_⟩
      rcases List.mem_cons.1 hx with rfl | hx
      · exact hE
      · exact hkind x hx

/-! ## Observed steps -/

/-- A step as it is seen from outside: the states around it and its output. -/
structure Observation (σ ω : Type*) where
  before : σ
  output : ω
  after : σ

/-- The machine whose outputs show each step. -/
def observed (step : σ → ε → Option (ω × σ)) (s : σ) (e : ε) : Option (Observation σ ω × σ) :=
  (step s e).map fun r => (⟨s, r.1, r.2⟩, r.2)

theorem observed_eq_some {e : ε} {o : Observation σ ω} {s' : σ} :
    observed step s e = some (o, s') ↔
      o.before = s ∧ o.after = s' ∧ step s e = some (o.output, s') := by
  rw [observed, Option.map_eq_some_iff]
  constructor
  · rintro ⟨⟨w, s₁⟩, hst, heq⟩
    cases heq
    exact ⟨rfl, rfl, hst⟩
  · rintro ⟨rfl, rfl, hst⟩
    exact ⟨(o.output, o.after), hst, rfl⟩

/-- Observing a machine does not stop it. -/
theorem exec_observed_of_inv (I : σ → Prop)
    (hs : ∀ s e, I s → ∃ o s', step s e = some (o, s') ∧ I s') (es : List ε) (h : I s) :
    ∃ t s', exec (observed step) s es = some (t, s') := by
  obtain ⟨t, s', hex, -⟩ := exec_of_inv I (fun s e h => by
    obtain ⟨o, s', hst, h'⟩ := hs s e h
    exact ⟨⟨s, o, s'⟩, s', observed_eq_some.2 ⟨rfl, rfl, hst⟩, h'⟩) es h
  exact ⟨t, s', hex⟩

/-- Every entry of an observed trace is a step of the machine. -/
theorem Run.observed_step {t : List (ε × Observation σ ω)} (h : Run (observed step) ok s₀ t s) :
    ∀ x ∈ t, step x.2.before x.1 = some (x.2.output, x.2.after) := by
  induction h with
  | nil => simp
  | snoc _ _ hst ih =>
    intro x hx
    obtain ⟨rfl, rfl, hst⟩ := observed_eq_some.1 hst
    rcases List.mem_append.1 hx with hx | hx
    · exact ih x hx
    · obtain rfl := List.mem_singleton.1 hx
      exact hst

/-- **The exact condition of a property.** Let `J` hold at the start and imply `P`. When a step that
meets the condition `C` keeps `J` and a step that does not ends in a state without `P`, then `P`
holds in every state of a run if and only if every step of the run meets `C`. -/
theorem Run.observed_iff {J P : σ → Prop} {C : σ → ε → Prop} (h₀ : J s₀) (hP : ∀ s, J s → P s)
    (hgood : ∀ s e o s', J s → C s e → step s e = some (o, s') → J s')
    (hbad : ∀ s e o s', J s → ¬ C s e → step s e = some (o, s') → ¬ P s')
    {t : List (ε × Observation σ ω)} (h : Run (observed step) ok s₀ t s) :
    (∀ x ∈ t, P x.2.after) ↔ ∀ x ∈ t, C x.2.before x.1 := by
  have hmain : ((∀ x ∈ t, P x.2.after) ↔ ∀ x ∈ t, C x.2.before x.1) ∧
      ((∀ x ∈ t, C x.2.before x.1) → J s) := by
    induction h with
    | nil => exact ⟨by simp, fun _ => h₀⟩
    | @snoc t s e o s' _ _ hst ih =>
      obtain ⟨rfl, rfl, hst⟩ := observed_eq_some.1 hst
      obtain ⟨hiff, hJ⟩ := ih
      simp only [List.forall_mem_append, List.forall_mem_singleton, hiff]
      refine ⟨and_congr_right fun hC => ⟨fun hafter => ?_, fun hc => ?_⟩, fun ⟨hC, hc⟩ => ?_⟩
      · by_contra hc
        exact hbad _ _ _ _ (hJ hC) hc hst hafter
      · exact hP _ (hgood _ _ _ _ (hJ hC) hc hst)
      · exact hgood _ _ _ _ (hJ hC) hc hst
  exact hmain.1

/-! ## Refinement -/

/-- **The simulation rule.** -/
theorem Run.simulate {τ : Type*} {astep : τ → ε → Option (ω × τ)} {a₀ : τ} (R : σ → τ → Prop)
    (h₀ : R s₀ a₀)
    (hs : ∀ s a e o s', R s a → ok s e → step s e = some (o, s') →
      ∃ a', astep a e = some (o, a') ∧ R s' a')
    (h : Run step ok s₀ t s) : ∃ a, Run astep (fun _ _ => True) a₀ t a ∧ R s a := by
  induction h with
  | nil => exact ⟨a₀, .nil, h₀⟩
  | snoc _ hok hst ih =>
    obtain ⟨a, hrun, hR⟩ := ih
    obtain ⟨a', hast, hR'⟩ := hs _ _ _ _ _ hR hok hst
    exact ⟨a', hrun.snoc trivial hast, hR'⟩

/-- **The simulation rule with labels.** When the two machines have events and outputs of their own,
`L` says which of them stand for each other. -/
theorem Run.simulate_labels {τ ε' ω' : Type*} {astep : τ → ε' → Option (ω' × τ)} {a₀ : τ}
    (R : σ → τ → Prop)
    (L : ε × ω → ε' × ω' → Prop) (h₀ : R s₀ a₀)
    (hs : ∀ s a e o s', R s a → ok s e → step s e = some (o, s') →
      ∃ e' o' a', astep a e' = some (o', a') ∧ L (e, o) (e', o') ∧ R s' a')
    (h : Run step ok s₀ t s) :
    ∃ t' a, Run astep (fun _ _ => True) a₀ t' a ∧ List.Forall₂ L t t' ∧ R s a := by
  induction h with
  | nil => exact ⟨[], a₀, .nil, .nil, h₀⟩
  | snoc _ hok hst ih =>
    obtain ⟨t', a, hrun, hL, hR⟩ := ih
    obtain ⟨e', o', a', hast, hl, hR'⟩ := hs _ _ _ _ _ hR hok hst
    exact ⟨t' ++ [(e', o')], a', hrun.snoc trivial hast, List.rel_append hL (.cons hl .nil), hR'⟩

end

/-! ## Traces -/

section
variable {α : Type*} {p q : α → Prop} {t : List α} {z : α}

/-- Every `p` of the trace is followed by a `q`. -/
def Answered (p q : α → Prop) (t : List α) : Prop :=
  ∀ t₁ x t₂, t = t₁ ++ x :: t₂ → p x → ∃ y ∈ t₂, q y

/-- Between any two `p`s of the trace there is a `q`. -/
def Separated (p q : α → Prop) (t : List α) : Prop :=
  ∀ t₁ x t₂ y t₃, t = t₁ ++ x :: (t₂ ++ y :: t₃) → p x → p y → ∃ z ∈ t₂, q z

/-- At each `p` of the trace, `P` holds of what came before. -/
def AtEach (p : α → Prop) (P : List α → Prop) (t : List α) : Prop :=
  ∀ t₁ x t₂, t = t₁ ++ x :: t₂ → p x → P t₁

theorem answered_nil : Answered p q ([] : List α) := by
  intro t₁ x t₂ h
  simp at h

theorem separated_nil : Separated p q ([] : List α) := by
  intro t₁ x t₂ y t₃ h
  simp at h

theorem atEach_nil {P : List α → Prop} : AtEach p P ([] : List α) := by
  intro t₁ x t₂ h
  simp at h

/-- A list that ends in `z` splits at `z` or before it. -/
theorem snoc_eq_append_cons {t₁ t₂ : List α} {x : α} (h : t ++ [z] = t₁ ++ x :: t₂) :
    (t₁ = t ∧ x = z ∧ t₂ = []) ∨ ∃ t₃, t₂ = t₃ ++ [z] ∧ t = t₁ ++ x :: t₃ := by
  rcases List.eq_nil_or_concat t₂ with rfl | ⟨t₃, w, rfl⟩
  · obtain ⟨h₁, h₂⟩ := List.append_inj' h rfl
    cases h₂
    exact .inl ⟨h₁.symm, rfl, rfl⟩
  · have h' : t ++ [z] = (t₁ ++ x :: t₃) ++ [w] := by simpa using h
    obtain ⟨h₁, h₂⟩ := List.append_inj' h' rfl
    cases h₂
    exact .inr ⟨t₃, List.concat_eq_append .., h₁⟩

/-- What an entry gives is appended to what the trace gives. -/
theorem filterMap_snoc {β : Type*} (f : α → Option β) (xs : List α) (x : α) :
    (xs ++ [x]).filterMap f = xs.filterMap f ++ (f x).toList := by
  rw [List.filterMap_append]
  cases hx : f x <;> simp [hx]

/-- Appending an entry that is no `p` keeps a trace answered, and a `q` answers it. -/
theorem answered_snoc : Answered p q (t ++ [z]) ↔ ¬ p z ∧ (q z ∨ Answered p q t) := by
  constructor
  · intro h
    refine ⟨fun hz => ?_, ?_⟩
    · obtain ⟨y, hy, -⟩ := h t z [] rfl hz
      simp at hy
    · by_cases hq : q z
      · exact .inl hq
      · refine .inr fun t₁ x t₂ ht hx => ?_
        obtain ⟨y, hy, hqy⟩ := h t₁ x (t₂ ++ [z]) (by simp [ht]) hx
        rcases List.mem_append.1 hy with hy | hy
        · exact ⟨y, hy, hqy⟩
        · rw [List.mem_singleton] at hy
          exact absurd (hy ▸ hqy) hq
  · rintro ⟨hz, h⟩ t₁ x t₂ ht hx
    rcases snoc_eq_append_cons ht with ⟨-, rfl, -⟩ | ⟨t₃, rfl, rfl⟩
    · exact absurd hx hz
    · rcases h with hq | h
      · exact ⟨z, by simp, hq⟩
      · obtain ⟨y, hy, hqy⟩ := h t₁ x t₃ rfl hx
        exact ⟨y, List.mem_append_left _ hy, hqy⟩

/-- A trace stays separated when the appended `p` finds every earlier one answered. -/
theorem separated_snoc : Separated p q (t ++ [z]) ↔ Separated p q t ∧ (p z → Answered p q t) := by
  constructor
  · intro h
    refine ⟨fun t₁ x t₂ y t₃ ht hx hy => h t₁ x t₂ y (t₃ ++ [z]) (by simp [ht]) hx hy, ?_⟩
    exact fun hz t₁ x t₂ ht hx => h t₁ x t₂ z [] (by simp [ht]) hx hz
  · rintro ⟨h, hz⟩ t₁ x t₂ y t₃ ht hx hy
    rw [← List.cons_append, ← List.append_assoc] at ht
    rcases snoc_eq_append_cons ht with ⟨heq, rfl, -⟩ | ⟨t₄, -, heq⟩
    · exact hz hy t₁ x t₂ heq.symm hx
    · exact h t₁ x t₂ y t₄ (by simp [heq]) hx hy

theorem atEach_snoc {P : List α → Prop} : AtEach p P (t ++ [z]) ↔ AtEach p P t ∧ (p z → P t) := by
  constructor
  · intro h
    exact ⟨fun t₁ x t₂ ht hx => h t₁ x (t₂ ++ [z]) (by simp [ht]) hx, fun hz => h t z [] rfl hz⟩
  · rintro ⟨h, hz⟩ t₁ x t₂ ht hx
    rcases snoc_eq_append_cons ht with ⟨rfl, rfl, -⟩ | ⟨t₃, -, rfl⟩
    · exact hz hx
    · exact h t₁ x t₃ rfl hx

end

end ZeldaOS
