import Mathlib.Data.UInt
import ZeldaOS.Lib.Interleave

/-!
# Processor local storage

Model of `x86_64/processor_local_storage.c` and of `THIS_CPU` of `per_cpu.h`. Each processor has an
area in the table `pls_blob`, and its GS base is the offset of its area, so that one GS-relative
read of the first area's address gives the processor its own index. `processor_local_storage_init`
sets the GS base, then writes the index and then the magic number; the steps of the processors are
interleaved (`plsMachine`).

A processor that has not written its index reads the index 0 (`getCpuLocalArea_eq`): from area 0
through a GS base that is still 0, or from its own area. So before that its `cpuid` looks at the
magic number of area 0, and is right only as long as processor 0 has not written it
(`cpuid_right_iff`).
-/

namespace ZeldaOS

/-- `MAX_NR_CPUS`. -/
def maxNrCpus : Nat := 64

instance : NeZero maxNrCpus := ⟨Nat.succ_ne_zero 63⟩

/-- `CPU_LOCAL_STORAGE_MAGIC`. -/
def cpuLocalStorageMagic : Nat := 0xdeadbeef

/-- `struct cpu_local_area`, without the selector of the TSS. -/
structure CpuLocalArea where
  processorIndex : Nat
  magicNumber : Nat
deriving DecidableEq, Repr

/-- The size of a `struct cpu_local_area`, which is aligned to a page. -/
def cpuLocalAreaSize : Nat := 4096

/-- The table `pls_blob`. -/
abbrev PlsBlob := Nat → CpuLocalArea

/-- How far a processor is in `processor_local_storage_init`. -/
inductive PlsPc
  /-- Before the write of the GS base. -/
  | start
  /-- Before the write of the index. -/
  | gsSet
  /-- Before the write of the magic number. -/
  | indexSet
  | done
deriving DecidableEq, Repr

/-- The processor has written its index. -/
def PlsPc.indexWritten : PlsPc → Bool
  | .start | .gsSet => false
  | .indexSet | .done => true

/-- What a processor has for itself. -/
structure Processor where
  gsBase : Nat
  pc : PlsPc
deriving DecidableEq, Repr

/-- One step of `processor_local_storage_init` on the processor with the APIC id `c`, which is what
`cpu()` returns there. -/
def plsInitStep (c : Fin maxNrCpus) (plsBlob : PlsBlob) (p : Processor) :
    Option (PlsBlob × Processor) :=
  match p.pc with
  | .start => some (plsBlob, ⟨c * cpuLocalAreaSize % 2 ^ 32, .gsSet⟩)
  | .gsSet =>
    some (Function.update plsBlob c { plsBlob c with processorIndex := c % 2 ^ 16 },
      { p with pc := .indexSet })
  | .indexSet =>
    some (Function.update plsBlob c { plsBlob c with magicNumber := cpuLocalStorageMagic },
      { p with pc := .done })
  | .done => none

/-- The processors on their way through `processor_local_storage_init`. -/
def plsMachine : PlsBlob × (Fin maxNrCpus → Processor) → Fin maxNrCpus →
    Option (Unit × (PlsBlob × (Fin maxNrCpus → Processor))) :=
  interleave plsInitStep

/-- The start: a table of zeros, and the GS base 0 on each processor. -/
def plsStart : PlsBlob × (Fin maxNrCpus → Processor) := (fun _ => ⟨0, 0⟩, fun _ => ⟨0, .start⟩)

/-- `get_cpu_local_area`: the area whose index stands in the first word of the area that the GS base
points to. -/
def getCpuLocalArea (plsBlob : PlsBlob) (gsBase : Nat) : Option Nat :=
  let processorIndex := (plsBlob (gsBase / cpuLocalAreaSize)).processorIndex
  if processorIndex < maxNrCpus then some processorIndex else none

/-- `cpuid` on the processor with the APIC id `cpu`. It reads the table four times, and between the
reads other processors may write it: the tables are those that the reads meet. -/
def cpuid (b₁ b₂ b₃ b₄ : PlsBlob) (gsBase cpu : Nat) : Option Nat :=
  (getCpuLocalArea b₁ gsBase).bind fun pls =>
    if (b₂ pls).magicNumber ≠ cpuLocalStorageMagic then some cpu
    else (getCpuLocalArea b₃ gsBase).map fun pls => (b₄ pls).processorIndex

/-- `PER_CPU`: the slot of a processor in a variable at `name` with slots of `size` bytes. -/
def perCpu (size name cpu : Nat) : Nat := cpu * size + name

/-- The call of `cpuid` by processor `c`, with its reads in the states `s₁` to `s₄`, returns `c`,
and `THIS_CPU` selects the slot of `c` in every variable. -/
def CpuidRight (c : Fin maxNrCpus) (s₁ s₂ s₃ s₄ : PlsBlob × (Fin maxNrCpus → Processor)) : Prop :=
  cpuid s₁.1 s₂.1 s₃.1 s₄.1 (s₁.2 c).gsBase c = some c.val ∧
  ∀ size name, (cpuid s₁.1 s₂.1 s₃.1 s₄.1 (s₁.2 c).gsBase c).map (perCpu size name) =
    some (perCpu size name c)

/-! ## What the steps keep -/

/-- What a processor finds in its own registers and its own area. -/
structure PlsInv (c : Fin maxNrCpus) (plsBlob : PlsBlob) (p : Processor) : Prop where
  gsBase : p.gsBase = if p.pc = .start then 0 else c * cpuLocalAreaSize
  index : (plsBlob c).processorIndex = if p.pc.indexWritten then c.val else 0
  magic : (plsBlob c).magicNumber = if p.pc = .done then cpuLocalStorageMagic else 0

section
variable {c d : Fin maxNrCpus} {b b' : PlsBlob} {p p' : Processor}
  {s₀ s : PlsBlob × (Fin maxNrCpus → Processor)} {t : List (Fin maxNrCpus × Unit)}
  {ok : PlsBlob × (Fin maxNrCpus → Processor) → Fin maxNrCpus → Prop}

/-- A step of a processor keeps what it finds. -/
theorem PlsInv.own (h : PlsInv c b p) (hst : plsInitStep c b p = some (b', p')) :
    PlsInv c b' p' := by
  obtain ⟨hgs, hindex, hmagic⟩ := h
  have hc : c.val < 64 := c.isLt
  rw [plsInitStep] at hst
  cases hpc : p.pc with
  | start =>
    rw [hpc] at hst hindex hmagic
    cases hst
    refine ⟨?_, hindex, hmagic⟩
    rw [Nat.mod_eq_of_lt (by rw [cpuLocalAreaSize]; omega)]
    rfl
  | gsSet =>
    rw [hpc] at hst hgs hmagic
    cases hst
    refine ⟨hgs, ?_, ?_⟩
    · rw [Function.update_self, Nat.mod_eq_of_lt (by omega)]
      rfl
    · rw [Function.update_self]
      exact hmagic
  | indexSet =>
    rw [hpc] at hst hgs hindex
    cases hst
    refine ⟨hgs, ?_, ?_⟩
    · rw [Function.update_self]
      exact hindex
    · rw [Function.update_self]
      rfl
  | done =>
    rw [hpc] at hst
    cases hst

/-- A step of a processor writes to no area but its own. -/
theorem plsInitStep_other (hst : plsInitStep c b p = some (b', p')) {i : Nat} (hi : i ≠ c) :
    b' i = b i := by
  rw [plsInitStep] at hst
  cases hpc : p.pc with
  | start =>
    rw [hpc] at hst
    cases hst
    rfl
  | gsSet | indexSet =>
    rw [hpc] at hst
    cases hst
    exact Function.update_of_ne hi _ _
  | done =>
    rw [hpc] at hst
    cases hst

/-- What the processors find, in every interleaving of their steps. -/
theorem plsInv_of_run (h₀ : ∀ c, PlsInv c s₀.1 (s₀.2 c)) (h : Run plsMachine ok s₀ t s) :
    ∀ c, PlsInv c s.1 (s.2 c) := by
  refine (h.interleave_inv PlsInv (fun _ _ => True) h₀ (fun _ _ _ => trivial)
    (fun c b p b' p' h hst => h.own hst) ?_).1
  intro c d b p q b' p' hne _ hd _ _ hst
  have hval : d.val ≠ c.val := fun h => hne (Fin.ext h.symm)
  have hsame := plsInitStep_other hst hval
  exact ⟨⟨hd.gsBase, by rw [hsame, hd.index], by rw [hsame, hd.magic]⟩, trivial, trivial⟩

theorem plsInv_start : ∀ c, PlsInv c plsStart.1 (plsStart.2 c) := fun _ => ⟨rfl, rfl, rfl⟩

/-- The steps of the others leave the registers of a processor alone. -/
theorem own_of_others (h : Run plsMachine (fun _ d => d ≠ c) s₀ t s) : s.2 c = s₀.2 c := by
  induction h with
  | nil => rfl
  | snoc _ hne hst ih =>
    obtain ⟨_, -, heq⟩ := interleave_eq_some.1 hst
    rw [heq, Function.update_of_ne (Ne.symm hne), ih]

/-! ## cpuid -/

/-- **The area that a processor finds** is its own one when it has written its index, and area 0
before that. -/
theorem getCpuLocalArea_eq (h : ∀ c, PlsInv c s.1 (s.2 c)) (c : Fin maxNrCpus) :
    getCpuLocalArea s.1 (s.2 c).gsBase = some (if (s.2 c).pc.indexWritten then c.val else 0) := by
  have hsize : (c.val * cpuLocalAreaSize) / cpuLocalAreaSize = c :=
    Nat.mul_div_cancel _ (by decide)
  have hzero : (s.1 0).processorIndex = 0 := by
    have := (h 0).index
    rwa [Fin.val_zero, ite_self] at this
  have hindex : (s.1 ((s.2 c).gsBase / cpuLocalAreaSize)).processorIndex =
      if (s.2 c).pc.indexWritten then c.val else 0 := by
    rw [(h c).gsBase]
    by_cases hstart : (s.2 c).pc = .start
    · rw [if_pos hstart, Nat.zero_div, hzero, hstart]
      rfl
    · rw [if_neg hstart, hsize, (h c).index]
  rw [getCpuLocalArea, hindex]
  refine if_pos ?_
  split
  · exact c.isLt
  · decide

end

/-- **When `cpuid` is right.** In every interleaving of the initialisations, and with steps of other
processors between its reads, a call of `cpuid` by processor `c` is right exactly when `c` is 0, or
has written its index, or processor 0 has not written its magic number when the call tests it. -/
theorem cpuid_right_iff {c : Fin maxNrCpus} {s₁ s₂ s₃ s₄ : PlsBlob × (Fin maxNrCpus → Processor)}
    {t₁ t₂ t₃ t₄ : List (Fin maxNrCpus × Unit)}
    (h₁ : Run plsMachine (fun _ _ => True) plsStart t₁ s₁)
    (h₂ : Run plsMachine (fun _ d => d ≠ c) s₁ t₂ s₂)
    (h₃ : Run plsMachine (fun _ d => d ≠ c) s₂ t₃ s₃)
    (h₄ : Run plsMachine (fun _ d => d ≠ c) s₃ t₄ s₄) :
    CpuidRight c s₁ s₂ s₃ s₄ ↔
      c = 0 ∨ (s₁.2 c).pc.indexWritten = true ∨ (s₂.1 0).magicNumber ≠ cpuLocalStorageMagic := by
  have hinv₁ := plsInv_of_run plsInv_start h₁
  have hinv₂ := plsInv_of_run hinv₁ h₂
  have hinv₃ := plsInv_of_run hinv₂ h₃
  have hinv₄ := plsInv_of_run hinv₃ h₄
  have hown₂ := own_of_others h₂
  have hown₃ := (own_of_others h₃).trans hown₂
  have hown₄ := (own_of_others h₄).trans hown₃
  have harea₁ := getCpuLocalArea_eq hinv₁ c
  have harea₃ := getCpuLocalArea_eq hinv₃ c
  rw [hown₃] at harea₃
  have hright : CpuidRight c s₁ s₂ s₃ s₄ ↔
      cpuid s₁.1 s₂.1 s₃.1 s₄.1 (s₁.2 c).gsBase c = some c.val :=
    ⟨And.left, fun h => ⟨h, fun size name => by rw [h]; rfl⟩⟩
  rw [hright, cpuid, harea₁, Option.bind_some, harea₃]
  cases hw : (s₁.2 c).pc.indexWritten with
  | true =>
    have hindex : (s₄.1 c).processorIndex = c := by
      rw [(hinv₄ c).index, hown₄, if_pos hw]
    simp [hindex]
  | false =>
    have hzero : (s₄.1 0).processorIndex = 0 := by
      have := (hinv₄ 0).index
      rwa [Fin.val_zero, ite_self] at this
    by_cases hmagic : (s₂.1 0).magicNumber = cpuLocalStorageMagic
    · have hc : c = 0 ↔ 0 = c.val := ⟨fun h => by rw [h]; rfl, fun h => Fin.ext h.symm⟩
      simp [hmagic, hzero, hc]
    · simp [hmagic]

theorem cpuid_right_iff_sample : ∃ t s, Run plsMachine (fun _ _ => True) plsStart t s ∧
    (s.1 0).magicNumber = cpuLocalStorageMagic ∧ CpuidRight 1 s s s s := by
  have hex : (exec plsMachine plsStart [0, 1, 0, 1, 0]).map
      (fun r => ((r.2.1 0).magicNumber, (r.2.2 1).pc)) =
        some (cpuLocalStorageMagic, .indexSet) := by
    decide +kernel
  obtain ⟨⟨t, s⟩, hrun, heq⟩ := Option.map_eq_some_iff.1 hex
  obtain ⟨hmagic, hpc⟩ := Prod.mk.inj heq
  have hrun : Run plsMachine (fun _ _ => True) plsStart t s :=
    Run.nil.exec (fun _ _ _ => trivial) hrun
  refine ⟨t, s, hrun, hmagic, (cpuid_right_iff hrun .nil .nil .nil).2 (.inr (.inl ?_))⟩
  rw [hpc]
  rfl

/-- **A processor that takes itself for processor 0.** When processor 0 has finished and processor 1
has not begun, `cpuid` returns 0 on processor 1. -/
theorem cpuid_wrong_before_init : ∃ t s, Run plsMachine (fun _ _ => True) plsStart t s ∧
    (s.2 1).pc = .start ∧ cpuid s.1 s.1 s.1 s.1 (s.2 1).gsBase 1 = some 0 := by
  have hex : (exec plsMachine plsStart [0, 0, 0]).map
      (fun r => ((r.2.2 1).pc, cpuid r.2.1 r.2.1 r.2.1 r.2.1 (r.2.2 1).gsBase 1)) =
        some (.start, some 0) := by
    decide +kernel
  obtain ⟨⟨t, s⟩, hrun, heq⟩ := Option.map_eq_some_iff.1 hex
  obtain ⟨hpc, hcpuid⟩ := Prod.mk.inj heq
  exact ⟨t, s, Run.nil.exec (fun _ _ _ => trivial) hrun, hpc, hcpuid⟩

end ZeldaOS
