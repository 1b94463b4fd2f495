import ZeldaOS.Lib64.Search
import ZeldaOS.Lib64.Sort
import ZeldaOS.VmMonitor.EptMisconfig

/-!
# The registry of the MMIO regions

Model of `vm_monitor/vmx_mmio.c`. A region is the interval `[addr_low, addr_high)`. The comparison
of two regions gives 0 when one includes the other, and fails an assertion when they overlap in
part. A lookup searches for the one-byte region at its address; a registration checks that its
lowest address is free, appends the region and sorts.

On a table of disjoint regions in order (`RegionsOk`) a registration that returns has put the region
between the others, or the region encloses one of them (`RegionsOk.registerMmioOperation`): the sort
takes that region for equal and leaves it behind. So the registry is a partial map over disjoint
regions exactly as long as no region encloses an earlier one (`mmio_registry_iff`).
-/

namespace ZeldaOS

/-- `struct mmio_operation`: a region and its callbacks. -/
structure MmioRegion (D : Type) where
  addrLow : Nat
  addrHigh : Nat
  callbacks : MmioOperation D := ⟨none, none⟩

/-- `MAX_NR_MMIO_REGIONS`. -/
def maxNrMmioRegions : Nat := 256

section
variable {D : Type}

/-- The region of `m₁` includes the region of `m₂`. -/
def MmioRegion.Encloses (m₁ m₂ : MmioRegion D) : Prop :=
  m₁.addrLow ≤ m₂.addrLow ∧ m₂.addrHigh ≤ m₁.addrHigh

instance (m₁ m₂ : MmioRegion D) : Decidable (m₁.Encloses m₂) :=
  inferInstanceAs (Decidable (_ ∧ _))

/-- The region of `m` contains an address. -/
def MmioRegion.Contains (m : MmioRegion D) (g : Nat) : Prop := m.addrLow ≤ g ∧ g < m.addrHigh

instance (m : MmioRegion D) (g : Nat) : Decidable (m.Contains g) :=
  inferInstanceAs (Decidable (_ ∧ _))

/-- Two regions without a common address. -/
def MmioRegion.Apart (m₁ m₂ : MmioRegion D) : Prop := ∀ g, ¬ (m₁.Contains g ∧ m₂.Contains g)

/-- `mmio_operation_compare`. -/
def mmioOperationCompare (mmio1 mmio2 : MmioRegion D) : Option Int :=
  if mmio1.addrLow ≤ mmio1.addrHigh ∧ mmio2.addrLow ≤ mmio2.addrHigh then
    if mmio1.addrHigh ≤ mmio2.addrLow then some (-1)
    else if mmio1.addrLow ≥ mmio2.addrHigh then some 1
    else if mmio1.Encloses mmio2 ∨ mmio2.Encloses mmio1 then some 0
    else none
  else none

/-- `search_mmio_callback`, with the index of the operation it points to. The end of the target
wraps at 2^64. -/
def searchMmioCallback (mmioOps : List (MmioRegion D)) (guestPa : Nat) : Option (Option Nat) :=
  search mmioOperationCompare mmioOps { addrLow := guestPa, addrHigh := (guestPa + 1) % 2 ^ 64 }

/-- The operation a lookup points to. -/
def mmioCallback (mmioOps : List (MmioRegion D)) (guestPa : Nat) :
    Option (Option (MmioRegion D)) :=
  (searchMmioCallback mmioOps guestPa).map fun r => r.bind fun i => mmioOps[i]?

/-- `register_mmio_operation`. -/
def registerMmioOperation (mmioOps : List (MmioRegion D)) (mmio : MmioRegion D) :
    Option (List (MmioRegion D)) :=
  if searchMmioCallback mmioOps mmio.addrLow = some none ∧ mmioOps.length < maxNrMmioRegions then
    (sort mmioOperationCompare (mmioOps ++ [mmio])).bind fun sorted =>
      (searchMmioCallback sorted mmio.addrLow).bind fun found =>
        if found.isSome then some sorted else none
  else none

/-- A region a caller registers. -/
structure MmioRegion.Ok (m : MmioRegion D) : Prop where
  low_lt : m.addrLow < m.addrHigh
  high_lt : m.addrHigh < 2 ^ 64

/-- A table of disjoint regions in order. -/
structure RegionsOk (xs : List (MmioRegion D)) : Prop where
  sorted : xs.Pairwise fun x y => x.addrHigh ≤ y.addrLow
  ok : ∀ x ∈ xs, x.Ok

/-- Registrations made one after the other meet the condition when no region encloses an earlier
one. -/
def EnclosesNone (ops : List (MmioRegion D)) : Prop :=
  ops.Pairwise fun old new => ¬ new.Encloses old

end

section
variable {D : Type} {x y r : MmioRegion D} {xs xs' ops : List (MmioRegion D)} {g : Nat}

instance : Std.Symm (MmioRegion.Apart (D := D)) := ⟨fun _ _ h g hg => h g hg.symm⟩

/-- Two regions are apart exactly if one ends before the other begins. -/
theorem MmioRegion.Ok.apart_iff (hx : x.Ok) (hy : y.Ok) :
    x.Apart y ↔ x.addrHigh ≤ y.addrLow ∨ y.addrHigh ≤ x.addrLow := by
  have := hx.low_lt
  have := hy.low_lt
  constructor
  · intro h
    -- the higher of the two lowest addresses
    have := h (max x.addrLow y.addrLow)
    simp only [MmioRegion.Contains] at this
    omega
  · rintro h g ⟨hxg, hyg⟩
    simp only [MmioRegion.Contains] at hxg hyg
    omega

/-- The comparison, between regions. -/
theorem mmioOperationCompare_eq (hx : x.Ok) (hy : y.Ok) :
    mmioOperationCompare x y =
      if x.addrHigh ≤ y.addrLow then some (-1)
      else if x.addrLow ≥ y.addrHigh then some 1
      else if x.Encloses y ∨ y.Encloses x then some 0
      else none := by
  have := hx.low_lt
  have := hy.low_lt
  rw [mmioOperationCompare, if_pos (by omega)]

/-- A region before another one is in order with it, -/
theorem inOrder_of_le (hx : x.Ok) (hy : y.Ok) (h : x.addrHigh ≤ y.addrLow) :
    InOrder mmioOperationCompare x y :=
  ⟨-1, by rw [mmioOperationCompare_eq hx hy, if_pos h], by decide⟩

/-- and a region behind it is above. -/
theorem above_of_le (hx : x.Ok) (hy : y.Ok) (h : y.addrHigh ≤ x.addrLow) :
    Above mmioOperationCompare x y := by
  have := hx.low_lt
  have := hy.low_lt
  exact ⟨1, by rw [mmioOperationCompare_eq hx hy, if_neg (by omega), if_pos h], by decide⟩

/-- Both ends of two regions of a table, the second behind the first. -/
structure MmioRegion.Before (x y : MmioRegion D) : Prop where
  left : x.addrLow < x.addrHigh
  le : x.addrHigh ≤ y.addrLow
  right : y.addrLow < y.addrHigh

/-- The registered regions are one behind the other, -/
theorem RegionsOk.before (h : RegionsOk xs) : xs.Pairwise MmioRegion.Before :=
  h.sorted.imp_of_mem fun hx hy hle => ⟨(h.ok _ hx).low_lt, hle, (h.ok _ hy).low_lt⟩

/-- so they are apart, -/
theorem RegionsOk.apart (h : RegionsOk xs) : xs.Pairwise MmioRegion.Apart :=
  h.sorted.imp_of_mem fun hx hy hle => ((h.ok _ hx).apart_iff (h.ok _ hy)).2 (.inl hle)

/-- and in order for the search. -/
theorem RegionsOk.inOrder (h : RegionsOk xs) : xs.Pairwise (InOrder mmioOperationCompare) :=
  h.sorted.imp_of_mem fun hx hy hle => inOrder_of_le (h.ok _ hx) (h.ok _ hy) hle

/-! ## The lookup -/

/-- The comparison of the one-byte region at an address with a region. -/
def byteCompare (g : Nat) (x : MmioRegion D) : Int :=
  if g < x.addrLow then -1 else if x.addrHigh ≤ g then 1 else 0

/-- The comparison finds the region that contains the address. -/
theorem byteCompare_eq_zero : byteCompare g x = 0 ↔ x.Contains g := by
  rw [byteCompare, MmioRegion.Contains]
  split
  · omega
  · split <;> omega

/-- An address is compared like a region of one byte. -/
theorem mmioOperationCompare_byte (hx : x.Ok) (hg : g < 2 ^ 64 - 1) :
    mmioOperationCompare { addrLow := g, addrHigh := (g + 1) % 2 ^ 64 } x =
      some (byteCompare g x) := by
  have hbyte : ({ addrLow := g, addrHigh := g + 1 } : MmioRegion D).Ok := by
    constructor <;> simp only <;> omega
  rw [Nat.mod_eq_of_lt (show g + 1 < 2 ^ 64 by omega),
    mmioOperationCompare_eq hbyte hx, byteCompare]
  rcases Nat.lt_or_ge g x.addrLow with hlt | hge
  · rw [if_pos hlt, if_pos (show g + 1 ≤ x.addrLow from hlt)]
  · rw [if_neg (show ¬ g < x.addrLow by omega), if_neg (show ¬ g + 1 ≤ x.addrLow by omega)]
    split
    · rfl
    · next hlt => rw [if_pos (.inr ⟨hge, Nat.lt_of_not_ge hlt⟩)]

/-- **The search** points to the region that contains the address. -/
theorem RegionsOk.search (h : RegionsOk xs) (hg : g < 2 ^ 64 - 1) :
    (searchMmioCallback xs g = some none ∧ ∀ x ∈ xs, ¬ x.Contains g) ∨
      ∃ i x, searchMmioCallback xs g = some (some i) ∧ xs[i]? = some x ∧ x.Contains g := by
  have hmono : MonotoneFor mmioOperationCompare xs
      { addrLow := g, addrHigh := (g + 1) % 2 ^ 64 } (byteCompare g) := by
    refine ⟨fun x hx => mmioOperationCompare_byte (h.ok x hx) hg, ?_⟩
    refine h.sorted.imp_of_mem fun {x y} hx hy hle => ?_
    have := (h.ok x hx).low_lt
    have := (h.ok y hy).low_lt
    simp only [byteCompare]
    split_ifs <;> omega
  obtain ⟨o, ho, hres⟩ := search_spec hmono
  cases o with
  | none => exact .inl ⟨ho, fun x hx hc => hres x hx (byteCompare_eq_zero.2 hc)⟩
  | some i =>
    obtain ⟨x, hx, heq⟩ := hres
    exact .inr ⟨i, x, ho, hx, byteCompare_eq_zero.1 heq⟩

/-! ## Registration -/

/-- A registration that returns found the lowest address free and sorted the table. -/
theorem registerMmioOperation_inv (hreg : registerMmioOperation xs r = some xs') :
    searchMmioCallback xs r.addrLow = some none ∧
      sort mmioOperationCompare (xs ++ [r]) = some xs' := by
  rw [registerMmioOperation] at hreg
  split at hreg
  · next hfree =>
    obtain ⟨sorted, hsort, hreg⟩ := Option.bind_eq_some_iff.1 hreg
    obtain ⟨found, -, hreg⟩ := Option.bind_eq_some_iff.1 hreg
    split at hreg
    · cases hreg
      exact ⟨hfree.1, hsort⟩
    · cases hreg
  · cases hreg

/-- Regions that overlap in part do not compare. -/
theorem mmioOperationCompare_eq_none (hx : x.Ok) (hr : r.Ok) (hlow : r.addrLow < x.addrLow)
    (hhigh : x.addrLow < r.addrHigh) (hnew : ¬ r.Encloses x) : mmioOperationCompare x r = none := by
  have := hx.low_lt
  rw [mmioOperationCompare_eq hx hr, if_neg (by omega), if_neg (by omega), if_neg]
  rintro (hin | hin)
  · have := hin.1
    omega
  · exact hnew hin

/-- Where a region with a free lowest address stands to the others: some are below it, then come
those that begin inside of it, then those above it. -/
theorem RegionsOk.cut (h : RegionsOk xs) (hout : ∀ x ∈ xs, ¬ x.Contains r.addrLow) :
    ∃ ys overlapping above, xs = ys ++ (overlapping ++ above) ∧
      (∀ y ∈ ys, y.addrHigh ≤ r.addrLow) ∧
      (∀ z ∈ overlapping, r.addrLow < z.addrLow ∧ z.addrLow < r.addrHigh) ∧
      ∀ z ∈ above, r.addrHigh ≤ z.addrLow := by
  have hbefore := h.before
  obtain ⟨ys, zs, rfl, hys, hzs⟩ := exists_cut_of_pairwise (p := fun x => x.addrHigh ≤ r.addrLow)
    hbefore fun x y hxy hy => by
      have := hxy.le
      have := hxy.right
      omega
  obtain ⟨overlapping, above, rfl, hover, habove⟩ :=
    exists_cut_of_pairwise (p := fun z => z.addrLow < r.addrHigh)
      (List.pairwise_append.1 hbefore).2.1 fun x y hxy hy => by
        have := hxy.left
        have := hxy.le
        omega
  refine ⟨ys, overlapping, above, rfl, hys, fun z hz => ⟨?_, hover z hz⟩, fun z hz =>
    Nat.le_of_not_lt (habove z hz)⟩
  have hle := hzs z (by simp [hz])
  have hfree := hout z (by simp [hz])
  rw [MmioRegion.Contains] at hfree
  omega

/-- **A registration that returns**, of a region that encloses none of the table, has put it between
the others. -/
theorem RegionsOk.registerMmioOperation (h : RegionsOk xs) (hr : r.Ok)
    (hnew : ∀ x ∈ xs, ¬ r.Encloses x) (hreg : registerMmioOperation xs r = some xs') :
    ∃ ys zs, xs = ys ++ zs ∧ xs' = ys ++ r :: zs ∧ (∀ y ∈ ys, y.addrHigh ≤ r.addrLow) ∧
      ∀ z ∈ zs, r.addrHigh ≤ z.addrLow := by
  obtain ⟨hfree, hsort⟩ := registerMmioOperation_inv hreg
  have hlow : r.addrLow < 2 ^ 64 - 1 := by
    have := hr.low_lt
    have := hr.high_lt
    omega
  have hout : ∀ x ∈ xs, ¬ x.Contains r.addrLow := by
    rcases h.search hlow with ⟨-, hout⟩ | ⟨i, x, hs, -⟩
    · exact hout
    · cases hfree.symm.trans hs
  obtain ⟨ys, overlapping, above, rfl, hys, hover, habove⟩ := h.cut hout
  have hmoves : ∀ z ∈ above, Above mmioOperationCompare z r := fun z hz =>
    above_of_le (h.ok z (by simp [hz])) hr (habove z hz)
  rcases List.eq_nil_or_concat overlapping with rfl | ⟨as, a, rfl⟩
  · have hstays : ∀ y ∈ ys.getLast?, InOrder mmioOperationCompare y r := by
      intro y hy
      have hmem := List.mem_of_getLast? hy
      exact inOrder_of_le (h.ok y (by simp [hmem])) hr (hys y hmem)
    have hdone := sort_append h.inOrder hmoves hstays
    rw [List.nil_append] at hsort
    cases hsort.symm.trans hdone
    exact ⟨ys, above, rfl, rfl, hys, habove⟩
  · -- the last region that begins below the end of the new one overlaps it in part
    exfalso
    rw [List.concat_eq_append] at h hsort hover hnew
    obtain ⟨hlow, hhigh⟩ := hover a (by simp)
    have hpart : mmioOperationCompare a r = none :=
      mmioOperationCompare_eq_none (h.ok a (by simp)) hr hlow hhigh (hnew a (by simp))
    have hsplit : ys ++ (as ++ [a] ++ above) = ys ++ as ++ a :: above := by simp
    rw [hsplit] at h hsort
    rw [sort_append_eq_none h.inOrder hmoves hpart] at hsort
    cases hsort

/-- The table after a registration that put the region between the others. -/
theorem RegionsOk.insert {ys zs : List (MmioRegion D)} (h : RegionsOk (ys ++ zs)) (hr : r.Ok)
    (hys : ∀ y ∈ ys, y.addrHigh ≤ r.addrLow) (hzs : ∀ z ∈ zs, r.addrHigh ≤ z.addrLow) :
    RegionsOk (ys ++ r :: zs) := by
  obtain ⟨hleft, hright, hsep⟩ := List.pairwise_append.1 h.sorted
  refine ⟨List.pairwise_append.2 ⟨hleft, .cons hzs hright, ?_⟩, ?_⟩
  · intro y hy z hz
    rcases List.mem_cons.1 hz with rfl | hz
    · exact hys y hy
    · exact hsep y hy z hz
  · intro x hx
    have hcases : x = r ∨ x ∈ ys ++ zs := by
      simp only [List.mem_append, List.mem_cons] at hx ⊢
      tauto
    rcases hcases with rfl | hx
    · exact hr
    · exact h.ok x hx

/-- **Registrations that return**, none of a region that encloses an earlier one, lead to a table in
order that holds them all. -/
theorem regionsOk_of_enclosesNone (hok : ∀ op ∈ ops, op.Ok) (hnone : EnclosesNone ops)
    (hreg : ops.foldlM registerMmioOperation [] = some xs) : RegionsOk xs ∧ xs.Perm ops := by
  induction ops using List.reverseRecOn generalizing xs with
  | nil =>
    cases hreg
    exact ⟨⟨.nil, by simp⟩, .nil⟩
  | append_singleton ops r ih =>
    rw [List.foldlM_append] at hreg
    obtain ⟨xs₁, hreg₁, hstep⟩ := Option.bind_eq_some_iff.1 hreg
    rw [EnclosesNone, List.pairwise_append] at hnone
    obtain ⟨hok₁, hperm⟩ := ih (fun op hop => hok op (by simp [hop])) hnone.1 hreg₁
    have hr := hok r (by simp)
    have hnew : ∀ x ∈ xs₁, ¬ r.Encloses x := fun x hx =>
      hnone.2.2 x (hperm.mem_iff.1 hx) r (by simp)
    have hone : registerMmioOperation xs₁ r = some xs := by
      simpa using hstep
    obtain ⟨ys, zs, rfl, rfl, hys, hzs⟩ := hok₁.registerMmioOperation hr hnew hone
    refine ⟨hok₁.insert hr hys hzs, ?_⟩
    exact (List.perm_middle.trans (hperm.cons r)).trans (List.perm_append_singleton r ops).symm

/-- **The lookup**, in a table in order of all registrations. -/
theorem RegionsOk.mmioCallback (h : RegionsOk xs) (hperm : xs.Perm ops) (hg : g < 2 ^ 64 - 1) :
    ∃ o, mmioCallback xs g = some o ∧ ∀ op, o = some op ↔ op ∈ ops ∧ op.Contains g := by
  rw [ZeldaOS.mmioCallback]
  rcases h.search hg with ⟨hs, hout⟩ | ⟨i, x, hs, hx, hin⟩
  · refine ⟨none, by rw [hs]; rfl, fun op => ?_⟩
    simp only [reduceCtorEq, false_iff, not_and]
    exact fun hop => hout op (hperm.mem_iff.2 hop)
  · refine ⟨some x, by rw [hs, Option.map_some, Option.bind_some, hx], fun op => ?_⟩
    have hmem := List.mem_of_getElem? hx
    rw [Option.some.injEq]
    constructor
    · rintro rfl
      exact ⟨hperm.mem_iff.1 hmem, hin⟩
    · -- two regions of the table with a common address are one
      rintro ⟨hop, hin'⟩
      by_contra hne
      exact h.apart.forall hmem (hperm.mem_iff.2 hop) hne g ⟨hin, hin'⟩

/-- **The MMIO registry is a partial map over disjoint regions exactly while no region encloses an
earlier one.** For registrations that all return: the regions are disjoint and the lookup of every
address gives the operation whose region contains it, or none, if and only if no region includes one
that was registered before it. -/
theorem mmio_registry_iff {D : Type} {ops xs : List (MmioRegion D)} (hok : ∀ op ∈ ops, op.Ok)
    (hreg : ops.foldlM registerMmioOperation [] = some xs) :
    (ops.Pairwise MmioRegion.Apart ∧ ∀ g < 2 ^ 64 - 1, ∃ o, mmioCallback xs g = some o ∧
      ∀ op, o = some op ↔ op ∈ ops ∧ op.Contains g) ↔ EnclosesNone ops := by
  constructor
  · rintro ⟨hapart, -⟩
    refine hapart.imp_of_mem fun {old new} hold hnew h henc => ?_
    -- the lowest address of the old region is in both
    have := (hok old hold).low_lt
    exact h old.addrLow ⟨⟨Nat.le_refl _, this⟩, henc.1, Nat.lt_of_lt_of_le this henc.2⟩
  · intro hnone
    obtain ⟨hxs, hperm⟩ := regionsOk_of_enclosesNone hok hnone hreg
    refine ⟨?_, fun g hg => hxs.mmioCallback hperm hg⟩
    exact (hperm.pairwise_iff fun h => Std.Symm.symm _ _ h).1 hxs.apart

/-- Two registrations of neighbours. -/
def neighbours : List (MmioRegion Unit) :=
  [{ addrLow := 0x2000, addrHigh := 0x3000 }, { addrLow := 0x1000, addrHigh := 0x2000 }]

/-- Two regions side by side. -/
theorem mmio_registry_iff_sample : ∃ xs, neighbours.foldlM registerMmioOperation [] = some xs ∧
    ∃ o, mmioCallback xs 0x1fff = some o ∧
      ∀ op, o = some op ↔ op ∈ neighbours ∧ op.Contains 0x1fff := by
  have hok : ∀ op ∈ neighbours, op.Ok := by
    intro op hop
    simp only [neighbours, List.mem_cons, List.not_mem_nil, or_false] at hop
    rcases hop with rfl | rfl <;> exact ⟨by decide, by decide⟩
  have hreg : (neighbours.foldlM registerMmioOperation []).map (·.map (·.addrLow)) =
      some [0x1000, 0x2000] := by decide +kernel
  obtain ⟨xs, hxs, -⟩ := Option.map_eq_some_iff.1 hreg
  have hnone : EnclosesNone neighbours := by
    simp [EnclosesNone, neighbours, MmioRegion.Encloses]
  exact ⟨xs, hxs, ((mmio_registry_iff hok hxs).2 hnone).2 0x1fff (by decide)⟩

/-- A region, and one that encloses it. -/
def enclosing : List (MmioRegion Unit) :=
  [{ addrLow := 0x2000, addrHigh := 0x3000 }, { addrLow := 0x1000, addrHigh := 0x4000 }]

/-- The second registration finds 0x1000 free and is accepted: the two regions overlap. -/
theorem mmio_enclosing_accepted : (∀ op ∈ enclosing, op.Ok) ∧
    (∃ xs, enclosing.foldlM registerMmioOperation [] = some xs) ∧
      ¬ enclosing.Pairwise MmioRegion.Apart := by
  refine ⟨?_, ?_, ?_⟩
  · intro op hop
    simp only [enclosing, List.mem_cons, List.not_mem_nil, or_false] at hop
    rcases hop with rfl | rfl <;> exact ⟨by decide, by decide⟩
  · have hreg : (enclosing.foldlM registerMmioOperation []).map (·.map (·.addrLow)) =
        some [0x2000, 0x1000] := by decide +kernel
    obtain ⟨xs, hxs, -⟩ := Option.map_eq_some_iff.1 hreg
    exact ⟨xs, hxs⟩
  · intro h
    refine (List.pairwise_cons.1 h).1 _ (List.mem_singleton.2 rfl) 0x2500 ?_
    simp [MmioRegion.Contains]

end

end ZeldaOS
