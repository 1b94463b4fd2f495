import Mathlib.Data.List.Dedup
import ZeldaOS.Lib64.Search
import ZeldaOS.Lib64.Sort
import ZeldaOS.Memory.PhysicalMemory

/-!
# The registry of the IO ports

Model of the registry of `vm_monitor/vmx_pio.c`: the table `portio_ops[0..nr_ports)` as a list, the
lookup by binary search, and the registration, which overwrites the operation of a registered port
and otherwise appends and sorts.

Tables stay in the order of their ports (`PortsOk`). On such a table a registration puts the
operation at its place (`Puts`), and the lookup finds it there. So the registry is a finite map with
overwrite (`pio_registry_correct`).
-/

namespace ZeldaOS

/-- An operation: a port and its callbacks, of which any may be missing. -/
structure PortioOperation (F : Type*) where
  portid : Nat
  callInb : Option F := none
  callInw : Option F := none
  callInl : Option F := none
  callOutb : Option F := none
  callOutw : Option F := none
  callOutl : Option F := none

/-- `MAX_PORTS_SUPPORTED`. -/
def maxPortsSupported : Nat := 256

section
variable {F : Type*}

/-- `port_ops_compare`, a difference of `uint32_t` returned as an `int`. -/
def portOpsCompare (port1 port2 : PortioOperation F) : Option Int :=
  some (int32 ((port1.portid : Int) - port2.portid))

/-- `search_portio_callback`, with the index of the operation it points to. -/
def searchPortioCallback (portioOps : List (PortioOperation F)) (portId : Nat) :
    Option (Option Nat) :=
  search portOpsCompare portioOps { portid := portId }

/-- The operation a lookup points to. -/
def portioCallback (portioOps : List (PortioOperation F)) (portId : Nat) :
    Option (Option (PortioOperation F)) :=
  (searchPortioCallback portioOps portId).map fun r => r.bind fun i => portioOps[i]?

/-- `register_pio_operation`. -/
def registerPioOperation (portioOps : List (PortioOperation F)) (pio : PortioOperation F) :
    Option (List (PortioOperation F)) :=
  (searchPortioCallback portioOps pio.portid).bind fun
    | some i =>
      if (portioOps[i]?).map (·.portid) = some pio.portid then some (portioOps.set i pio) else none
    | none =>
      if portioOps.length < maxPortsSupported then
        (sort portOpsCompare (portioOps ++ [pio])).bind fun sorted =>
          (portioCallback sorted pio.portid).bind fun pioFound =>
            if pioFound.map (·.portid) = some pio.portid then some sorted else none
      else none

/-- A table in the order of its ports, all of 16 bits. -/
structure PortsOk (xs : List (PortioOperation F)) : Prop where
  sorted : xs.Pairwise fun x y => x.portid < y.portid
  lt : ∀ x ∈ xs, x.portid < 2 ^ 16

/-- The table `xs'` is `xs` with `pio` at its place. -/
def Puts (pio : PortioOperation F) (xs xs' : List (PortioOperation F)) : Prop :=
  ∃ ys old zs, xs = ys ++ old ++ zs ∧ xs' = ys ++ pio :: zs ∧
    (∀ y ∈ ys, y.portid < pio.portid) ∧ (∀ x ∈ old, x.portid = pio.portid) ∧
    ∀ z ∈ zs, pio.portid < z.portid

/-- The most recent registration of a port. -/
def lastRegistered (ops : List (PortioOperation F)) (p : Nat) : Option (PortioOperation F) :=
  ops.reverse.find? fun op => op.portid = p

end

section
variable {F : Type*} {x y pio : PortioOperation F} {xs xs' ops : List (PortioOperation F)} {p : Nat}

/-- The comparison is the difference of the ports. -/
theorem portOpsCompare_eq (hx : x.portid < 2 ^ 16) (hy : y.portid < 2 ^ 16) :
    portOpsCompare x y = some ((x.portid : Int) - y.portid) := by
  rw [portOpsCompare, int32, Int.bmod_eq_of_le (by omega) (by omega)]

/-- The registered ports are in order for the search, -/
theorem PortsOk.inOrder (h : PortsOk xs) : xs.Pairwise (InOrder portOpsCompare) := by
  refine h.sorted.imp_of_mem fun hx hy hlt => ?_
  exact ⟨_, portOpsCompare_eq (h.lt _ hx) (h.lt _ hy), by omega⟩

/-- each of them once. -/
theorem PortsOk.nodup (h : PortsOk xs) : (xs.map (·.portid)).Nodup :=
  List.pairwise_map.2 (h.sorted.imp fun hlt => Nat.ne_of_lt hlt)

/-- A table holds what a lookup in it by port finds. -/
theorem PortsOk.find?_eq_some (h : PortsOk xs) :
    xs.find? (fun x => x.portid = p) = some x ↔ x ∈ xs ∧ x.portid = p := by
  constructor
  · intro hx
    exact ⟨List.mem_of_find?_eq_some hx, by simpa using List.find?_some hx⟩
  · rintro ⟨hmem, heq⟩
    obtain ⟨x', hx'⟩ : ∃ x', xs.find? (fun x => x.portid = p) = some x' :=
      Option.isSome_iff_exists.1 (by simpa using ⟨x, hmem, heq⟩)
    have hport : x'.portid = p := by simpa using List.find?_some hx'
    rw [hx', List.inj_on_of_nodup_map h.nodup (List.mem_of_find?_eq_some hx') hmem
      (hport.trans heq.symm)]

/-- **The search** points to the operation of the port. -/
theorem PortsOk.search (h : PortsOk xs) (hp : p < 2 ^ 16) :
    (searchPortioCallback xs p = some none ∧ ∀ x ∈ xs, x.portid ≠ p) ∨
      ∃ i x, searchPortioCallback xs p = some (some i) ∧ xs[i]? = some x ∧ x.portid = p := by
  have hmono : MonotoneFor portOpsCompare xs { portid := p } fun x => (p : Int) - x.portid := by
    refine ⟨fun x hx => portOpsCompare_eq hp (h.lt x hx), h.sorted.imp fun hlt => ?_⟩
    omega
  have hzero : ∀ x : PortioOperation F, (p : Int) - x.portid = 0 ↔ x.portid = p := by
    intro x
    omega
  obtain ⟨r, hr, hres⟩ := search_spec hmono
  cases r with
  | none => exact .inl ⟨hr, fun x hx heq => hres x hx ((hzero x).2 heq)⟩
  | some i =>
    obtain ⟨x, hx, heq⟩ := hres
    exact .inr ⟨i, x, hr, hx, (hzero x).1 heq⟩

/-- **The lookup** gives the operation of the port. -/
theorem PortsOk.portioCallback (h : PortsOk xs) (hp : p < 2 ^ 16) :
    portioCallback xs p = some (xs.find? fun x => x.portid = p) := by
  rw [ZeldaOS.portioCallback]
  rcases h.search hp with ⟨hr, hnone⟩ | ⟨i, x, hr, hx, heq⟩
  · rw [hr, Option.map_some, Option.bind_none, eq_comm, Option.some.injEq, List.find?_eq_none]
    simpa using hnone
  · rw [hr, Option.map_some, Option.bind_some, hx,
      h.find?_eq_some.2 ⟨List.mem_of_getElem? hx, heq⟩]

/-! ## Registration -/

/-- A registration keeps them so. -/
theorem Puts.portsOk (h : Puts pio xs xs') (hxs : PortsOk xs) (hpio : pio.portid < 2 ^ 16) :
    PortsOk xs' := by
  obtain ⟨ys, old, zs, rfl, rfl, hys, -, hzs⟩ := h
  refine ⟨?_, ?_⟩
  · obtain ⟨hleft, hright, hsep⟩ := List.pairwise_append.1 hxs.sorted
    refine List.pairwise_append.2 ⟨(List.pairwise_append.1 hleft).1, .cons hzs hright, ?_⟩
    intro y hy z hz
    rcases List.mem_cons.1 hz with rfl | hz
    · exact hys y hy
    · exact hsep y (by simp [hy]) z hz
  · intro x hx
    rcases List.mem_append.1 hx with hx | hx
    · exact hxs.lt x (by simp [hx])
    · rcases List.mem_cons.1 hx with rfl | hx
      · exact hpio
      · exact hxs.lt x (by simp [hx])

/-- A registration is seen by the lookups of its port and by no other. -/
theorem Puts.find? (h : Puts pio xs xs') (p : Nat) :
    xs'.find? (fun x => x.portid = p) =
      if pio.portid = p then some pio else xs.find? fun x => x.portid = p := by
  obtain ⟨ys, old, zs, rfl, rfl, hys, hold, -⟩ := h
  split
  · next heq =>
    have hnone : ys.find? (fun x => x.portid = p) = none := by
      rw [List.find?_eq_none]
      intro y hy
      have := hys y hy
      simp only [decide_eq_true_iff]
      omega
    rw [List.find?_append, hnone, Option.none_or, List.find?_cons_of_pos (by simp [heq])]
  · next hne =>
    have hnone : old.find? (fun x => x.portid = p) = none := by
      rw [List.find?_eq_none]
      intro x hx
      rw [hold x hx]
      simpa using hne
    rw [List.append_assoc, List.find?_append, List.find?_append, List.find?_append, hnone,
      Option.none_or, List.find?_cons_of_neg (by simpa using hne)]

/-- The ports of the table are old ones and the new one. -/
theorem Puts.subset (h : Puts pio xs xs') : xs' ⊆ pio :: xs := by
  obtain ⟨ys, old, zs, rfl, rfl, -⟩ := h
  intro x hx
  simp only [List.mem_append, List.mem_cons] at hx ⊢
  tauto

/-- A table is cut at any port. -/
theorem PortsOk.exists_cut (h : PortsOk xs) (p : Nat) :
    ∃ ys zs, xs = ys ++ zs ∧ (∀ y ∈ ys, y.portid < p) ∧ ∀ z ∈ zs, p ≤ z.portid := by
  obtain ⟨ys, zs, heq, hys, hzs⟩ := exists_cut_of_pairwise (p := fun x => x.portid < p) h.sorted
    fun x y hlt hy => Nat.lt_trans hlt hy
  exact ⟨ys, zs, heq, hys, fun z hz => Nat.le_of_not_lt (hzs z hz)⟩

/-- The overwrite: the operation at the index is the one of the port. -/
theorem PortsOk.puts_set (h : PortsOk xs) {i : Nat} (hx : xs[i]? = some x)
    (heq : x.portid = pio.portid) : Puts pio xs (xs.set i pio) := by
  obtain ⟨ys, zs, rfl, rfl⟩ : ∃ ys zs, xs = ys ++ x :: zs ∧ i = ys.length := by
    obtain ⟨hi, rfl⟩ := List.getElem?_eq_some_iff.1 hx
    exact ⟨xs.take i, xs.drop (i + 1), by simp, by simp [Nat.le_of_lt hi]⟩
  obtain ⟨-, hright, hsep⟩ := List.pairwise_append.1 h.sorted
  refine ⟨ys, [x], zs, by simp, by simp, ?_, by simpa using heq, ?_⟩
  · intro y hy
    have := hsep y hy x (by simp)
    omega
  · intro z hz
    have := (List.pairwise_cons.1 hright).1 z hz
    omega

/-- The insertion: the sort moves a new port behind the ports below it. -/
theorem PortsOk.puts_sort (h : PortsOk xs) (hpio : pio.portid < 2 ^ 16)
    (hnew : ∀ x ∈ xs, x.portid ≠ pio.portid) :
    ∃ xs', sort portOpsCompare (xs ++ [pio]) = some xs' ∧ Puts pio xs xs' := by
  obtain ⟨ys, zs, rfl, hys, hzs⟩ := h.exists_cut pio.portid
  replace hzs : ∀ z ∈ zs, pio.portid < z.portid := by
    intro z hz
    have := hzs z hz
    have := hnew z (by simp [hz])
    omega
  refine ⟨ys ++ pio :: zs, sort_append h.inOrder ?_ ?_, ys, [], zs, by simp, rfl, hys, by simp, hzs⟩
  · intro z hz
    have := hzs z hz
    exact ⟨_, portOpsCompare_eq (h.lt z (by simp [hz])) hpio, by omega⟩
  · intro y hy
    have hmem := List.mem_of_getLast? hy
    have := hys y hmem
    exact ⟨_, portOpsCompare_eq (h.lt y (by simp [hmem])) hpio, by omega⟩

/-- **A registration** returns, and puts the operation at its place. It needs room for a new port
only. -/
theorem PortsOk.registerPioOperation (h : PortsOk xs) (hpio : pio.portid < 2 ^ 16)
    (hroom : (∀ x ∈ xs, x.portid ≠ pio.portid) → xs.length < maxPortsSupported) :
    ∃ xs', registerPioOperation xs pio = some xs' ∧ Puts pio xs xs' := by
  rw [ZeldaOS.registerPioOperation]
  rcases h.search hpio with ⟨hr, hnew⟩ | ⟨i, x, hr, hx, heq⟩
  · obtain ⟨xs', hsort, hputs⟩ := h.puts_sort hpio hnew
    refine ⟨xs', ?_, hputs⟩
    have hcheck := (hputs.portsOk h hpio).portioCallback hpio
    rw [hputs.find?, if_pos rfl] at hcheck
    simp [hr, hroom hnew, hsort, hcheck]
  · refine ⟨_, ?_, h.puts_set hx heq⟩
    simp [hr, hx, heq]

/-- The last registration of a port counts. -/
theorem lastRegistered_append : lastRegistered (ops ++ [pio]) p =
    if pio.portid = p then some pio else lastRegistered ops p := by
  rw [lastRegistered, List.reverse_append, List.reverse_singleton, List.singleton_append]
  split
  · next heq => rw [List.find?_cons_of_pos (by simpa using heq)]
  · next hne => rw [List.find?_cons_of_neg (by simpa using hne), lastRegistered]

/-- A table with ports among `ports`, but without `p`, has room for `p`. -/
theorem PortsOk.length_lt (h : PortsOk xs) {ports : List Nat} (hsub : xs.map (·.portid) ⊆ ports)
    (hp : p ∈ ports) (hnew : ∀ x ∈ xs, x.portid ≠ p) : xs.length < ports.dedup.length := by
  have hnodup : (p :: xs.map (·.portid)).Nodup := by
    rw [List.nodup_cons]
    exact ⟨by simpa using hnew, h.nodup⟩
  have hsub' : p :: xs.map (·.portid) ⊆ ports.dedup := by
    intro q hq
    rw [List.mem_dedup]
    rcases List.mem_cons.1 hq with rfl | hq
    · exact hp
    · exact hsub hq
  have hle := (hnodup.subperm hsub').length_le
  rw [List.length_cons, List.length_map] at hle
  exact hle

/-- **Any registrations** leave a table in which a port is found as it was registered last. -/
theorem foldlM_registerPioOperation (hports : ∀ op ∈ ops, op.portid < 2 ^ 16)
    (hcount : (ops.map (·.portid)).dedup.length ≤ maxPortsSupported) :
    ∃ xs, ops.foldlM registerPioOperation [] = some xs ∧ PortsOk xs ∧ xs ⊆ ops ∧
      ∀ p, (xs.find? fun x => x.portid = p) = lastRegistered ops p := by
  -- by induction on the registrations made so far
  induction ops using List.reverseRecOn with
  | nil => exact ⟨[], rfl, ⟨.nil, by simp⟩, by simp, fun p => rfl⟩
  | append_singleton ops pio ih =>
    have hpio := hports pio (by simp)
    have hfewer : (ops.map (·.portid)).dedup.length ≤
        ((ops ++ [pio]).map (·.portid)).dedup.length :=
      ((List.nodup_dedup _).subperm fun p hp => by
        rw [List.mem_dedup] at hp ⊢
        simp [hp]).length_le
    obtain ⟨xs, hxs, hok, hsub, hfind⟩ :=
      ih (fun op hop => hports op (by simp [hop])) (hfewer.trans hcount)
    have hroom : (∀ x ∈ xs, x.portid ≠ pio.portid) → xs.length < maxPortsSupported := by
      intro hnew
      have hsub' : xs.map (·.portid) ⊆ (ops ++ [pio]).map (·.portid) :=
        List.map_subset _ (List.Subset.trans hsub (by simp))
      exact (hok.length_lt hsub' (by simp) hnew).trans_le hcount
    obtain ⟨xs', hxs', hputs⟩ := hok.registerPioOperation hpio hroom
    refine ⟨xs', by simp [List.foldlM_append, hxs, hxs'], hputs.portsOk hok hpio, ?_, fun p => ?_⟩
    · intro x hx
      rcases List.mem_cons.1 (hputs.subset hx) with rfl | hx
      · simp
      · simp [hsub hx]
    · rw [hputs.find?, hfind, lastRegistered_append]

/-- Registering consecutive ports, as the devices do. -/
theorem register_consecutive (op : Nat → PortioOperation F) (base n : Nat)
    (hports : ∀ idx, (op idx).portid = base + idx) (hlast : base + n ≤ 2 ^ 16)
    (hn : n ≤ maxPortsSupported) :
    ∃ xs, (List.range n).foldlM (fun xs idx => registerPioOperation xs (op idx)) [] = some xs ∧
      ∀ idx < n, portioCallback xs (base + idx) = some (some (op idx)) := by
  have hlt : ∀ x ∈ (List.range n).map op, x.portid < 2 ^ 16 := by
    intro x hx
    obtain ⟨idx, hidx, rfl⟩ := List.mem_map.1 hx
    rw [List.mem_range] at hidx
    rw [hports]
    omega
  have hcount : (((List.range n).map op).map (·.portid)).dedup.length ≤ maxPortsSupported := by
    refine ((List.dedup_sublist _).length_le).trans ?_
    simpa using hn
  obtain ⟨xs, hxs, hok, hsub, hfind⟩ := foldlM_registerPioOperation hlt hcount
  refine ⟨xs, by rw [← hxs, List.foldlM_map], fun idx hidx => ?_⟩
  have hmem : op idx ∈ ((List.range n).map op).reverse := by
    rw [List.mem_reverse]
    exact List.mem_map_of_mem (List.mem_range.2 hidx)
  obtain ⟨x, hx⟩ : ∃ x, lastRegistered ((List.range n).map op) (base + idx) = some x :=
    Option.isSome_iff_exists.1 (List.find?_isSome.2 ⟨op idx, hmem, by simp [hports]⟩)
  -- no other of the operations has this port
  have hop : x = op idx := by
    obtain ⟨j, -, rfl⟩ := List.mem_map.1 (List.mem_reverse.1 (List.mem_of_find?_eq_some hx))
    have hport : (op j).portid = base + idx := by simpa using List.find?_some hx
    rw [hports] at hport
    rw [Nat.add_left_cancel hport]
  rw [hok.portioCallback (by omega), hfind, hx, hop]

/-- **The port-IO registry is a finite map with overwrite.** However often and in whatever order at
most 256 ports are registered, no assertion fails, the table is strictly increasing in the port, and
the lookup of a port gives the operation of its most recent registration, or none. -/
theorem pio_registry_correct {F : Type*} (ops : List (PortioOperation F))
    (hports : ∀ op ∈ ops, op.portid < 2 ^ 16)
    (hcount : (ops.map (·.portid)).dedup.length ≤ maxPortsSupported) :
    ∃ xs, ops.foldlM registerPioOperation [] = some xs ∧
      xs.Pairwise (fun x y => x.portid < y.portid) ∧
      ∀ p < 2 ^ 16, portioCallback xs p = some (lastRegistered ops p) := by
  obtain ⟨xs, hxs, hok, -, hfind⟩ := foldlM_registerPioOperation hports hcount
  refine ⟨xs, hxs, hok.sorted, fun p hp => ?_⟩
  rw [hok.portioCallback hp, hfind]

/-- A port that is registered twice. -/
theorem pio_registry_correct_sample : ∃ xs : List (PortioOperation Nat),
    [{ portid := 0x43 }, { portid := 0x20 }, { portid := 0x43, callOutb := some 1 }].foldlM
        registerPioOperation [] = some xs ∧
      portioCallback xs 0x43 = some (some { portid := 0x43, callOutb := some 1 }) := by
  obtain ⟨xs, hxs, -, hlookup⟩ := pio_registry_correct (F := Nat)
    [{ portid := 0x43 }, { portid := 0x20 }, { portid := 0x43, callOutb := some 1 }]
    (by simp) (by decide)
  exact ⟨xs, hxs, hlookup 0x43 (by decide)⟩

end

end ZeldaOS
