import Mathlib.Data.Set.Insert
import ZeldaOS.Lib.Memory

/-!
# Radix trees of table pages

A radix tree is a tree of tables in a memory. A table is one page of 512 entries of 8 bytes, and a
reading `child : Nat → Option Nat` of an entry's word gives the table the entry points to, if any.
A table is named by its path from the root, the innermost index first, and `tableAt` computes its
address by walking the memory; `entryAt` is the word of an entry.

`Tables child m base depth used` is the invariant of a tree of `depth` levels: its tables are
distinct pages of `used`. Under it the three things a program does to such a tree have local
effects: linking a fresh zeroed page under an empty entry adds that one table (`Tables.link`),
storing a word in an entry that points to no table changes that one entry (`Tables.store`), and a
change outside the pages of `used` is not seen (`Tables.frame`).
-/

namespace ZeldaOS

/-- A path from the root of a tree, the innermost index first. -/
abbrev Path := List (Fin 512)

section
variable (child : Nat → Option Nat)

/-- The address of the table at a path. -/
def tableAt (m : Memory) (base : Nat) : Path → Option Nat
  | [] => some base
  | i :: p => (tableAt m base p).bind fun a => child (m.read (a + 8 * i) 8)

/-- The word of the entry at a path. -/
def entryAt (m : Memory) (base : Nat) : Path → Option Nat
  | [] => none
  | i :: p => (tableAt child m base p).map fun a => m.read (a + 8 * i) 8

/-- The tables of a tree of `depth` levels are distinct aligned pages of `used`. -/
structure Tables (m : Memory) (base depth : Nat) (used : Set Nat) : Prop where
  aligned : ∀ a ∈ used, a % 4096 = 0
  mem_used : ∀ p a, p.length < depth → tableAt child m base p = some a → a ∈ used
  inj : ∀ p q a, p.length < depth → q.length < depth → tableAt child m base p = some a →
    tableAt child m base q = some a → p = q

end

/-- `m'` is `m` with the page at `b` zeroed and the entry at `e` overwritten. -/
structure Links (m m' : Memory) (e b : Nat) : Prop where
  zero : ∀ x, b ≤ x → x < b + 4096 → m' x = 0
  frame : ∀ x, x < e ∨ e + 8 ≤ x → x < b ∨ b + 4096 ≤ x → m' x = m x

/-- `m'` is `m` with the entry at `e` overwritten. -/
def Stores (m m' : Memory) (e : Nat) : Prop := ∀ x, x < e ∨ e + 8 ≤ x → m' x = m x

section
variable {child : Nat → Option Nat} {m m' : Memory} {base depth a b : Nat} {used : Set Nat}
  {p q : Path} {i j : Fin 512}

/-- The root. -/
@[simp] theorem tableAt_nil : tableAt child m base [] = some base := rfl

/-- A table is the child of the entry above it. -/
theorem tableAt_cons :
    tableAt child m base (i :: p) = (entryAt child m base (i :: p)).bind child := by
  simp only [tableAt, entryAt]
  cases tableAt child m base p with
  | none => rw [Option.bind_none, Option.map_none, Option.bind_none]
  | some a => rw [Option.bind_some, Option.map_some, Option.bind_some]

/-- An entry is in the table above it, -/
theorem entryAt_cons_of_some (h : tableAt child m base p = some a) :
    entryAt child m base (i :: p) = some (m.read (a + 8 * i) 8) := by
  rw [entryAt, h, Option.map_some]

/-- and its child is the table below. -/
theorem tableAt_cons_of_some (h : tableAt child m base p = some a) :
    tableAt child m base (i :: p) = child (m.read (a + 8 * i) 8) := by
  rw [tableAt, h, Option.bind_some]

/-- Where there is no table there is none below, -/
theorem tableAt_cons_of_none (h : tableAt child m base p = none) :
    tableAt child m base (i :: p) = none := by
  rw [tableAt, h, Option.bind_none]

/-- and no entry. -/
theorem entryAt_cons_of_none (h : tableAt child m base p = none) :
    entryAt child m base (i :: p) = none := by
  rw [entryAt, h, Option.map_none]

/-- The table above a table. -/
theorem exists_tableAt_of_cons (h : tableAt child m base (i :: p) = some a) :
    ∃ a', tableAt child m base p = some a' := by
  rw [tableAt, Option.bind_eq_some_iff] at h
  obtain ⟨a', ha, -⟩ := h
  exact ⟨a', ha⟩

/-- An entry under a missing table is not one of an existing table. -/
theorem cons_ne_of_none (ha : tableAt child m base p = some a)
    (hc : tableAt child m base q = none) : j :: q ≠ i :: p := by
  rintro heq
  cases heq
  rw [ha] at hc
  cases hc

/-- Two entries of aligned pages are the same entry or do not overlap. -/
theorem entry_eq_or_disjoint {a b : Nat} (ha : a % 4096 = 0) (hb : b % 4096 = 0) (i j : Fin 512) :
    (a = b ∧ i = j) ∨ a + 8 * i + 8 ≤ b + 8 * j ∨ b + 8 * j + 8 ≤ a + 8 * i := by
  rcases i with ⟨i, hi⟩
  rcases j with ⟨j, hj⟩
  simp only [Fin.mk.injEq]
  omega

/-- An entry of an aligned page does not overlap another aligned page. -/
theorem entry_page_disjoint {a b : Nat} (ha : a % 4096 = 0) (hb : b % 4096 = 0) (hne : a ≠ b)
    (i : Fin 512) : a + 8 * i + 8 ≤ b ∨ b + 4096 ≤ a + 8 * i := by
  rcases i with ⟨i, hi⟩
  dsimp only
  omega

/-- Writing a word stores it. -/
theorem stores_write (m : Memory) (e w : Nat) : Stores m (m.write e 8 w) e :=
  fun _ hx => Memory.write_apply_of_not_mem hx

/-- Zeroing a page and then writing an entry outside it links the page. -/
theorem links_fill_write {e : Nat} (w : Nat) (hd : e + 8 ≤ b ∨ b + 4096 ≤ e) :
    Links m ((m.fill b 4096 0).write e 8 w) e b := by
  refine ⟨fun x h₁ h₂ => ?_, fun x h₁ h₂ => ?_⟩
  · rw [Memory.write_apply_of_not_mem (by omega), Memory.fill_apply_of_mem h₁ h₂]
  · rw [Memory.write_apply_of_not_mem h₁, Memory.fill_apply_of_not_mem h₂]

/-! ## The empty tree -/

section
variable (hz : ∀ x, base ≤ x → x < base + 4096 → m x = 0) (hc : child 0 = none)
include hz

/-- The entries of an empty root are 0. -/
theorem entryAt_of_zero (j : Fin 512) : entryAt child m base [j] = some 0 := by
  rw [entryAt_cons_of_some tableAt_nil]
  exact congrArg some (Memory.read_eq_zero fun x h₁ h₂ => hz x (by omega) (by omega))

include hc

/-- The root of an empty tree is its only table. -/
theorem tableAt_cons_of_zero (j : Fin 512) : ∀ q : Path, tableAt child m base (j :: q) = none
  | [] => by rw [tableAt_cons, entryAt_of_zero hz, Option.bind_some, hc]
  | i :: q => tableAt_cons_of_none (tableAt_cons_of_zero i q)

/-- An empty root is the only table. -/
theorem tableAt_of_zero {q : Path} (hq : tableAt child m base q = some a) :
    q = [] ∧ a = base := by
  cases q with
  | nil => exact ⟨rfl, (Option.some.inj hq).symm⟩
  | cons j q =>
    rw [tableAt_cons_of_zero hz hc] at hq
    cases hq

/-- **A zeroed page is an empty tree.** -/
theorem Tables.of_zero (hal : base % 4096 = 0) : Tables child m base depth {base} := by
  refine ⟨fun b hb => ?_, fun q b _ hq => (tableAt_of_zero hz hc hq).2, fun q r b _ _ hq hr => ?_⟩
  · rw [Set.mem_singleton_iff.1 hb, hal]
  · rw [(tableAt_of_zero hz hc hq).1, (tableAt_of_zero hz hc hr).1]

end

/-! ## Frame -/

/-- A change outside the pages of `used` is not seen by the walk. -/
theorem Tables.tableAt_congr (h : Tables child m base depth used)
    (hm : ∀ a ∈ used, Memory.AgreeOn m' m a 4096) :
    ∀ {q : Path}, q.length < depth → tableAt child m' base q = tableAt child m base q
  | [], _ => rfl
  | i :: p, hq => by
    have hp : p.length < depth := by simp only [List.length_cons] at hq; omega
    have ih := h.tableAt_congr hm hp
    cases hc : tableAt child m base p with
    | none => rw [tableAt_cons_of_none hc, tableAt_cons_of_none (ih.trans hc)]
    | some c =>
      rw [tableAt_cons_of_some hc, tableAt_cons_of_some (ih.trans hc),
        Memory.read_congr ((hm c (h.mem_used p c hp hc)).mono (by omega) (by omega))]

/-- A change outside the pages of `used` is not seen in an entry. -/
theorem Tables.entryAt_congr (h : Tables child m base depth used)
    (hm : ∀ a ∈ used, Memory.AgreeOn m' m a 4096) {q : Path} (hq : q.length ≤ depth) :
    entryAt child m' base q = entryAt child m base q := by
  cases q with
  | nil => rfl
  | cons i p =>
    simp only [List.length_cons] at hq
    have ht := h.tableAt_congr hm (q := p) (by omega)
    cases hc : tableAt child m base p with
    | none => rw [entryAt_cons_of_none hc, entryAt_cons_of_none (ht.trans hc)]
    | some c =>
      rw [entryAt_cons_of_some hc, entryAt_cons_of_some (ht.trans hc),
        Memory.read_congr ((hm c (h.mem_used p c (by omega) hc)).mono (by omega) (by omega))]

/-- **Frame.** A change outside the pages of `used` keeps the tree. -/
theorem Tables.frame (h : Tables child m base depth used)
    (hm : ∀ a ∈ used, Memory.AgreeOn m' m a 4096) : Tables child m' base depth used := by
  refine ⟨h.aligned, fun p a hp ht => ?_, fun p q a hp hq ht ht' => ?_⟩
  · rw [h.tableAt_congr hm hp] at ht
    exact h.mem_used p a hp ht
  · rw [h.tableAt_congr hm hp] at ht
    rw [h.tableAt_congr hm hq] at ht'
    exact h.inj p q a hp hq ht ht'

/-! ## Storing a word in an entry -/

/-- The entries of a tree after a store: only the stored one changes. -/
theorem Tables.read_store (h : Tables child m base depth used) (hp : p.length < depth)
    (ha : tableAt child m base p = some a) (hs : Stores m m' (a + 8 * i)) (hq : q.length < depth)
    {c : Nat} (hc : tableAt child m base q = some c) (hne : j :: q ≠ i :: p) :
    m'.read (c + 8 * j) 8 = m.read (c + 8 * j) 8 := by
  have hca := h.aligned c (h.mem_used q c hq hc)
  have haa := h.aligned a (h.mem_used p a hp ha)
  refine Memory.read_congr fun x h₁ h₂ => hs x ?_
  rcases entry_eq_or_disjoint hca haa j i with ⟨rfl, rfl⟩ | hd | hd
  · exact absurd (by rw [h.inj q p c hq hp hc ha]) hne
  · omega
  · omega

/-- Storing a word in an entry that points to no table, before or after, keeps every table. The
entries of the last level are not read as pointers. -/
theorem Tables.tableAt_store (h : Tables child m base depth used) (hp : p.length < depth)
    (ha : tableAt child m base p = some a) (hs : Stores m m' (a + 8 * i))
    (hleaf : p.length + 1 < depth → child (m.read (a + 8 * i) 8) = none ∧
      child (m'.read (a + 8 * i) 8) = none) :
    ∀ {q : Path}, q.length < depth → tableAt child m' base q = tableAt child m base q
  | [], _ => rfl
  | j :: q, hq => by
    simp only [List.length_cons] at hq
    have ih := h.tableAt_store hp ha hs hleaf (q := q) (by omega)
    cases hc : tableAt child m base q with
    | none => rw [tableAt_cons_of_none hc, tableAt_cons_of_none (ih.trans hc)]
    | some c =>
      rw [tableAt_cons_of_some hc, tableAt_cons_of_some (ih.trans hc)]
      by_cases heq : j :: q = i :: p
      · cases heq
        cases ha.symm.trans hc
        obtain ⟨h₁, h₂⟩ := hleaf hq
        rw [h₁, h₂]
      · rw [h.read_store hp ha hs (by omega) hc heq]

/-- The entries after a store. -/
theorem Tables.entryAt_store (h : Tables child m base depth used) (hp : p.length < depth)
    (ha : tableAt child m base p = some a) (hs : Stores m m' (a + 8 * i))
    (hleaf : p.length + 1 < depth → child (m.read (a + 8 * i) 8) = none ∧
      child (m'.read (a + 8 * i) 8) = none) (hq : q.length ≤ depth) :
    entryAt child m' base q = if q = i :: p then some (m'.read (a + 8 * i) 8)
      else entryAt child m base q := by
  cases q with
  | nil => rfl
  | cons j q =>
    simp only [List.length_cons] at hq
    have ht := h.tableAt_store hp ha hs hleaf (q := q) (by omega)
    cases hc : tableAt child m base q with
    | none =>
      rw [if_neg (cons_ne_of_none ha hc), entryAt_cons_of_none hc,
        entryAt_cons_of_none (ht.trans hc)]
    | some c =>
      rw [entryAt_cons_of_some hc, entryAt_cons_of_some (ht.trans hc)]
      split
      · next heq =>
        cases heq
        cases ha.symm.trans hc
        rfl
      · next hne => rw [h.read_store hp ha hs (by omega) hc hne]

/-- **Store.** The tree keeps its tables. -/
theorem Tables.store (h : Tables child m base depth used) (hp : p.length < depth)
    (ha : tableAt child m base p = some a) (hs : Stores m m' (a + 8 * i))
    (hleaf : p.length + 1 < depth → child (m.read (a + 8 * i) 8) = none ∧
      child (m'.read (a + 8 * i) 8) = none) : Tables child m' base depth used := by
  refine ⟨h.aligned, fun q c hq hc => ?_, fun q r c hq hr hc hc' => ?_⟩
  · rw [h.tableAt_store hp ha hs hleaf hq] at hc
    exact h.mem_used q c hq hc
  · rw [h.tableAt_store hp ha hs hleaf hq] at hc
    rw [h.tableAt_store hp ha hs hleaf hr] at hc'
    exact h.inj q r c hq hr hc hc'

/-! ## Linking a fresh page -/

/-- The premises of linking the fresh page `b` under the empty entry `i` of the table `a` at `p`. -/
structure Linkable (child : Nat → Option Nat) (m m' : Memory) (base depth : Nat) (used : Set Nat)
    (p : Path) (a : Nat) (i : Fin 512) (b : Nat) : Prop where
  tables : Tables child m base depth used
  length : p.length + 1 < depth
  table : tableAt child m base p = some a
  empty : child (m.read (a + 8 * i) 8) = none
  fresh : b ∉ used
  aligned : b % 4096 = 0
  links : Links m m' (a + 8 * i) b
  entry : child (m'.read (a + 8 * i) 8) = some b
  zero : child 0 = none

namespace Linkable

variable {c : Nat}

/-- The table that gets the link is in use. -/
theorem mem_used (h : Linkable child m m' base depth used p a i b) : a ∈ used :=
  h.tables.mem_used p a (Nat.lt_of_succ_lt h.length) h.table

/-- The new table is empty. -/
theorem read_new (h : Linkable child m m' base depth used p a i b) (j : Fin 512) :
    m'.read (b + 8 * j) 8 = 0 :=
  Memory.read_eq_zero fun x h₁ h₂ => h.links.zero x (by omega) (by omega)

/-- The other entries of the old tables are unchanged. -/
theorem read_old (h : Linkable child m m' base depth used p a i b) (hq : q.length < depth)
    (hc : tableAt child m base q = some c) (hne : j :: q ≠ i :: p) :
    m'.read (c + 8 * j) 8 = m.read (c + 8 * j) 8 := by
  have hcu := h.tables.mem_used q c hq hc
  have hca := h.tables.aligned c hcu
  have hcb : c ≠ b := fun heq => h.fresh (heq ▸ hcu)
  refine Memory.read_congr fun x h₁ h₂ => h.links.frame x ?_ ?_
  · rcases entry_eq_or_disjoint hca (h.tables.aligned a h.mem_used) j i with ⟨rfl, rfl⟩ | hd | hd
    · exact absurd (by rw [h.tables.inj q p c hq (Nat.lt_of_succ_lt h.length) hc h.table]) hne
    · omega
    · omega
  · rcases entry_page_disjoint hca h.aligned hcb j with hd | hd <;> omega

/-- The linked path had no table before. -/
theorem tableAt_old (h : Linkable child m m' base depth used p a i b) :
    tableAt child m base (i :: p) = none := by
  rw [tableAt_cons_of_some h.table, h.empty]

/-- **The tables after a link**: the old ones and the new one. -/
theorem tableAt_eq (h : Linkable child m m' base depth used p a i b) :
    ∀ {q : Path}, q.length < depth →
      tableAt child m' base q = if q = i :: p then some b else tableAt child m base q
  | [], _ => rfl
  | j :: q, hq => by
    simp only [List.length_cons] at hq
    have ih := h.tableAt_eq (q := q) (by omega)
    by_cases hqe : q = i :: p
    · -- an entry of the new table
      have hne : j :: q ≠ i :: p := hqe ▸ List.cons_ne_self j q
      rw [if_pos hqe] at ih
      rw [if_neg hne, tableAt_cons_of_some ih, h.read_new, h.zero, hqe,
        tableAt_cons_of_none h.tableAt_old]
    · rw [if_neg hqe] at ih
      cases hc : tableAt child m base q with
      | none =>
        rw [if_neg (cons_ne_of_none h.table hc), tableAt_cons_of_none hc,
          tableAt_cons_of_none (ih.trans hc)]
      | some c =>
        rw [tableAt_cons_of_some (ih.trans hc)]
        split
        · next heq =>
          cases heq
          cases h.table.symm.trans hc
          exact h.entry
        · next hne => rw [tableAt_cons_of_some hc, h.read_old (by omega) hc hne]

/-- **The entries after a link**: the linking one, the empty ones of the new table, and the old
ones. -/
theorem entryAt_eq (h : Linkable child m m' base depth used p a i b) (hq : q.length ≤ depth) :
    entryAt child m' base q = if q = i :: p then some (m'.read (a + 8 * i) 8)
      else if q.tail = i :: p then some 0 else entryAt child m base q := by
  cases q with
  | nil => rfl
  | cons j q =>
    simp only [List.length_cons] at hq
    have ht := h.tableAt_eq (q := q) (by omega)
    by_cases hqe : q = i :: p
    · have hne : j :: q ≠ i :: p := hqe ▸ List.cons_ne_self j q
      rw [if_pos hqe] at ht
      rw [if_neg hne, List.tail_cons, if_pos hqe, entryAt_cons_of_some ht, h.read_new]
    · rw [if_neg hqe] at ht
      rw [List.tail_cons, if_neg hqe]
      cases hc : tableAt child m base q with
      | none =>
        rw [if_neg (cons_ne_of_none h.table hc), entryAt_cons_of_none hc,
          entryAt_cons_of_none (ht.trans hc)]
      | some c =>
        rw [entryAt_cons_of_some hc, entryAt_cons_of_some (ht.trans hc)]
        split
        · next heq =>
          cases heq
          cases h.table.symm.trans hc
          rfl
        · next hne => rw [h.read_old (by omega) hc hne]

/-- **Link.** The tree grows by the fresh page. -/
theorem tables' (h : Linkable child m m' base depth used p a i b) :
    Tables child m' base depth (insert b used) := by
  have hnew : ∀ {q c}, q.length < depth → tableAt child m base q = some c → c ≠ b :=
    fun hq hc heq => h.fresh (heq ▸ h.tables.mem_used _ _ hq hc)
  refine ⟨fun c hc => ?_, fun q c hq hc => ?_, fun q r c hq hr hc hc' => ?_⟩
  · rcases hc with rfl | hc
    · exact h.aligned
    · exact h.tables.aligned c hc
  · rw [h.tableAt_eq hq] at hc
    split at hc
    · cases hc
      exact .inl rfl
    · exact .inr (h.tables.mem_used q c hq hc)
  · rw [h.tableAt_eq hq] at hc
    rw [h.tableAt_eq hr] at hc'
    split at hc <;> split at hc'
    · next h₁ h₂ => rw [h₁, h₂]
    · cases hc
      exact absurd rfl (hnew hr hc')
    · cases hc'
      exact absurd rfl (hnew hq hc)
    · exact h.tables.inj q r c hq hr hc hc'

end Linkable

end

end ZeldaOS
