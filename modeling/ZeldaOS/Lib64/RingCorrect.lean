import ZeldaOS.Lib.Queue
import ZeldaOS.Lib.Run
import ZeldaOS.Lib64.Ring

/-!
# The byte ring is a bounded queue

Any sequence of operations on the ring does what it does on a queue that holds one byte less than
the ring has slots: `Ring.contents` is a simulation of the queue's machine (`Ring.Shows`), operation
by operation and with the same results (`Ring.Shows.step`). The induction of the bulk operations
follows their loops, one byte at a time.

The indices stay below the size, so for sizes up to 2^30 the sums of `ring_length` and `ring_full`
stay below 2^31 and the arithmetic of the source is that of the natural numbers
(`ring_refines_queue`).
-/

namespace ZeldaOS

namespace Ring

/-- `ring_reset`. -/
def ringReset (r : Ring) : Ring := { r with front := 0, rear := 0 }

/-- The operations of the ring. A size that is not positive is one for which the loop of `read_ring`
is not entered. -/
def step (r : Ring) : QueueOp UInt8 → Option (QueueResult UInt8 × Ring)
  | .write w => some (⟨(r.writeRing w).1, []⟩, (r.writeRing w).2)
  | .read size =>
    some (⟨(r.readRing size.toNat).1.length, (r.readRing size.toNat).1⟩, (r.readRing size.toNat).2)
  | .enqueue v => some (⟨(r.ringEnqueue v).1, []⟩, (r.ringEnqueue v).2)
  | .dequeue => some (⟨r.ringDequeue.1.length, r.ringDequeue.1⟩, r.ringDequeue.2)
  | .reset => some (⟨0, []⟩, r.ringReset)

/-- The ring of size `n` holds the queue `q`. -/
structure Shows (n : Nat) (r : Ring) (q : List UInt8) : Prop where
  ok : r.Ok
  size : r.ringSize = n
  contents : r.contents = q

section
variable {n : Nat} {r : Ring} {q : List UInt8}

/-- A ring holds one byte less than it has slots. -/
theorem length_contents_lt (h : r.Ok) : r.contents.length < r.ringSize := by
  rw [Ring.contents, length_slots]
  exact Nat.mod_lt _ (Nat.zero_lt_of_lt h.front_lt)

theorem Shows.put (h : Shows n r q) (v : UInt8) (hfull : r.ringFull = false) :
    Shows n (r.put v) (q ++ [v]) :=
  ⟨h.ok.put v, h.size, (contents_put h.ok v hfull).trans (by rw [h.contents])⟩

/-- **`write_ring`** appends what fits, and counts it. -/
theorem Shows.writeRing {w : List UInt8} (h : Shows n r q) :
    (r.writeRing w).1 = min w.length (n - 1 - q.length) ∧
      Shows n (r.writeRing w).2 (q ++ w.take (min w.length (n - 1 - q.length))) := by
  induction w generalizing r q with
  | nil =>
    rw [Ring.writeRing]
    simpa using h
  | cons v w ih =>
    have hiff := ringFull_iff h.ok
    rw [h.contents, h.size] at hiff
    rw [Ring.writeRing]
    split
    · next hfull =>
      rw [hiff.1 hfull]
      simpa using h
    · next hfull =>
      obtain ⟨hcount, hshows⟩ := ih (h.put v (Bool.eq_false_iff.2 hfull))
      have hlt := length_contents_lt h.ok
      rw [h.contents, h.size] at hlt
      have hroom : q.length ≠ n - 1 := fun heq => hfull (hiff.2 heq)
      have hmin : min (v :: w).length (n - 1 - q.length) =
          min w.length (n - 1 - (q ++ [v]).length) + 1 := by
        simp only [List.length_cons, List.length_append, List.length_nil]
        omega
      rw [hmin, List.take_succ_cons]
      refine ⟨congrArg (· + 1) hcount, ?_⟩
      rw [List.append_cons]
      exact hshows

/-- **`read_ring`** takes the first bytes off, as many as there are. -/
theorem Shows.readRing {k : Nat} (h : Shows n r q) :
    (r.readRing k).1 = q.take k ∧ Shows n (r.readRing k).2 (q.drop k) := by
  induction k generalizing r q with
  | zero =>
    rw [Ring.readRing]
    simpa using h
  | succ k ih =>
    have hiff := ringEmpty_iff h.ok
    rw [h.contents] at hiff
    rw [Ring.readRing]
    split
    · next hempty =>
      obtain rfl := hiff.1 hempty
      simpa using h
    · next hempty =>
      have hget := contents_get h.ok (Bool.eq_false_iff.2 hempty)
      rw [h.contents] at hget
      obtain ⟨hbytes, hshows⟩ := ih ⟨h.ok.get, h.size, rfl⟩
      rw [hget]
      refine ⟨?_, hshows⟩
      rw [List.take_succ_cons, ← hbytes]
      rfl

/-- **One operation** of the ring is the same operation of the queue. -/
theorem Shows.step {op : QueueOp UInt8} {res : QueueResult UInt8} {r' : Ring} (h : Shows n r q)
    (hst : r.step op = some (res, r')) :
    ∃ q', Queue.step (n - 1) q op = some (res, q') ∧ Shows n r' q' := by
  have hwrite : ∀ w, Queue.write (n - 1) q w =
      (⟨(r.writeRing w).1, []⟩, q ++ w.take (r.writeRing w).1) := by
    intro w
    rw [Queue.write, h.writeRing.1]
  have hread : ∀ k, Queue.read q k = (⟨(r.readRing k).1.length, (r.readRing k).1⟩, q.drop k) := by
    intro k
    rw [Queue.read, h.readRing.1, List.length_take]
  cases op with
  | write w =>
    cases hst
    refine ⟨_, congrArg some (hwrite w), ?_⟩
    rw [h.writeRing.1]
    exact h.writeRing.2
  | read size =>
    cases hst
    exact ⟨_, congrArg some (hread _), h.readRing.2⟩
  | enqueue v =>
    cases hst
    refine ⟨_, congrArg some (hwrite [v]), ?_⟩
    rw [h.writeRing.1]
    exact h.writeRing.2
  | dequeue =>
    cases hst
    exact ⟨_, congrArg some (hread 1), h.readRing.2⟩
  | reset =>
    cases hst
    have hok : r.ringReset.Ok := ⟨Nat.zero_lt_of_lt h.ok.front_lt, Nat.zero_lt_of_lt h.ok.front_lt⟩
    exact ⟨[], rfl, hok, h.size, (ringEmpty_iff hok).1 rfl⟩

end

end Ring

/-- **The ring refines the bounded queue.** Let a ring of size `n`, from 1 to 2^30, start with its
indices at 0, whatever its buffer holds. After any operations the indices are slots, no sum of the
source overflows, and there is a queue that the same operations lead to from the empty one, with the
same results; its length, emptiness, fullness and head are those the ring reports. -/
theorem ring_refines_queue {n : Nat} (hpos : 1 ≤ n) (hmax : n ≤ 2 ^ 30) {buffer : Nat → UInt8}
    {t : List (QueueOp UInt8 × QueueResult UInt8)} {r : Ring}
    (hrun : Run Ring.step (fun _ _ => True) ⟨n, 0, 0, buffer⟩ t r) :
    r.front < n ∧ r.rear < n ∧ r.rear + r.ringSize < 2 ^ 31 ∧
      ∃ q, Run (Queue.step (n - 1)) (fun _ _ => True) [] t q ∧ q.length ≤ n - 1 ∧
        r.ringLength = q.length ∧ (r.ringEmpty = true ↔ q = []) ∧
        (r.ringFull = true ↔ q.length = n - 1) ∧ ∀ v q', q = v :: q' → r.ringPeek = v := by
  have hok : (⟨n, 0, 0, buffer⟩ : Ring).Ok := ⟨hpos, hpos⟩
  have hinit : Ring.Shows n ⟨n, 0, 0, buffer⟩ [] := ⟨hok, rfl, (Ring.ringEmpty_iff hok).1 rfl⟩
  obtain ⟨q, hq, hshows⟩ : ∃ q, Run (Queue.step (n - 1)) (fun _ _ => True) [] t q ∧
      Ring.Shows n r q := by
    refine hrun.simulate (Ring.Shows n) hinit ?_
    intro s q op res s' h _ hst
    exact h.step hst
  have hfront := hshows.ok.front_lt
  have hrear := hshows.ok.rear_lt
  have hlen := Ring.length_contents_lt hshows.ok
  have hempty := Ring.ringEmpty_iff hshows.ok
  have hfull := Ring.ringFull_iff hshows.ok
  rw [hshows.size] at hfront hrear hlen hfull
  rw [hshows.contents] at hlen hempty hfull
  refine ⟨hfront, hrear, by rw [hshows.size]; omega, q, hq, by omega, ?_, hempty, hfull, ?_⟩
  · rw [← hshows.contents, Ring.contents, Ring.length_slots]
  · intro v q' heq
    have hne : r.ringEmpty = false := Bool.eq_false_iff.2 fun he => by
      cases heq.symm.trans (hempty.1 he)
    have hget := Ring.contents_get hshows.ok hne
    rw [hshows.contents, heq] at hget
    cases hget
    rfl

theorem ring_refines_queue_sample : ∃ t r q,
    Run Ring.step (fun _ _ => True) ⟨4, 0, 0, fun _ => 0⟩ t r ∧
      t.map (fun x => x.2.count) = [3, 2, 1, 1] ∧
      Run (Queue.step 3) (fun _ _ => True) [] t q ∧ q.length = 1 := by
  have hex : (exec Ring.step ⟨4, 0, 0, fun _ => 0⟩ [.write [1, 2, 3, 4, 5], .read 2, .enqueue 6,
      .dequeue]).map (fun r => (r.1.map (fun x => x.2.count), r.2.ringLength)) =
      some ([3, 2, 1, 1], 1) := by decide +kernel
  obtain ⟨⟨t, r⟩, hr, heq⟩ := Option.map_eq_some_iff.1 hex
  simp only [Prod.mk.injEq] at heq
  have hrun : Run Ring.step (fun _ _ => True) ⟨4, 0, 0, fun _ => 0⟩ t r :=
    Run.nil.exec (fun _ _ _ => trivial) hr
  obtain ⟨-, -, -, q, hq, -, hlen, -⟩ := ring_refines_queue (by decide) (by decide) hrun
  exact ⟨t, r, q, hrun, heq.1, hq, hlen.symm.trans heq.2⟩

end ZeldaOS
