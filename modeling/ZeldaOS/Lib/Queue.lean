import Mathlib.Data.List.Basic

/-!
# The bounded queue

The abstract machine of a first-in first-out queue with a capacity, over any type. A bulk write
appends as much as there is room for, a bulk read removes as much as there is, and both say how much
that was. A read of a negative size is a read of nothing.
-/

namespace ZeldaOS

/-- The operations of a queue. -/
inductive QueueOp (α : Type*)
  | write (w : List α)
  | read (size : Int)
  | enqueue (v : α)
  | dequeue
  | reset

/-- What an operation returns: how many elements it moved, and the elements it read. -/
structure QueueResult (α : Type*) where
  count : Nat
  elements : List α

namespace Queue

variable {α : Type*}

/-- Append as much of `w` as fits. -/
def write (capacity : Nat) (q w : List α) : QueueResult α × List α :=
  let n := min w.length (capacity - q.length)
  (⟨n, []⟩, q ++ w.take n)

/-- Remove the first `n` elements, or all. -/
def read (q : List α) (n : Nat) : QueueResult α × List α :=
  (⟨min n q.length, q.take n⟩, q.drop n)

/-- One operation. -/
def step (capacity : Nat) (q : List α) : QueueOp α → Option (QueueResult α × List α)
  | .write w => some (write capacity q w)
  | .read size => some (read q size.toNat)
  | .enqueue v => some (write capacity q [v])
  | .dequeue => some (read q 1)
  | .reset => some (⟨0, []⟩, [])

end Queue

end ZeldaOS
