/-!
# Delayed operations

Changes to a collection whose members are not known yet wait in a queue. A checkpoint marks a
length of the queue, and a rollback goes back to it.
-/

namespace SqlDialects.Collection

variable {α : Type}

inductive Operation (α : Type) where
  | add (element : α)
  /-- Takes out the first element that is equal, if there is one. -/
  | remove (element : α)
  | clear
  deriving DecidableEq, Repr

def Operation.apply [BEq α] (elements : List α) : Operation α → List α
  | add element => elements ++ [element]
  | remove element => elements.erase element
  | clear => []

structure OperationQueue (α : Type) where
  /-- The oldest operation first. -/
  operations : List (Operation α) := []
  checkpoint : Option Nat := none
  deriving DecidableEq, Repr

namespace OperationQueue

def size (queue : OperationQueue α) : Nat := queue.operations.length

def isEmpty (queue : OperationQueue α) : Bool := queue.operations.isEmpty

def push (queue : OperationQueue α) (operation : Operation α) : OperationQueue α :=
  { queue with operations := queue.operations ++ [operation] }

/-- Marks the length of the queue. -/
def mark (queue : OperationQueue α) : OperationQueue α :=
  { queue with checkpoint := some queue.size }

def release (queue : OperationQueue α) : OperationQueue α := { queue with checkpoint := none }

/-- The queue at its checkpoint, and how many operations it loses. Without a checkpoint it loses
none. -/
def rollback (queue : OperationQueue α) : OperationQueue α × Nat :=
  match queue.checkpoint with
  | some length => (⟨queue.operations.take length, none⟩, queue.size - length)
  | none => (queue, 0)

/-- The operations, and the empty queue that is left. -/
def take (queue : OperationQueue α) : List (Operation α) × OperationQueue α :=
  (queue.operations, {})

/-- What the operations make of some elements, in the order of the queue. -/
def replay [BEq α] (queue : OperationQueue α) (elements : List α) : List α :=
  queue.operations.foldl Operation.apply elements

end OperationQueue

end SqlDialects.Collection
