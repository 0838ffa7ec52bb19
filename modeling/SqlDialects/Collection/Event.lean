/-! # Events of collections -/

namespace SqlDialects.Collection

/-- A collection of one owner. -/
structure Key where
  entity : String
  property : String
  ownerId : String
  deriving DecidableEq, Repr

namespace Key

def role (key : Key) : String := key.entity ++ "." ++ key.property

def text (key : Key) : String := "[" ++ key.role ++ "#" ++ key.ownerId ++ "]"

end Key

/-- What happens to operations that still wait for their collection to be loaded. -/
inductive EventKind where
  | mergeQueueDiscarded
  | attachedWithQueue
  | detachedWithQueue
  | queueRolledBack
  deriving DecidableEq, Repr

namespace EventKind

def all : List EventKind :=
  [mergeQueueDiscarded, attachedWithQueue, detachedWithQueue, queueRolledBack]

def code : EventKind → String
  | mergeQueueDiscarded => "HHH000494"
  | attachedWithQueue => "HHH000495"
  | detachedWithQueue => "HHH000496"
  | queueRolledBack => "HHH000498"

def summary : EventKind → String
  | mergeQueueDiscarded =>
    "Attempt to merge an uninitialized collection with queued operations; " ++
      "queued operations will be ignored"
  | attachedWithQueue =>
    "Attaching an uninitialized collection with queued operations to a session"
  | detachedWithQueue =>
    "Detaching an uninitialized collection with queued operations from a session"
  | queueRolledBack =>
    "Discarding queued operations of an uninitialized collection due to rollback"

end EventKind

structure Event where
  kind : EventKind
  key : Key
  deriving DecidableEq, Repr

def Event.text (event : Event) : String :=
  event.kind.code ++ ": " ++ event.kind.summary ++ ": " ++ event.key.text

end SqlDialects.Collection
