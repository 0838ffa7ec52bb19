import SqlDialects.Collection.Event
import SqlDialects.Collection.Queue

/-!
# Lazy collections

A handle on a collection that is loaded when its members are needed. Until then changes wait in a
queue, and loading replays them once.
-/

namespace SqlDialects.Collection

variable {α : Type}

inductive LoadState where
  | uninitialized
  /-- The loader is at work. -/
  | initializing
  | initialized
  deriving DecidableEq, Repr

inductive Attachment where
  | attached (session : Nat)
  /-- On the way into a session. -/
  | attaching (session : Nat)
  | detached
  deriving DecidableEq, Repr

def Attachment.text : Attachment → String
  | attached session => "attached session-" ++ toString session
  | attaching session => "attaching session-" ++ toString session
  | detached => "detached"

inductive TransactionOutcome where
  | committed
  | rolledBack
  deriving DecidableEq, Repr

inductive CollectionError where
  /-- There is no session to load from. -/
  | noSession (role : String)
  | load (reason : String)
  deriving DecidableEq, Repr

def CollectionError.message : CollectionError → String
  | noSession role =>
    "failed to lazily initialize a collection of role: " ++ role ++
      ", could not initialize proxy - no session"
  | load reason => "failed to load collection: " ++ reason

/-- Reads the stored elements of a collection. -/
abbrev Loader (α : Type) := Key → Except CollectionError (List α)

structure LazyCollection (α : Type) where
  key : Key
  state : LoadState := .uninitialized
  attachment : Attachment
  /-- Without meaning before the collection is initialized. -/
  contents : List α := []
  queue : OperationQueue α := {}
  deriving DecidableEq, Repr

namespace LazyCollection

/-! ## Making and reading a handle -/

def new (key : Key) (session : Nat) : LazyCollection α :=
  { key, attachment := .attached session }

/-- A handle on a collection whose elements are known. -/
def ofElements (key : Key) (session : Nat) (elements : List α) : LazyCollection α :=
  { key, attachment := .attached session, state := .initialized, contents := elements }

def isInitialized (c : LazyCollection α) : Bool := c.state == .initialized

def isAttached (c : LazyCollection α) : Bool :=
  match c.attachment with
  | .attached _ => true
  | _ => false

def hasQueuedOperations (c : LazyCollection α) : Bool := !c.queue.isEmpty

def elements? (c : LazyCollection α) : Option (List α) :=
  if c.isInitialized then some c.contents else none

/-- There are changes that wait for the collection to be loaded. -/
def isPending (c : LazyCollection α) : Bool := !c.isInitialized && c.hasQueuedOperations

/-! ## Steps -/

/-- The handle after a step, and what the step raises. A failed step leaves the handle as it
was. -/
structure Turn (α : Type) where
  handle : LazyCollection α
  events : List Event := []
  result : Except CollectionError Unit := .ok ()

def Turn.fail (c : LazyCollection α) (error : CollectionError) : Turn α :=
  { handle := c, result := .error error }

/-- The event of a kind, if a condition holds. -/
def raise (c : LazyCollection α) (kind : EventKind) (condition : Bool) : List Event :=
  if condition then [⟨kind, c.key⟩] else []

/-- An initialized collection changes at once, another one in its session later. -/
def mutate [BEq α] (c : LazyCollection α) (operation : Operation α) : Turn α :=
  if c.isInitialized then
    { handle := { c with contents := operation.apply c.contents } }
  else if c.isAttached then
    { handle := { c with queue := c.queue.push operation } }
  else .fail c (.noSession c.key.role)

/-- Takes in what the loader has read. After a failure the queue is still there. -/
def finishLoading [BEq α] (c : LazyCollection α) :
    Except CollectionError (List α) → Turn α
  | .ok stored =>
    { handle := { c with
        state := .initialized, contents := c.queue.replay stored, queue := c.queue.take.2 } }
  | .error error => .fail { c with state := .uninitialized } error

/-- Nothing happens to a collection that is initialized already. -/
def load [BEq α] (c : LazyCollection α) (loader : Loader α) : Turn α :=
  if c.isInitialized then { handle := c }
  else if c.isAttached then
    let loading := { c with state := .initializing }
    loading.finishLoading (loader c.key)
  else .fail c (.noSession c.key.role)

/-- The queue is kept. -/
def detach (c : LazyCollection α) : Turn α :=
  { handle := { c with attachment := .detached }
    events := c.raise .detachedWithQueue c.isPending }

def finishAttaching (c : LazyCollection α) : LazyCollection α :=
  match c.attachment with
  | .attaching session => { c with attachment := .attached session }
  | _ => c

/-- Takes a detached handle into a session with its queue. -/
def reattach (c : LazyCollection α) (session : Nat) : Turn α :=
  match c.attachment with
  | .detached =>
    let attaching := { c with attachment := .attaching session }
    { handle := attaching.finishAttaching, events := c.raise .attachedWithQueue c.isPending }
  | _ => { handle := c }

def beginTransaction (c : LazyCollection α) : Turn α :=
  { handle := { c with queue := c.queue.mark } }

def completeTransaction (c : LazyCollection α) : TransactionOutcome → Turn α
  | .committed => { handle := { c with queue := c.queue.release } }
  | .rolledBack =>
    let (queue, lost) := c.queue.rollback
    { handle := { c with queue }, events := c.raise .queueRolledBack (lost > 0) }

/-- A new handle for a session. Operations that wait are lost on the way, and the handle that is
merged stays as it is. -/
def merge (c : LazyCollection α) (session : Nat) : LazyCollection α × List Event :=
  match c.elements? with
  | some elements => (.ofElements c.key session elements, [])
  | none => (.new c.key session, c.raise .mergeQueueDiscarded c.isPending)

end LazyCollection

end SqlDialects.Collection
