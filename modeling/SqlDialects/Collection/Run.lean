import SqlDialects.Collection.Lazy

/-! # Runs of a handle -/

namespace SqlDialects.Collection

variable {α : Type}

/-- What can be asked of a handle. -/
inductive Step (α : Type) where
  | change (operation : Operation α)
  | load (loader : Loader α)
  | detach
  | reattach (session : Nat)
  | beginTransaction
  | completeTransaction (outcome : TransactionOutcome)
  | merge (session : Nat)

namespace LazyCollection

/-- A merge makes another handle and leaves this one as it is. -/
def perform [BEq α] (c : LazyCollection α) : Step α → Turn α
  | .change operation => c.mutate operation
  | .load loader => c.load loader
  | .detach => c.detach
  | .reattach session => c.reattach session
  | .beginTransaction => c.beginTransaction
  | .completeTransaction outcome => c.completeTransaction outcome
  | .merge session => { handle := c, events := (c.merge session).2 }

/-- The handle after some steps, and all events on the way. -/
def run [BEq α] (c : LazyCollection α) : List (Step α) → LazyCollection α × List Event
  | [] => (c, [])
  | step :: rest =>
    let turn := c.perform step
    let (last, events) := turn.handle.run rest
    (last, turn.events ++ events)

end LazyCollection

end SqlDialects.Collection
