import SqlDialects.Proofs.Replay

/-!
# Transactions of a collection that waits

A rollback takes the queue back to where the transaction began, and tells of it if a change gets
lost. A commit keeps the queue. After either of them a rollback has nothing left to take back.
-/

namespace SqlDialects.Collection

variable {α : Type}

namespace OperationQueue

theorem rollback_of_released {queue : OperationQueue α} (h : queue.checkpoint = none) :
    queue.rollback = (queue, 0) := by
  unfold rollback
  rw [h]

/-- What has been pushed since the checkpoint is lost. -/
theorem rollback_of_marked {queue : OperationQueue α} {old added : List (Operation α)}
    (ho : queue.operations = old ++ added) (hc : queue.checkpoint = some old.length) :
    queue.rollback = ({ operations := old }, added.length) := by
  have hlost : queue.size - old.length = added.length := by
    rw [size, ho, List.length_append]
    omega
  unfold rollback
  rw [hc, ho]
  simp only [List.take_left, hlost]

end OperationQueue

namespace LazyCollection

variable [BEq α]

/-! ## Inside of a transaction -/

/-- A step that leaves the transaction open and the collection to be loaded. -/
def KeepsOpen (c : LazyCollection α) : Step α → Prop
  | .beginTransaction | .completeTransaction _ => False
  | .load loader => (c.load loader).result.isOk = false
  | .change _ | .detach | .reattach _ | .merge _ => True

def StaysOpen (c : LazyCollection α) : List (Step α) → Prop
  | [] => True
  | step :: rest => c.KeepsOpen step ∧ (c.perform step).handle.StaysOpen rest

/-- A transaction began with these operations in the queue and has added others since. -/
structure IsOpen (key : Key) (old added : List (Operation α)) (c : LazyCollection α) : Prop where
  key_eq : c.key = key
  waits : c.isInitialized = false
  operations : c.queue.operations = old ++ added
  checkpoint : c.queue.checkpoint = some old.length

variable {key : Key} {old added : List (Operation α)} {c : LazyCollection α}

omit [BEq α] in
theorem isOpen_beginTransaction (hw : c.isInitialized = false) :
    IsOpen c.key c.queue.operations [] c.beginTransaction.handle where
  key_eq := rfl
  waits := hw
  operations := (List.append_nil _).symm
  checkpoint := rfl

theorem IsOpen.mutate (h : IsOpen key old added c) (operation : Operation α) :
    IsOpen key old (added ++ c.acceptedChange (.change operation))
      (c.mutate operation).handle := by
  unfold acceptedChange LazyCollection.mutate
  rw [h.waits]
  cases c.isAttached with
  | false =>
    -- The change is refused, and the handle is as it was.
    have hrefused : ((.error (.noSession c.key.role) : Except CollectionError Unit)).isOk = false :=
      rfl
    simp only [Bool.false_eq_true, if_false, Turn.fail, hrefused, List.append_nil]
    exact h
  | true =>
    have haccepted : (.ok () : Except CollectionError Unit).isOk = true := rfl
    simp only [Bool.false_eq_true, if_false, if_true, haccepted]
    refine ⟨h.key_eq, h.waits, ?_, h.checkpoint⟩
    rw [OperationQueue.push, h.operations, List.append_assoc]

/-- A load that fails puts the handle back to where it was. -/
theorem IsOpen.load (h : IsOpen key old added c) {loader : Loader α}
    (hf : (c.load loader).result.isOk = false) : IsOpen key old added (c.load loader).handle := by
  unfold LazyCollection.load at hf ⊢
  rw [h.waits] at hf ⊢
  cases ha : c.isAttached with
  | false =>
    simp only [Bool.false_eq_true, if_false, Turn.fail]
    exact h
  | true =>
    simp only [ha, Bool.false_eq_true, if_false, if_true] at hf ⊢
    cases hr : loader c.key with
    | error e => exact ⟨h.key_eq, rfl, h.operations, h.checkpoint⟩
    | ok elements =>
      rw [hr] at hf
      exact absurd hf (by simp [finishLoading, Except.isOk, Except.toBool])

theorem IsOpen.perform (h : IsOpen key old added c) {step : Step α} (hk : c.KeepsOpen step) :
    IsOpen key old (added ++ c.acceptedChange step) (c.perform step).handle := by
  cases step with
  | change operation => exact h.mutate operation
  | load loader =>
    simp only [acceptedChange, List.append_nil]
    exact h.load hk
  | detach =>
    simp only [acceptedChange, List.append_nil]
    exact ⟨h.key_eq, h.waits, h.operations, h.checkpoint⟩
  | reattach session =>
    simp only [acceptedChange, List.append_nil, LazyCollection.perform, reattach]
    split
    · exact ⟨h.key_eq, h.waits, h.operations, h.checkpoint⟩
    · exact h
  | merge session =>
    simp only [acceptedChange, List.append_nil]
    exact h
  | beginTransaction => exact hk.elim
  | completeTransaction outcome => exact hk.elim

/-- The accepted changes of a run in an open transaction are what the queue has gained. -/
theorem IsOpen.run (h : IsOpen key old added c) {steps : List (Step α)} (hs : c.StaysOpen steps) :
    IsOpen key old (added ++ c.acceptedChanges steps) (c.run steps).1 := by
  induction steps generalizing c added with
  | nil =>
    rw [acceptedChanges, List.append_nil]
    exact h
  | cons step rest ih =>
    obtain ⟨hstep, hrest⟩ := hs
    rw [acceptedChanges, ← List.append_assoc]
    exact ih (h.perform hstep) hrest

/-! ## After a transaction -/

theorem checkpoint_perform (h : c.queue.checkpoint = none) {step : Step α}
    (hb : step ≠ .beginTransaction) : (c.perform step).handle.queue.checkpoint = none := by
  cases step with
  | change operation =>
    simp only [perform, mutate]
    split
    · exact h
    · split <;> exact h
  | load loader =>
    simp only [perform, LazyCollection.load]
    split
    · exact h
    · split
      · cases loader c.key with
        | error e => exact h
        | ok elements => rfl
      · exact h
  | detach => exact h
  | reattach session =>
    simp only [perform, reattach]
    split <;> exact h
  | merge session => exact h
  | beginTransaction => exact absurd rfl hb
  | completeTransaction outcome =>
    cases outcome with
    | committed => rfl
    | rolledBack =>
      simp only [perform, completeTransaction, OperationQueue.rollback_of_released h]
      exact h

theorem checkpoint_run (h : c.queue.checkpoint = none) {steps : List (Step α)}
    (hb : ∀ step ∈ steps, step ≠ .beginTransaction) :
    (c.run steps).1.queue.checkpoint = none := by
  induction steps generalizing c with
  | nil => exact h
  | cons step rest ih =>
    have hstep := checkpoint_perform h (hb step List.mem_cons_self)
    exact ih hstep fun s hs => hb s (List.mem_cons_of_mem _ hs)

omit [BEq α] in
theorem rollback_of_released (h : c.queue.checkpoint = none) :
    c.completeTransaction .rolledBack = { handle := c } := by
  simp only [completeTransaction, OperationQueue.rollback_of_released h]
  rfl

omit [BEq α] in
theorem IsOpen.rollback (h : IsOpen key old added c) : c.completeTransaction .rolledBack =
    { handle := { c with queue := { operations := old } }
      events := if added.isEmpty then [] else [⟨.queueRolledBack, key⟩] } := by
  simp only [completeTransaction, raise, OperationQueue.rollback_of_marked h.operations h.checkpoint,
    h.key_eq]
  cases added <;> rfl

omit [BEq α] in
theorem IsOpen.commit (h : IsOpen key old added c) : c.completeTransaction .committed =
    { handle := { c with queue := { operations := old ++ added } } } := by
  rw [completeTransaction, OperationQueue.release, h.operations]

/-- The end of a transaction of a collection that waits: a rollback leaves the queue of the
beginning and raises an event if a change has been accepted since, a commit leaves the whole queue,
and until the next beginning a rollback changes nothing. -/
theorem transaction_of_run (hw : c.isInitialized = false) {during : List (Step α)}
    (hd : c.beginTransaction.handle.StaysOpen during) :
    let inside := (c.beginTransaction.handle.run during).1
    let changes := c.beginTransaction.handle.acceptedChanges during
    let rolledBack := inside.completeTransaction .rolledBack
    let committed := inside.completeTransaction .committed
    rolledBack.handle.queue.operations = c.queue.operations ∧
    rolledBack.events = (if changes.isEmpty then [] else [⟨.queueRolledBack, c.key⟩]) ∧
    inside.queue.operations = c.queue.operations ++ changes ∧
    committed.handle.queue.operations = inside.queue.operations ∧ committed.events = [] ∧
    ∀ done, done = rolledBack.handle ∨ done = committed.handle →
      ∀ after : List (Step α), (∀ step ∈ after, step ≠ .beginTransaction) →
        (done.run after).1.completeTransaction .rolledBack = { handle := (done.run after).1 } := by
  intro inside changes rolledBack committed
  have hopen : IsOpen c.key c.queue.operations changes inside := by
    have h := (isOpen_beginTransaction hw).run hd
    rwa [List.nil_append] at h
  have hr : rolledBack = _ := hopen.rollback
  have hc : committed = _ := hopen.commit
  refine ⟨?_, ?_, hopen.operations, ?_, ?_, ?_⟩
  · rw [hr]
  · rw [hr]
  · rw [hc, hopen.operations]
  · rw [hc]
  · intro done hdone after ha
    have hnone : done.queue.checkpoint = none := by
      rcases hdone with rfl | rfl
      · rw [hr]
      · rw [hc]
    exact rollback_of_released (checkpoint_run hnone ha)

/-- A transaction with a change that is refused, a load that fails and two changes that count. -/
theorem transaction_of_run_with_refused_change :
    let key : Key := ⟨"Parent", "children", "1"⟩
    let c : LazyCollection Nat := ((new key 1).run [.change (.add 3)]).1
    let during : List (Step Nat) :=
      [.change (.add 4), .load fun _ => .error (.load "reset"), .detach, .change (.add 9),
        .reattach 2, .change .clear]
    let inside := (c.beginTransaction.handle.run during).1
    inside.queue.operations = [.add 3, .add 4, .clear] ∧
      (inside.completeTransaction .rolledBack).handle.queue.operations = [.add 3] ∧
      (inside.completeTransaction .rolledBack).events = [⟨.queueRolledBack, key⟩] := by
  intro key c during inside
  have hd : c.beginTransaction.handle.StaysOpen during := by
    refine ⟨trivial, rfl, trivial, trivial, trivial, trivial, trivial⟩
  obtain ⟨hrolled, hevents, hinside, -⟩ := transaction_of_run (c := c) rfl hd
  exact ⟨hinside, hrolled, hevents⟩

end LazyCollection

end SqlDialects.Collection
