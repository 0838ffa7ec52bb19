import SqlDialects.Collection.Run

/-!
# Queued changes and direct changes

The time of loading makes no difference: once a collection is loaded, it holds what the stored
elements become when each accepted change is made at once. Only a rollback takes changes back, and
only those that still wait in the queue.
-/

namespace SqlDialects.Collection

variable {α : Type}

/-! ## Changes that stay -/

/-- The accepted changes. Those of an open transaction are apart as long as they wait. -/
structure Ledger (α : Type) where
  settled : List (Operation α) := []
  pending : Option (List (Operation α)) := none

namespace Ledger

def kept (l : Ledger α) : List (Operation α) := l.settled ++ l.pending.getD []

/-- No rollback takes back what is here by now. -/
def settle (l : Ledger α) : Ledger α := { settled := l.kept }

def beginTransaction (l : Ledger α) : Ledger α := { settled := l.kept, pending := some [] }

def rollback (l : Ledger α) : Ledger α := { settled := l.settled }

def push (l : Ledger α) (operation : Operation α) : Ledger α :=
  match l.pending with
  | some operations => { l with pending := some (operations ++ [operation]) }
  | none => { l with settled := l.settled ++ [operation] }

@[simp]
theorem kept_push (l : Ledger α) (operation : Operation α) :
    (l.push operation).kept = l.kept ++ [operation] := by
  obtain ⟨settled, _ | operations⟩ := l <;> simp [push, kept]

@[simp]
theorem kept_settle (l : Ledger α) : l.settle.kept = l.kept := by simp [settle, kept]

@[simp]
theorem kept_beginTransaction (l : Ledger α) : l.beginTransaction.kept = l.kept := by
  simp [beginTransaction, kept]

@[simp]
theorem kept_rollback (l : Ledger α) : l.rollback.kept = l.settled := by simp [rollback, kept]

end Ledger

namespace LazyCollection

/-- The change that a step makes, unless it is refused. -/
def acceptedChange [BEq α] (c : LazyCollection α) : Step α → List (Operation α)
  | .change operation => if (c.mutate operation).result.isOk then [operation] else []
  | _ => []

/-- What a step of a handle means for the ledger. A change of a loaded collection is made at
once, and loading makes all changes that wait. -/
def recordStep [BEq α] (c : LazyCollection α) (l : Ledger α) (step : Step α) : Ledger α :=
  match step with
  | .change _ =>
    let recorded := (c.acceptedChange step).foldl Ledger.push l
    if c.isInitialized then recorded.settle else recorded
  | .load _ => if (c.perform step).handle.isInitialized then l.settle else l
  | .beginTransaction => l.beginTransaction
  | .completeTransaction .committed => l.settle
  | .completeTransaction .rolledBack => l.rollback
  | .detach | .reattach _ | .merge _ => l

/-- The ledger of a run. -/
def ledger [BEq α] (c : LazyCollection α) (l : Ledger α) : List (Step α) → Ledger α
  | [] => l
  | step :: rest => ledger (c.perform step).handle (c.recordStep l step) rest

/-- All changes that a run accepts, in the order of the calls. -/
def acceptedChanges [BEq α] (c : LazyCollection α) : List (Step α) → List (Operation α)
  | [] => []
  | step :: rest => c.acceptedChange step ++ acceptedChanges (c.perform step).handle rest

end LazyCollection

/-- A load that does not fail reads these elements. -/
def Step.Loads (key : Key) (stored : List α) : Step α → Prop
  | .load loader => ∀ elements, loader key = .ok elements → elements = stored
  | _ => True

/-! ## One step -/

namespace LazyCollection

/-- The handle holds what the ledger says: in its contents once it is loaded, else in its queue. -/
structure Agrees [BEq α] (key : Key) (stored : List α) (c : LazyCollection α) (l : Ledger α) :
    Prop where
  key_eq : c.key = key
  contents_eq : c.isInitialized → c.contents = l.kept.foldl Operation.apply stored
  nothing_waits : c.isInitialized → c.queue.operations = [] ∧ l.pending.getD [] = []
  operations_eq : c.isInitialized = false → c.queue.operations = l.kept
  checkpoint_eq : c.isInitialized = false →
    c.queue.checkpoint = l.pending.map fun _ => l.settled.length

variable [BEq α] {key : Key} {stored : List α} {c : LazyCollection α} {l : Ledger α}

theorem agrees_new (key : Key) (session : Nat) (stored : List α) :
    Agrees key stored (new key session) {} where
  key_eq := rfl
  contents_eq h := by simp [isInitialized, new] at h
  nothing_waits h := by simp [isInitialized, new] at h
  operations_eq _ := rfl
  checkpoint_eq _ := rfl

theorem agrees_ofElements (key : Key) (session : Nat) (stored : List α) :
    Agrees key stored (ofElements key session stored) {} where
  key_eq := rfl
  contents_eq _ := rfl
  nothing_waits _ := ⟨rfl, rfl⟩
  operations_eq h := by simp [isInitialized, ofElements] at h
  checkpoint_eq h := by simp [isInitialized, ofElements] at h

/-- A handle that differs in nothing but its attachment. -/
theorem Agrees.attachment (h : Agrees key stored c l) (attachment : Attachment) :
    Agrees key stored { c with attachment } l :=
  ⟨h.key_eq, h.contents_eq, h.nothing_waits, h.operations_eq, h.checkpoint_eq⟩

theorem agrees_mutate (h : Agrees key stored c l) (operation : Operation α) :
    Agrees key stored (c.mutate operation).handle (c.recordStep l (.change operation)) := by
  cases hi : c.isInitialized with
  | true =>
    have hl : c.recordStep l (.change operation) = (l.push operation).settle := by
      simp [recordStep, acceptedChange, mutate, hi, Except.isOk, Except.toBool]
    rw [hl]
    simp only [mutate, hi, if_true]
    refine ⟨h.key_eq, fun _ => ?_, fun _ => ⟨(h.nothing_waits hi).1, rfl⟩, ?_, ?_⟩
    · simp [h.contents_eq hi]
    all_goals
      intro hc
      simp only [isInitialized] at hc hi
      simp [hc] at hi
  | false =>
    cases ha : c.isAttached with
    | false =>
      have hl : c.recordStep l (.change operation) = l := by
        simp [recordStep, acceptedChange, mutate, hi, ha, Turn.fail, Except.isOk, Except.toBool]
      simpa [hl, mutate, hi, ha, Turn.fail] using h
    | true =>
      have hl : c.recordStep l (.change operation) = l.push operation := by
        simp [recordStep, acceptedChange, mutate, hi, ha, Except.isOk, Except.toBool]
      rw [hl]
      simp only [mutate, hi, ha, if_true, Bool.false_eq_true, if_false]
      have hi' : isInitialized { c with queue := c.queue.push operation } = false := hi
      refine ⟨h.key_eq, by simp [hi'], by simp [hi'], fun _ => ?_, fun _ => ?_⟩
      · simp [OperationQueue.push, h.operations_eq hi]
      · -- The mark is the number of settled changes, and a queued change goes behind it.
        have hp := h.checkpoint_eq hi
        simp only [OperationQueue.push, hp]
        obtain ⟨settled, _ | operations⟩ := l
        · simp [Ledger.push]
        · simp [Ledger.push]

theorem agrees_load (h : Agrees key stored c l) (loader : Loader α)
    (hl : Step.Loads key stored (.load loader)) :
    Agrees key stored (c.load loader).handle (c.recordStep l (.load loader)) := by
  simp only [recordStep, perform]
  cases hi : c.isInitialized with
  | true =>
    simp only [load, hi, if_true]
    have hp := (h.nothing_waits hi).2
    refine ⟨h.key_eq, by simpa using h.contents_eq, fun _ => ⟨(h.nothing_waits hi).1, rfl⟩, ?_, ?_⟩
    all_goals simp [hi]
  | false =>
    cases ha : c.isAttached with
    | false => simpa [load, hi, ha, Turn.fail] using h
    | true =>
      simp only [load, hi, ha, if_true, Bool.false_eq_true, if_false]
      cases hr : loader c.key with
      | error e =>
        -- A failed load leaves the queue and its mark as they are.
        simp only [finishLoading, Turn.fail, isInitialized]
        exact ⟨h.key_eq, nofun, nofun, fun _ => h.operations_eq hi, fun _ => h.checkpoint_eq hi⟩
      | ok elements =>
        obtain rfl := hl elements (h.key_eq ▸ hr)
        simp only [finishLoading, isInitialized, beq_self_eq_true, if_true]
        refine ⟨h.key_eq, fun _ => ?_, fun _ => ⟨rfl, rfl⟩, nofun, nofun⟩
        simp [OperationQueue.replay, h.operations_eq hi]

theorem agrees_reattach (h : Agrees key stored c l) (session : Nat) :
    Agrees key stored (c.reattach session).handle l := by
  simp only [reattach]
  split
  · exact h.attachment (.attached session)
  · exact h

theorem agrees_beginTransaction (h : Agrees key stored c l) :
    Agrees key stored c.beginTransaction.handle l.beginTransaction where
  key_eq := h.key_eq
  contents_eq hi := l.kept_beginTransaction ▸ h.contents_eq hi
  nothing_waits hi := ⟨(h.nothing_waits hi).1, rfl⟩
  operations_eq hi := l.kept_beginTransaction ▸ h.operations_eq hi
  checkpoint_eq hi := by
    simp [beginTransaction, OperationQueue.mark, OperationQueue.size, Ledger.beginTransaction,
      h.operations_eq hi]

theorem agrees_commit (h : Agrees key stored c l) :
    Agrees key stored (c.completeTransaction .committed).handle l.settle where
  key_eq := h.key_eq
  contents_eq hi := l.kept_settle ▸ h.contents_eq hi
  nothing_waits hi := ⟨(h.nothing_waits hi).1, rfl⟩
  operations_eq hi := l.kept_settle ▸ h.operations_eq hi
  checkpoint_eq _ := rfl

/-- The queue goes back to its mark, which is where the settled changes end. -/
theorem agrees_rollback (h : Agrees key stored c l) :
    Agrees key stored (c.completeTransaction .rolledBack).handle l.rollback := by
  have hkept : l.kept = l.settled ++ l.pending.getD [] := rfl
  cases hi : c.isInitialized with
  | true =>
    obtain ⟨hq, hp⟩ := h.nothing_waits hi
    have hops : c.queue.rollback.1.operations = [] := by
      simp only [OperationQueue.rollback]
      split <;> simp [hq]
    have hi' : isInitialized { c with queue := c.queue.rollback.1 } = true := hi
    refine ⟨h.key_eq, fun _ => ?_, fun _ => ⟨hops, rfl⟩, ?_, ?_⟩
    · simpa [completeTransaction, hkept, hp] using h.contents_eq hi
    all_goals simp [completeTransaction, hi']
  | false =>
    have hops := h.operations_eq hi
    have hmark := h.checkpoint_eq hi
    have hi' : isInitialized { c with queue := c.queue.rollback.1 } = false := hi
    refine ⟨h.key_eq, by simp [completeTransaction, hi'], by simp [completeTransaction, hi'],
      fun _ => ?_, fun _ => ?_⟩
    all_goals
      simp only [completeTransaction, OperationQueue.rollback, hmark, Ledger.kept_rollback]
      obtain ⟨settled, _ | operations⟩ := l
    · simpa [Ledger.kept] using hops
    · simp [hops, Ledger.kept]
    · simpa [Ledger.rollback] using hmark
    · simp [Ledger.rollback]

theorem agrees_perform (h : Agrees key stored c l) (step : Step α) (hl : step.Loads key stored) :
    Agrees key stored (c.perform step).handle (c.recordStep l step) := by
  cases step with
  | change operation => exact agrees_mutate h operation
  | load loader => exact agrees_load h loader hl
  | detach => exact h.attachment .detached
  | reattach session => exact agrees_reattach h session
  | beginTransaction => exact agrees_beginTransaction h
  | completeTransaction outcome =>
    cases outcome with
    | committed => exact agrees_commit h
    | rolledBack => exact agrees_rollback h
  | merge session => exact h

/-! ## Whole runs -/

theorem agrees_run (h : Agrees key stored c l) (steps : List (Step α))
    (hl : ∀ step ∈ steps, step.Loads key stored) :
    Agrees key stored (c.run steps).1 (c.ledger l steps) := by
  induction steps generalizing c l with
  | nil => exact h
  | cons step rest ih =>
    have hstep := agrees_perform h step (hl step List.mem_cons_self)
    exact ih hstep fun s hs => hl s (List.mem_cons_of_mem _ hs)

theorem kept_recordStep_sublist (c : LazyCollection α) (l : Ledger α) (step : Step α) :
    (c.recordStep l step).kept.Sublist (l.kept ++ c.acceptedChange step) := by
  cases step with
  | change operation =>
    simp only [recordStep, acceptedChange]
    cases (c.mutate operation).result.isOk <;> cases c.isInitialized <;> simp
  | completeTransaction outcome =>
    cases outcome with
    | committed => simp [recordStep, acceptedChange]
    | rolledBack =>
      simp only [recordStep, acceptedChange, Ledger.kept_rollback, List.append_nil]
      exact List.sublist_append_left l.settled _
  | load loader =>
    simp only [recordStep, acceptedChange]
    split <;> simp
  | _ => simp [recordStep, acceptedChange]

theorem kept_recordStep_eq (c : LazyCollection α) (l : Ledger α) (step : Step α)
    (hr : step ≠ .completeTransaction .rolledBack) :
    (c.recordStep l step).kept = l.kept ++ c.acceptedChange step := by
  cases step with
  | change operation =>
    simp only [recordStep, acceptedChange]
    cases (c.mutate operation).result.isOk <;> cases c.isInitialized <;> simp
  | completeTransaction outcome =>
    cases outcome with
    | committed => simp [recordStep, acceptedChange]
    | rolledBack => contradiction
  | load loader =>
    simp only [recordStep, acceptedChange]
    split <;> simp
  | _ => simp [recordStep, acceptedChange]

/-- No accepted change comes twice or out of its turn. -/
theorem kept_ledger_sublist (c : LazyCollection α) (l : Ledger α) (steps : List (Step α)) :
    (c.ledger l steps).kept.Sublist (l.kept ++ c.acceptedChanges steps) := by
  induction steps generalizing c l with
  | nil => simp [ledger, acceptedChanges]
  | cons step rest ih =>
    have hrest := ih (c.perform step).handle (c.recordStep l step)
    have hstep := (kept_recordStep_sublist c l step).append_right
      ((c.perform step).handle.acceptedChanges rest)
    simpa [ledger, acceptedChanges] using hrest.trans hstep

theorem kept_ledger_eq (c : LazyCollection α) (l : Ledger α) (steps : List (Step α))
    (hr : ∀ step ∈ steps, step ≠ .completeTransaction .rolledBack) :
    (c.ledger l steps).kept = l.kept ++ c.acceptedChanges steps := by
  induction steps generalizing c l with
  | nil => simp [ledger, acceptedChanges]
  | cons step rest ih =>
    have hrest := ih (c.perform step).handle (c.recordStep l step)
      fun s hs => hr s (List.mem_cons_of_mem _ hs)
    rw [ledger, hrest, kept_recordStep_eq c l step (hr step List.mem_cons_self)]
    simp [acceptedChanges]

omit [BEq α] in
/-- A merge copies the elements and no change that waits. -/
theorem merge_copies (c : LazyCollection α) (session : Nat) :
    (c.merge session).1.elements? = c.elements? ∧ (c.merge session).1.queue = {} := by
  cases hi : c.isInitialized with
  | true =>
    have he : c.elements? = some c.contents := by simp [elements?, hi]
    simp only [merge, he]
    exact ⟨rfl, rfl⟩
  | false =>
    have he : c.elements? = none := by simp [elements?, hi]
    simp only [merge, he]
    exact ⟨rfl, rfl⟩

/-- A loaded collection holds the stored elements with the changes that were kept, as if each had
been made at once. Without a rollback those are all accepted changes. -/
theorem elements_of_run {start : LazyCollection α} {session : Nat}
    (hs : start = new key session ∨ start = ofElements key session stored) (steps : List (Step α))
    (hl : ∀ step ∈ steps, step.Loads key stored) :
    let last := (start.run steps).1
    let kept := (start.ledger {} steps).kept
    (last.isInitialized → last.elements? = some (kept.foldl Operation.apply stored)) ∧
    kept.Sublist (start.acceptedChanges steps) ∧
    ((∀ step ∈ steps, step ≠ .completeTransaction .rolledBack) →
      kept = start.acceptedChanges steps) ∧
    ∀ session', (last.perform (.merge session')).handle = last ∧
      (last.merge session').1.elements? = last.elements? ∧
      (last.merge session').1.queue = {} := by
  intro last kept
  have hstart : Agrees key stored start {} := by
    rcases hs with rfl | rfl
    · exact agrees_new key session stored
    · exact agrees_ofElements key session stored
  have hlast : Agrees key stored last (start.ledger {} steps) := agrees_run hstart steps hl
  refine ⟨fun hi => ?_, ?_, fun hr => ?_, fun session' => ⟨rfl, merge_copies last session'⟩⟩
  · simp only [elements?, hi, if_true, hlast.contents_eq hi]
    rfl
  · exact kept_ledger_sublist start {} steps
  · exact kept_ledger_eq start {} steps hr

/-- A queue that survives a failed load and a change of session, with a change taken back. -/
theorem elements_of_run_with_rollback :
    let key : Key := ⟨"Parent", "children", "1"⟩
    let steps : List (Step Nat) :=
      [.change (.add 3), .load fun _ => .error (.load "reset"), .detach, .change (.add 9),
        .reattach 2, .beginTransaction, .change .clear, .completeTransaction .rolledBack,
        .change (.remove 1), .load fun _ => .ok [1, 2, 1], .change (.add 4)]
    ((new key 1).run steps).1.elements? = some [2, 1, 3, 4] ∧
      ((new key 1).ledger {} steps).kept = [.add 3, .remove 1, .add 4] := by
  intro key steps
  have hl : ∀ step ∈ steps, step.Loads key [1, 2, 1] := by simp [steps, Step.Loads]
  have hk : ((new key 1).ledger {} steps).kept = [.add 3, .remove 1, .add 4] := by decide
  have h := (elements_of_run (.inl rfl : new key 1 = new key 1 ∨ _) steps hl).1 (by decide)
  rw [hk] at h
  exact ⟨h, hk⟩

end LazyCollection

end SqlDialects.Collection
