import SqlDialects.Proofs.Handles

/-!
# Events of detaching and attaching

A handle with changes that wait tells when it goes into a session and when it goes out of one. It
can go into a session only from outside, but a handle outside of all sessions can be detached again,
and then it tells once more.
-/

namespace SqlDialects.Collection

variable {α : Type}

/-! ## Moves -/

/-- A step of a run, with the handle before and after it. -/
structure Move (α : Type) where
  before : LazyCollection α
  step : Step α
  after : LazyCollection α

namespace Move

/-- A handle with changes that wait goes into a session. -/
def enters (m : Move α) : Bool :=
  !m.before.isAttached && m.after.isAttached && m.before.hasQueuedOperations

/-- A handle with changes that wait goes out of its session. -/
def leaves (m : Move α) : Bool :=
  m.before.isAttached && !m.after.isAttached && m.before.hasQueuedOperations

/-- A handle with changes that wait is detached although it is in no session. -/
def detachesAgain (m : Move α) : Bool :=
  match m.step with
  | .detach => !m.before.isAttached && m.before.hasQueuedOperations
  | _ => false

end Move

namespace LazyCollection

def moves [BEq α] (c : LazyCollection α) : List (Step α) → List (Move α)
  | [] => []
  | step :: rest =>
    ⟨c, step, (c.perform step).handle⟩ :: (c.perform step).handle.moves rest

/-! ## One step -/

variable {c c' : LazyCollection α}

theorem isAttached_congr (h : c'.attachment = c.attachment) : c'.isAttached = c.isAttached := by
  unfold isAttached
  rw [h]

/-- Between calls, changes wait exactly if the queue is not empty. -/
theorem IsAtRest.isPending_eq (h : c.IsAtRest) : c.isPending = c.hasQueuedOperations := by
  unfold isPending
  cases hq : c.hasQueuedOperations with
  | false => exact Bool.and_false _
  | true =>
    have hne : c.queue.operations ≠ [] := by
      simpa [hasQueuedOperations, OperationQueue.isEmpty] using hq
    rw [h.isInitialized_eq_false_iff.2 (h.waits hne)]
    rfl

theorem countP_raise (kind kind' : EventKind) (condition : Bool) :
    (c.raise kind condition).countP (·.kind = kind') =
      if kind = kind' ∧ condition = true then 1 else 0 := by
  unfold raise
  cases condition with
  | false => simp
  | true => by_cases hk : kind = kind' <;> simp [hk]

/-- The events of a kind that the step raises. -/
def raised [BEq α] (c : LazyCollection α) (step : Step α) (kind : EventKind) : Nat :=
  (c.perform step).events.countP (·.kind = kind)

variable [BEq α]

/-- What is not asked to detach or to attach stays where it is and tells nothing of it. -/
theorem perform_stays {step : Step α} (hd : step ≠ .detach)
    (hr : ∀ session, step ≠ .reattach session) :
    (c.perform step).handle.isAttached = c.isAttached ∧
      c.raised step .attachedWithQueue = 0 ∧ c.raised step .detachedWithQueue = 0 := by
  unfold raised
  cases step with
  | change operation =>
    refine ⟨isAttached_congr ?_, ?_⟩
    · simp only [perform, mutate]
      split
      · rfl
      · split <;> rfl
    · simp only [perform, events_mutate, List.countP_nil, and_self]
  | load loader =>
    refine ⟨isAttached_congr ?_, ?_⟩
    · simp only [perform, LazyCollection.load]
      split
      · rfl
      · split
        · cases loader c.key <;> rfl
        · rfl
    · simp only [perform, events_load, List.countP_nil, and_self]
  | detach => exact absurd rfl hd
  | reattach session => exact absurd rfl (hr session)
  | beginTransaction => exact ⟨rfl, rfl, rfl⟩
  | completeTransaction outcome =>
    cases outcome with
    | committed => exact ⟨rfl, rfl, rfl⟩
    | rolledBack =>
      refine ⟨rfl, ?_, ?_⟩
      · simp [perform, completeTransaction, countP_raise]
      · simp [perform, completeTransaction, countP_raise]
  | merge session =>
    have hkinds : ∀ event ∈ (c.merge session).2, event.kind = .mergeQueueDiscarded := by
      intro event he
      obtain ⟨-, rfl⟩ := mem_raise_iff.1 (events_merge session he)
      rfl
    refine ⟨rfl, ?_, ?_⟩
    · refine List.countP_eq_zero.2 fun event he => ?_
      simp [hkinds event he]
    · refine List.countP_eq_zero.2 fun event he => ?_
      simp [hkinds event he]

/-- A detached handle goes into the session, and another one stays in its own. -/
theorem IsAtRest.raised_reattach (h : c.IsAtRest) (session : Nat) :
    (c.reattach session).handle.isAttached = true ∧
      c.raised (.reattach session) .attachedWithQueue =
        (if !c.isAttached && c.hasQueuedOperations then 1 else 0) ∧
      c.raised (.reattach session) .detachedWithQueue = 0 := by
  simp only [raised, LazyCollection.perform]
  rcases h.attachment with ⟨session', ha⟩ | ha
  · have hc : c.isAttached = true := by simp [isAttached, ha]
    simp [LazyCollection.reattach, ha, hc]
  · have hc : c.isAttached = false := by simp [isAttached, ha]
    simp only [LazyCollection.reattach, ha, hc, countP_raise, h.isPending_eq]
    exact ⟨rfl, by simp, by simp⟩

/-- Nothing is asked of where the handle was. -/
theorem IsAtRest.raised_detach (h : c.IsAtRest) :
    c.detach.handle.isAttached = false ∧ c.raised .detach .attachedWithQueue = 0 ∧
      c.raised .detach .detachedWithQueue = if c.hasQueuedOperations then 1 else 0 := by
  simp only [raised, LazyCollection.perform, detach, countP_raise, h.isPending_eq]
  exact ⟨rfl, by simp, by simp⟩

/-- The events of a step say how the handle has moved, except that a detached handle which is
detached again does not move. -/
theorem IsAtRest.raised_eq (h : c.IsAtRest) (step : Step α) :
    let m : Move α := ⟨c, step, (c.perform step).handle⟩
    c.raised step .attachedWithQueue = (if m.enters then 1 else 0) ∧
      c.raised step .detachedWithQueue =
        (if m.leaves then 1 else 0) + if m.detachesAgain then 1 else 0 := by
  intro m
  have hstays (hd : step ≠ .detach) (hr : ∀ session, step ≠ .reattach session)
      (hagain : m.detachesAgain = false) :
      c.raised step .attachedWithQueue = (if m.enters then 1 else 0) ∧
        c.raised step .detachedWithQueue =
          (if m.leaves then 1 else 0) + if m.detachesAgain then 1 else 0 := by
    obtain ⟨hattached, hin, hout⟩ := perform_stays hd hr
    have hm : m.after.isAttached = m.before.isAttached := hattached
    rw [hin, hout, Move.enters, Move.leaves, hagain, hm]
    cases m.before.isAttached <;> exact ⟨rfl, rfl⟩
  cases step with
  | detach =>
    obtain ⟨hattached, hin, hout⟩ := h.raised_detach
    have hm : m.after.isAttached = false := hattached
    have hb : m.before = c := rfl
    rw [hin, hout, Move.enters, Move.leaves, Move.detachesAgain, hm, hb]
    cases c.isAttached <;> simp [m]
  | reattach session =>
    obtain ⟨hattached, hin, hout⟩ := h.raised_reattach session
    have hm : m.after.isAttached = true := hattached
    have hb : m.before = c := rfl
    rw [hin, hout, Move.enters, Move.leaves, Move.detachesAgain, hm, hb]
    simp [m]
  | _ => exact hstays nofun nofun rfl

/-! ## Whole runs -/

theorem IsAtRest.raised_run (h : c.IsAtRest) (steps : List (Step α)) :
    (c.run steps).2.countP (·.kind = .attachedWithQueue) = (c.moves steps).countP Move.enters ∧
      (c.run steps).2.countP (·.kind = .detachedWithQueue) =
        (c.moves steps).countP Move.leaves + (c.moves steps).countP Move.detachesAgain := by
  induction steps generalizing c with
  | nil => exact ⟨rfl, rfl⟩
  | cons step rest ih =>
    obtain ⟨hin, hout⟩ := h.raised_eq step
    obtain ⟨hin', hout'⟩ := ih (h.perform step)
    unfold raised at hin hout
    simp only [run, moves, List.countP_append, List.countP_cons, hin, hout, hin', hout']
    omega

/-- A handle tells once of each entry and of each exit, and of exits that are none exactly if it is
detached again. -/
theorem attachment_events_of_run (h : c.IsAtRest) (steps : List (Step α)) :
    (c.run steps).2.countP (·.kind = .attachedWithQueue) = (c.moves steps).countP Move.enters ∧
      (c.run steps).2.countP (·.kind = .detachedWithQueue) =
        (c.moves steps).countP Move.leaves + (c.moves steps).countP Move.detachesAgain ∧
      ((c.run steps).2.countP (·.kind = .detachedWithQueue) =
          (c.moves steps).countP Move.leaves ↔
        ∀ m ∈ c.moves steps, m.detachesAgain = false) := by
  obtain ⟨hin, hout⟩ := h.raised_run steps
  refine ⟨hin, hout, ?_⟩
  have hnone : (c.moves steps).countP Move.detachesAgain = 0 ↔
      ∀ m ∈ c.moves steps, m.detachesAgain = false := by
    rw [List.countP_eq_zero]
    simp only [Bool.not_eq_true]
  rw [← hnone, hout]
  omega

end LazyCollection

/-- An addition waits while the handle goes out and is detached again. -/
def detachedTwice : List (Step Nat) := [.change (.add 7), .detach, .detach]

/-- The handle goes out once and tells of it twice. -/
theorem detachedTwice_told_twice :
    let start : LazyCollection Nat := .new ⟨"Person", "tags", "1"⟩ 1
    start.IsAtRest ∧
      (start.run detachedTwice).2.countP (·.kind = .detachedWithQueue) = 2 ∧
      (start.moves detachedTwice).countP Move.leaves = 1 := by
  intro start
  have hrest : start.IsAtRest := LazyCollection.isAtRest_new _ _
  have hout := (LazyCollection.attachment_events_of_run hrest detachedTwice).2.1
  exact ⟨hrest, hout.trans (by decide), by decide⟩

end SqlDialects.Collection
