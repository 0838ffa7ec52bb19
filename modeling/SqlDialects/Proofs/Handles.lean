import SqlDialects.Collection.Run

/-!
# Handles between calls

Whatever is asked of some handles, a failed load and a merge included, each of them comes to rest:
it is loaded or not, attached or detached, and changes wait in its queue only if it is not loaded.
Events come from calls to handles with changes that wait.
-/

namespace SqlDialects.Collection

variable {α : Type}

/-! ## Calls to many handles -/

/-- Handles are known by their numbers. -/
inductive Call (α : Type) where
  | new (key : Key) (session : Nat)
  | ofElements (key : Key) (session : Nat) (elements : List α)
  | copy (handle : Nat)
  | perform (handle : Nat) (step : Step α)

/-- An event, with the handle that was called as it was before the call. -/
structure Raised (α : Type) where
  before : LazyCollection α
  event : Event

structure Pool (α : Type) where
  handles : List (LazyCollection α) := []
  raised : List (Raised α) := []

namespace LazyCollection

/-- The handle that a step makes beside the one it is asked of. -/
def made (c : LazyCollection α) : Step α → List (LazyCollection α)
  | .merge session => [(c.merge session).1]
  | _ => []

end LazyCollection

namespace Pool

def add (pool : Pool α) (handles : List (LazyCollection α)) : Pool α :=
  { pool with handles := pool.handles ++ handles }

def perform [BEq α] (pool : Pool α) (handle : Nat) (c : LazyCollection α) (step : Step α) :
    Pool α :=
  let turn := c.perform step
  { handles := pool.handles.set handle turn.handle ++ c.made step
    raised := pool.raised ++ turn.events.map (⟨c, ·⟩) }

/-- A call to a handle that is not there does nothing. -/
def call [BEq α] (pool : Pool α) : Call α → Pool α
  | .new key session => pool.add [.new key session]
  | .ofElements key session elements => pool.add [.ofElements key session elements]
  | .copy handle => pool.add pool.handles[handle]?.toList
  | .perform handle step =>
    match pool.handles[handle]? with
    | some c => pool.perform handle c step
    | none => pool

def run [BEq α] (pool : Pool α) (calls : List (Call α)) : Pool α := calls.foldl call pool

end Pool

/-! ## Handles at rest -/

namespace LazyCollection

/-- What holds of a handle whenever no call is under way. -/
structure IsAtRest (c : LazyCollection α) : Prop where
  state : c.state = .uninitialized ∨ c.state = .initialized
  attachment : (∃ session, c.attachment = .attached session) ∨ c.attachment = .detached
  waits : c.queue.operations ≠ [] → c.state = .uninitialized
  checkpoint : ∀ length, c.queue.checkpoint = some length → length ≤ c.queue.size
  elements : c.elements? = none ↔ c.state = .uninitialized

variable {c : LazyCollection α}

theorem elements?_eq_none_iff (h : c.state = .uninitialized ∨ c.state = .initialized) :
    c.elements? = none ↔ c.state = .uninitialized := by
  unfold elements? isInitialized
  rcases h with h | h <;> simp [h]

theorem isAtRest_new (key : Key) (session : Nat) :
    (new key session : LazyCollection α).IsAtRest where
  state := .inl rfl
  attachment := .inl ⟨session, rfl⟩
  waits := fun _ => rfl
  checkpoint := nofun
  elements := elements?_eq_none_iff (.inl rfl)

theorem isAtRest_ofElements (key : Key) (session : Nat) (elements : List α) :
    (ofElements key session elements).IsAtRest where
  state := .inr rfl
  attachment := .inl ⟨session, rfl⟩
  waits := fun h => absurd rfl h
  checkpoint := nofun
  elements := elements?_eq_none_iff (.inr rfl)

namespace IsAtRest

theorem isInitialized_eq_false_iff (h : c.IsAtRest) :
    c.isInitialized = false ↔ c.state = .uninitialized := by
  unfold isInitialized
  rcases h.state with hs | hs <;> simp [hs]

/-- Another queue, which is empty or that of a collection that is not loaded. -/
theorem withQueue (h : c.IsAtRest) {queue : OperationQueue α}
    (hw : queue.operations ≠ [] → c.queue.operations ≠ [] ∨ c.isInitialized = false)
    (hc : ∀ length, queue.checkpoint = some length → length ≤ queue.size) :
    { c with queue }.IsAtRest where
  state := h.state
  attachment := h.attachment
  waits := by
    intro hq
    rcases hw hq with hq | hi
    · exact h.waits hq
    · exact h.isInitialized_eq_false_iff.1 hi
  checkpoint := hc
  elements := h.elements

theorem withAttachment (h : c.IsAtRest) {attachment : Attachment}
    (ha : (∃ session, attachment = .attached session) ∨ attachment = .detached) :
    { c with attachment }.IsAtRest :=
  ⟨h.state, ha, h.waits, h.checkpoint, h.elements⟩

end IsAtRest

/-! ## One step -/

namespace IsAtRest

theorem mutate [BEq α] (h : c.IsAtRest) (operation : Operation α) :
    (c.mutate operation).handle.IsAtRest := by
  unfold LazyCollection.mutate
  split
  · exact ⟨h.state, h.attachment, h.waits, h.checkpoint, elements?_eq_none_iff h.state⟩
  · next hi =>
    split
    · apply h.withQueue
      · intro _
        exact .inr (Bool.not_eq_true _ ▸ hi)
      · intro length hl
        have hle := h.checkpoint length hl
        unfold OperationQueue.size at hle ⊢
        unfold OperationQueue.push
        rw [List.length_append]
        omega
    · exact h

/-- A load takes the whole queue, or puts the handle back to where it was. -/
theorem load [BEq α] (h : c.IsAtRest) (loader : Loader α) : (c.load loader).handle.IsAtRest := by
  unfold LazyCollection.load
  split
  · exact h
  · next hi =>
    split
    · unfold finishLoading
      have hu : c.state = .uninitialized :=
        h.isInitialized_eq_false_iff.1 (Bool.not_eq_true _ ▸ hi)
      cases loader c.key with
      | ok stored =>
        exact ⟨.inr rfl, h.attachment, fun hq => absurd rfl hq, nofun,
          elements?_eq_none_iff (.inr rfl)⟩
      | error error =>
        exact ⟨.inl rfl, h.attachment, fun _ => rfl, h.checkpoint,
          elements?_eq_none_iff (.inl rfl)⟩
    · exact h

theorem reattach (h : c.IsAtRest) (session : Nat) : (c.reattach session).handle.IsAtRest := by
  unfold LazyCollection.reattach
  split
  · exact h.withAttachment (.inl ⟨session, rfl⟩)
  · exact h

theorem completeTransaction (h : c.IsAtRest) (outcome : TransactionOutcome) :
    (c.completeTransaction outcome).handle.IsAtRest := by
  cases outcome with
  | committed => exact h.withQueue .inl nofun
  | rolledBack =>
    unfold LazyCollection.completeTransaction OperationQueue.rollback
    cases hc : c.queue.checkpoint with
    | none => exact h.withQueue .inl h.checkpoint
    | some length =>
      apply h.withQueue
      · intro hq
        left
        intro he
        rw [he, List.take_nil] at hq
        exact hq rfl
      · nofun

theorem perform [BEq α] (h : c.IsAtRest) (step : Step α) : (c.perform step).handle.IsAtRest := by
  cases step with
  | change operation => exact h.mutate operation
  | load loader => exact h.load loader
  | detach => exact h.withAttachment (.inr rfl)
  | reattach session => exact h.reattach session
  | beginTransaction =>
    have hmark : ∀ length, c.queue.mark.checkpoint = some length → length ≤ c.queue.mark.size := by
      intro length hl
      exact Nat.le_of_eq (Option.some.inj hl).symm
    exact h.withQueue .inl hmark
  | completeTransaction outcome => exact h.completeTransaction outcome
  | merge session => exact h

end IsAtRest

theorem isAtRest_of_made {step : Step α} : ∀ m ∈ c.made step, m.IsAtRest := by
  intro m hm
  cases step with
  | merge session =>
    obtain rfl := List.mem_singleton.1 hm
    unfold LazyCollection.merge
    split
    · exact isAtRest_ofElements _ _ _
    · exact isAtRest_new _ _
  | _ => exact absurd hm List.not_mem_nil

/-! ## Events -/

theorem mem_raise_iff {kind : EventKind} {condition : Bool} {event : Event} :
    event ∈ c.raise kind condition ↔ condition = true ∧ event = ⟨kind, c.key⟩ := by
  unfold raise
  cases condition <;> simp

/-- The collection is not loaded and has changes that wait. -/
def Waits (c : LazyCollection α) : Prop :=
  c.state = .uninitialized ∧ c.queue.operations ≠ []

theorem IsAtRest.waits_of_isPending (h : c.IsAtRest) (hp : c.isPending = true) : c.Waits := by
  unfold isPending hasQueuedOperations OperationQueue.isEmpty at hp
  rw [Bool.and_eq_true, Bool.not_eq_true', Bool.not_eq_true', List.isEmpty_eq_false_iff] at hp
  exact ⟨h.isInitialized_eq_false_iff.1 hp.1, hp.2⟩

/-- A rollback that loses something has found it in the queue. -/
theorem IsAtRest.waits_of_rollback (h : c.IsAtRest) (hl : 0 < c.queue.rollback.2) : c.Waits := by
  have hne : c.queue.operations ≠ [] := by
    intro he
    unfold OperationQueue.rollback OperationQueue.size at hl
    rw [he] at hl
    split at hl
    · simp at hl
    · simp at hl
  exact ⟨h.waits hne, hne⟩

theorem events_mutate [BEq α] (operation : Operation α) : (c.mutate operation).events = [] := by
  unfold mutate
  split
  · rfl
  · split <;> rfl

theorem events_load [BEq α] (loader : Loader α) : (c.load loader).events = [] := by
  unfold load
  split
  · rfl
  · split
    · unfold finishLoading
      cases loader c.key <;> rfl
    · rfl

theorem events_reattach (session : Nat) : (c.reattach session).events ⊆
    c.raise .attachedWithQueue c.isPending := by
  unfold reattach
  split
  · exact List.Subset.refl _
  · exact List.nil_subset _

theorem events_merge (session : Nat) : (c.merge session).2 ⊆
    c.raise .mergeQueueDiscarded c.isPending := by
  unfold merge
  split
  · exact List.nil_subset _
  · exact List.Subset.refl _

theorem IsAtRest.waits_of_event [BEq α] (h : c.IsAtRest) {step : Step α} {event : Event}
    (he : event ∈ (c.perform step).events) : c.Waits ∧ event.key = c.key := by
  have hraised {kind : EventKind} (he : event ∈ c.raise kind c.isPending) :
      c.Waits ∧ event.key = c.key := by
    obtain ⟨hp, rfl⟩ := mem_raise_iff.1 he
    exact ⟨h.waits_of_isPending hp, rfl⟩
  cases step with
  | change operation => exact absurd (events_mutate operation ▸ he) List.not_mem_nil
  | load loader => exact absurd (events_load loader ▸ he) List.not_mem_nil
  | detach => exact hraised he
  | reattach session => exact hraised (events_reattach session he)
  | beginTransaction => exact absurd he List.not_mem_nil
  | completeTransaction outcome =>
    cases outcome with
    | committed => exact absurd he List.not_mem_nil
    | rolledBack =>
      obtain ⟨hl, rfl⟩ := mem_raise_iff.1 he
      exact ⟨h.waits_of_rollback (of_decide_eq_true hl), rfl⟩
  | merge session => exact hraised (events_merge session he)

end LazyCollection

/-! ## Whole runs -/

namespace Pool

/-- All handles are at rest, and the events come from handles with changes that wait. -/
structure IsSound (pool : Pool α) : Prop where
  handles : ∀ c ∈ pool.handles, c.IsAtRest
  raised : ∀ r ∈ pool.raised, r.before.Waits ∧ r.event.key = r.before.key

variable {pool : Pool α}

theorem IsSound.add (h : pool.IsSound) {handles : List (LazyCollection α)}
    (hn : ∀ c ∈ handles, c.IsAtRest) : (pool.add handles).IsSound where
  handles := List.forall_mem_append.2 ⟨h.handles, hn⟩
  raised := h.raised

theorem IsSound.perform [BEq α] (h : pool.IsSound) {handle : Nat} {c : LazyCollection α}
    (hc : c.IsAtRest) (step : Step α) : (pool.perform handle c step).IsSound where
  handles := by
    intro m hm
    rcases List.mem_append.1 hm with hm | hm
    · rcases List.mem_or_eq_of_mem_set hm with hm | rfl
      · exact h.handles m hm
      · exact hc.perform step
    · exact LazyCollection.isAtRest_of_made m hm
  raised := by
    intro r hr
    rcases List.mem_append.1 hr with hr | hr
    · exact h.raised r hr
    · obtain ⟨event, he, rfl⟩ := List.mem_map.1 hr
      exact hc.waits_of_event he

theorem IsSound.call [BEq α] (h : pool.IsSound) (call : Call α) : (pool.call call).IsSound := by
  cases call with
  | new key session =>
    apply h.add
    intro c hc
    obtain rfl := List.mem_singleton.1 hc
    exact LazyCollection.isAtRest_new key session
  | ofElements key session elements =>
    apply h.add
    intro c hc
    obtain rfl := List.mem_singleton.1 hc
    exact LazyCollection.isAtRest_ofElements key session elements
  | copy handle =>
    apply h.add
    intro c hc
    exact h.handles c (List.mem_of_getElem? (Option.mem_toList.1 hc))
  | perform handle step =>
    simp only [Pool.call]
    split
    · next c hc => exact h.perform (h.handles c (List.mem_of_getElem? hc)) step
    · exact h

theorem IsSound.run [BEq α] (h : pool.IsSound) (calls : List (Call α)) :
    (pool.run calls).IsSound := by
  induction calls generalizing pool with
  | nil => exact h
  | cons call rest ih => exact ih (h.call call)

/-- After any calls, each handle is loaded or not and attached or detached, has changes that wait
only while it is not loaded, a checkpoint within its queue and elements exactly once it is loaded;
and each event comes from a call to a handle that was not loaded and had changes that wait. -/
theorem atRest_of_run [BEq α] (calls : List (Call α)) :
    (∀ c ∈ (run {} calls).handles, c.IsAtRest) ∧
      ∀ r ∈ (run {} calls).raised, r.before.state = .uninitialized ∧
        r.before.queue.operations ≠ [] ∧ r.event.key = r.before.key := by
  have hempty : ({} : Pool α).IsSound := ⟨by simp, by simp⟩
  have hrun := hempty.run calls
  refine ⟨hrun.handles, ?_⟩
  intro r hr
  obtain ⟨⟨hs, hq⟩, hk⟩ := hrun.raised r hr
  exact ⟨hs, hq, hk⟩

/-- A handle that has failed to load, is merged and is taken to another session. -/
def mergedAfterFailure : List (Call Nat) :=
  [.new ⟨"Parent", "children", "1"⟩ 1, .perform 0 .beginTransaction,
    .perform 0 (.change (.add 3)), .perform 0 (.load fun _ => .error (.load "reset")),
    .perform 0 .detach, .perform 0 (.merge 2), .perform 0 (.reattach 3),
    .perform 0 (.completeTransaction .rolledBack), .perform 1 (.load fun _ => .ok [1, 2])]

theorem mergedAfterFailure_atRest :
    (∃ c ∈ (run {} mergedAfterFailure).handles, c.elements? = some [1, 2] ∧ c.IsAtRest) ∧
      ∃ r ∈ (run {} mergedAfterFailure).raised, r.event.kind = .mergeQueueDiscarded ∧
        r.before.state = .uninitialized ∧ r.before.queue.operations ≠ [] := by
  obtain ⟨hhandles, hraised⟩ := atRest_of_run mergedAfterFailure
  have hloaded : (run {} mergedAfterFailure).handles[1]?.bind (·.elements?) = some [1, 2] := rfl
  have hmerged : (run {} mergedAfterFailure).raised[1]?.map (·.event.kind) =
      some .mergeQueueDiscarded := rfl
  obtain ⟨c, hc, he⟩ := Option.bind_eq_some_iff.1 hloaded
  obtain ⟨r, hr, hk⟩ := Option.map_eq_some_iff.1 hmerged
  obtain ⟨hs, hq, -⟩ := hraised r (List.mem_of_getElem? hr)
  have hmem := List.mem_of_getElem? hc
  exact ⟨⟨c, hmem, he, hhandles c hmem⟩, r, List.mem_of_getElem? hr, hk, hs, hq⟩

end Pool

end SqlDialects.Collection
