import Mathlib.Data.List.Induction
import SqlDialects.Proofs.Overrides

/-!
# Registered column types

A registry comes about by calls that register templates and calls that forget all templates of a
code. What it answers can be read off the calls: in each bucket counts the template that was
registered there last, unless its code was forgotten afterwards.
-/

namespace SqlDialects

/-! ## Buckets in order -/

/-- By bound, and the bucket without a bound behind all others. -/
def ColumnBuckets.Before : Option Nat → Option Nat → Prop
  | some bound, some bound' => bound < bound'
  | some _, none => True
  | none, _ => False

namespace ColumnBuckets

variable {buckets : ColumnBuckets}

theorem mem_entries (h : buckets.sized.IsSorted) {bucket : Option Nat} {template : ColumnTemplate} :
    (bucket, template) ∈ buckets.entries ↔ buckets.template? bucket = some template := by
  unfold entries
  rw [List.mem_append]
  cases bucket with
  | none => simp [template?]
  | some bound =>
    have hsized : (bound, template) ∈ buckets.sized.toList ↔
        buckets.sized.get? bound = some template := ⟨h.get?_of_mem, SortedMap.mem_of_get?⟩
    simp [template?, ← hsized]

theorem pairwise_entries (h : buckets.sized.IsSorted) :
    buckets.entries.Pairwise fun entry entry' => Before entry.1 entry'.1 := by
  refine List.pairwise_append.2 ⟨?_, ?_, ?_⟩
  · exact List.pairwise_map.2 (h.imp Nat.compare_eq_lt.1)
  · cases buckets.unrestricted with
    | none => exact .nil
    | some template => exact List.pairwise_singleton _ _
  · intro entry hentry entry' hentry'
    obtain ⟨sized, -, rfl⟩ := List.mem_map.1 hentry
    obtain ⟨template, -, rfl⟩ := Option.map_eq_some_iff.1 (Option.mem_toList.1 hentry')
    exact trivial

end ColumnBuckets

namespace ColumnTypeRegistry

/-! ## Calls -/

inductive Call where
  | register (code : SqlType) (bucket : Option Nat) (template : String)
  | unregister (code : SqlType)
  deriving DecidableEq, Repr

namespace Call

def code : Call → SqlType
  | register code _ _ | unregister code => code

/-- What was in the bucket before the call is no longer there. -/
def Overwrites (call : Call) (code : SqlType) (bucket : Option Nat) : Prop :=
  call = .unregister code ∨ ∃ template, call = .register code bucket template

end Call

def perform (registry : ColumnTypeRegistry) : Call → ColumnTypeRegistry
  | .register code bucket template => registry.register code bucket template
  | .unregister code => registry.unregister code

/-- What the calls make of an empty registry. -/
def ofCalls (calls : List Call) : ColumnTypeRegistry := calls.foldl perform {}

/-! ## What the calls leave -/

/-- The template was put into the bucket, and no later call has overwritten it. -/
def Survives (calls : List Call) (code : SqlType) (bucket : Option Nat) (template : String) :
    Prop :=
  ∃ before after, calls = before ++ .register code bucket template :: after ∧
    ∀ call ∈ after, ¬call.Overwrites code bucket

/-- The answer for a length: the template with the least bound among those that are left and whose
bound the length keeps, or else the one without a bound. -/
inductive Answer (calls : List Call) (code : SqlType) (length : Nat) : Option ColumnTemplate → Prop
  | sized {bound : Nat} {template : String} (hlength : length ≤ bound)
    (h : Survives calls code (some bound) template)
    (hleast : ∀ bound' template', length ≤ bound' →
      Survives calls code (some bound') template' → bound ≤ bound') :
    Answer calls code length (some ⟨template⟩)
  | unrestricted {template : String}
    (hsized : ∀ bound template', length ≤ bound → ¬Survives calls code (some bound) template')
    (h : Survives calls code none template) : Answer calls code length (some ⟨template⟩)
  | missing
    (hsized : ∀ bound template', length ≤ bound → ¬Survives calls code (some bound) template')
    (h : ∀ template, ¬Survives calls code none template) : Answer calls code length none

/-- By code, then by bucket. -/
def Before (entry entry' : SqlType × Option Nat × String) : Prop :=
  SqlType.all.idxOf entry.1 < SqlType.all.idxOf entry'.1 ∨
    entry.1 = entry'.1 ∧ ColumnBuckets.Before entry.2.1 entry'.2.1

variable {registry : ColumnTypeRegistry} {calls : List Call} {call : Call} {code : SqlType}
  {bucket : Option Nat} {template : String} {length : Nat}

/-! ## One call -/

theorem template?_unregister (code' : SqlType) :
    (registry.unregister code').template? code bucket =
      if code = code' then none else registry.template? code bucket := by
  unfold template? unregister update
  dsimp only
  split
  · cases bucket <;> rfl
  · rfl

theorem template?_perform : (registry.perform call).template? code bucket = some ⟨template⟩ ↔
    call = .register code bucket template ∨
      ¬call.Overwrites code bucket ∧ registry.template? code bucket = some ⟨template⟩ := by
  unfold Call.Overwrites
  cases call with
  | register code' bucket' template' =>
    rw [perform, template?_register]
    by_cases h : code = code' ∧ bucket = bucket'
    · obtain ⟨rfl, rfl⟩ := h
      simp
    · rw [if_neg h]
      grind
  | unregister code' =>
    rw [perform, template?_unregister]
    by_cases h : code = code'
    · simp [h]
    · simp [h, Ne.symm h]

theorem survives_concat : Survives (calls ++ [call]) code bucket template ↔
    call = .register code bucket template ∨
      ¬call.Overwrites code bucket ∧ Survives calls code bucket template := by
  constructor
  · rintro ⟨before, after, heq, hafter⟩
    rcases List.eq_nil_or_concat after with rfl | ⟨after, last, rfl⟩
    · exact .inl (List.singleton_inj.1 (List.append_inj' heq rfl).2)
    · have hsplit : calls ++ [call] =
          (before ++ .register code bucket template :: after) ++ [last] := by simpa using heq
      obtain ⟨hcalls, hlast⟩ := List.append_inj' hsplit rfl
      obtain rfl := List.singleton_inj.1 hlast
      refine .inr ⟨hafter call (by simp), before, after, hcalls, fun other hother => ?_⟩
      exact hafter other (by simp [hother])
  · rintro (rfl | ⟨hcall, before, after, rfl, hafter⟩)
    · exact ⟨calls, [], rfl, nofun⟩
    · refine ⟨before, after ++ [call], by simp, fun other hother => ?_⟩
      rcases List.mem_append.1 hother with hother | hother
      · exact hafter other hother
      · exact List.mem_singleton.1 hother ▸ hcall

theorem buckets_perform_of_ne (h : call.code ≠ code) :
    (registry.perform call).buckets code = registry.buckets code := by
  cases call with
  | register => exact if_neg (Ne.symm h)
  | unregister => exact if_neg (Ne.symm h)

theorem buckets_perform_congr {registry' : ColumnTypeRegistry}
    (h : registry.buckets code = registry'.buckets code) :
    (registry.perform call).buckets code = (registry'.perform call).buckets code := by
  by_cases hc : call.code = code
  · subst hc
    cases call <;> simp_all [perform, register, unregister, update, Call.code]
  · rw [buckets_perform_of_ne hc, buckets_perform_of_ne hc, h]

/-! ## All calls -/

theorem ofCalls_concat : ofCalls (calls ++ [call]) = (ofCalls calls).perform call :=
  List.foldl_concat _ _ _ _

theorem isSorted_ofCalls (calls : List Call) : (ofCalls calls).IsSorted := by
  induction calls using List.reverseRecOn with
  | nil => exact isSorted_empty
  | append_singleton calls call ih =>
    rw [ofCalls_concat]
    cases call with
    | register code bucket template => exact ih.register code bucket template
    | unregister code => exact ih.unregister code

theorem template?_ofCalls : (ofCalls calls).template? code bucket = some ⟨template⟩ ↔
    Survives calls code bucket template := by
  induction calls using List.reverseRecOn with
  | nil =>
    constructor
    · intro h
      cases bucket <;> cases h
    · rintro ⟨before, after, heq, -⟩
      simp at heq
  | append_singleton calls call ih => rw [ofCalls_concat, template?_perform, survives_concat, ih]

theorem template?_ofCalls_eq_none : (ofCalls calls).template? code bucket = none ↔
    ∀ template, ¬Survives calls code bucket template := by
  rw [Option.eq_none_iff_forall_ne_some]
  exact ⟨fun h template hs => h _ (template?_ofCalls.2 hs),
    fun h template ht => h template.source (template?_ofCalls.1 ht)⟩

/-- The calls for a code decide alone on its buckets. -/
theorem buckets_ofCalls_filter (calls : List Call) (code : SqlType) :
    (ofCalls (calls.filter fun call => call.code = code)).buckets code =
      (ofCalls calls).buckets code := by
  induction calls using List.reverseRecOn with
  | nil => rfl
  | append_singleton calls call ih =>
    rw [List.filter_append, ofCalls_concat, List.filter_singleton]
    by_cases hc : call.code = code
    · simp only [hc, decide_true, cond_true, ofCalls_concat]
      exact buckets_perform_congr ih
    · simp only [hc, decide_false, cond_false, List.append_nil]
      rw [ih, buckets_perform_of_ne hc]

/-! ## Answers -/

theorem answer_iff_chosen {chosen : Option ColumnTemplate} : Answer calls code length chosen ↔
    Chosen ((ofCalls calls).template? code) length chosen := by
  have hnone : (∀ bound template', length ≤ bound → ¬Survives calls code (some bound) template') ↔
      ∀ bound, length ≤ bound → (ofCalls calls).template? code (some bound) = none := by
    refine forall_congr' fun bound => ?_
    rw [forall_comm, template?_ofCalls_eq_none]
  constructor
  · rintro (⟨hlength, h, hleast⟩ | ⟨hsized, h⟩ | ⟨hsized, h⟩)
    · refine .sized hlength (template?_ofCalls.2 h) fun smaller hle hlt => ?_
      refine template?_ofCalls_eq_none.2 fun template' h' => ?_
      exact Nat.not_lt.2 (hleast smaller template' hle h') hlt
    · exact template?_ofCalls.2 h ▸ .unrestricted (hnone.1 hsized)
    · exact template?_ofCalls_eq_none.2 h ▸ .unrestricted (hnone.1 hsized)
  · rintro (⟨hlength, htemplate, hleast⟩ | ⟨hsized⟩)
    · refine .sized hlength (template?_ofCalls.1 htemplate) fun bound' template' hle h' => ?_
      by_contra hlt
      exact template?_ofCalls_eq_none.1 (hleast bound' hle (Nat.not_le.1 hlt)) template' h'
    · cases h : (ofCalls calls).template? code none with
      | some template => exact .unrestricted (hnone.2 hsized) (template?_ofCalls.1 h)
      | none => exact .missing (hnone.2 hsized) (template?_ofCalls_eq_none.1 h)

theorem mem_entries (h : registry.IsSorted) : (code, bucket, template) ∈ registry.entries ↔
    registry.template? code bucket = some ⟨template⟩ := by
  unfold entries template?
  rw [← ColumnBuckets.mem_entries (h code)]
  simp only [List.mem_flatMap, List.mem_map, Prod.mk.injEq]
  constructor
  · rintro ⟨code, -, ⟨bucket, found⟩, hmem, rfl, rfl, rfl⟩
    exact hmem
  · intro hmem
    exact ⟨code, by cases code <;> decide, _, hmem, rfl, rfl, rfl⟩

theorem pairwise_entries (h : registry.IsSorted) : registry.entries.Pairwise Before := by
  unfold entries
  refine List.pairwise_flatMap.2 ⟨fun code _ => ?_, ?_⟩
  · refine List.pairwise_map.2 ((ColumnBuckets.pairwise_entries (h code)).imp fun hlt => ?_)
    exact .inr ⟨rfl, hlt⟩
  · have hall : SqlType.all.Pairwise fun code code' =>
        SqlType.all.idxOf code < SqlType.all.idxOf code' := by decide
    refine hall.imp fun hlt entry hentry entry' hentry' => .inl ?_
    obtain ⟨_, -, rfl⟩ := List.mem_map.1 hentry
    obtain ⟨_, -, rfl⟩ := List.mem_map.1 hentry'
    exact hlt

/-- The calls alone say what is answered for a length, calls for other codes do not count, and the
registry lists each template that is left once. -/
theorem lookup_ofCalls (calls : List Call) (code : SqlType) (length : Nat) :
    (∀ answer, Answer calls code length answer ↔ answer = (ofCalls calls).lookup code length) ∧
      (ofCalls (calls.filter fun call => call.code = code)).lookup code length =
        (ofCalls calls).lookup code length ∧
      (ofCalls calls).entries.Pairwise Before ∧
      ∀ entry, entry ∈ (ofCalls calls).entries ↔ Survives calls entry.1 entry.2.1 entry.2.2 := by
  have hsorted := isSorted_ofCalls calls
  refine ⟨fun answer => ?_, ?_, pairwise_entries hsorted, fun entry => ?_⟩
  · exact answer_iff_chosen.trans (ColumnBuckets.chosen_iff (hsorted code))
  · unfold lookup
    rw [buckets_ofCalls_filter]
  · exact (mem_entries hsorted).trans template?_ofCalls

end ColumnTypeRegistry

end SqlDialects
