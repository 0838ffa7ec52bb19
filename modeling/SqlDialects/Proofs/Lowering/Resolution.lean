import SqlDialects.Proofs.Lowering.Paths

/-!
# What lowered statements stand for

A lowered statement is the given one with a column for each path. The trace that the lowering
leaves at its end has all ways along which paths have joined.
-/

namespace SqlDialects.Entity

open Sql (FromItem)

variable {c : LoweringContext} {s t u : LoweringState}

/-! ## Entering and leaving a query -/

theorem LoweringState.Traced.enter {model : Mapping.Model} {g : Trace} (h : s.Traced model g)
    (isGrouped : Bool) : (s.enter isGrouped).Traced model g where
  scopes := by
    have hnew : Scope.Traced { isGrouped } model g :=
      ⟨by simp, by simp, by simp [Scope.names], fun _ => rfl⟩
    exact List.forall_mem_cons.2 ⟨hnew, h.scopes⟩
  goes := h.goes
  known := h.known
  shared := h.shared

/-- The parts of a query have been made inside of the variables that its roots have opened, and its
tables have all joins of its paths. -/
theorem Ensures.leave {model : Mapping.Model} {isGrouped : Bool} {scope : Scope}
    {opens : Setting → OpenQuery → OpenQuery → Prop} {holds : Setting → Prop}
    (hr : Opens model (s.enter isGrouped) u opens)
    (hp : Ensures model u { t with scopes := scope :: t.scopes } holds) :
    Ensures model s t fun σ => ∃ opened : OpenQuery, opens σ {} opened ∧
      List.Forall₂ Widens opened.tables scope.tables ∧
      holds (σ.inside opened.bindings scope.tables) ∧
      (isGrouped = true → scope.countedCollections = 0) where
  toKeeps := (hr.toKeeps.trans hp.toKeeps).leave
  passes g hg := by
    obtain ⟨g₁, scope₁, hu, hgrows, ht₁, hopens⟩ := hr.passes g (hg.enter isGrouped) _ _ rfl
    obtain ⟨g₂, hpasses, hholds⟩ := hp.passes g₁ ht₁
    have hwidens := hpasses.widens
    rw [hu] at hwidens
    obtain _ | ⟨hscope, hrest⟩ := hwidens
    have htraced := hpasses.traced
    have ht : t.Traced model g₂ :=
      ⟨fun other hmem => htraced.scopes other (List.mem_cons_of_mem _ hmem), htraced.goes,
        htraced.known, htraced.shared⟩
    have hall : Passes model s t g g₂ := ⟨hrest, hgrows.trans hpasses.grows, ht⟩
    refine ⟨g₂, hall, fun σ hσ => ⟨scope₁.query, ?_, hscope.tables, ?_, fun hgrouped => ?_⟩⟩
    · exact hopens σ hσ.model ((hσ.before hall).queries.imp fun _ _ h => h.1)
    · exact hholds _ ⟨hσ.model, hσ.ways, .cons ⟨hscope.bindings.symm, forall₂_refl⟩ hσ.queries⟩
    · have hgrows := (hr.toKeeps.trans hp.toKeeps).grows_head
      exact (htraced.scopes scope List.mem_cons_self).uncounted (hgrows.grouped.trans hgrouped)

/-! ## Trees -/

mutual

theorem Expression.lower_ensures : ∀ (e : Expression) {c : LoweringContext} {s t : LoweringState}
    {r : Sql.Expression}, Ready c s → c.model.HasAsciiNames → e.lower c s = .ok (r, t) →
      Ensures c.model s t fun σ => e.Becomes σ r
  | .path path, c, s, t, r, hs, hm, h => resolve_ensures hm hs.sound h
  | .literal value, c, s, t, r, hs, hm, h => by
    obtain ⟨rfl, rfl⟩ := Prod.mk.inj (Lower.pure_ok_iff.1 h)
    exact .leaf hs.sound fun _ => rfl
  | .parameter parameter, c, s, t, r, hs, hm, h => by
    obtain ⟨rfl, rfl⟩ := Prod.mk.inj (Lower.pure_ok_iff.1 h)
    exact .leaf hs.sound fun _ => rfl
  | .call name arguments, c, s, t, r, hs, hm, h => by
    simp only [Expression.lower, Lower.bind_ok_iff, Lower.pure_ok_iff, Prod.mk.injEq] at h
    obtain ⟨_, _, hc, _, _, h, rfl, rfl⟩ := h
    obtain rfl := checkCall_ok hc
    have h := Expression.lowerAll_ensures arguments hs hm h
    exact h.imp fun _ _ h => ⟨_, rfl, h⟩
  | .aggregate function isDistinct argument, c, s, t, r, hs, hm, h => by
    simp only [Expression.lower, Lower.bind_ok_iff, Lower.pure_ok_iff, Prod.mk.injEq] at h
    obtain ⟨_, _, h, rfl, rfl⟩ := h
    have h := Expression.lowerOption_ensures argument hs hm h
    exact h.imp fun _ _ h => ⟨_, rfl, h⟩
  | .extract unit source, c, s, t, r, hs, hm, h => by
    simp only [Expression.lower, Lower.bind_ok_iff, Lower.pure_ok_iff, Prod.mk.injEq] at h
    obtain ⟨_, _, h, rfl, rfl⟩ := h
    have h := source.lower_ensures hs hm h
    exact h.imp fun _ _ h => ⟨_, rfl, h⟩
  | .timestampAdd unit magnitude timestamp, c, s, t, r, hs, hm, h => by
    simp only [Expression.lower, Lower.bind_ok_iff, Lower.pure_ok_iff, Prod.mk.injEq] at h
    obtain ⟨_, _, h₁, _, _, h₂, rfl, rfl⟩ := h
    have h₁ := magnitude.lower_ensures hs hm h₁
    have h₂ := timestamp.lower_ensures (hs.keeps h₁.toKeeps) hm h₂
    exact (h₁.and h₂).imp fun _ _ ⟨h₁, h₂⟩ => ⟨_, _, rfl, h₁, h₂⟩
  | .timestampDiff unit start finish, c, s, t, r, hs, hm, h => by
    simp only [Expression.lower, Lower.bind_ok_iff, Lower.pure_ok_iff, Prod.mk.injEq] at h
    obtain ⟨_, _, h₁, _, _, h₂, rfl, rfl⟩ := h
    have h₁ := start.lower_ensures hs hm h₁
    have h₂ := finish.lower_ensures (hs.keeps h₁.toKeeps) hm h₂
    exact (h₁.and h₂).imp fun _ _ ⟨h₁, h₂⟩ => ⟨_, _, rfl, h₁, h₂⟩
  | .format source pattern, c, s, t, r, hs, hm, h => by
    simp only [Expression.lower, Lower.bind_ok_iff, Lower.pure_ok_iff, Prod.mk.injEq] at h
    obtain ⟨_, _, h, rfl, rfl⟩ := h
    have h := source.lower_ensures hs hm h
    exact h.imp fun _ _ h => ⟨_, rfl, h⟩
  | .binary left operator right, c, s, t, r, hs, hm, h => by
    simp only [Expression.lower, Lower.bind_ok_iff, Lower.pure_ok_iff, Prod.mk.injEq] at h
    obtain ⟨_, _, h₁, _, _, h₂, rfl, rfl⟩ := h
    have h₁ := left.lower_ensures hs hm h₁
    have h₂ := right.lower_ensures (hs.keeps h₁.toKeeps) hm h₂
    exact (h₁.and h₂).imp fun _ _ ⟨h₁, h₂⟩ => ⟨_, _, rfl, h₁, h₂⟩
  | .negate operand, c, s, t, r, hs, hm, h => by
    simp only [Expression.lower, Lower.bind_ok_iff, Lower.pure_ok_iff, Prod.mk.injEq] at h
    obtain ⟨_, _, h, rfl, rfl⟩ := h
    have h := operand.lower_ensures hs hm h
    exact h.imp fun _ _ h => ⟨_, rfl, h⟩
  | .case branches otherwise, c, s, t, r, hs, hm, h => by
    simp only [Expression.lower, Lower.bind_ok_iff, Lower.pure_ok_iff, Prod.mk.injEq] at h
    obtain ⟨_, _, h₁, _, _, h₂, rfl, rfl⟩ := h
    have h₁ := CaseBranch.lowerAll_ensures branches hs hm h₁
    have h₂ := Expression.lowerOption_ensures otherwise (hs.keeps h₁.toKeeps) hm h₂
    exact (h₁.and h₂).imp fun _ _ ⟨h₁, h₂⟩ => ⟨_, _, rfl, h₁, h₂⟩
  | .cast source target, c, s, t, r, hs, hm, h => by
    simp only [Expression.lower, Lower.bind_ok_iff, Lower.pure_ok_iff, Prod.mk.injEq] at h
    obtain ⟨_, _, h, rfl, rfl⟩ := h
    have h := source.lower_ensures hs hm h
    exact h.imp fun _ _ h => ⟨_, rfl, h⟩
  | .subquery query, c, s, t, r, hs, hm, h => by
    simp only [Expression.lower, Lower.bind_ok_iff, Lower.pure_ok_iff, Prod.mk.injEq] at h
    obtain ⟨_, _, hc, _, _, h, rfl, rfl⟩ := h
    obtain ⟨-, rfl⟩ := checkSubquery_ok hc
    have h := query.lower_ensures hs.outsideSelect hm h
    exact h.imp fun _ _ h => ⟨_, rfl, h⟩
  | .tuple items, c, s, t, r, hs, hm, h => by
    simp only [Expression.lower, Lower.bind_ok_iff, Lower.pure_ok_iff, Prod.mk.injEq] at h
    obtain ⟨_, _, h, rfl, rfl⟩ := h
    have h := Expression.lowerAll_ensures items hs hm h
    exact h.imp fun _ _ h => ⟨_, rfl, h⟩
  | .size path, c, s, t, r, hs, hm, h => lowerSize_ensures hm hs h

theorem Expression.lowerAll_ensures : ∀ (es : List Expression) {c : LoweringContext}
    {s t : LoweringState} {rs : List Sql.Expression}, Ready c s → c.model.HasAsciiNames →
      Expression.lowerAll c es s = .ok (rs, t) →
      Ensures c.model s t fun σ => Expression.AllBecome σ es rs
  | [], c, s, t, rs, hs, hm, h => by
    obtain ⟨rfl, rfl⟩ := Prod.mk.inj (Lower.pure_ok_iff.1 h)
    exact .leaf hs.sound fun _ => rfl
  | e :: rest, c, s, t, rs, hs, hm, h => by
    simp only [Expression.lowerAll, Lower.bind_ok_iff, Lower.pure_ok_iff, Prod.mk.injEq] at h
    obtain ⟨_, _, h₁, _, _, h₂, rfl, rfl⟩ := h
    have h₁ := e.lower_ensures hs hm h₁
    have h₂ := Expression.lowerAll_ensures rest (hs.keeps h₁.toKeeps) hm h₂
    exact (h₁.and h₂).imp fun _ _ ⟨h₁, h₂⟩ => ⟨_, _, rfl, h₁, h₂⟩

theorem Expression.lowerOption_ensures : ∀ (e : Option Expression) {c : LoweringContext}
    {s t : LoweringState} {r : Option Sql.Expression}, Ready c s → c.model.HasAsciiNames →
      Expression.lowerOption c e s = .ok (r, t) →
      Ensures c.model s t fun σ => Expression.OptionBecomes σ e r
  | none, c, s, t, r, hs, hm, h => by
    obtain ⟨rfl, rfl⟩ := Prod.mk.inj (Lower.pure_ok_iff.1 h)
    exact .leaf hs.sound fun _ => rfl
  | some e, c, s, t, r, hs, hm, h => by
    simp only [Expression.lowerOption, Lower.bind_ok_iff, Lower.pure_ok_iff, Prod.mk.injEq] at h
    obtain ⟨_, _, h, rfl, rfl⟩ := h
    have h := e.lower_ensures hs hm h
    exact h.imp fun _ _ h => ⟨_, rfl, h⟩

theorem CaseBranch.lowerAll_ensures : ∀ (branches : List (CaseBranch Condition Expression))
    {c : LoweringContext} {s t : LoweringState}
    {rs : List (CaseBranch Sql.Condition Sql.Expression)}, Ready c s → c.model.HasAsciiNames →
      CaseBranch.lowerAll c branches s = .ok (rs, t) →
      Ensures c.model s t fun σ => CaseBranch.AllBecome σ branches rs
  | [], c, s, t, rs, hs, hm, h => by
    obtain ⟨rfl, rfl⟩ := Prod.mk.inj (Lower.pure_ok_iff.1 h)
    exact .leaf hs.sound fun _ => rfl
  | ⟨condition, result⟩ :: rest, c, s, t, rs, hs, hm, h => by
    simp only [CaseBranch.lowerAll, Lower.bind_ok_iff, Lower.pure_ok_iff, Prod.mk.injEq] at h
    obtain ⟨_, _, h₁, _, _, h₂, _, _, h₃, rfl, rfl⟩ := h
    have h₁ := condition.lower_ensures hs hm h₁
    have hs₁ := hs.keeps h₁.toKeeps
    have h₂ := result.lower_ensures hs₁ hm h₂
    have h₃ := CaseBranch.lowerAll_ensures rest (hs₁.keeps h₂.toKeeps) hm h₃
    exact (h₁.and (h₂.and h₃)).imp fun _ _ ⟨h₁, h₂, h₃⟩ => ⟨_, _, _, rfl, h₁, h₂, h₃⟩

theorem Condition.lower_ensures : ∀ (p : Condition) {c : LoweringContext} {s t : LoweringState}
    {r : Sql.Condition}, Ready c s → c.model.HasAsciiNames → p.lower c s = .ok (r, t) →
      Ensures c.model s t fun σ => p.Becomes σ r
  | .compare left operator right, c, s, t, r, hs, hm, h => by
    simp only [Condition.lower, Lower.bind_ok_iff, Lower.pure_ok_iff, Prod.mk.injEq] at h
    obtain ⟨_, _, h₁, _, _, h₂, rfl, rfl⟩ := h
    have h₁ := left.lower_ensures hs hm h₁
    have h₂ := right.lower_ensures (hs.keeps h₁.toKeeps) hm h₂
    exact (h₁.and h₂).imp fun _ _ ⟨h₁, h₂⟩ => ⟨_, _, rfl, h₁, h₂⟩
  | .all items, c, s, t, r, hs, hm, h => by
    simp only [Condition.lower, Lower.bind_ok_iff, Lower.pure_ok_iff, Prod.mk.injEq] at h
    obtain ⟨_, _, h, rfl, rfl⟩ := h
    have h := Condition.lowerAll_ensures items hs hm h
    exact h.imp fun _ _ h => ⟨_, rfl, h⟩
  | .any items, c, s, t, r, hs, hm, h => by
    simp only [Condition.lower, Lower.bind_ok_iff, Lower.pure_ok_iff, Prod.mk.injEq] at h
    obtain ⟨_, _, h, rfl, rfl⟩ := h
    have h := Condition.lowerAll_ensures items hs hm h
    exact h.imp fun _ _ h => ⟨_, rfl, h⟩
  | .not operand, c, s, t, r, hs, hm, h => by
    simp only [Condition.lower, Lower.bind_ok_iff, Lower.pure_ok_iff, Prod.mk.injEq] at h
    obtain ⟨_, _, h, rfl, rfl⟩ := h
    have h := operand.lower_ensures hs hm h
    exact h.imp fun _ _ h => ⟨_, rfl, h⟩
  | .isNull operand isNegated, c, s, t, r, hs, hm, h => by
    simp only [Condition.lower, Lower.bind_ok_iff, Lower.pure_ok_iff, Prod.mk.injEq] at h
    obtain ⟨_, _, h, rfl, rfl⟩ := h
    have h := operand.lower_ensures hs hm h
    exact h.imp fun _ _ h => ⟨_, rfl, h⟩
  | .inList operand items isNegated, c, s, t, r, hs, hm, h => by
    simp only [Condition.lower, Lower.bind_ok_iff, Lower.pure_ok_iff, Prod.mk.injEq] at h
    obtain ⟨_, _, hc, _, _, h₁, _, _, h₂, rfl, rfl⟩ := h
    obtain rfl := checkMember_ok hc
    have h₁ := operand.lower_ensures hs hm h₁
    have h₂ := Expression.lowerAll_ensures items (hs.keeps h₁.toKeeps) hm h₂
    exact (h₁.and h₂).imp fun _ _ ⟨h₁, h₂⟩ => ⟨_, _, rfl, h₁, h₂⟩
  | .inQuery operand query isNegated, c, s, t, r, hs, hm, h => by
    simp only [Condition.lower, Lower.bind_ok_iff, Lower.pure_ok_iff, Prod.mk.injEq] at h
    obtain ⟨_, _, hc, _, _, h₁, _, _, h₂, rfl, rfl⟩ := h
    obtain rfl := checkMember_ok hc
    have h₁ := operand.lower_ensures hs hm h₁
    have h₂ := query.lower_ensures (hs.keeps h₁.toKeeps).outsideSelect hm h₂
    exact (h₁.and h₂).imp fun _ _ ⟨h₁, h₂⟩ => ⟨_, _, rfl, h₁, h₂⟩
  | .exists query isNegated, c, s, t, r, hs, hm, h => by
    simp only [Condition.lower, Lower.bind_ok_iff, Lower.pure_ok_iff, Prod.mk.injEq] at h
    obtain ⟨_, _, h, rfl, rfl⟩ := h
    have h := query.lower_ensures hs.outsideSelect hm h
    exact h.imp fun _ _ h => ⟨_, rfl, h⟩
  | .like operand pattern escape ignoresCase isNegated, c, s, t, r, hs, hm, h => by
    simp only [Condition.lower, Lower.bind_ok_iff, Lower.pure_ok_iff, Prod.mk.injEq] at h
    obtain ⟨_, _, h₁, _, _, h₂, rfl, rfl⟩ := h
    have h₁ := operand.lower_ensures hs hm h₁
    have h₂ := pattern.lower_ensures (hs.keeps h₁.toKeeps) hm h₂
    exact (h₁.and h₂).imp fun _ _ ⟨h₁, h₂⟩ => ⟨_, _, rfl, h₁, h₂⟩
  | .between operand low high isNegated, c, s, t, r, hs, hm, h => by
    simp only [Condition.lower, Lower.bind_ok_iff, Lower.pure_ok_iff, Prod.mk.injEq] at h
    obtain ⟨_, _, h₁, _, _, h₂, _, _, h₃, rfl, rfl⟩ := h
    have h₁ := operand.lower_ensures hs hm h₁
    have hs₁ := hs.keeps h₁.toKeeps
    have h₂ := low.lower_ensures hs₁ hm h₂
    have h₃ := high.lower_ensures (hs₁.keeps h₂.toKeeps) hm h₃
    exact (h₁.and (h₂.and h₃)).imp fun _ _ ⟨h₁, h₂, h₃⟩ => ⟨_, _, _, rfl, h₁, h₂, h₃⟩
  | .holds operand, c, s, t, r, hs, hm, h => by
    simp only [Condition.lower, Lower.bind_ok_iff, Lower.pure_ok_iff, Prod.mk.injEq] at h
    obtain ⟨_, _, h, rfl, rfl⟩ := h
    have h := operand.lower_ensures hs hm h
    exact h.imp fun _ _ h => ⟨_, rfl, h⟩

theorem Condition.lowerAll_ensures : ∀ (ps : List Condition) {c : LoweringContext}
    {s t : LoweringState} {rs : List Sql.Condition}, Ready c s → c.model.HasAsciiNames →
      Condition.lowerAll c ps s = .ok (rs, t) →
      Ensures c.model s t fun σ => Condition.AllBecome σ ps rs
  | [], c, s, t, rs, hs, hm, h => by
    obtain ⟨rfl, rfl⟩ := Prod.mk.inj (Lower.pure_ok_iff.1 h)
    exact .leaf hs.sound fun _ => rfl
  | p :: rest, c, s, t, rs, hs, hm, h => by
    simp only [Condition.lowerAll, Lower.bind_ok_iff, Lower.pure_ok_iff, Prod.mk.injEq] at h
    obtain ⟨_, _, h₁, _, _, h₂, rfl, rfl⟩ := h
    have h₁ := p.lower_ensures hs hm h₁
    have h₂ := Condition.lowerAll_ensures rest (hs.keeps h₁.toKeeps) hm h₂
    exact (h₁.and h₂).imp fun _ _ ⟨h₁, h₂⟩ => ⟨_, _, rfl, h₁, h₂⟩

theorem Condition.lowerOption_ensures : ∀ (p : Option Condition) {c : LoweringContext}
    {s t : LoweringState} {r : Option Sql.Condition}, Ready c s → c.model.HasAsciiNames →
      Condition.lowerOption c p s = .ok (r, t) →
      Ensures c.model s t fun σ => Condition.OptionBecomes σ p r
  | none, c, s, t, r, hs, hm, h => by
    obtain ⟨rfl, rfl⟩ := Prod.mk.inj (Lower.pure_ok_iff.1 h)
    exact .leaf hs.sound fun _ => rfl
  | some p, c, s, t, r, hs, hm, h => by
    simp only [Condition.lowerOption, Lower.bind_ok_iff, Lower.pure_ok_iff, Prod.mk.injEq] at h
    obtain ⟨_, _, h, rfl, rfl⟩ := h
    have h := p.lower_ensures hs hm h
    exact h.imp fun _ _ h => ⟨_, rfl, h⟩

theorem Query.lower_ensures : ∀ (q : Query) {c : LoweringContext} {isNested : Bool}
    {s t : LoweringState} {r : Sql.Query}, Ready c s → c.model.HasAsciiNames →
      q.lower c isNested s = .ok (r, t) → Ensures c.model s t fun σ => q.Becomes σ r
  | .spec spec, c, isNested, s, t, r, hs, hm, h => by
    simp only [Query.lower, Lower.bind_ok_iff, Lower.pure_ok_iff, Prod.mk.injEq] at h
    obtain ⟨_, _, hc, _, _, h, rfl, rfl⟩ := h
    obtain rfl := checkOrder_ok hc
    have h := spec.lower_ensures hs hm h
    exact h.imp fun _ _ h => ⟨_, rfl, h⟩
  | .group operator parts orderBy limit offset, c, isNested, s, t, r, hs, hm, h => by
    simp only [Query.lower, Lower.bind_ok_iff, Lower.pure_ok_iff, Prod.mk.injEq] at h
    obtain ⟨_, _, hc, _, _, hc', _, _, h₁, _, _, h₂, _, _, h₃, _, _, h₄, rfl, rfl⟩ := h
    obtain rfl := checkOrder_ok hc
    obtain rfl := checkGroup_ok hc'
    have h₁ := Query.lowerAll_ensures parts hs hm h₁
    have hs₁ := hs.keeps h₁.toKeeps
    have h₂ := SortKey.lowerAll_ensures orderBy hs₁ hm h₂
    have hs₂ := hs₁.keeps h₂.toKeeps
    have h₃ := Expression.lowerOption_ensures limit hs₂ hm h₃
    have h₄ := Expression.lowerOption_ensures offset (hs₂.keeps h₃.toKeeps) hm h₄
    exact (h₁.and (h₂.and (h₃.and h₄))).imp fun _ _ ⟨h₁, h₂, h₃, h₄⟩ =>
      ⟨_, _, _, _, rfl, h₁, h₂, h₃, h₄⟩

theorem Query.lowerAll_ensures : ∀ (qs : List Query) {c : LoweringContext} {isNested : Bool}
    {s t : LoweringState} {rs : List Sql.Query}, Ready c s → c.model.HasAsciiNames →
      Query.lowerAll c isNested qs s = .ok (rs, t) →
      Ensures c.model s t fun σ => Query.AllBecome σ qs rs
  | [], c, isNested, s, t, rs, hs, hm, h => by
    obtain ⟨rfl, rfl⟩ := Prod.mk.inj (Lower.pure_ok_iff.1 h)
    exact .leaf hs.sound fun _ => rfl
  | q :: rest, c, isNested, s, t, rs, hs, hm, h => by
    simp only [Query.lowerAll, Lower.bind_ok_iff, Lower.pure_ok_iff, Prod.mk.injEq] at h
    obtain ⟨_, _, h₁, _, _, h₂, rfl, rfl⟩ := h
    have h₁ := q.lower_ensures hs hm h₁
    have h₂ := Query.lowerAll_ensures rest (hs.keeps h₁.toKeeps) hm h₂
    exact (h₁.and h₂).imp fun _ _ ⟨h₁, h₂⟩ => ⟨_, _, rfl, h₁, h₂⟩

theorem QuerySpec.lower_ensures : ∀ (spec : QuerySpec) {c : LoweringContext} {s t : LoweringState}
    {r : Sql.QuerySpec}, Ready c s → c.model.HasAsciiNames → spec.lower c s = .ok (r, t) →
      Ensures c.model s t fun σ => spec.Becomes σ r
  | ⟨isDistinct, select, roots, condition, groupBy, having, orderBy, limit, offset⟩,
      c, s, t, r, hs, hm, h => by
    obtain ⟨s₀, _, s₁, _, s₂, groupBy', s₃, _, s₄, _, s₅, _, s₆, _, s₇, scope, -, h₀, h₁, h₂, h₃,
      h₄, h₅, h₆, h₇, rfl, rfl⟩ := QuerySpec.lower_ok_iff.1 h
    have hr := lowerRoots_opens (hs.sound.enter _) ⟨_, rfl, rfl⟩ rfl h₀
    have hq : s₀.InQuery := hr.grows.inQuery ⟨_, rfl, rfl⟩
    have hs₀ : Ready c.inSelect s₀ := ⟨hr.sound, fun _ => hq⟩
    have h₁ := SelectItem.lowerAll_ensures select hs₀ hm h₁
    have hs₁ : Ready c s₁ := ⟨h₁.sound, fun _ => h₁.grows.inQuery hq⟩
    have h₂ := Condition.lowerOption_ensures condition hs₁ hm h₂
    have hs₂ := hs₁.keeps h₂.toKeeps
    have h₃ := Expression.lowerAll_ensures groupBy hs₂ hm h₃
    have hs₃ := hs₂.keeps h₃.toKeeps
    have h₄ := Condition.lowerOption_ensures having hs₃ hm h₄
    have hs₄ := hs₃.keeps h₄.toKeeps
    have h₅ := SortKey.lowerAll_ensures orderBy hs₄ hm h₅
    have hs₅ := hs₄.keeps h₅.toKeeps
    have h₆ := Expression.lowerOption_ensures limit hs₅ hm h₆
    have h₇ := Expression.lowerOption_ensures offset (hs₅.keeps h₆.toKeeps) hm h₇
    refine (Ensures.leave hr (h₁.and (h₂.and (h₃.and (h₄.and (h₅.and (h₆.and h₇))))))).imp ?_
    rintro σ - ⟨opened, hopens, htables, ⟨h₁, h₂, h₃, h₄, h₅, h₆, h₇⟩, hcount⟩
    refine ⟨opened, hopens, htables, rfl, h₁, h₂, ?_, h₄, h₅, h₆, h₇⟩
    cases groupBy with
    | nil => exact .inl rfl
    | cons key rest =>
      -- A query with keys is grouped, so no collection is counted by a join in it.
      have hzero : scope.countedCollections = 0 := hcount (by simp [isGrouped])
      rw [Scope.groupKeys, if_pos hzero]
      exact .inr h₃

theorem SelectItem.lowerAll_ensures : ∀ (items : List (SelectItem Expression))
    {c : LoweringContext} {s t : LoweringState} {r : LoweredSelect}, Ready c s →
      c.model.HasAsciiNames → SelectItem.lowerAll c items s = .ok (r, t) →
      Ensures c.model s t fun σ => SelectItem.AllBecome σ items r.items
  | [], c, s, t, r, hs, hm, h => by
    obtain ⟨rfl, rfl⟩ := Prod.mk.inj (Lower.pure_ok_iff.1 h)
    exact .leaf hs.sound fun _ => rfl
  | ⟨e, aliasName⟩ :: rest, c, s, t, r, hs, hm, h => by
    rcases SelectItem.lowerAll_cons_ok_iff.1 h with ⟨_, _, _, _, rfl, hc, hr, rfl⟩ |
      ⟨_, _, _, _, _, hne, he, -, -, hr, rfl⟩
    · have hc := entityColumns_ensures hm hs.sound hc
      have hr := SelectItem.lowerAll_ensures rest (hs.keeps hc.toKeeps) hm hr
      refine (hc.and hr).imp fun σ _ => ?_
      rintro ⟨⟨group, entity, a, hreach, rfl⟩, hr⟩
      refine ⟨group, entity, a, _, hreach, ?_, hr⟩
      simp [LoweredSelect.append, LoweredSelect.ofColumns]
    · have he := e.lower_ensures hs hm he
      have hr := SelectItem.lowerAll_ensures rest (hs.keeps he.toKeeps) hm hr
      refine (he.and hr).imp fun σ _ ⟨he, hr⟩ => ?_
      rw [SelectItem.AllBecome]
      · exact ⟨_, _, rfl, he, hr⟩
      · exact hne

theorem SortKey.lowerAll_ensures : ∀ (keys : List (SortKey Expression)) {c : LoweringContext}
    {s t : LoweringState} {rs : List (SortKey Sql.Expression)}, Ready c s →
      c.model.HasAsciiNames → SortKey.lowerAll c keys s = .ok (rs, t) →
      Ensures c.model s t fun σ => SortKey.AllBecome σ keys rs
  | [], c, s, t, rs, hs, hm, h => by
    obtain ⟨rfl, rfl⟩ := Prod.mk.inj (Lower.pure_ok_iff.1 h)
    exact .leaf hs.sound fun _ => rfl
  | ⟨e, isDescending, nulls⟩ :: rest, c, s, t, rs, hs, hm, h => by
    simp only [SortKey.lowerAll, Lower.bind_ok_iff, Lower.pure_ok_iff, Prod.mk.injEq] at h
    obtain ⟨_, _, h₁, _, _, h₂, rfl, rfl⟩ := h
    have h₁ := e.lower_ensures hs hm h₁
    have h₂ := SortKey.lowerAll_ensures rest (hs.keeps h₁.toKeeps) hm h₂
    exact (h₁.and h₂).imp fun _ _ ⟨h₁, h₂⟩ => ⟨_, _, rfl, h₁, h₂⟩

end

/-! ## Statements -/

theorem assignedColumn_column {entity : Mapping.Entity} {name column : String}
    (h : assignedColumn c entity name s = .ok (column, t)) :
    ∃ property, entity.property name = .ok property ∧ property.column? = some column := by
  simp only [assignedColumn, Lower.bind_ok_iff, Lower.property_ok_iff] at h
  obtain ⟨property, _, ⟨hp, rfl⟩, h⟩ := h
  refine ⟨property, hp, ?_⟩
  cases property with
  | basic a => exact congrArg some (congrArg Prod.fst (Lower.pure_ok_iff.1 h)).symm
  | toOne association => exact congrArg some (congrArg Prod.fst (Lower.pure_ok_iff.1 h)).symm
  | toMany collection => simp at h

theorem lowerAssignments_ensures {entity : Mapping.Entity} : ∀ {assignments : List Assignment}
    {s t : LoweringState} {rs : List Sql.Assignment}, Ready c s → c.model.HasAsciiNames →
      lowerAssignments c entity assignments s = .ok (rs, t) →
      Ensures c.model s t fun σ => Assignment.AllBecome σ entity assignments rs
  | [], s, t, rs, hs, hm, h => by
    obtain ⟨rfl, rfl⟩ := Prod.mk.inj (Lower.pure_ok_iff.1 h)
    exact .leaf hs.sound fun _ => rfl
  | a :: rest, s, t, rs, hs, hm, h => by
    simp only [lowerAssignments, Lower.bind_ok_iff, Lower.pure_ok_iff, Prod.mk.injEq] at h
    obtain ⟨column, _, hc, _, _, h₁, _, _, h₂, rfl, rfl⟩ := h
    obtain rfl := assignedColumn_ok hc
    obtain ⟨property, hp, hcolumn⟩ := assignedColumn_column hc
    have h₁ := a.value.lower_ensures hs hm h₁
    have h₂ := lowerAssignments_ensures (hs.keeps h₁.toKeeps) hm h₂
    refine (h₁.and h₂).imp fun σ _ => ?_
    rintro ⟨h₁, h₂⟩
    exact ⟨property, column, _, _, hp, hcolumn, rfl, h₁, h₂⟩

theorem LoweringState.Traced.start (model : Mapping.Model) :
    LoweringState.Traced {} model {} where
  scopes := by simp
  goes := by simp
  known := by simp
  shared := by simp [Shared]

/-- The trace of an update or delete starts with its target. -/
theorem LoweringState.Traced.ofTarget {model : Mapping.Model} {entity : Mapping.Entity}
    (variableName : String) (h : model.Has entity) :
    LoweringState.Traced ⟨1, [Scope.ofTarget variableName entity "t0"]⟩ model
      (Trace.name {} "t0" entity) where
  scopes := by
    refine List.forall_mem_singleton.2 ⟨?_, ?_, ?_, fun _ => rfl⟩
    · exact List.forall_mem_singleton.2 (Trace.name_entity ..)
    · simp [Scope.ofTarget]
    · simp [Trace.name]
  goes := by simp [Trace.name]
  known a e he := by
    rcases Trace.entity_name he with he | ⟨rfl, rfl⟩
    · simp at he
    · exact ⟨h, 0, Nat.le_refl _, Nat.one_pos, rfl⟩
  shared := by simp [Shared, Trace.name]

/-- A table whose names are all names of its root has no joins. -/
theorem joins_eq_nil {group : FromItem} (hn : group.names.Nodup)
    (hg : ∀ a ∈ group.names, a = group.root.aliasName) : group.joins = [] := by
  cases hj : group.joins with
  | nil => rfl
  | cons join rest =>
    unfold FromItem.names at hn hg
    rw [hj] at hn hg
    have hsame := hg join.table.aliasName (by simp)
    exact absurd (hsame ▸ List.mem_cons_self) (List.nodup_cons.1 hn).1

/-- Nothing is joined to the target of an update or delete. -/
theorem Setting.Completes.ofTarget {model : Mapping.Model} {variableName : String}
    {entity : Mapping.Entity} {g g' : Trace}
    (hk : Keeps ⟨1, [Scope.ofTarget variableName entity "t0"]⟩ t)
    (hp : Passes model ⟨1, [Scope.ofTarget variableName entity "t0"]⟩ t g g') :
    Setting.Completes (.ofTarget model (· ∈ g'.ways) variableName entity ⟨entity.table, "t0"⟩)
      model t g' := by
  obtain ⟨scope, _, hscope, hnil, ht⟩ := List.forall₂_cons_left_iff.1 hp.widens
  obtain rfl := List.forall₂_nil_left_iff.1 hnil
  obtain ⟨group, _, hgroup, hnil, htables⟩ := List.forall₂_cons_left_iff.1 hscope.tables
  obtain rfl := List.forall₂_nil_left_iff.1 hnil
  have hgrows := hk.grows.scopes
  rw [ht] at hgrows
  obtain _ | ⟨hgrows, -⟩ := hgrows
  have hnames : scope.names = group.names := by simp [Scope.names, htables]
  have hroot : group.root = ⟨entity.table, "t0"⟩ := hgroup.1.symm
  have hd : t.scopes[0]? = some scope := by
    rw [ht]
    rfl
  have hjoins : group.joins = [] := by
    refine joins_eq_nil (hnames ▸ hk.sound.names_nodup hd) ?_
    intro a ha
    have hin := hgrows.closed rfl (hnames ▸ ha)
    rw [hroot]
    exact List.mem_singleton.1 hin
  refine ⟨rfl, fun w hw => hw, ?_⟩
  rw [ht]
  refine .cons ⟨hscope.bindings.symm, ?_⟩ .nil
  rw [htables]
  exact .cons ⟨hroot, by simp [hjoins]⟩ .nil

theorem bindTarget_entity {name variableName : String} {target : TableReference}
    {entity : Mapping.Entity} (h : bindTarget c name variableName s = .ok ((entity, target), t)) :
    c.model.entity name = .ok entity := by
  simp only [bindTarget, Lower.bind_ok_iff, Lower.entity_ok_iff, Lower.freshAlias_ok_iff,
    Lower.push_ok_iff, Lower.pure_ok_iff, Prod.mk.injEq] at h
  obtain ⟨_, _, ⟨he, rfl⟩, _, _, ⟨rfl, rfl⟩, _, _, rfl, ⟨rfl, rfl⟩, rfl⟩ := h
  exact he

/-- Each path of a statement becomes the column that it leads to from its variable, over joins that
hang on the table of the variable. Paths that go the same way share the joined alias, and no
others. -/
theorem Statement.lower_becomes {statement : Statement} {d : Dialect} {model : Mapping.Model}
    {lowered : Sql.Statement} (hm : model.HasAsciiNames)
    (h : statement.lower d model = .ok lowered) :
    ∃ ways : Way → Prop, Shared ways ∧ statement.Becomes model ways lowered := by
  obtain ⟨t, h⟩ := Statement.lower_ok_iff.1 h
  cases statement with
  | select query lock =>
    simp only [Statement.lowerIn, Lower.bind_ok_iff, Lower.pure_ok_iff, Prod.mk.injEq] at h
    obtain ⟨_, _, h, rfl, rfl⟩ := h
    have hs : Ready { dialect := d, model } {} := ⟨LoweringState.Sound.start, by simp⟩
    obtain ⟨g, hp, hholds⟩ :=
      (query.lower_ensures hs hm h).passes {} (LoweringState.Traced.start model)
    have hnil := List.forall₂_nil_left_iff.1 hp.widens
    exact ⟨(· ∈ g.ways), hp.traced.shared, _, rfl,
      hholds _ ⟨rfl, fun _ hw => hw, hnil ▸ .nil⟩⟩
  | update name variableName assignments condition =>
    simp only [Statement.lowerIn, Lower.bind_ok_iff, Lower.pure_ok_iff, Prod.mk.injEq] at h
    obtain ⟨⟨entity, target⟩, _, hb, _, _, h₁, _, _, h₂, rfl, rfl⟩ := h
    have he := bindTarget_entity hb
    obtain ⟨rfl, rfl⟩ := bindTarget_ok hb
    have hs : Ready { dialect := d, model } _ := ⟨ofTarget_sound variableName entity, by simp⟩
    have h₁ := lowerAssignments_ensures hs hm h₁
    have hboth := h₁.and (Condition.lowerOption_ensures condition (hs.keeps h₁.toKeeps) hm h₂)
    obtain ⟨g, hp, hholds⟩ := hboth.passes _ (.ofTarget variableName ⟨_, he⟩)
    obtain ⟨h₁, h₂⟩ := hholds _ (.ofTarget hboth.toKeeps hp)
    exact ⟨(· ∈ g.ways), hp.traced.shared, entity, _, _, _, rfl, he, rfl, h₁, h₂⟩
  | delete name variableName condition =>
    simp only [Statement.lowerIn, Lower.bind_ok_iff, Lower.pure_ok_iff, Prod.mk.injEq] at h
    obtain ⟨⟨entity, target⟩, _, hb, _, _, h, rfl, rfl⟩ := h
    have he := bindTarget_entity hb
    obtain ⟨rfl, rfl⟩ := bindTarget_ok hb
    have hs : Ready { dialect := d, model } _ := ⟨ofTarget_sound variableName entity, by simp⟩
    have h := Condition.lowerOption_ensures condition hs hm h
    obtain ⟨g, hp, hholds⟩ := h.passes _ (.ofTarget variableName ⟨_, he⟩)
    exact ⟨(· ∈ g.ways), hp.traced.shared, entity, _, _, rfl, he, rfl,
      hholds _ (.ofTarget h.toKeeps hp)⟩

/-! ## A query whose subquery shares a join -/

def ordersModel : Mapping.Model :=
  .ofList
    [{ Mapping.Entity.ofName "Order" with toOne := [.ofTarget "customer" "Customer"] },
      { Mapping.Entity.ofName "Customer" with
        attributes := [.ofType "name" .varchar]
        toOne := [.ofTarget "country" "Country"] },
      { Mapping.Entity.ofName "Country" with attributes := [.ofType "name" .varchar] }]

/-- Selects the names and countries of customers who have the name of a customer from Wales. -/
def namesakes : Statement :=
  .select (.spec
    { select :=
        [⟨.path ⟨"o", ["customer", "name"]⟩, none⟩,
          ⟨.path ⟨"o", ["Customer", "country", "id"]⟩, none⟩]
      roots := [⟨"Order", "o", []⟩]
      condition := some (.exists (.spec
        { select := [⟨.literal (.integer 1), none⟩]
          roots := [⟨"Order", "p", []⟩]
          condition := some (.all
            [.compare (.path ⟨"p", ["customer", "name"]⟩) .equal
                (.path ⟨"o", ["customer", "name"]⟩),
              .compare (.path ⟨"p", ["customer", "country", "name"]⟩) .equal
                (.literal (.string "Wales"))]) }) false) }) none

/-- Each order has one customer joined, and only the second a country: that of the first is known
from the foreign key. -/
theorem namesakes_lowered : ∃ lowered,
    namesakes.lower (Dialect.ofProduct .ingres ⟨9, 2, 0⟩) ordersModel = .ok lowered ∧
      lowered.aliases Sql.everyKey = ["t0", "t1", "t2", "t3", "t4"] :=
  exists_lowered (by decide +kernel)

theorem namesakes_becomes : ∃ lowered, ordersModel.HasAsciiNames ∧
    namesakes.lower (Dialect.ofProduct .ingres ⟨9, 2, 0⟩) ordersModel = .ok lowered ∧
      ∃ ways : Way → Prop, Shared ways ∧ namesakes.Becomes ordersModel ways lowered := by
  have hm : ordersModel.HasAsciiNames := by
    unfold Mapping.Model.HasAsciiNames
    decide +kernel
  obtain ⟨lowered, h, -⟩ := namesakes_lowered
  exact ⟨lowered, hm, h, Statement.lower_becomes hm h⟩

end SqlDialects.Entity
