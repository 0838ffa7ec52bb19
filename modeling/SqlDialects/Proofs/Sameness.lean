import SqlDialects.Proofs.Evaluation
import SqlDialects.Sql.Same

/-!
# Same trees mean the same

A tree that is the same as another one has the same value over every database, although their
literals may be written differently.
-/

namespace SqlDialects.Sql

variable {σ : Type} [DecidableEq σ] (db : Database σ)

omit [DecidableEq σ] in
theorem sort_of_same {keys keys' : List (SortKey Expression)}
    (h : SortKey.allSame keys keys' = true) : db.sort keys = db.sort keys' := by
  refine db.sort_congr ?_
  induction keys generalizing keys' with
  | nil =>
    cases keys' with
    | nil => rfl
    | cons key' keys' => simp [SortKey.allSame] at h
  | cons key keys ih =>
    cases keys' with
    | nil => simp [SortKey.allSame] at h
    | cons key' keys' =>
      obtain ⟨e, d, n⟩ := key
      obtain ⟨e', d', n'⟩ := key'
      simp only [SortKey.allSame, Bool.and_eq_true, beq_iff_eq] at h
      obtain ⟨⟨⟨-, hd⟩, hn⟩, h⟩ := h
      simp only [List.map_cons, hd, hn, ih h]

omit [DecidableEq σ] in
theorem nullFrame_of_same {tables tables' : List FromItem}
    (h : FromItem.allSame tables tables' = true) : db.nullFrame tables = db.nullFrame tables' := by
  have hjoins : ∀ {joins joins' : List Join}, Join.allSame joins joins' = true →
      joins.map (·.table) = joins'.map (·.table) := by
    intro joins joins' h
    induction joins generalizing joins' with
    | nil =>
      cases joins' with
      | nil => rfl
      | cons join' joins' => simp [Join.allSame] at h
    | cons join joins ih =>
      cases joins' with
      | nil => simp [Join.allSame] at h
      | cons join' joins' =>
        obtain ⟨k, t, p⟩ := join
        obtain ⟨k', t', p'⟩ := join'
        simp only [Join.allSame, Bool.and_eq_true, beq_iff_eq] at h
        simp only [List.map_cons, h.1.1.2, ih h.2]
  induction tables generalizing tables' with
  | nil =>
    cases tables' with
    | nil => rfl
    | cons item' tables' => simp [FromItem.allSame] at h
  | cons item tables ih =>
    cases tables' with
    | nil => simp [FromItem.allSame] at h
    | cons item' tables' =>
      obtain ⟨t, js⟩ := item
      obtain ⟨t', js'⟩ := item'
      simp only [FromItem.allSame, Bool.and_eq_true, beq_iff_eq] at h
      have ih := ih h.2
      simp only [Database.nullFrame] at ih
      simp only [Database.nullFrame, List.flatMap_cons, h.1.1, hjoins h.1.2, ih]

theorem Expression.ctorIdx_eq_of_same {e e' : Expression} (h : e.same e' = true) :
    e.ctorIdx = e'.ctorIdx := by
  unfold Expression.same at h
  split at h <;> first | rfl | cases h

theorem Condition.ctorIdx_eq_of_same {p p' : Condition} (h : p.same p' = true) :
    p.ctorIdx = p'.ctorIdx := by
  unfold Condition.same at h
  split at h <;> first | rfl | cases h

mutual

theorem Expression.meaning_of_same : ∀ (e e' : Expression), e.same e' = true →
    e.value db = e'.value db ∧ anyAggregate e.parts = anyAggregate e'.parts
  | .column q n, e', h => by
    cases e'
    case column q' n' =>
      simp only [Expression.same, Bool.and_eq_true, beq_iff_eq] at h
      obtain ⟨rfl, rfl⟩ := h
      exact ⟨rfl, rfl⟩
    all_goals cases Expression.ctorIdx_eq_of_same h
  | .literal v, e', h => by
    cases e'
    case literal v' =>
      refine ⟨?_, rfl⟩
      have hl : db.literal v = db.literal v' := by
        apply db.literal_same
        simpa only [Expression.same] using h
      funext view
      simp only [Expression.value, hl]
    all_goals cases Expression.ctorIdx_eq_of_same h
  | .parameter p, e', h => by
    cases e'
    case parameter p' =>
      simp only [Expression.same, beq_iff_eq] at h
      subst h
      exact ⟨rfl, rfl⟩
    all_goals cases Expression.ctorIdx_eq_of_same h
  | .call n as, e', h => by
    cases e'
    case call n' as' =>
      simp only [Expression.same, Bool.and_eq_true, beq_iff_eq] at h
      obtain ⟨rfl, h⟩ := h
      obtain ⟨hv, ha, -⟩ := Expression.meaning_of_allSame as as' h
      constructor
      · funext view
        simp only [Expression.value, hv]
      · simp only [Expression.parts, anyAggregate_cons, ha]
        rfl
    all_goals cases Expression.ctorIdx_eq_of_same h
  | .aggregate f d a, e', h => by
    cases e'
    case aggregate f' d' a' =>
      simp only [Expression.same, Bool.and_eq_true, beq_iff_eq] at h
      obtain ⟨⟨rfl, rfl⟩, h⟩ := h
      obtain ⟨hv, -, hs⟩ := Expression.meaning_of_optionSame a a' h
      refine ⟨?_, rfl⟩
      funext view
      simp only [Expression.value, hv, hs]
    all_goals cases Expression.ctorIdx_eq_of_same h
  | .extract u s, e', h => by
    cases e'
    case extract u' s' =>
      simp only [Expression.same, Bool.and_eq_true, beq_iff_eq] at h
      obtain ⟨rfl, h⟩ := h
      obtain ⟨hv, ha⟩ := Expression.meaning_of_same s s' h
      constructor
      · funext view
        simp only [Expression.value, hv]
      · simp only [Expression.parts, anyAggregate_cons, ha]
        rfl
    all_goals cases Expression.ctorIdx_eq_of_same h
  | .timestampAdd u m t, e', h => by
    cases e'
    case timestampAdd u' m' t' =>
      simp only [Expression.same, Bool.and_eq_true, beq_iff_eq] at h
      obtain ⟨⟨rfl, hm⟩, ht⟩ := h
      obtain ⟨hm, hma⟩ := Expression.meaning_of_same m m' hm
      obtain ⟨ht, hta⟩ := Expression.meaning_of_same t t' ht
      constructor
      · funext view
        simp only [Expression.value, hm, ht]
      · simp only [Expression.parts, anyAggregate_cons, anyAggregate_append, hma, hta]
        rfl
    all_goals cases Expression.ctorIdx_eq_of_same h
  | .timestampDiff u s f, e', h => by
    cases e'
    case timestampDiff u' s' f' =>
      simp only [Expression.same, Bool.and_eq_true, beq_iff_eq] at h
      obtain ⟨⟨rfl, hs⟩, hf⟩ := h
      obtain ⟨hs, hsa⟩ := Expression.meaning_of_same s s' hs
      obtain ⟨hf, hfa⟩ := Expression.meaning_of_same f f' hf
      constructor
      · funext view
        simp only [Expression.value, hs, hf]
      · simp only [Expression.parts, anyAggregate_cons, anyAggregate_append, hsa, hfa]
        rfl
    all_goals cases Expression.ctorIdx_eq_of_same h
  | .format s p, e', h => by
    cases e'
    case format s' p' =>
      simp only [Expression.same, Bool.and_eq_true, beq_iff_eq] at h
      obtain ⟨h, rfl⟩ := h
      obtain ⟨hv, ha⟩ := Expression.meaning_of_same s s' h
      constructor
      · funext view
        simp only [Expression.value, hv]
      · simp only [Expression.parts, anyAggregate_cons, ha]
        rfl
    all_goals cases Expression.ctorIdx_eq_of_same h
  | .binary l o r, e', h => by
    cases e'
    case binary l' o' r' =>
      simp only [Expression.same, Bool.and_eq_true, beq_iff_eq] at h
      obtain ⟨⟨hl, rfl⟩, hr⟩ := h
      obtain ⟨hl, hla⟩ := Expression.meaning_of_same l l' hl
      obtain ⟨hr, hra⟩ := Expression.meaning_of_same r r' hr
      constructor
      · funext view
        simp only [Expression.value, hl, hr]
      · simp only [Expression.parts, anyAggregate_cons, anyAggregate_append, hla, hra]
        rfl
    all_goals cases Expression.ctorIdx_eq_of_same h
  | .negate e, e', h => by
    cases e'
    case negate e' =>
      rw [Expression.same] at h
      obtain ⟨hv, ha⟩ := Expression.meaning_of_same e e' h
      constructor
      · funext view
        simp only [Expression.value, hv]
      · simp only [Expression.parts, anyAggregate_cons, ha]
        rfl
    all_goals cases Expression.ctorIdx_eq_of_same h
  | .case bs o, e', h => by
    cases e'
    case case bs' o' =>
      simp only [Expression.same, Bool.and_eq_true] at h
      obtain ⟨hb, hba⟩ := CaseBranch.meaning_of_allSame bs bs' h.1
      obtain ⟨ho, hoa, -⟩ := Expression.meaning_of_optionSame o o' h.2
      constructor
      · funext view
        simp only [Expression.value, hb, ho]
      · simp only [Expression.parts, anyAggregate_cons, anyAggregate_append, hba, hoa]
        rfl
    all_goals cases Expression.ctorIdx_eq_of_same h
  | .cast s t, e', h => by
    cases e'
    case cast s' t' =>
      simp only [Expression.same, Bool.and_eq_true, beq_iff_eq] at h
      obtain ⟨h, rfl⟩ := h
      obtain ⟨hv, ha⟩ := Expression.meaning_of_same s s' h
      constructor
      · funext view
        simp only [Expression.value, hv]
      · simp only [Expression.parts, anyAggregate_cons, ha]
        rfl
    all_goals cases Expression.ctorIdx_eq_of_same h
  | .subquery q, e', h => by
    cases e'
    case subquery q' =>
      rw [Expression.same] at h
      have hq := Query.rows_of_same q q' h
      refine ⟨?_, rfl⟩
      funext view
      simp only [Expression.value, hq]
    all_goals cases Expression.ctorIdx_eq_of_same h
  | .tuple es, e', h => by
    cases e'
    case tuple es' =>
      rw [Expression.same] at h
      obtain ⟨hv, ha, -⟩ := Expression.meaning_of_allSame es es' h
      constructor
      · funext view
        simp only [Expression.value, hv]
      · simp only [Expression.parts, anyAggregate_cons, ha]
        rfl
    all_goals cases Expression.ctorIdx_eq_of_same h
  | .star q, e', h => by
    cases e'
    case star q' =>
      simp only [Expression.same, beq_iff_eq] at h
      subst h
      exact ⟨rfl, rfl⟩
    all_goals cases Expression.ctorIdx_eq_of_same h
  termination_by structural x => x

theorem Expression.meaning_of_allSame : ∀ (es es' : List Expression),
    Expression.allSame es es' = true →
      Expression.valueAll db es = Expression.valueAll db es' ∧
        anyAggregate (Expression.partsAll es) =
          anyAggregate (Expression.partsAll es') ∧ es.isEmpty = es'.isEmpty
  | [], es', h => by
    cases es' with
    | nil => exact ⟨rfl, rfl, rfl⟩
    | cons e' rest' => simp [Expression.allSame] at h
  | e :: rest, es', h => by
    cases es' with
    | nil => simp [Expression.allSame] at h
    | cons e' rest' =>
      simp only [Expression.allSame, Bool.and_eq_true] at h
      obtain ⟨hv, ha⟩ := Expression.meaning_of_same e e' h.1
      obtain ⟨hvs, has, -⟩ := Expression.meaning_of_allSame rest rest' h.2
      refine ⟨?_, by simp only [Expression.partsAll, anyAggregate_append, ha, has], rfl⟩
      funext view
      simp only [Expression.valueAll, hv, hvs]
  termination_by structural x => x

theorem Expression.meaning_of_optionSame : ∀ (e e' : Option Expression),
    Expression.optionSame e e' = true →
      Expression.valueOption db e = Expression.valueOption db e' ∧
        anyAggregate (Expression.partsOption e) =
          anyAggregate (Expression.partsOption e') ∧ e.isSome = e'.isSome
  | none, none, _ => ⟨rfl, rfl, rfl⟩
  | none, some _, h => by simp [Expression.optionSame] at h
  | some _, none, h => by simp [Expression.optionSame] at h
  | some e, some e', h => by
    rw [Expression.optionSame] at h
    obtain ⟨hv, ha⟩ := Expression.meaning_of_same e e' h
    refine ⟨?_, ha, rfl⟩
    funext view
    simp only [Expression.valueOption, hv]
  termination_by structural x => x

theorem CaseBranch.meaning_of_allSame : ∀ (bs bs' : List (CaseBranch Condition Expression)),
    CaseBranch.allSame bs bs' = true →
      CaseBranch.valueAll db bs = CaseBranch.valueAll db bs' ∧
        anyAggregate (CaseBranch.partsAll bs) =
          anyAggregate (CaseBranch.partsAll bs')
  | [], bs', h => by
    cases bs' with
    | nil => exact ⟨rfl, rfl⟩
    | cons b' rest' => simp [CaseBranch.allSame] at h
  | ⟨p, e⟩ :: rest, bs', h => by
    cases bs' with
    | nil => simp [CaseBranch.allSame] at h
    | cons b' rest' =>
      obtain ⟨p', e'⟩ := b'
      simp only [CaseBranch.allSame, Bool.and_eq_true] at h
      obtain ⟨hp, hpa⟩ := Condition.meaning_of_same p p' h.1.1
      obtain ⟨hv, ha⟩ := Expression.meaning_of_same e e' h.1.2
      obtain ⟨hvs, has⟩ := CaseBranch.meaning_of_allSame rest rest' h.2
      constructor
      · funext view
        simp only [CaseBranch.valueAll, hp, hv, hvs]
      · simp only [CaseBranch.partsAll, anyAggregate_append, hpa, ha, has]
  termination_by structural x => x

theorem Condition.meaning_of_same : ∀ (p p' : Condition), p.same p' = true →
    p.truth db = p'.truth db ∧ anyAggregate p.parts = anyAggregate p'.parts
  | .compare l o r, p', h => by
    cases p'
    case compare l' o' r' =>
      simp only [Condition.same, Bool.and_eq_true, beq_iff_eq] at h
      obtain ⟨⟨hl, rfl⟩, hr⟩ := h
      obtain ⟨hl, hla⟩ := Expression.meaning_of_same l l' hl
      obtain ⟨hr, hra⟩ := Expression.meaning_of_same r r' hr
      constructor
      · funext view
        simp only [Condition.truth, hl, hr]
      · simp only [Condition.parts, anyAggregate_append, hla, hra]
    all_goals cases Condition.ctorIdx_eq_of_same h
  | .all ps, p', h => by
    cases p'
    case all ps' =>
      rw [Condition.same] at h
      obtain ⟨hv, ha⟩ := Condition.meaning_of_allSame ps ps' h
      refine ⟨?_, ha⟩
      funext view
      simp only [Condition.truth, hv]
    all_goals cases Condition.ctorIdx_eq_of_same h
  | .any ps, p', h => by
    cases p'
    case any ps' =>
      rw [Condition.same] at h
      obtain ⟨hv, ha⟩ := Condition.meaning_of_allSame ps ps' h
      refine ⟨?_, ha⟩
      funext view
      simp only [Condition.truth, hv]
    all_goals cases Condition.ctorIdx_eq_of_same h
  | .not p, p', h => by
    cases p'
    case not p' =>
      rw [Condition.same] at h
      obtain ⟨hv, ha⟩ := Condition.meaning_of_same p p' h
      refine ⟨?_, ha⟩
      funext view
      simp only [Condition.truth, hv]
    all_goals cases Condition.ctorIdx_eq_of_same h
  | .isNull e n, p', h => by
    cases p'
    case isNull e' n' =>
      simp only [Condition.same, Bool.and_eq_true, beq_iff_eq] at h
      obtain ⟨h, rfl⟩ := h
      obtain ⟨hv, ha⟩ := Expression.meaning_of_same e e' h
      refine ⟨?_, ha⟩
      funext view
      simp only [Condition.truth, hv]
    all_goals cases Condition.ctorIdx_eq_of_same h
  | .inList e es n, p', h => by
    cases p'
    case inList e' es' n' =>
      simp only [Condition.same, Bool.and_eq_true, beq_iff_eq] at h
      obtain ⟨⟨h, hs⟩, rfl⟩ := h
      obtain ⟨hv, ha⟩ := Expression.meaning_of_same e e' h
      obtain ⟨hvs, has, -⟩ := Expression.meaning_of_allSame es es' hs
      constructor
      · funext view
        simp only [Condition.truth, hv, hvs]
      · simp only [Condition.parts, anyAggregate_append, ha, has]
    all_goals cases Condition.ctorIdx_eq_of_same h
  | .inQuery e q n, p', h => by
    cases p'
    case inQuery e' q' n' =>
      simp only [Condition.same, Bool.and_eq_true, beq_iff_eq] at h
      obtain ⟨⟨h, hq⟩, rfl⟩ := h
      obtain ⟨hv, ha⟩ := Expression.meaning_of_same e e' h
      have hq := Query.rows_of_same q q' hq
      refine ⟨?_, ha⟩
      funext view
      simp only [Condition.truth, hv, hq]
    all_goals cases Condition.ctorIdx_eq_of_same h
  | .exists q n, p', h => by
    cases p'
    case «exists» q' n' =>
      simp only [Condition.same, Bool.and_eq_true, beq_iff_eq] at h
      obtain ⟨hq, rfl⟩ := h
      have hq := Query.rows_of_same q q' hq
      refine ⟨?_, rfl⟩
      funext view
      simp only [Condition.truth, hq]
    all_goals cases Condition.ctorIdx_eq_of_same h
  | .like e p c i n, p', h => by
    cases p'
    case like e' p' c' i' n' =>
      simp only [Condition.same, Bool.and_eq_true, beq_iff_eq] at h
      obtain ⟨⟨⟨⟨he, hp⟩, rfl⟩, rfl⟩, rfl⟩ := h
      obtain ⟨he, hea⟩ := Expression.meaning_of_same e e' he
      obtain ⟨hp, hpa⟩ := Expression.meaning_of_same p p' hp
      constructor
      · funext view
        simp only [Condition.truth, he, hp]
      · simp only [Condition.parts, anyAggregate_append, hea, hpa]
    all_goals cases Condition.ctorIdx_eq_of_same h
  | .between e l u n, p', h => by
    cases p'
    case between e' l' u' n' =>
      simp only [Condition.same, Bool.and_eq_true, beq_iff_eq] at h
      obtain ⟨⟨⟨he, hl⟩, hu⟩, rfl⟩ := h
      obtain ⟨he, hea⟩ := Expression.meaning_of_same e e' he
      obtain ⟨hl, hla⟩ := Expression.meaning_of_same l l' hl
      obtain ⟨hu, hua⟩ := Expression.meaning_of_same u u' hu
      constructor
      · funext view
        simp only [Condition.truth, he, hl, hu]
      · simp only [Condition.parts, anyAggregate_append, hea, hla, hua]
    all_goals cases Condition.ctorIdx_eq_of_same h
  | .holds e, p', h => by
    cases p'
    case holds e' =>
      rw [Condition.same] at h
      obtain ⟨hv, ha⟩ := Expression.meaning_of_same e e' h
      refine ⟨?_, ha⟩
      funext view
      simp only [Condition.truth, hv]
    all_goals cases Condition.ctorIdx_eq_of_same h
  termination_by structural x => x

theorem Condition.meaning_of_allSame : ∀ (ps ps' : List Condition),
    Condition.allSame ps ps' = true →
      Condition.truthAll db ps = Condition.truthAll db ps' ∧
        anyAggregate (Condition.partsAll ps) = anyAggregate (Condition.partsAll ps')
  | [], ps', h => by
    cases ps' with
    | nil => exact ⟨rfl, rfl⟩
    | cons p' rest' => simp [Condition.allSame] at h
  | p :: rest, ps', h => by
    cases ps' with
    | nil => simp [Condition.allSame] at h
    | cons p' rest' =>
      simp only [Condition.allSame, Bool.and_eq_true] at h
      obtain ⟨hv, ha⟩ := Condition.meaning_of_same p p' h.1
      obtain ⟨hvs, has⟩ := Condition.meaning_of_allSame rest rest' h.2
      constructor
      · funext view
        simp only [Condition.truthAll, hv, hvs]
      · simp only [Condition.partsAll, anyAggregate_append, ha, has]
  termination_by structural x => x

theorem Condition.meaning_of_optionSame : ∀ (p p' : Option Condition),
    Condition.optionSame p p' = true →
      Condition.holdsOption db p = Condition.holdsOption db p' ∧ p.isSome = p'.isSome
  | none, none, _ => ⟨rfl, rfl⟩
  | none, some _, h => by simp [Condition.optionSame] at h
  | some _, none, h => by simp [Condition.optionSame] at h
  | some p, some p', h => by
    rw [Condition.optionSame] at h
    obtain ⟨hv, -⟩ := Condition.meaning_of_same p p' h
    refine ⟨?_, rfl⟩
    funext view
    simp only [Condition.holdsOption, hv]
  termination_by structural x => x

theorem Query.rows_of_same : ∀ (q q' : Query), q.same q' = true → q.rows db = q'.rows db
  | .spec s, q', h => by
    cases q' with
    | spec s' =>
      rw [Query.same] at h
      have hs := QuerySpec.rows_of_same s s' h
      funext outer
      simp only [Query.rows, hs]
    | group o' qs' ks' l' f' => simp [Query.same] at h
  | .group o qs ks l f, q', h => by
    cases q' with
    | spec s' => simp [Query.same] at h
    | group o' qs' ks' l' f' =>
      simp only [Query.same, Bool.and_eq_true, beq_iff_eq] at h
      obtain ⟨⟨⟨⟨rfl, hq⟩, hk⟩, hl⟩, hf⟩ := h
      have hq := Query.rows_of_allSame qs qs' hq
      obtain ⟨hkv, -⟩ := SortKey.meaning_of_allSame ks ks' hk
      obtain ⟨hl, -, -⟩ := Expression.meaning_of_optionSame l l' hl
      obtain ⟨hf, -, -⟩ := Expression.meaning_of_optionSame f f' hf
      funext outer
      simp only [Query.rows, Database.finish, hq, hkv, hl, hf, sort_of_same db hk]
  termination_by structural x => x

theorem Query.rows_of_allSame : ∀ (qs qs' : List Query), Query.allSame qs qs' = true →
    Query.rowsAll db qs = Query.rowsAll db qs'
  | [], qs', h => by
    cases qs' with
    | nil => rfl
    | cons q' rest' => simp [Query.allSame] at h
  | q :: rest, qs', h => by
    cases qs' with
    | nil => simp [Query.allSame] at h
    | cons q' rest' =>
      simp only [Query.allSame, Bool.and_eq_true] at h
      have hq := Query.rows_of_same q q' h.1
      have hrest := Query.rows_of_allSame rest rest' h.2
      funext outer
      simp only [Query.rowsAll, hq, hrest]
  termination_by structural x => x

theorem QuerySpec.rows_of_same : ∀ (s s' : QuerySpec), s.same s' = true → s.rows db = s'.rows db
  | ⟨d, s, t, w, g, h, k, l, f⟩, ⟨d', s', t', w', g', h', k', l', f'⟩, hs => by
    simp only [QuerySpec.same, Bool.and_eq_true, beq_iff_eq] at hs
    obtain ⟨⟨⟨⟨⟨⟨⟨⟨rfl, hs⟩, ht⟩, hw⟩, hg⟩, hh⟩, hk⟩, hl⟩, hf⟩ := hs
    obtain ⟨hs, hsa⟩ := SelectItem.meaning_of_allSame s s' hs
    have htn := nullFrame_of_same db ht
    have ht := FromItem.frames_of_allSame t t' ht
    obtain ⟨hw, -⟩ := Condition.meaning_of_optionSame w w' hw
    obtain ⟨hg, -, hge⟩ := Expression.meaning_of_allSame g g' hg
    obtain ⟨hh, hhs⟩ := Condition.meaning_of_optionSame h h' hh
    obtain ⟨hkv, hka⟩ := SortKey.meaning_of_allSame k k' hk
    obtain ⟨hl, -, -⟩ := Expression.meaning_of_optionSame l l' hl
    obtain ⟨hf, -, -⟩ := Expression.meaning_of_optionSame f f' hf
    funext outer
    simp only [QuerySpec.rows, QuerySpec.isGrouped, Database.finish, hs, hsa, ht, htn, hw, hg, hge,
      hh, hhs, hkv, hka, hl, hf, sort_of_same db hk]
  termination_by structural x => x

theorem SelectItem.meaning_of_allSame : ∀ (is is' : List (SelectItem Expression)),
    SelectItem.allSame is is' = true →
      SelectItem.valueAll db is = SelectItem.valueAll db is' ∧
        anyAggregate (is.flatMap (·.expression.parts)) =
          anyAggregate (is'.flatMap (·.expression.parts))
  | [], is', h => by
    cases is' with
    | nil => exact ⟨rfl, rfl⟩
    | cons i' rest' => simp [SelectItem.allSame] at h
  | ⟨e, a⟩ :: rest, is', h => by
    cases is' with
    | nil => simp [SelectItem.allSame] at h
    | cons i' rest' =>
      obtain ⟨e', a'⟩ := i'
      simp only [SelectItem.allSame, Bool.and_eq_true, beq_iff_eq] at h
      obtain ⟨hv, ha⟩ := Expression.meaning_of_same e e' h.1.1
      obtain ⟨hvs, has⟩ := SelectItem.meaning_of_allSame rest rest' h.2
      constructor
      · funext view
        simp only [SelectItem.valueAll, hv, hvs]
      · simp only [List.flatMap_cons, anyAggregate_append, ha, has]
  termination_by structural x => x

theorem FromItem.frames_of_allSame : ∀ (is is' : List FromItem),
    FromItem.allSame is is' = true → FromItem.frames db is = FromItem.frames db is'
  | [], is', h => by
    cases is' with
    | nil => rfl
    | cons i' rest' => simp [FromItem.allSame] at h
  | ⟨t, js⟩ :: rest, is', h => by
    cases is' with
    | nil => simp [FromItem.allSame] at h
    | cons i' rest' =>
      obtain ⟨t', js'⟩ := i'
      simp only [FromItem.allSame, Bool.and_eq_true, beq_iff_eq] at h
      obtain ⟨⟨rfl, hj⟩, hrest⟩ := h
      have hj := Join.frames_of_allSame js js' hj
      have hrest := FromItem.frames_of_allSame rest rest' hrest
      funext outer
      simp only [FromItem.frames, hj, hrest]
  termination_by structural x => x

theorem Join.frames_of_allSame : ∀ (js js' : List Join), Join.allSame js js' = true →
    Join.frames db js = Join.frames db js'
  | [], js', h => by
    cases js' with
    | nil => rfl
    | cons j' rest' => simp [Join.allSame] at h
  | ⟨k, t, p⟩ :: rest, js', h => by
    cases js' with
    | nil => simp [Join.allSame] at h
    | cons j' rest' =>
      obtain ⟨k', t', p'⟩ := j'
      simp only [Join.allSame, Bool.and_eq_true, beq_iff_eq] at h
      obtain ⟨⟨⟨rfl, rfl⟩, hp⟩, hrest⟩ := h
      obtain ⟨hp, -⟩ := Condition.meaning_of_optionSame p p' hp
      have hrest := Join.frames_of_allSame rest rest' hrest
      funext outer nulls frames
      simp only [Join.frames, hp, hrest]
  termination_by structural x => x

theorem SortKey.meaning_of_allSame : ∀ (ks ks' : List (SortKey Expression)),
    SortKey.allSame ks ks' = true →
      SortKey.valueAll db ks = SortKey.valueAll db ks' ∧
        anyAggregate (ks.flatMap (·.expression.parts)) =
          anyAggregate (ks'.flatMap (·.expression.parts))
  | [], ks', h => by
    cases ks' with
    | nil => exact ⟨rfl, rfl⟩
    | cons k' rest' => simp [SortKey.allSame] at h
  | ⟨e, d, n⟩ :: rest, ks', h => by
    cases ks' with
    | nil => simp [SortKey.allSame] at h
    | cons k' rest' =>
      obtain ⟨e', d', n'⟩ := k'
      simp only [SortKey.allSame, Bool.and_eq_true, beq_iff_eq] at h
      obtain ⟨hv, ha⟩ := Expression.meaning_of_same e e' h.1.1.1
      obtain ⟨hvs, has⟩ := SortKey.meaning_of_allSame rest rest' h.2
      constructor
      · funext view
        simp only [SortKey.valueAll, hv, hvs]
      · simp only [List.flatMap_cons, anyAggregate_append, ha, has]
  termination_by structural x => x

end

end SqlDialects.Sql
