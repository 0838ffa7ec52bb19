import SqlDialects.Proofs.Sameness
import SqlDialects.Proofs.Counting.Rows

/-!
# Columns outside of aggregates

Where rows are grouped, a column that stands in no aggregate has to be the same for all rows of a
group. Nested queries have rows of their own and are not looked at.
-/

namespace SqlDialects.Sql

open Entity (groupByOwners)

/-! ## Columns -/

mutual

/-- The columns that stand in the expression outside of aggregates and of nested queries. -/
def Expression.bareColumns : Expression → List (Option String × String)
  | .column qualifier name => [(qualifier, name)]
  | .literal _ | .parameter _ | .star _ | .aggregate _ _ _ | .subquery _ => []
  | .call _ items | .tuple items => Expression.bareColumnsAll items
  | .extract _ source | .format source _ | .cast source _ => source.bareColumns
  | .timestampAdd _ magnitude timestamp => magnitude.bareColumns ++ timestamp.bareColumns
  | .timestampDiff _ start finish => start.bareColumns ++ finish.bareColumns
  | .binary left _ right => left.bareColumns ++ right.bareColumns
  | .negate operand => operand.bareColumns
  | .case branches otherwise =>
    CaseBranch.bareColumnsAll branches ++ Expression.bareColumnsOption otherwise

def Expression.bareColumnsAll : List Expression → List (Option String × String)
  | [] => []
  | e :: rest => e.bareColumns ++ Expression.bareColumnsAll rest

def Expression.bareColumnsOption : Option Expression → List (Option String × String)
  | none => []
  | some e => e.bareColumns

def CaseBranch.bareColumnsAll :
    List (CaseBranch Condition Expression) → List (Option String × String)
  | [] => []
  | ⟨condition, result⟩ :: rest =>
    (condition.bareColumns ++ result.bareColumns) ++ CaseBranch.bareColumnsAll rest

def Condition.bareColumns : Condition → List (Option String × String)
  | .compare left _ right => left.bareColumns ++ right.bareColumns
  | .all items | .any items => Condition.bareColumnsAll items
  | .not operand => operand.bareColumns
  | .isNull operand _ | .holds operand | .inQuery operand _ _ => operand.bareColumns
  | .inList operand items _ => operand.bareColumns ++ Expression.bareColumnsAll items
  | .exists _ _ => []
  | .like operand pattern _ _ _ => operand.bareColumns ++ pattern.bareColumns
  | .between operand low high _ =>
    operand.bareColumns ++ (low.bareColumns ++ high.bareColumns)

def Condition.bareColumnsAll : List Condition → List (Option String × String)
  | [] => []
  | p :: rest => p.bareColumns ++ Condition.bareColumnsAll rest

end

/-! ## Same trees -/

mutual

theorem Expression.bareColumns_of_same : ∀ (e e' : Expression), e.same e' = true →
    e.bareColumns = e'.bareColumns
  | .column q n, e', h => by
    cases e'
    case column q' n' =>
      simp only [Expression.same, Bool.and_eq_true, beq_iff_eq] at h
      rw [h.1, h.2]
    all_goals cases Expression.ctorIdx_eq_of_same h
  | .literal v, e', h => by
    cases e'
    case literal v' => rfl
    all_goals cases Expression.ctorIdx_eq_of_same h
  | .parameter p, e', h => by
    cases e'
    case parameter p' => rfl
    all_goals cases Expression.ctorIdx_eq_of_same h
  | .call n as, e', h => by
    cases e'
    case call n' as' =>
      simp only [Expression.same, Bool.and_eq_true] at h
      exact Expression.bareColumnsAll_of_same as as' h.2
    all_goals cases Expression.ctorIdx_eq_of_same h
  | .aggregate f d a, e', h => by
    cases e'
    case aggregate f' d' a' => rfl
    all_goals cases Expression.ctorIdx_eq_of_same h
  | .extract u s, e', h => by
    cases e'
    case extract u' s' =>
      simp only [Expression.same, Bool.and_eq_true] at h
      exact s.bareColumns_of_same s' h.2
    all_goals cases Expression.ctorIdx_eq_of_same h
  | .timestampAdd u m t, e', h => by
    cases e'
    case timestampAdd u' m' t' =>
      simp only [Expression.same, Bool.and_eq_true] at h
      simp only [Expression.bareColumns, m.bareColumns_of_same m' h.1.2,
        t.bareColumns_of_same t' h.2]
    all_goals cases Expression.ctorIdx_eq_of_same h
  | .timestampDiff u s f, e', h => by
    cases e'
    case timestampDiff u' s' f' =>
      simp only [Expression.same, Bool.and_eq_true] at h
      simp only [Expression.bareColumns, s.bareColumns_of_same s' h.1.2,
        f.bareColumns_of_same f' h.2]
    all_goals cases Expression.ctorIdx_eq_of_same h
  | .format s p, e', h => by
    cases e'
    case format s' p' =>
      simp only [Expression.same, Bool.and_eq_true] at h
      exact s.bareColumns_of_same s' h.1
    all_goals cases Expression.ctorIdx_eq_of_same h
  | .binary l o r, e', h => by
    cases e'
    case binary l' o' r' =>
      simp only [Expression.same, Bool.and_eq_true] at h
      simp only [Expression.bareColumns, l.bareColumns_of_same l' h.1.1,
        r.bareColumns_of_same r' h.2]
    all_goals cases Expression.ctorIdx_eq_of_same h
  | .negate e, e', h => by
    cases e'
    case negate e' =>
      rw [Expression.same] at h
      exact e.bareColumns_of_same e' h
    all_goals cases Expression.ctorIdx_eq_of_same h
  | .case bs o, e', h => by
    cases e'
    case case bs' o' =>
      simp only [Expression.same, Bool.and_eq_true] at h
      simp only [Expression.bareColumns, CaseBranch.bareColumnsAll_of_same bs bs' h.1,
        Expression.bareColumnsOption_of_same o o' h.2]
    all_goals cases Expression.ctorIdx_eq_of_same h
  | .cast s t, e', h => by
    cases e'
    case cast s' t' =>
      simp only [Expression.same, Bool.and_eq_true] at h
      exact s.bareColumns_of_same s' h.1
    all_goals cases Expression.ctorIdx_eq_of_same h
  | .subquery q, e', h => by
    cases e'
    case subquery q' => rfl
    all_goals cases Expression.ctorIdx_eq_of_same h
  | .tuple es, e', h => by
    cases e'
    case tuple es' =>
      rw [Expression.same] at h
      exact Expression.bareColumnsAll_of_same es es' h
    all_goals cases Expression.ctorIdx_eq_of_same h
  | .star q, e', h => by
    cases e'
    case star q' => rfl
    all_goals cases Expression.ctorIdx_eq_of_same h

theorem Expression.bareColumnsAll_of_same : ∀ es es' : List Expression,
    Expression.allSame es es' = true →
      Expression.bareColumnsAll es = Expression.bareColumnsAll es'
  | [], [], _ => rfl
  | [], _ :: _, h => by simp [Expression.allSame] at h
  | _ :: _, [], h => by simp [Expression.allSame] at h
  | e :: es, e' :: es', h => by
    simp only [Expression.allSame, Bool.and_eq_true] at h
    simp only [Expression.bareColumnsAll, e.bareColumns_of_same e' h.1,
      Expression.bareColumnsAll_of_same es es' h.2]

theorem Expression.bareColumnsOption_of_same : ∀ o o' : Option Expression,
    Expression.optionSame o o' = true →
      Expression.bareColumnsOption o = Expression.bareColumnsOption o'
  | none, none, _ => rfl
  | none, some _, h => by simp [Expression.optionSame] at h
  | some _, none, h => by simp [Expression.optionSame] at h
  | some e, some e', h => by
    rw [Expression.optionSame] at h
    exact e.bareColumns_of_same e' h

theorem CaseBranch.bareColumnsAll_of_same : ∀ bs bs' : List (CaseBranch Condition Expression),
    CaseBranch.allSame bs bs' = true →
      CaseBranch.bareColumnsAll bs = CaseBranch.bareColumnsAll bs'
  | [], [], _ => rfl
  | [], _ :: _, h => by simp [CaseBranch.allSame] at h
  | _ :: _, [], h => by simp [CaseBranch.allSame] at h
  | ⟨p, e⟩ :: bs, ⟨p', e'⟩ :: bs', h => by
    simp only [CaseBranch.allSame, Bool.and_eq_true] at h
    simp only [CaseBranch.bareColumnsAll, p.bareColumns_of_same p' h.1.1,
      e.bareColumns_of_same e' h.1.2, CaseBranch.bareColumnsAll_of_same bs bs' h.2]

theorem Condition.bareColumns_of_same : ∀ (p p' : Condition), p.same p' = true →
    p.bareColumns = p'.bareColumns
  | .compare l o r, p', h => by
    cases p'
    case compare l' o' r' =>
      simp only [Condition.same, Bool.and_eq_true] at h
      simp only [Condition.bareColumns, l.bareColumns_of_same l' h.1.1,
        r.bareColumns_of_same r' h.2]
    all_goals cases Condition.ctorIdx_eq_of_same h
  | .all ps, p', h => by
    cases p'
    case all ps' =>
      rw [Condition.same] at h
      exact Condition.bareColumnsAll_of_same ps ps' h
    all_goals cases Condition.ctorIdx_eq_of_same h
  | .any ps, p', h => by
    cases p'
    case any ps' =>
      rw [Condition.same] at h
      exact Condition.bareColumnsAll_of_same ps ps' h
    all_goals cases Condition.ctorIdx_eq_of_same h
  | .not p, p', h => by
    cases p'
    case not p' =>
      rw [Condition.same] at h
      exact p.bareColumns_of_same p' h
    all_goals cases Condition.ctorIdx_eq_of_same h
  | .isNull e n, p', h => by
    cases p'
    case isNull e' n' =>
      simp only [Condition.same, Bool.and_eq_true] at h
      exact e.bareColumns_of_same e' h.1
    all_goals cases Condition.ctorIdx_eq_of_same h
  | .inList e es n, p', h => by
    cases p'
    case inList e' es' n' =>
      simp only [Condition.same, Bool.and_eq_true] at h
      simp only [Condition.bareColumns, e.bareColumns_of_same e' h.1.1,
        Expression.bareColumnsAll_of_same es es' h.1.2]
    all_goals cases Condition.ctorIdx_eq_of_same h
  | .inQuery e q n, p', h => by
    cases p'
    case inQuery e' q' n' =>
      simp only [Condition.same, Bool.and_eq_true] at h
      exact e.bareColumns_of_same e' h.1.1
    all_goals cases Condition.ctorIdx_eq_of_same h
  | .exists q n, p', h => by
    cases p'
    case «exists» q' n' => rfl
    all_goals cases Condition.ctorIdx_eq_of_same h
  | .like e f c i n, p', h => by
    cases p'
    case like e' f' c' i' n' =>
      simp only [Condition.same, Bool.and_eq_true] at h
      simp only [Condition.bareColumns, e.bareColumns_of_same e' h.1.1.1.1,
        f.bareColumns_of_same f' h.1.1.1.2]
    all_goals cases Condition.ctorIdx_eq_of_same h
  | .between e l u n, p', h => by
    cases p'
    case between e' l' u' n' =>
      simp only [Condition.same, Bool.and_eq_true] at h
      simp only [Condition.bareColumns, e.bareColumns_of_same e' h.1.1.1,
        l.bareColumns_of_same l' h.1.1.2, u.bareColumns_of_same u' h.1.2]
    all_goals cases Condition.ctorIdx_eq_of_same h
  | .holds e, p', h => by
    cases p'
    case holds e' =>
      rw [Condition.same] at h
      exact e.bareColumns_of_same e' h
    all_goals cases Condition.ctorIdx_eq_of_same h

theorem Condition.bareColumnsAll_of_same : ∀ ps ps' : List Condition,
    Condition.allSame ps ps' = true →
      Condition.bareColumnsAll ps = Condition.bareColumnsAll ps'
  | [], [], _ => rfl
  | [], _ :: _, h => by simp [Condition.allSame] at h
  | _ :: _, [], h => by simp [Condition.allSame] at h
  | p :: ps, p' :: ps', h => by
    simp only [Condition.allSame, Bool.and_eq_true] at h
    simp only [Condition.bareColumnsAll, p.bareColumns_of_same p' h.1,
      Condition.bareColumnsAll_of_same ps ps' h.2]

end

/-! ## Keys of a group -/

namespace QuerySpec

def groupedColumns (spec : QuerySpec) : List (Option String × String) :=
  spec.groupBy.flatMap (·.bareColumns)

/-- Each column of the select list and the order stands in an aggregate, in a nested query or in a
key of the group, too. -/
def GroupsColumns (spec : QuerySpec) : Prop :=
  (∀ item ∈ spec.select, item.expression.bareColumns ⊆ spec.groupedColumns) ∧
    ∀ key ∈ spec.orderBy, key.expression.bareColumns ⊆ spec.groupedColumns

instance (spec : QuerySpec) : Decidable spec.GroupsColumns :=
  inferInstanceAs (Decidable (_ ∧ _))

end QuerySpec

theorem owner_mem_groupByOwners {owners : List (String × String)} {plain : List Expression}
    {owner : String × String} (h : owner ∈ owners) :
    .of owner.1 owner.2 ∈ groupByOwners owners plain := by
  have hfold : ∀ (es keys : List Expression), keys ⊆
      es.foldl (fun keys e => if keys.any (·.same e) then keys else keys ++ [e]) keys := by
    intro es
    induction es with
    | nil => exact fun keys => List.Subset.refl keys
    | cons e rest ih =>
      intro keys
      rw [List.foldl_cons]
      refine List.Subset.trans ?_ (ih _)
      split
      · exact List.Subset.refl keys
      · exact List.subset_append_left keys [e]
  exact hfold plain _ (List.mem_map_of_mem h)

/-- The columns of a value that is given as a key are columns of a key, also if another key is the
same. -/
theorem bareColumns_subset_groupByOwners {owners : List (String × String)}
    {plain : List Expression} {e : Expression} (h : e ∈ plain) :
    e.bareColumns ⊆ (groupByOwners owners plain).flatMap (·.bareColumns) := by
  intro column hc
  by_contra hnot
  have hkeys : ∀ key ∈ groupByOwners owners plain, column ∉ key.bareColumns :=
    fun key hkey hmem => hnot (List.mem_flatMap.2 ⟨key, hkey, hmem⟩)
  have hsame (e e' : Expression) (h : e.same e' = true) (he : column ∉ e.bareColumns) :
      column ∉ e'.bareColumns := e.bareColumns_of_same e' h ▸ he
  exact ((forall_mem_groupByOwners hsame).1 hkeys).2 e h hc

end SqlDialects.Sql
