import SqlDialects.Proofs.Lowering.Course

/-!
# Aggregates beside counted collections

A query with an aggregate of its own counts no collection by a join, as far as the aggregate is
found. The search for it goes through all operands but not through the conditions of branches.
-/

namespace SqlDialects.Entity

/-! ## Where aggregates stand -/

def Node.IsAggregate : Node → Prop
  | .expression (.aggregate _ _ _) => True
  | _ => False

namespace Expression

/-- An aggregate stands in the expression, neither in a nested query nor in the condition of a
branch. -/
inductive ShowsAggregate : Expression → Prop
  | aggregate (function : AggregateFunction) (isDistinct : Bool) (argument : Option Expression) :
    ShowsAggregate (.aggregate function isDistinct argument)
  | operand {e e' : Expression} (he : .expression e' ∈ e.children) (h : e'.ShowsAggregate) :
    ShowsAggregate e

/-- An aggregate stands in the condition of a branch. -/
inductive BranchesOnAggregate : Expression → Prop
  | branch {branches : List (CaseBranch Condition Expression)} {otherwise : Option Expression}
    {branch : CaseBranch Condition Expression} (hb : branch ∈ branches)
    (h : (Node.condition branch.condition).Holds Node.IsAggregate) :
    BranchesOnAggregate (.case branches otherwise)
  | operand {e e' : Expression} (he : .expression e' ∈ e.children) (h : e'.BranchesOnAggregate) :
    BranchesOnAggregate e

theorem showsAggregate_iff {e : Expression}
    (ha : ∀ function isDistinct argument, e ≠ .aggregate function isDistinct argument) :
    e.ShowsAggregate ↔ ∃ e', .expression e' ∈ e.children ∧ e'.ShowsAggregate := by
  constructor
  · rintro (⟨function, isDistinct, argument⟩ | ⟨he, h⟩)
    · exact absurd rfl (ha function isDistinct argument)
    · exact ⟨_, he, h⟩
  · rintro ⟨e', he, h⟩
    exact .operand he h

theorem mem_children_case {branches : List (CaseBranch Condition Expression)}
    {otherwise : Option Expression} {e : Expression} :
    .expression e ∈ (case branches otherwise).children ↔
      (∃ branch ∈ branches, branch.result = e) ∨ e ∈ otherwise := by
  simp only [children, CaseBranch.nodes, List.mem_append, List.mem_flatMap, List.mem_cons,
    List.mem_map, Option.mem_toList, List.not_mem_nil, or_false, reduceCtorEq, false_or,
    Node.expression.injEq, exists_eq_right, eq_comm (a := e), Option.mem_def]

/-- Conditions below an expression are those of branches. -/
theorem exists_branch_of_mem_children {e : Expression} {p : Condition}
    (h : .condition p ∈ e.children) :
    ∃ branches otherwise, ∃ branch ∈ branches, e = .case branches otherwise ∧
      branch.condition = p := by
  cases e
  case case branches otherwise =>
    simp only [children, List.mem_append, List.mem_flatMap, List.mem_map, CaseBranch.nodes] at h
    rcases h with ⟨branch, hb, h⟩ | ⟨e, -, h⟩
    · exact ⟨branches, otherwise, branch, hb, rfl, by simpa [eq_comm] using h⟩
    · cases h
  all_goals simp [children] at h

end Expression

mutual

theorem Expression.containsAggregate_iff : ∀ e : Expression,
    e.containsAggregate = true ↔ e.ShowsAggregate
  | .aggregate function isDistinct argument => by
    simp only [Expression.containsAggregate, true_iff]
    exact .aggregate function isDistinct argument
  | .path _ | .literal _ | .parameter _ | .subquery _ | .size _ => by
    simp [Expression.containsAggregate, Expression.showsAggregate_iff, Expression.children]
  | .call _ items | .tuple items => by
    simp [Expression.containsAggregate, Expression.showsAggregate_iff, Expression.children,
      Expression.anyContainsAggregate_iff items]
  | .extract _ e | .format e _ | .cast e _ | .negate e => by
    simp [Expression.containsAggregate, Expression.showsAggregate_iff, Expression.children,
      e.containsAggregate_iff]
  | .timestampAdd _ e e' | .timestampDiff _ e e' | .binary e _ e' => by
    simp [Expression.containsAggregate, Expression.showsAggregate_iff, Expression.children,
      e.containsAggregate_iff, e'.containsAggregate_iff]
  | .case branches otherwise => by
    have hotherwise := Expression.optionContainsAggregate_iff otherwise
    have hbranches := CaseBranch.anyContainsAggregate_iff branches
    rw [Expression.containsAggregate, Bool.or_eq_true, hbranches, hotherwise,
      Expression.showsAggregate_iff (by simp)]
    simp only [Expression.mem_children_case, or_and_right, exists_or]
    refine or_congr ?_ Iff.rfl
    grind

theorem Expression.anyContainsAggregate_iff : ∀ es : List Expression,
    Expression.anyContainsAggregate es = true ↔ ∃ e ∈ es, e.ShowsAggregate
  | [] => by simp [Expression.anyContainsAggregate]
  | e :: rest => by
    simp [Expression.anyContainsAggregate, e.containsAggregate_iff,
      Expression.anyContainsAggregate_iff rest]

theorem Expression.optionContainsAggregate_iff : ∀ e : Option Expression,
    Expression.optionContainsAggregate e = true ↔ ∃ e' ∈ e, e'.ShowsAggregate
  | none => by simp [Expression.optionContainsAggregate]
  | some e => by simp [Expression.optionContainsAggregate, e.containsAggregate_iff]

theorem CaseBranch.anyContainsAggregate_iff : ∀ branches : List (CaseBranch Condition Expression),
    CaseBranch.anyContainsAggregate branches = true ↔
      ∃ branch ∈ branches, branch.result.ShowsAggregate
  | [] => by simp [CaseBranch.anyContainsAggregate]
  | ⟨_, result⟩ :: rest => by
    simp [CaseBranch.anyContainsAggregate, result.containsAggregate_iff,
      CaseBranch.anyContainsAggregate_iff rest]

end

/-- What the search misses stands in the condition of a branch. -/
theorem Expression.holdsAggregate_iff (e : Expression) :
    (Node.expression e).Holds Node.IsAggregate ↔ e.ShowsAggregate ∨ e.BranchesOnAggregate := by
  constructor
  · intro h
    generalize hn : Node.expression e = n at h
    induction h generalizing e with
    | here h =>
      subst hn
      cases e
      case aggregate function isDistinct argument => exact .inl (.aggregate ..)
      all_goals cases h
    | condition => cases hn
    | @expression e' m hm h ih =>
      cases hn
      cases m with
      | expression e' => exact (ih e' rfl).imp (.operand hm) (.operand hm)
      | condition p =>
        obtain ⟨branches, otherwise, branch, hb, rfl, rfl⟩ := exists_branch_of_mem_children hm
        exact .inr (.branch hb h)
      | query => cases Node.holds_query_iff.1 h
  · rintro (h | h)
    · induction h with
      | aggregate => exact .here trivial
      | operand he _ ih => exact .expression he ih
    · induction h with
      | operand he _ ih => exact .expression he ih
      | @branch branches otherwise branch hb h =>
        refine .expression (m := .condition branch.condition) ?_ h
        exact List.mem_append_left _ (List.mem_flatMap.2 ⟨branch, hb, List.mem_cons_self⟩)

/-! ## Queries with groups -/

variable {c : LoweringContext} {model : Mapping.Model} {s t : LoweringState}

/-- A query with groups of its own counts no more collections than before. -/
def Scope.Calm (scope scope' : Scope) : Prop :=
  scope'.isGrouped = scope.isGrouped ∧
    (scope.isGrouped = true → scope'.countedCollections = scope.countedCollections)

theorem Scope.Calm.refl (scope : Scope) : scope.Calm scope := ⟨rfl, fun _ => rfl⟩

theorem Scope.Calm.trans {scope scope' scope'' : Scope} (h : scope.Calm scope')
    (h' : scope'.Calm scope'') : scope.Calm scope'' :=
  ⟨h'.1.trans h.1, fun hg => (h'.2 (h.1.trans hg)).trans (h.2 hg)⟩

/-- Nothing is counted. -/
theorem calm_of_counts (hk : t.kinds = s.kinds) (hc : t.counts = s.counts) :
    List.Forall₂ Scope.Calm s.scopes t.scopes := by
  refine List.forall₂_iff_get.2 ⟨?_, fun i h h' => ?_⟩
  · simpa [LoweringState.counts] using congrArg List.length hc.symm
  · have hkind := congrArg (·[i]?) hk
    have hcount := congrArg (·[i]?) hc
    simp only [LoweringState.kinds, LoweringState.counts, List.getElem?_map,
      List.getElem?_eq_getElem h, List.getElem?_eq_getElem h', Option.map_some, Option.some.injEq,
      Prod.mk.injEq] at hkind hcount
    exact ⟨hkind.2, fun _ => hcount⟩

/-- A collection is counted by a join only where the query has no groups. -/
theorem lowerSize_calm {path : Path} {e : Sql.Expression}
    (h : lowerSize c path s = .ok (e, t)) : List.Forall₂ Scope.Calm s.scopes t.scopes := by
  obtain ⟨_, place, u, collection, element, -, hn, -, -, h⟩ := lowerSize_ok_iff.1 h
  obtain ⟨_, hu, rfl, -⟩ := navigate_makes hn
  have hcalm := calm_of_counts (navigate_kinds hn) (by rw [hu.counts, addCounts_zero])
  refine forall₂_trans (P := Scope.Calm) (Q := Scope.Calm) (fun _ _ _ => Scope.Calm.trans) hcalm ?_
  split at h
  case isTrue =>
    obtain ⟨scope, hd, hg, -, -, -, rfl⟩ := countJoined_ok h
    exact forall₂_modify Scope.Calm.refl hd ⟨rfl, fun hgrouped => by simp [hg] at hgrouped⟩
  case isFalse =>
    obtain ⟨-, rfl⟩ := h
    exact List.forall₂_same.2 fun scope _ => .refl scope

theorem Course.calm (h : Course model s t) : List.Forall₂ Scope.Calm s.scopes t.scopes := by
  induction h with
  | refl => exact List.forall₂_same.2 fun scope _ => .refl scope
  | trans _ _ ih ih' =>
    exact forall₂_trans (P := Scope.Calm) (Q := Scope.Calm) (fun _ _ _ => Scope.Calm.trans) ih ih'
  | navigate _ h =>
    obtain ⟨_, ht, rfl, -⟩ := navigate_makes h
    exact calm_of_counts (navigate_kinds h) (by rw [ht.counts, addCounts_zero])
  | size _ _ h => exact lowerSize_calm h
  | query _ hr _ ih =>
    obtain ⟨scope, hu, -⟩ := lowerRoots_scopes hr
    rw [hu] at ih
    exact (List.forall₂_cons.1 ih).2

/-- A query that counts by joins has no groups of its own. -/
theorem QuerySpec.isGrouped_of_countsByJoins {source : QuerySpec} {d : Dialect}
    {spec : Sql.QuerySpec} (h : source.LowersTo d model spec) (hcounts : source.CountsByJoins d) :
    isGrouped source.select source.groupBy source.having = false := by
  obtain ⟨isDistinct, select, roots, condition, groupBy, having, orderBy, limit, offset⟩ := source
  obtain ⟨s, t, hrun⟩ := h
  obtain ⟨hd, item, hi, hsize⟩ := hcounts
  obtain ⟨s₀, select', s₁, -, -, -, -, -, -, -, -, -, -, -, -, -, -, h₀, h₁, -⟩ :=
    QuerySpec.lower_ok_iff.1 hrun
  have hkinds := (lowerRoots_binds h₀).kinds
  have hq : s₀.InQuery := LoweringState.inQuery_of_kinds hkinds ⟨_, rfl, rfl⟩
  obtain ⟨scope, hscope, -⟩ := id hq
  obtain ⟨-, hgrouped⟩ := LoweringState.kinds_cons hkinds hscope
  obtain ⟨n, htallies, hbuilt⟩ :=
    SelectItem.lowerAll_built select (c := { dialect := d, model }) h₁
  have hn : n ≠ 0 := hbuilt.built.counted.2
    ⟨by simp [LoweringContext.countsByJoins, LoweringContext.inSelect, hd], _,
      List.mem_map.2 ⟨item, hi, rfl⟩, hsize⟩
  obtain ⟨⟨hcourse, -⟩, -⟩ := SelectItem.lowerAll_runs select
    (c := LoweringContext.inSelect { dialect := d, model }) (fun _ => hq) h₁
  obtain ⟨scope', hscope', -, hcalm⟩ := forall₂_getElem? hcourse.calm hscope
  by_contra hg
  have hsame := hcalm (hgrouped.trans (Bool.not_eq_false _ ▸ hg))
  have hcount := congrArg (·[0]?) htallies.counts
  simp [LoweringState.counts, addCounts, hscope, hscope'] at hcount
  omega

/-- Aggregates are found where they stand outside of nested queries and of the conditions of
branches. A query that counts collections by joins has no keys and no condition on groups, and
selects no expression in which an aggregate is found. -/
theorem QuerySpec.lower_counts_without_aggregate (e : Expression) :
    (e.containsAggregate = true ↔ e.ShowsAggregate) ∧
    ((Node.expression e).Holds Node.IsAggregate ↔ e.ShowsAggregate ∨ e.BranchesOnAggregate) ∧
    ∀ (source : QuerySpec) (d : Dialect) (model : Mapping.Model) (spec : Sql.QuerySpec),
      source.LowersTo d model spec → source.CountsByJoins d →
        source.groupBy = [] ∧ source.having = none ∧
          (e ∈ source.select.map (·.expression) → ¬ e.ShowsAggregate) := by
  refine ⟨e.containsAggregate_iff, e.holdsAggregate_iff, ?_⟩
  intro source d model spec h hcounts
  have hgrouped := isGrouped_of_countsByJoins h hcounts
  simp only [isGrouped, Bool.or_eq_false_iff, Bool.not_eq_false', List.isEmpty_iff,
    List.any_eq_false] at hgrouped
  obtain ⟨⟨hkeys, hhaving⟩, hselect⟩ := hgrouped
  refine ⟨hkeys, by simpa using hhaving, fun hmem ha => ?_⟩
  obtain ⟨item, hi, rfl⟩ := List.mem_map.1 hmem
  exact hselect item hi (item.expression.containsAggregate_iff.2 ha)

/-- Whether there is more than one name, beside the number of nicknames. -/
def namesBesideNicknames : QuerySpec where
  select :=
    [⟨.case [⟨.compare (.aggregate .count false (some (.path ⟨"p", ["name"]⟩))) .greater
        (.literal (.integer 1)), .literal (.integer 1)⟩] none, none⟩,
      ⟨.size ⟨"p", ["nicknames"]⟩, none⟩]
  roots := [⟨"Person", "p", []⟩]

/-- The nicknames are counted by a join, although an aggregate is selected beside them. -/
theorem namesBesideNicknames_counted : ∃ spec,
    namesBesideNicknames.LowersTo (Dialect.ofProduct .ingres ⟨9, 3, 0⟩) peopleModel spec ∧
    namesBesideNicknames.CountsByJoins (Dialect.ofProduct .ingres ⟨9, 3, 0⟩) ∧
    ∃ e ∈ namesBesideNicknames.select.map (·.expression),
      (Node.expression e).Holds Node.IsAggregate ∧ ¬ e.ShowsAggregate := by
  have hlowered : ∃ lowered, (Statement.select (.spec namesBesideNicknames) none).lower
      (Dialect.ofProduct .ingres ⟨9, 3, 0⟩) peopleModel = .ok lowered ∧ () = () :=
    exists_lowered (by decide +kernel)
  obtain ⟨lowered, h, -⟩ := hlowered
  obtain ⟨spec, -, hlowers, -⟩ := Statement.lower_select_spec h
  have hcounts : namesBesideNicknames.CountsByJoins (Dialect.ofProduct .ingres ⟨9, 3, 0⟩) :=
    ⟨by decide +kernel, _, List.mem_cons_of_mem _ (List.mem_singleton.2 rfl), .size _⟩
  refine ⟨spec, hlowers, hcounts, _, List.mem_cons_self, ?_⟩
  obtain ⟨-, hholds, hnone⟩ := QuerySpec.lower_counts_without_aggregate _
  exact ⟨hholds.2 (.inr (.branch (List.mem_singleton.2 rfl) (.condition List.mem_cons_self
    (.here trivial)))), (hnone _ _ _ _ hlowers hcounts).2.2 List.mem_cons_self⟩

end SqlDialects.Entity
