import SqlDialects.Entity.Lowering.Tree
import SqlDialects.Proofs.Lowering.Aliases
import SqlDialects.Proofs.Lowering.Occurrences
import SqlDialects.Proofs.Lowering.Outcomes

/-!
# What the lowering checks

Before it makes a tree, the lowering asks its dialect for what the tree will need. Nothing is made
that would be refused later for one of these needs, except that the size of a collection to the left
of `in` becomes a subquery after the check.
-/

namespace SqlDialects

/-! ## Nodes that have been checked -/

namespace Sql

/-- What has been checked of a node where it stands. Sizes to the left of `in` have not been. -/
def Node.Checked (d : Dialect) (asksSize : Prop) (isInner : Bool) : Node → Prop
  | .expression e => ∀ name arguments, e = .call name arguments →
    ∃ template, d.function name = .ok template ∧ template.takes arguments.length = true
  | .condition p =>
    (∀ items, p.member? = some (.tuple items) →
      d.supports .subselectAsInPredicateLhs = true) ∧
    ∀ query, p.member? = some (.subquery query) →
      d.supports .subselectAsInPredicateLhs = true ∨ asksSize
  | .query q =>
    (∀ parts orderBy limit offset, q = .group .unionAll parts orderBy limit offset →
      d.supports .unionAll = true) ∧
    (isInner = true → q.isGroup = true → d.supports .unionInSubquery = true) ∧
    (isInner = true → q.orderBy ≠ [] → q.isPaginated = true →
      d.supports .orderByInSubquery = true)

/-- The node and all below it have been checked, wherever the node stands. A query stands in
another statement. -/
def Node.Cleared (d : Dialect) (asksSize : Prop) (n : Node) : Prop :=
  ∀ isInner, (n.isQuery = true → isInner = true) → n.Throughout (Node.Checked d asksSize) isInner

variable {d : Dialect} {asksSize : Prop}

theorem Node.cleared_of_children {n : Node} (hn : n.isQuery = false)
    (here : ∀ isInner, n.Checked d asksSize isInner)
    (below : ∀ m ∈ n.children, m.Cleared d asksSize) : n.Cleared d asksSize := by
  refine fun isInner _ => .node (here isInner) fun m hm => below m hm _ fun hm => ?_
  simp [hn, hm]

theorem Node.cleared_query {q : Query}
    (h : (Node.query q).Throughout (Node.Checked d asksSize) true) :
    (Node.query q).Cleared d asksSize := by
  intro isInner hinner
  rw [hinner rfl]
  exact h

theorem QuerySpec.isQuery_of_mem_children {spec : QuerySpec} {n : Node} (h : n ∈ spec.children) :
    n.isQuery = false := by
  rcases List.mem_append.1 h with h | h <;> obtain ⟨_, -, rfl⟩ := List.mem_map.1 h <;> rfl

namespace Expression

variable {e : Expression}

theorem cleared_of_children (h : ∀ name arguments, e ≠ .call name arguments)
    (below : ∀ m ∈ e.children, m.Cleared d asksSize) :
    (Node.expression e).Cleared d asksSize :=
  Node.cleared_of_children rfl
    (fun _ name arguments he => absurd he (h name arguments)) below

theorem IsColumn.cleared (h : e.IsColumn) : (Node.expression e).Cleared d asksSize := by
  obtain ⟨aliasName, column, rfl⟩ := h
  exact cleared_of_children nofun nofun

end Expression

namespace Condition

variable {p : Condition}

theorem cleared_of_children (h : p.member? = none)
    (below : ∀ m ∈ p.children, m.Cleared d asksSize) :
    (Node.condition p).Cleared d asksSize :=
  Node.cleared_of_children rfl (fun _ => ⟨by simp [h], by simp [h]⟩) below

end Condition

theorem Join.ComparesColumns.cleared {join : Join} (h : join.ComparesColumns) :
    ∀ p ∈ join.on, (Node.condition p).Cleared d asksSize := by
  intro p hp
  obtain ⟨left, right, hleft, hright, rfl⟩ := h p hp
  exact Condition.cleared_of_children rfl
    (List.forall_mem_cons.2 ⟨hleft.cleared, List.forall_mem_singleton.2 hright.cleared⟩)

theorem QuerySpec.cleared_children {spec : QuerySpec}
    (hselect : ∀ item ∈ spec.select, (Node.expression item.expression).Cleared d asksSize)
    (htables : ∀ table ∈ spec.tables, ∀ join ∈ table.joins, join.ComparesColumns)
    (hcondition : ∀ p ∈ spec.condition, (Node.condition p).Cleared d asksSize)
    (hgroup : ∀ e ∈ spec.groupBy, (Node.expression e).Cleared d asksSize)
    (hhaving : ∀ p ∈ spec.having, (Node.condition p).Cleared d asksSize)
    (horder : ∀ key ∈ spec.orderBy, (Node.expression key.expression).Cleared d asksSize)
    (hlimit : ∀ e ∈ spec.limit, (Node.expression e).Cleared d asksSize)
    (hoffset : ∀ e ∈ spec.offset, (Node.expression e).Cleared d asksSize) :
    ∀ n ∈ spec.children, n.Cleared d asksSize := by
  intro n hn
  rcases mem_children_iff.1 hn with
    ⟨item, h, rfl⟩ | ⟨e, h, rfl⟩ | ⟨p, h, rfl⟩ | ⟨key, h, rfl⟩ | ⟨e, h | h, rfl⟩
  · exact hselect item h
  · exact hgroup e h
  · simp only [conditions, joins, List.mem_append, List.mem_flatMap, Option.mem_toList] at h
    rcases h with (⟨join, ⟨table, ht, hj⟩, h⟩ | h) | h
    · exact (htables table ht join hj).cleared p h
    · exact hcondition p h
    · exact hhaving p h
  · exact horder key h
  · exact hlimit e h
  · exact hoffset e h

end Sql

namespace Entity

open Lower (Meets)
open LoweringContext

variable {c : LoweringContext} {d : Dialect} {asksSize : Prop}

/-! ## The checks -/

theorem checkMember_meets {e : Expression} : Meets c.dialect (checkMember c e) fun _ =>
    (∀ items, e = .tuple items → c.dialect.supports .subselectAsInPredicateLhs = true) ∧
      ∀ query, e = .subquery query → c.dialect.supports .subselectAsInPredicateLhs = true := by
  cases e with
  | tuple items =>
    exact (meets_require (by decide)).imp fun _ hs => ⟨fun _ _ => hs, nofun⟩
  | subquery query =>
    exact (meets_require (by decide)).imp fun _ hs => ⟨nofun, fun _ _ => hs⟩
  | _ => exact .pure ⟨nofun, nofun⟩

theorem checkCall_meets {name : String} {count : Nat} :
    Meets c.dialect (checkCall c name count) fun _ =>
      ∃ template, c.dialect.function name = .ok template ∧ template.takes count = true := by
  refine (Lower.meets_lift Dialect.explainsFailure_function).bind fun template hf => ?_
  refine (Lower.meets_lift Dialect.explainsFailure_checkArity).imp fun _ hok => ⟨template, hf, ?_⟩
  unfold FunctionTemplate.checkArity at hok
  split at hok
  · next ht => exact ht
  · cases hok

theorem checkSubquery_meets : Meets c.dialect (checkSubquery c) fun _ => True := by
  unfold checkSubquery
  split
  · next h => exact meets_lacks (by decide) (by simp_all)
  · exact .pure trivial

theorem checkOrder_meets {isNested : Bool} {query : Query} :
    Meets c.dialect (checkOrder c isNested query) fun _ =>
      isNested = true → query.orderBy ≠ [] → query.isPaginated = true →
        c.dialect.supports .orderByInSubquery = true := by
  unfold checkOrder
  split
  · next h => exact meets_lacks (by decide) (by simp_all)
  · next h => exact .pure fun hn ho hp => by simp_all

theorem checkGroup_meets {isNested : Bool} {operator : SetOperator} :
    Meets c.dialect (checkGroup c isNested operator) fun _ =>
      (operator = .unionAll → c.dialect.supports .unionAll = true) ∧
        (isNested = true → c.dialect.supports .unionInSubquery = true) := by
  have hnested (hunion : operator = .unionAll → c.dialect.supports .unionAll = true) :
      Meets c.dialect
        (if isNested then c.require .unionInSubquery "set operation in a subquery" else pure ())
        fun _ => (operator = .unionAll → c.dialect.supports .unionAll = true) ∧
          (isNested = true → c.dialect.supports .unionInSubquery = true) := by
    split
    · exact (meets_require (by decide)).imp fun _ hs => ⟨hunion, fun _ => hs⟩
    · next h => exact .pure ⟨hunion, fun hn => absurd hn h⟩
  unfold checkGroup
  dsimp only
  by_cases ho : operator = .unionAll
  · rw [if_pos ho]
    exact (meets_require (by decide)).bind fun _ hs => hnested fun _ => hs
  · rw [if_neg ho]
    exact hnested fun h => absurd h ho

/-! ## Sizes and keys -/

theorem countQuery_cleared {table aliasName ownerColumn : String} {owner : Sql.Expression}
    (h : owner.IsColumn) :
    (Sql.Node.expression (countQuery table aliasName ownerColumn owner)).Cleared d asksSize := by
  have hcount : (Sql.Node.expression (.aggregate .count false none)).Cleared d asksSize :=
    Sql.Expression.cleared_of_children (by simp) (by simp [Sql.Expression.children])
  have hcolumn : (Sql.Expression.of aliasName ownerColumn).IsColumn := ⟨_, _, rfl⟩
  have hwhere : (Sql.Node.condition (.equal (.of aliasName ownerColumn) owner)).Cleared d
      asksSize :=
    Sql.Condition.cleared_of_children rfl
      (List.forall_mem_cons.2 ⟨hcolumn.cleared, List.forall_mem_singleton.2 h.cleared⟩)
  refine Sql.Expression.cleared_of_children (by simp [countQuery]) (List.forall_mem_singleton.2 ?_)
  refine Sql.Node.cleared_query (.node ?_ fun m hm => ?_)
  · simp [Sql.Node.Checked, Sql.Query.isGroup, Sql.Query.orderBy]
  obtain rfl | rfl : m = .expression (.aggregate .count false none) ∨
      m = .condition (.equal (.of aliasName ownerColumn) owner) := by
    simpa [Sql.Node.children, Sql.Query.children, Sql.QuerySpec.children,
      Sql.QuerySpec.expressions, Sql.QuerySpec.conditions, Sql.QuerySpec.joins] using hm
  · exact hcount _ (by simp [Sql.Node.isQuery])
  · exact hwhere _ (by simp [Sql.Node.isQuery])

theorem Scope.groupKeys_cleared {scope : Scope} {groupBy plain : List Sql.Expression}
    (hgroup : ∀ e ∈ groupBy, (Sql.Node.expression e).Cleared d asksSize)
    (hplain : ∀ e ∈ plain, (Sql.Node.expression e).Cleared d asksSize) :
    ∀ e ∈ scope.groupKeys groupBy plain, (Sql.Node.expression e).Cleared d asksSize := by
  intro e he
  unfold groupKeys at he
  split at he
  · exact hgroup e he
  · rcases mem_groupByOwners he with he | ⟨owner, -, rfl⟩
    · exact hplain e he
    · exact Sql.Expression.IsColumn.cleared ⟨owner.1, owner.2, rfl⟩

/-! ## Trees -/

/-- What is kept of an expression in its tree, which is cleared. -/
structure Expression.Yields (d : Dialect) (asksSize : Prop) (e : Expression)
    (r : Sql.Expression) : Prop where
  tuple : ∀ items, r = .tuple items → ∃ items', e = .tuple items'
  subquery : ∀ query, r = .subquery query → (∃ query', e = .subquery query') ∨
    ∃ path, e = .size path
  cleared : (Sql.Node.expression r).Cleared d asksSize

theorem Expression.yields_column {e : Expression} {r : Sql.Expression} (h : r.IsColumn) :
    e.Yields d asksSize r := by
  have hcleared : (Sql.Node.expression r).Cleared d asksSize := h.cleared
  obtain ⟨aliasName, column, rfl⟩ := h
  exact ⟨nofun, nofun, hcleared⟩

/-- The left operand of `in` has been checked, unless it is a size. -/
theorem member_checked {e : Expression} {r : Sql.Expression}
    (hasks : ∀ path, e = .size path → asksSize)
    (hc : (∀ items, e = .tuple items → d.supports .subselectAsInPredicateLhs = true) ∧
      ∀ query, e = .subquery query → d.supports .subselectAsInPredicateLhs = true)
    (hr : e.Yields d asksSize r) :
    (∀ items, some r = some (.tuple items) → d.supports .subselectAsInPredicateLhs = true) ∧
      ∀ query, some r = some (.subquery query) →
        d.supports .subselectAsInPredicateLhs = true ∨ asksSize := by
  constructor
  · intro items h
    obtain ⟨items', he⟩ := hr.tuple items (Option.some.inj h)
    exact hc.1 items' he
  · intro query h
    rcases hr.subquery query (Option.some.inj h) with ⟨query', he⟩ | ⟨path, he⟩
    · exact .inl (hc.2 query' he)
    · exact .inr (hasks path he)

/-- The tree of a query keeps its order and its limits, and its children are cleared. -/
structure QuerySpec.Yields (d : Dialect) (asksSize : Prop) (spec : QuerySpec)
    (r : Sql.QuerySpec) : Prop where
  orderBy : r.orderBy = [] ↔ spec.orderBy = []
  isPaginated : r.isPaginated = (Query.spec spec).isPaginated
  cleared : ∀ n ∈ r.children, n.Cleared d asksSize

mutual

theorem Expression.lower_meets : ∀ (e : Expression) {c : LoweringContext},
    ((Node.expression e).AsksSize → asksSize) →
      Meets c.dialect (e.lower c) (e.Yields c.dialect asksSize)
  | .path path, c, ha => resolve_meets.imp fun _ hr => Expression.yields_column hr
  | .literal value, c, ha =>
    .pure ⟨nofun, nofun, Sql.Expression.cleared_of_children nofun nofun⟩
  | .parameter parameter, c, ha =>
    .pure ⟨nofun, nofun, Sql.Expression.cleared_of_children nofun nofun⟩
  | .call name arguments, c, ha => by
    have hargs := Expression.lowerAll_meets arguments (c := c)
      fun e he h => ha (h.of_child (List.mem_map_of_mem he))
    refine checkCall_meets.bind fun _ htemplate => hargs.bind fun rs hrs => .pure ?_
    refine ⟨nofun, nofun, Sql.Node.cleared_of_children rfl (fun _ => ?_) ?_⟩
    · rintro _ _ ⟨⟩
      rwa [hrs.1]
    · exact List.forall_mem_map.2 hrs.2
  | .aggregate function isDistinct argument, c, ha => by
    have harg := Expression.lowerOption_meets argument (c := c)
      fun e he h => ha (h.of_child (List.mem_map_of_mem (Option.mem_toList.2 he)))
    refine harg.bind fun r hr => .pure ⟨nofun, nofun, ?_⟩
    refine Sql.Expression.cleared_of_children nofun (List.forall_mem_map.2 fun e he => ?_)
    exact hr.2 e (Option.mem_toList.1 he)
  | .extract unit source, c, ha => by
    have hsource := source.lower_meets (c := c)
      fun h => ha (h.of_child (List.mem_singleton.2 rfl))
    refine hsource.bind fun r hr => .pure ⟨nofun, nofun, ?_⟩
    exact Sql.Expression.cleared_of_children nofun (List.forall_mem_singleton.2 hr.cleared)
  | .timestampAdd unit magnitude timestamp, c, ha => by
    have hmagnitude := magnitude.lower_meets (c := c)
      fun h => ha (h.of_child List.mem_cons_self)
    have htimestamp := timestamp.lower_meets (c := c)
      fun h => ha (h.of_child (List.mem_cons_of_mem _ (List.mem_singleton.2 rfl)))
    refine hmagnitude.bind fun l hl => htimestamp.bind fun r hr => .pure ⟨nofun, nofun, ?_⟩
    exact Sql.Expression.cleared_of_children nofun
      (List.forall_mem_cons.2 ⟨hl.cleared, List.forall_mem_singleton.2 hr.cleared⟩)
  | .timestampDiff unit start finish, c, ha => by
    have hstart := start.lower_meets (c := c)
      fun h => ha (h.of_child List.mem_cons_self)
    have hfinish := finish.lower_meets (c := c)
      fun h => ha (h.of_child (List.mem_cons_of_mem _ (List.mem_singleton.2 rfl)))
    refine hstart.bind fun l hl => hfinish.bind fun r hr => .pure ⟨nofun, nofun, ?_⟩
    exact Sql.Expression.cleared_of_children nofun
      (List.forall_mem_cons.2 ⟨hl.cleared, List.forall_mem_singleton.2 hr.cleared⟩)
  | .format source pattern, c, ha => by
    have hsource := source.lower_meets (c := c)
      fun h => ha (h.of_child (List.mem_singleton.2 rfl))
    refine hsource.bind fun r hr => .pure ⟨nofun, nofun, ?_⟩
    exact Sql.Expression.cleared_of_children nofun (List.forall_mem_singleton.2 hr.cleared)
  | .binary left operator right, c, ha => by
    have hleft := left.lower_meets (c := c)
      fun h => ha (h.of_child List.mem_cons_self)
    have hright := right.lower_meets (c := c)
      fun h => ha (h.of_child (List.mem_cons_of_mem _ (List.mem_singleton.2 rfl)))
    refine hleft.bind fun l hl => hright.bind fun r hr => .pure ⟨nofun, nofun, ?_⟩
    exact Sql.Expression.cleared_of_children nofun
      (List.forall_mem_cons.2 ⟨hl.cleared, List.forall_mem_singleton.2 hr.cleared⟩)
  | .negate operand, c, ha => by
    have hoperand := operand.lower_meets (c := c)
      fun h => ha (h.of_child (List.mem_singleton.2 rfl))
    refine hoperand.bind fun r hr => .pure ⟨nofun, nofun, ?_⟩
    exact Sql.Expression.cleared_of_children nofun (List.forall_mem_singleton.2 hr.cleared)
  | .case branches otherwise, c, ha => by
    have hbranches := CaseBranch.lowerAll_meets branches (c := c)
      fun b hb n hn h => ha (h.of_child
        (List.mem_append_left _ (List.mem_flatMap.2 ⟨b, hb, hn⟩)))
    have hotherwise := Expression.lowerOption_meets otherwise (c := c)
      fun e he h => ha (h.of_child
        (List.mem_append_right _ (List.mem_map_of_mem (Option.mem_toList.2 he))))
    refine hbranches.bind fun bs hbs => hotherwise.bind fun r hr => .pure ⟨nofun, nofun, ?_⟩
    refine Sql.Expression.cleared_of_children nofun (List.forall_mem_append.2 ⟨?_, ?_⟩)
    · intro n hn
      obtain ⟨b, hb, hn⟩ := List.mem_flatMap.1 hn
      exact hbs b hb n hn
    · exact List.forall_mem_map.2 fun e he => hr.2 e (Option.mem_toList.1 he)
  | .cast source target, c, ha => by
    have hsource := source.lower_meets (c := c)
      fun h => ha (h.of_child (List.mem_singleton.2 rfl))
    refine hsource.bind fun r hr => .pure ⟨nofun, nofun, ?_⟩
    exact Sql.Expression.cleared_of_children nofun (List.forall_mem_singleton.2 hr.cleared)
  | .subquery query, c, ha => by
    have hquery := query.lower_meets true (c := c.outsideSelect)
      fun h => ha (h.of_child (List.mem_singleton.2 rfl))
    refine checkSubquery_meets.bind fun _ _ => Meets.bind hquery fun q hq => .pure ?_
    refine ⟨nofun, fun _ _ => .inl ⟨query, rfl⟩, ?_⟩
    exact Sql.Expression.cleared_of_children nofun
      (List.forall_mem_singleton.2 (Sql.Node.cleared_query hq))
  | .tuple items, c, ha => by
    have hitems := Expression.lowerAll_meets items (c := c)
      fun e he h => ha (h.of_child (List.mem_map_of_mem he))
    refine hitems.bind fun rs hrs => .pure ⟨fun _ _ => ⟨items, rfl⟩, nofun, ?_⟩
    exact Sql.Expression.cleared_of_children nofun (List.forall_mem_map.2 hrs.2)
  | .size path, c, ha => by
    refine lowerSize_meets.imp fun r hr => ?_
    rcases hr with ⟨column, hcolumn, rfl⟩ | ⟨table, aliasName, ownerColumn, owner, howner, rfl⟩
    · exact ⟨nofun, nofun, Sql.Expression.cleared_of_children nofun
        (List.forall_mem_singleton.2 hcolumn.cleared)⟩
    · exact ⟨nofun, fun _ _ => .inr ⟨path, rfl⟩, countQuery_cleared howner⟩

theorem Expression.lowerAll_meets : ∀ (es : List Expression) {c : LoweringContext},
    (∀ e ∈ es, (Node.expression e).AsksSize → asksSize) →
      Meets c.dialect (Expression.lowerAll c es) fun rs => rs.length = es.length ∧
        ∀ r ∈ rs, (Sql.Node.expression r).Cleared c.dialect asksSize
  | [], _, _ => .pure ⟨rfl, nofun⟩
  | e :: rest, c, ha => by
    obtain ⟨hfirst, hrest⟩ := List.forall_mem_cons.1 ha
    refine (e.lower_meets hfirst).bind fun r hr => ?_
    refine (Expression.lowerAll_meets rest hrest).bind fun rs hrs => .pure ?_
    exact ⟨congrArg (· + 1) hrs.1, List.forall_mem_cons.2 ⟨hr.cleared, hrs.2⟩⟩

theorem Expression.lowerOption_meets : ∀ (e : Option Expression) {c : LoweringContext},
    (∀ e' ∈ e, (Node.expression e').AsksSize → asksSize) →
      Meets c.dialect (Expression.lowerOption c e) fun r => r.isSome = e.isSome ∧
        ∀ r' ∈ r, (Sql.Node.expression r').Cleared c.dialect asksSize
  | none, _, _ => .pure ⟨rfl, nofun⟩
  | some e, _, ha =>
    (e.lower_meets (ha e rfl)).bind fun _ hr =>
      .pure ⟨rfl, fun _ h => Option.some.inj h ▸ hr.cleared⟩

theorem CaseBranch.lowerAll_meets : ∀ (branches : List (CaseBranch Condition Expression))
    {c : LoweringContext}, (∀ b ∈ branches, ∀ n ∈ CaseBranch.nodes b, n.AsksSize → asksSize) →
      Meets c.dialect (CaseBranch.lowerAll c branches) fun bs =>
        ∀ b ∈ bs, ∀ n ∈ Sql.CaseBranch.nodes b, n.Cleared c.dialect asksSize
  | [], _, _ => .pure nofun
  | ⟨condition, result⟩ :: rest, c, ha => by
    obtain ⟨hfirst, hrest⟩ := List.forall_mem_cons.1 ha
    obtain ⟨hcondition, hresult⟩ := List.forall_mem_cons.1 hfirst
    refine (condition.lower_meets hcondition).bind fun p hp => ?_
    refine (result.lower_meets (List.forall_mem_singleton.1 hresult)).bind fun r hr => ?_
    refine (CaseBranch.lowerAll_meets rest hrest).bind fun bs hbs => .pure ?_
    refine List.forall_mem_cons.2 ⟨List.forall_mem_cons.2 ⟨hp, ?_⟩, hbs⟩
    exact List.forall_mem_singleton.2 hr.cleared

theorem Condition.lower_meets : ∀ (p : Condition) {c : LoweringContext},
    ((Node.condition p).AsksSize → asksSize) →
      Meets c.dialect (p.lower c) fun r => (Sql.Node.condition r).Cleared c.dialect asksSize
  | .compare left operator right, c, ha => by
    have hleft := left.lower_meets (c := c)
      fun h => ha (h.of_child List.mem_cons_self)
    have hright := right.lower_meets (c := c)
      fun h => ha (h.of_child (List.mem_cons_of_mem _ (List.mem_singleton.2 rfl)))
    refine hleft.bind fun l hl => hright.bind fun r hr => .pure ?_
    exact Sql.Condition.cleared_of_children rfl
      (List.forall_mem_cons.2 ⟨hl.cleared, List.forall_mem_singleton.2 hr.cleared⟩)
  | .all items, c, ha => by
    have hitems := Condition.lowerAll_meets items (c := c)
      fun p hp h => ha (h.of_child (List.mem_map_of_mem hp))
    refine hitems.bind fun rs hrs => .pure ?_
    exact Sql.Condition.cleared_of_children rfl (List.forall_mem_map.2 hrs)
  | .any items, c, ha => by
    have hitems := Condition.lowerAll_meets items (c := c)
      fun p hp h => ha (h.of_child (List.mem_map_of_mem hp))
    refine hitems.bind fun rs hrs => .pure ?_
    exact Sql.Condition.cleared_of_children rfl (List.forall_mem_map.2 hrs)
  | .not operand, c, ha => by
    have hoperand := operand.lower_meets (c := c)
      fun h => ha (h.of_child (List.mem_singleton.2 rfl))
    refine hoperand.bind fun r hr => .pure ?_
    exact Sql.Condition.cleared_of_children rfl (List.forall_mem_singleton.2 hr)
  | .isNull operand isNegated, c, ha => by
    have hoperand := operand.lower_meets (c := c)
      fun h => ha (h.of_child (List.mem_singleton.2 rfl))
    refine hoperand.bind fun r hr => .pure ?_
    exact Sql.Condition.cleared_of_children rfl (List.forall_mem_singleton.2 hr.cleared)
  | .inList operand items isNegated, c, ha => by
    have hoperand := operand.lower_meets (c := c)
      fun h => ha (h.of_child List.mem_cons_self)
    have hitems := Expression.lowerAll_meets items (c := c)
      fun e he h => ha (h.of_child (List.mem_cons_of_mem _ (List.mem_map_of_mem he)))
    have hasks (path : Path) (he : operand = .size path) : asksSize :=
      ha (Node.asksSize_of_member (congrArg some he))
    refine checkMember_meets.bind fun _ hc => hoperand.bind fun r hr => hitems.bind fun rs hrs => ?_
    refine .pure (Sql.Node.cleared_of_children rfl (fun _ => member_checked hasks hc hr) ?_)
    exact List.forall_mem_cons.2 ⟨hr.cleared, List.forall_mem_map.2 hrs.2⟩
  | .inQuery operand query isNegated, c, ha => by
    have hoperand := operand.lower_meets (c := c)
      fun h => ha (h.of_child List.mem_cons_self)
    have hquery := query.lower_meets true (c := c.outsideSelect)
      fun h => ha (h.of_child (List.mem_cons_of_mem _ (List.mem_singleton.2 rfl)))
    have hasks (path : Path) (he : operand = .size path) : asksSize :=
      ha (Node.asksSize_of_member (congrArg some he))
    refine checkMember_meets.bind fun _ hc => hoperand.bind fun r hr => Meets.bind hquery ?_
    intro q hq
    refine .pure (Sql.Node.cleared_of_children rfl (fun _ => member_checked hasks hc hr) ?_)
    exact List.forall_mem_cons.2
      ⟨hr.cleared, List.forall_mem_singleton.2 (Sql.Node.cleared_query hq)⟩
  | .exists query isNegated, c, ha => by
    have hquery := query.lower_meets true (c := c.outsideSelect)
      fun h => ha (h.of_child (List.mem_singleton.2 rfl))
    refine Meets.bind hquery fun q hq => .pure ?_
    exact Sql.Condition.cleared_of_children rfl
      (List.forall_mem_singleton.2 (Sql.Node.cleared_query hq))
  | .like operand pattern escape ignoresCase isNegated, c, ha => by
    have hoperand := operand.lower_meets (c := c)
      fun h => ha (h.of_child List.mem_cons_self)
    have hpattern := pattern.lower_meets (c := c)
      fun h => ha (h.of_child (List.mem_cons_of_mem _ (List.mem_singleton.2 rfl)))
    refine hoperand.bind fun l hl => hpattern.bind fun r hr => .pure ?_
    exact Sql.Condition.cleared_of_children rfl
      (List.forall_mem_cons.2 ⟨hl.cleared, List.forall_mem_singleton.2 hr.cleared⟩)
  | .between operand low high isNegated, c, ha => by
    have hoperand := operand.lower_meets (c := c)
      fun h => ha (h.of_child List.mem_cons_self)
    have hlow := low.lower_meets (c := c)
      fun h => ha (h.of_child (List.mem_cons_of_mem _ List.mem_cons_self))
    have hhigh := high.lower_meets (c := c)
      fun h => ha (h.of_child (List.mem_cons_of_mem _ (List.mem_cons_of_mem _
        (List.mem_singleton.2 rfl))))
    refine hoperand.bind fun r hr => hlow.bind fun l hl => hhigh.bind fun h hh => .pure ?_
    refine Sql.Condition.cleared_of_children rfl (List.forall_mem_cons.2 ⟨hr.cleared, ?_⟩)
    exact List.forall_mem_cons.2 ⟨hl.cleared, List.forall_mem_singleton.2 hh.cleared⟩
  | .holds operand, c, ha => by
    have hoperand := operand.lower_meets (c := c)
      fun h => ha (h.of_child (List.mem_singleton.2 rfl))
    refine hoperand.bind fun r hr => .pure ?_
    exact Sql.Condition.cleared_of_children rfl (List.forall_mem_singleton.2 hr.cleared)

theorem Condition.lowerAll_meets : ∀ (ps : List Condition) {c : LoweringContext},
    (∀ p ∈ ps, (Node.condition p).AsksSize → asksSize) →
      Meets c.dialect (Condition.lowerAll c ps) fun rs =>
        ∀ r ∈ rs, (Sql.Node.condition r).Cleared c.dialect asksSize
  | [], _, _ => .pure nofun
  | p :: rest, c, ha => by
    obtain ⟨hfirst, hrest⟩ := List.forall_mem_cons.1 ha
    refine (p.lower_meets hfirst).bind fun r hr => ?_
    refine (Condition.lowerAll_meets rest hrest).bind fun rs hrs => .pure ?_
    exact List.forall_mem_cons.2 ⟨hr, hrs⟩

theorem Condition.lowerOption_meets : ∀ (p : Option Condition) {c : LoweringContext},
    (∀ p' ∈ p, (Node.condition p').AsksSize → asksSize) →
      Meets c.dialect (Condition.lowerOption c p) fun r =>
        ∀ r' ∈ r, (Sql.Node.condition r').Cleared c.dialect asksSize
  | none, _, _ => .pure nofun
  | some p, _, ha =>
    (p.lower_meets (ha p rfl)).bind fun _ hr => .pure fun _ h => Option.some.inj h ▸ hr

theorem Query.lower_meets : ∀ (q : Query) {c : LoweringContext} (isNested : Bool),
    ((Node.query q).AsksSize → asksSize) →
      Meets c.dialect (q.lower c isNested) fun r =>
        (Sql.Node.query r).Throughout (Sql.Node.Checked c.dialect asksSize) isNested
  | .spec spec, c, isNested, ha => by
    have hspec := spec.lower_meets (c := c) fun n hn h => ha (h.of_child hn)
    refine checkOrder_meets.bind fun _ hc => hspec.bind fun r hr => .pure ?_
    refine .node ⟨by simp, by simp [Sql.Query.isGroup], fun hn ho hp => ?_⟩ fun m hm => ?_
    · exact hc hn (fun h => ho (hr.orderBy.2 h)) (hr.isPaginated ▸ hp)
    · have hm' := Sql.QuerySpec.isQuery_of_mem_children hm
      exact hr.cleared m hm _ fun h => absurd h (by simp [hm'])
  | .group operator parts orderBy limit offset, c, isNested, ha => by
    have hparts := Query.lowerAll_meets parts isNested (c := c)
      fun q hq h => ha (h.of_child (List.mem_append_left _ (List.mem_map_of_mem hq)))
    have hexpression (e : Expression)
        (he : e ∈ orderBy.map (·.expression) ++ limit.toList ++ offset.toList)
        (h : (Node.expression e).AsksSize) : asksSize :=
      ha (h.of_child (List.mem_append_right _ (List.mem_map_of_mem he)))
    have horder := SortKey.lowerAll_meets orderBy (c := c) fun key hkey =>
      hexpression _ (List.mem_append_left _ (List.mem_append_left _ (List.mem_map_of_mem hkey)))
    have hlimit := Expression.lowerOption_meets limit (c := c) fun e he =>
      hexpression e (List.mem_append_left _ (List.mem_append_right _ (Option.mem_toList.2 he)))
    have hoffset := Expression.lowerOption_meets offset (c := c) fun e he =>
      hexpression e (List.mem_append_right _ (Option.mem_toList.2 he))
    refine checkOrder_meets.bind fun _ hc => checkGroup_meets.bind fun _ hg => ?_
    refine hparts.bind fun qs hqs => horder.bind fun keys hkeys => ?_
    refine hlimit.bind fun l hl => hoffset.bind fun o ho => .pure ?_
    refine .node ⟨?_, fun hn _ => hg.2 hn, fun hn hne hp => ?_⟩ fun m hm => ?_
    · rintro _ _ _ _ ⟨⟩
      exact hg.1 rfl
    · refine hc hn (fun h => hne (hkeys.1.2 h)) ?_
      rwa [Query.isPaginated, ← hl.1, ← ho.1]
    · rcases List.mem_append.1 hm with hm | hm
      · obtain ⟨q, hq, rfl⟩ := List.mem_map.1 hm
        simpa [Sql.Node.isQuery] using hqs q hq
      · obtain ⟨e, he, rfl⟩ := List.mem_map.1 hm
        have hcleared : (Sql.Node.expression e).Cleared c.dialect asksSize := by
          simp only [List.mem_append, List.mem_map, Option.mem_toList] at he
          rcases he with (⟨key, hkey, rfl⟩ | he) | he
          · exact hkeys.2 key hkey
          · exact hl.2 e he
          · exact ho.2 e he
        exact hcleared _ nofun

theorem Query.lowerAll_meets : ∀ (qs : List Query) {c : LoweringContext} (isNested : Bool),
    (∀ q ∈ qs, (Node.query q).AsksSize → asksSize) →
      Meets c.dialect (Query.lowerAll c isNested qs) fun rs =>
        ∀ r ∈ rs, (Sql.Node.query r).Throughout (Sql.Node.Checked c.dialect asksSize) isNested
  | [], _, _, _ => .pure nofun
  | q :: rest, c, isNested, ha => by
    obtain ⟨hfirst, hrest⟩ := List.forall_mem_cons.1 ha
    refine (q.lower_meets isNested hfirst).bind fun r hr => ?_
    refine (Query.lowerAll_meets rest isNested hrest).bind fun rs hrs => .pure ?_
    exact List.forall_mem_cons.2 ⟨hr, hrs⟩

theorem QuerySpec.lower_meets : ∀ (spec : QuerySpec) {c : LoweringContext},
    (∀ n ∈ spec.children, n.AsksSize → asksSize) →
      Meets c.dialect (spec.lower c) (spec.Yields c.dialect asksSize)
  | ⟨isDistinct, select, roots, condition, groupBy, having, orderBy, limit, offset⟩, c, ha => by
    simp only [QuerySpec.mem_children_iff] at ha
    have hselect := SelectItem.lowerAll_meets select (c := c.inSelect) fun item hi =>
      ha _ (.inl ⟨item, hi, rfl⟩)
    have hcondition := Condition.lowerOption_meets condition (c := c) fun p hp =>
      ha _ (.inr (.inr (.inl ⟨p, .inl hp, rfl⟩)))
    have hgroup := Expression.lowerAll_meets groupBy (c := c) fun e he =>
      ha _ (.inr (.inl ⟨e, he, rfl⟩))
    have hhaving := Condition.lowerOption_meets having (c := c) fun p hp =>
      ha _ (.inr (.inr (.inl ⟨p, .inr hp, rfl⟩)))
    have horder := SortKey.lowerAll_meets orderBy (c := c) fun key hkey =>
      ha _ (.inr (.inr (.inr (.inl ⟨key, hkey, rfl⟩))))
    have hlimit := Expression.lowerOption_meets limit (c := c) fun e he =>
      ha _ (.inr (.inr (.inr (.inr ⟨e, .inl he, rfl⟩))))
    have hoffset := Expression.lowerOption_meets offset (c := c) fun e he =>
      ha _ (.inr (.inr (.inr (.inr ⟨e, .inr he, rfl⟩))))
    rw [QuerySpec.lower]
    split
    · exact (Lower.meets_malformed (p := fun _ => False)).bind fun _ h => h.elim
    · have hempty : Scope.ComparesColumns { isGrouped := isGrouped select groupBy having } := by
        simp [Scope.ComparesColumns]
      refine (Lower.meets_push hempty).bind fun _ _ => lowerRoots_meets.bind fun _ _ => ?_
      refine Meets.bind hselect fun items hitems => hcondition.bind fun p hp => ?_
      refine hgroup.bind fun keys hkeys => hhaving.bind fun q hq => ?_
      refine horder.bind fun sorts hsorts => hlimit.bind fun l hl => hoffset.bind fun o ho => ?_
      refine Lower.meets_pop.bind fun scope hscope => .pure ⟨hsorts.1, ?_, ?_⟩
      · rw [Sql.QuerySpec.isPaginated, Query.isPaginated, hl.1, ho.1]
      · exact Sql.QuerySpec.cleared_children hitems.1 hscope hp
          (scope.groupKeys_cleared hkeys.2 hitems.2) hq hsorts.2 hl.2 ho.2

theorem SelectItem.lowerAll_meets : ∀ (items : List (SelectItem Expression))
    {c : LoweringContext}, (∀ item ∈ items, (Node.expression item.expression).AsksSize →
      asksSize) → Meets c.dialect (SelectItem.lowerAll c items) fun r =>
        (∀ item ∈ r.items, (Sql.Node.expression item.expression).Cleared c.dialect asksSize) ∧
          ∀ e ∈ r.plain, (Sql.Node.expression e).Cleared c.dialect asksSize
  | [], _, _ => .pure ⟨nofun, nofun⟩
  | ⟨e, aliasName⟩ :: rest, c, ha => by
    obtain ⟨hfirst, hrest⟩ := List.forall_mem_cons.1 ha
    have hrest := SelectItem.lowerAll_meets rest hrest (c := c)
    by_cases he : ∃ start, e = .path ⟨start, []⟩
    · obtain ⟨start, rfl⟩ := he
      rw [SelectItem.lowerAll]
      refine entityColumns_meets.bind fun columns hcolumns => hrest.bind fun r hr => .pure ?_
      have hcleared : ∀ e ∈ columns, (Sql.Node.expression e).Cleared c.dialect asksSize :=
        fun e he => (hcolumns e he).cleared
      exact ⟨List.forall_mem_append.2 ⟨List.forall_mem_map.2 hcleared, hr.1⟩,
        List.forall_mem_append.2 ⟨hcleared, hr.2⟩⟩
    · rw [SelectItem.lowerAll]
      · refine Lower.meets_current.bind fun before _ => (e.lower_meets hfirst).bind fun r hr => ?_
        refine Lower.meets_current.bind fun after _ => hrest.bind fun rs hrs => .pure ?_
        refine ⟨List.forall_mem_cons.2 ⟨hr.cleared, hrs.1⟩, List.forall_mem_append.2 ⟨?_, hrs.2⟩⟩
        split
        · exact List.forall_mem_singleton.2 hr.cleared
        · exact nofun
      · exact fun start h => he ⟨start, h⟩

theorem SortKey.lowerAll_meets : ∀ (keys : List (SortKey Expression)) {c : LoweringContext},
    (∀ key ∈ keys, (Node.expression key.expression).AsksSize → asksSize) →
      Meets c.dialect (SortKey.lowerAll c keys) fun rs => (rs = [] ↔ keys = []) ∧
        ∀ r ∈ rs, (Sql.Node.expression r.expression).Cleared c.dialect asksSize
  | [], _, _ => .pure ⟨⟨fun _ => rfl, fun _ => rfl⟩, nofun⟩
  | ⟨e, isDescending, nulls⟩ :: rest, c, ha => by
    obtain ⟨hfirst, hrest⟩ := List.forall_mem_cons.1 ha
    refine (e.lower_meets hfirst).bind fun r hr => ?_
    refine (SortKey.lowerAll_meets rest hrest).bind fun rs hrs => .pure ?_
    exact ⟨by simp, List.forall_mem_cons.2 ⟨hr.cleared, hrs.2⟩⟩

end

/-! ## Statements -/

theorem assignedColumn_meets {entity : Mapping.Entity} {name : String} :
    Meets c.dialect (assignedColumn c entity name) fun _ => True := by
  refine Lower.meets_property.bind fun property _ => ?_
  cases property with
  | basic value => exact .pure trivial
  | toOne association => exact .pure trivial
  | toMany collection => exact meets_unsupported_append _ (by decide)

theorem lowerAssignments_meets (entity : Mapping.Entity) : ∀ {assignments : List Assignment},
    (∀ a ∈ assignments, (Node.expression a.value).AsksSize → asksSize) →
      Meets c.dialect (lowerAssignments c entity assignments) fun rs =>
        ∀ r ∈ rs, (Sql.Node.expression r.value).Cleared c.dialect asksSize
  | [], _ => .pure nofun
  | a :: rest, ha => by
    obtain ⟨hfirst, hrest⟩ := List.forall_mem_cons.1 ha
    refine assignedColumn_meets.bind fun column _ => ?_
    refine (a.value.lower_meets hfirst).bind fun r hr => ?_
    refine (lowerAssignments_meets entity hrest).bind fun rs hrs => .pure ?_
    exact List.forall_mem_cons.2 ⟨hr.cleared, hrs⟩

theorem bindTarget_meets {name variableName : String} :
    Meets c.dialect (bindTarget c name variableName) fun _ => True := by
  refine meets_entity.bind fun entity _ => Lower.meets_freshAlias.bind fun aliasName _ => ?_
  exact (Lower.meets_push (by simp [Scope.ComparesColumns])).bind fun _ _ => .pure trivial

theorem Statement.lowerIn_meets (statement : Statement) {c : LoweringContext} :
    Meets c.dialect (statement.lowerIn c) fun r => ∀ n ∈ r.children,
      n.Throughout (Sql.Node.Checked c.dialect statement.AsksSize) (n.isQuery && !r.isSelect) := by
  have hasks (n : Node) (hn : n ∈ statement.children) (h : n.AsksSize) : statement.AsksSize :=
    ⟨n, hn, h⟩
  cases statement with
  | select query lock =>
    have hquery := query.lower_meets false (c := c)
      (hasks _ (List.mem_singleton.2 rfl))
    exact hquery.bind fun q hq => .pure (List.forall_mem_singleton.2 hq)
  | update name aliasName assignments condition =>
    refine bindTarget_meets.bind fun bound _ => ?_
    have hassignments := lowerAssignments_meets bound.1 (c := c)
      fun a h => hasks _ (List.mem_append_left _ (List.mem_map_of_mem h))
    have hcondition := Condition.lowerOption_meets condition (c := c)
      fun p hp => hasks _ (List.mem_append_right _ (List.mem_map_of_mem (Option.mem_toList.2 hp)))
    refine hassignments.bind fun rs hrs => hcondition.bind fun p hp => .pure ?_
    refine List.forall_mem_append.2 ⟨List.forall_mem_map.2 fun r hr => hrs r hr _ nofun, ?_⟩
    exact List.forall_mem_map.2 fun q hq => hp q (Option.mem_toList.1 hq) _ nofun
  | delete name aliasName condition =>
    have hcondition := Condition.lowerOption_meets condition (c := c)
      fun p hp => hasks _ (List.mem_map_of_mem (Option.mem_toList.2 hp))
    refine bindTarget_meets.bind fun bound _ => hcondition.bind fun p hp => .pure ?_
    exact List.forall_mem_map.2 fun q hq => hp q (Option.mem_toList.1 hq) _ nofun

namespace Statement

variable {statement : Statement} {model : Mapping.Model}

/-- What the lowering makes has been checked wherever it is written. -/
theorem checked_of_shows {lowered : Sql.Statement} {isInner : Bool} {n : Sql.Node}
    (h : statement.lower d model = .ok lowered) (hs : lowered.Shows d isInner n) :
    n.Checked d statement.AsksSize isInner := by
  obtain ⟨t, h⟩ := lower_ok_iff.1 h
  have hmeets := statement.lowerIn_meets (c := { dialect := d, model }) {} nofun
  rw [h] at hmeets
  exact (Sql.Node.Throughout.of_shows hmeets.2 hs).holds

theorem lower_explained {e : DialectError} (h : statement.lower d model = .error e) :
    d.Explains e := by
  have hmeets := statement.lowerIn_meets (c := { dialect := d, model }) {} nofun
  simp only [lower, StateT.run] at h
  cases hl : statement.lowerIn { dialect := d, model } {} with
  | error e' =>
    rw [hl] at hmeets h
    exact Except.error.inj h ▸ hmeets
  | ok r =>
    rw [hl] at h
    cases h

end Statement

end Entity

end SqlDialects
