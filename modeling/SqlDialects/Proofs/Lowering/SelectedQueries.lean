import SqlDialects.Proofs.Lowering.Grouping

/-!
# Queries in select lists

Where a dialect cannot select subqueries, no value that is selected is one. A query stands in a
select item all the same if a condition in it tests what the query returns: such a condition is made
without asking the dialect.
-/

namespace SqlDialects

namespace Sql.Node

/-- A query stands in the node, in any form and at any depth. -/
def HoldsQuery (n : Node) : Prop := ∃ q, (Node.query q).Within n

theorem holdsQuery_query {q : Query} : (Node.query q).HoldsQuery := ⟨q, .refl⟩

theorem holdsQuery_of_child {m n : Node} (h : m.HoldsQuery) (hm : m ∈ n.children) :
    n.HoldsQuery := by
  obtain ⟨q, h⟩ := h
  exact ⟨q, h.tail hm⟩

theorem exists_child_of_holdsQuery {n : Node} (hn : n.isQuery = false) (h : n.HoldsQuery) :
    ∃ m ∈ n.children, m.HoldsQuery := by
  obtain ⟨q, h⟩ := h
  rcases Relation.ReflTransGen.cases_tail h with rfl | ⟨m, h, hm⟩
  · cases hn
  · exact ⟨m, hm, q, h⟩

theorem holdsQuery_expression_iff {e : Expression} :
    (Node.expression e).HoldsQuery ↔ ∃ m ∈ e.children, m.HoldsQuery :=
  ⟨exists_child_of_holdsQuery rfl, fun ⟨_, hm, h⟩ => holdsQuery_of_child h hm⟩

theorem holdsQuery_condition_iff {p : Condition} :
    (Node.condition p).HoldsQuery ↔ ∃ m ∈ p.children, m.HoldsQuery :=
  ⟨exists_child_of_holdsQuery rfl, fun ⟨_, hm, h⟩ => holdsQuery_of_child h hm⟩

end Sql.Node

namespace Entity

open Sql (everyKey)
open Lower (Makes)

namespace Node

def IsSubquery : Node → Prop
  | .expression (.subquery _) => True
  | _ => False

/-- The condition looks at what a query returns. -/
def TestsQuery : Node → Prop
  | .condition (.inQuery _ _ _) | .condition (.exists _ _) => True
  | _ => False

end Node

variable {c : LoweringContext}

/-! ## What is made of select items -/

/-- No subquery is among the nodes nor among the parts of what is made of them. In the latter there
are queries if one of the nodes tests a query. -/
structure Tested (nodes : List Node) (parts : List Sql.Expression) (made : List Sql.Node) :
    Prop where
  refused : ∀ n ∈ nodes, ¬ n.Holds Node.IsSubquery
  plain : ∀ q, .subquery q ∉ parts
  holds : (∃ m ∈ made, m.HoldsQuery) ↔ ∃ n ∈ nodes, n.Holds Node.TestsQuery

namespace Tested

variable {nodes nodes' : List Node} {parts parts' : List Sql.Expression}
  {made made' : List Sql.Node}

theorem nil : Tested [] [] [] := ⟨nofun, nofun, by simp⟩

theorem append (h : Tested nodes parts made) (h' : Tested nodes' parts' made') :
    Tested (nodes ++ nodes') (parts ++ parts') (made ++ made') where
  refused := List.forall_mem_append.2 ⟨h.refused, h'.refused⟩
  plain q hq := (List.mem_append.1 hq).elim (h.plain q) (h'.plain q)
  holds := by simp only [List.mem_append, or_and_right, exists_or, h.holds, h'.holds]

theorem expression {e : Expression} {r : Sql.Expression} (h : Tested e.children parts r.children)
    (hparts : r.parts = r :: parts) (he : ¬ (Node.expression e).IsSubquery)
    (hr : ∀ q, .subquery q ≠ r) :
    Tested [.expression e] r.parts [.expression r] where
  refused := by
    rw [List.forall_mem_singleton, Node.holds_expression_iff]
    rintro (hs | ⟨m, hm, hs⟩)
    · exact he hs
    · exact h.refused m hm hs
  plain q hq := by
    rw [hparts] at hq
    exact (List.mem_cons.1 hq).elim (hr q) (h.plain q)
  holds := by
    simp only [List.mem_singleton, exists_eq_left, Node.holds_expression_iff,
      Sql.Node.holdsQuery_expression_iff, Node.TestsQuery, false_or]
    exact h.holds

theorem condition {p : Condition} {r : Sql.Condition} (h : Tested p.children parts r.children)
    (hp : ¬ (Node.condition p).TestsQuery) : Tested [.condition p] parts [.condition r] where
  refused := by
    rw [List.forall_mem_singleton, Node.holds_condition_iff]
    rintro (hs | ⟨m, hm, hs⟩)
    · exact hs
    · exact h.refused m hm hs
  plain := h.plain
  holds := by
    simp only [List.mem_singleton, exists_eq_left, Node.holds_condition_iff,
      Sql.Node.holdsQuery_condition_iff, hp, false_or]
    exact h.holds

/-- A condition that tests a query, beside other operands. -/
theorem test {p : Condition} {q : Query} {r : Sql.Condition} {q' : Sql.Query}
    (h : Tested nodes parts made) (hchildren : p.children = nodes ++ [.query q])
    (hp : (Node.condition p).TestsQuery) (hmade : .query q' ∈ r.children) :
    Tested [.condition p] parts [.condition r] where
  refused := by
    rw [List.forall_mem_singleton, Node.holds_condition_iff, hchildren]
    rintro (hs | ⟨m, hm, hs⟩)
    · exact hs
    · rcases List.mem_append.1 hm with hm | hm
      · exact h.refused m hm hs
      · obtain rfl := List.mem_singleton.1 hm
        exact Node.holds_query_iff.1 hs
  plain := h.plain
  holds := by
    refine ⟨fun _ => ⟨_, List.mem_singleton.2 rfl, .here hp⟩,
      fun _ => ⟨_, List.mem_singleton.2 rfl, ?_⟩⟩
    exact Sql.Node.holdsQuery_of_child Sql.Node.holdsQuery_query hmade

/-- A column, a literal or a parameter. -/
theorem leaf {e : Expression} {r : Sql.Expression} (he : e.children = [])
    (hr : r.children = []) (hparts : r.parts = [r]) (hs : ¬ (Node.expression e).IsSubquery)
    (hq : ∀ q, .subquery q ≠ r) : Tested [.expression e] r.parts [.expression r] :=
  .expression (by rw [he, hr]; exact .nil) hparts hs hq

end Tested

/-! ## Trees -/

theorem lowerSize_tested {path : Path} (hc : c.countsByJoins = true) :
    Makes (lowerSize c path) fun _ r =>
      Tested [.expression (.size path)] r.parts [.expression r] := by
  refine lowerSize_makes.imp ?_
  rintro _ _ (⟨-, -, _, ⟨a, column, rfl⟩, rfl⟩ | ⟨hc', -⟩)
  · refine ⟨?_, fun q hq => ?_, ?_⟩
    · simp [Node.holds_expression_iff, Expression.children, Node.IsSubquery]
    · rcases List.mem_cons.1 hq with hq | hq
      · cases hq
      · cases List.mem_singleton.1 hq
    · simp [Node.holds_expression_iff, Expression.children, Node.TestsQuery,
        Sql.Node.holdsQuery_expression_iff, Sql.Expression.children, Sql.Expression.of]
  · simp [hc] at hc'

mutual

theorem Expression.lower_tested : ∀ (e : Expression) {c : LoweringContext},
    c.countsByJoins = true →
      Makes (e.lower c) fun _ r => Tested [.expression e] r.parts [.expression r]
  | .path path, c, _ => by
    refine resolve_makes.imp ?_
    rintro _ _ ⟨-, a, column, rfl⟩
    exact .leaf rfl rfl rfl id nofun
  | .literal value, _, _ => .pure (.leaf rfl rfl rfl id nofun)
  | .parameter value, _, _ => .pure (.leaf rfl rfl rfl id nofun)
  | .call name arguments, c, hc => by
    refine checkCall_makes.next fun _ _ => (Expression.lowerAll_tested arguments hc).bind ?_
    exact fun _ _ h => .pure (.expression h rfl id nofun)
  | .aggregate function isDistinct argument, c, hc =>
    (Expression.lowerOption_tested argument hc).bind fun _ _ h => .pure (.expression h rfl id nofun)
  | .extract unit source, c, hc =>
    (source.lower_tested hc).bind fun _ _ h => .pure (.expression h rfl id nofun)
  | .timestampAdd unit magnitude timestamp, c, hc =>
    (magnitude.lower_tested hc).bind fun _ _ h => (timestamp.lower_tested hc).bind fun _ _ h' =>
      .pure (.expression (h.append h') rfl id nofun)
  | .timestampDiff unit start finish, c, hc =>
    (start.lower_tested hc).bind fun _ _ h => (finish.lower_tested hc).bind fun _ _ h' =>
      .pure (.expression (h.append h') rfl id nofun)
  | .format source pattern, c, hc =>
    (source.lower_tested hc).bind fun _ _ h => .pure (.expression h rfl id nofun)
  | .binary left operator right, c, hc =>
    (left.lower_tested hc).bind fun _ _ h => (right.lower_tested hc).bind fun _ _ h' =>
      .pure (.expression (h.append h') rfl id nofun)
  | .negate operand, c, hc =>
    (operand.lower_tested hc).bind fun _ _ h => .pure (.expression h rfl id nofun)
  | .case branches otherwise, c, hc =>
    (CaseBranch.lowerAll_tested branches hc).bind fun _ _ h =>
      (Expression.lowerOption_tested otherwise hc).bind fun _ _ h' =>
        .pure (.expression (h.append h') rfl id nofun)
  | .cast source target, c, hc =>
    (source.lower_tested hc).bind fun _ _ h => .pure (.expression h rfl id nofun)
  | .subquery query, c, hc => by
    intro s t r hr
    simp only [Expression.lower, Lower.bind_ok_iff] at hr
    obtain ⟨_, _, hcheck, -⟩ := hr
    -- The dialect is asked first.
    exact Bool.noConfusion (hc.symm.trans (checkSubquery_ok hcheck).1)
  | .tuple items, c, hc =>
    (Expression.lowerAll_tested items hc).bind fun _ _ h => .pure (.expression h rfl id nofun)
  | .size path, c, hc => lowerSize_tested hc

theorem Expression.lowerAll_tested : ∀ (es : List Expression) {c : LoweringContext},
    c.countsByJoins = true → Makes (Expression.lowerAll c es) fun _ rs =>
      Tested (es.map .expression) (Sql.Expression.partsAll rs) (rs.map .expression)
  | [], _, _ => .pure .nil
  | e :: rest, _, hc =>
    (e.lower_tested hc).bind fun _ _ h => (Expression.lowerAll_tested rest hc).bind fun _ _ h' =>
      .pure (h.append h')

theorem Expression.lowerOption_tested : ∀ (e : Option Expression) {c : LoweringContext},
    c.countsByJoins = true → Makes (Expression.lowerOption c e) fun _ r =>
      Tested (e.toList.map .expression) (Sql.Expression.partsOption r) (r.toList.map .expression)
  | none, _, _ => .pure .nil
  | some e, _, hc => (e.lower_tested hc).bind fun _ _ h => .pure h

theorem CaseBranch.lowerAll_tested : ∀ (branches : List (CaseBranch Condition Expression))
    {c : LoweringContext}, c.countsByJoins = true →
      Makes (CaseBranch.lowerAll c branches) fun _ rs =>
        Tested (branches.flatMap CaseBranch.nodes) (Sql.CaseBranch.partsAll rs)
          (rs.flatMap Sql.CaseBranch.nodes)
  | [], _, _ => .pure .nil
  | ⟨condition, result⟩ :: rest, _, hc =>
    (condition.lower_tested hc).bind fun _ _ h₁ => (result.lower_tested hc).bind fun _ _ h₂ =>
      (CaseBranch.lowerAll_tested rest hc).bind fun _ _ h₃ => .pure ((h₁.append h₂).append h₃)

theorem Condition.lower_tested : ∀ (p : Condition) {c : LoweringContext},
    c.countsByJoins = true →
      Makes (p.lower c) fun _ r => Tested [.condition p] r.parts [.condition r]
  | .compare left operator right, c, hc =>
    (left.lower_tested hc).bind fun _ _ h => (right.lower_tested hc).bind fun _ _ h' =>
      .pure (.condition (h.append h') id)
  | .all items, c, hc =>
    (Condition.lowerAll_tested items hc).bind fun _ _ h => .pure (.condition h id)
  | .any items, c, hc =>
    (Condition.lowerAll_tested items hc).bind fun _ _ h => .pure (.condition h id)
  | .not operand, c, hc => (operand.lower_tested hc).bind fun _ _ h => .pure (.condition h id)
  | .isNull operand isNegated, c, hc =>
    (operand.lower_tested hc).bind fun _ _ h => .pure (.condition h id)
  | .inList operand items isNegated, c, hc => by
    refine checkMember_makes.next fun _ _ => (operand.lower_tested hc).bind fun _ _ h => ?_
    exact (Expression.lowerAll_tested items hc).bind fun _ _ h' =>
      .pure (.condition (h.append h') id)
  | .inQuery operand query isNegated, c, hc => by
    refine checkMember_makes.next fun _ _ => (operand.lower_tested hc).bind fun _ _ h => ?_
    refine (query.lower_built true).next fun q _ => .pure ?_
    exact h.test rfl trivial (List.mem_cons_of_mem _ (List.mem_singleton.2 rfl))
  | .exists query isNegated, c, hc =>
    (query.lower_built true).next fun q _ =>
      .pure (Tested.nil.test rfl trivial (List.mem_singleton.2 rfl))
  | .like operand pattern escape ignoresCase isNegated, c, hc =>
    (operand.lower_tested hc).bind fun _ _ h => (pattern.lower_tested hc).bind fun _ _ h' =>
      .pure (.condition (h.append h') id)
  | .between operand low high isNegated, c, hc =>
    (operand.lower_tested hc).bind fun _ _ h₁ => (low.lower_tested hc).bind fun _ _ h₂ =>
      (high.lower_tested hc).bind fun _ _ h₃ => .pure (.condition (h₁.append (h₂.append h₃)) id)
  | .holds operand, c, hc => (operand.lower_tested hc).bind fun _ _ h => .pure (.condition h id)

theorem Condition.lowerAll_tested : ∀ (ps : List Condition) {c : LoweringContext},
    c.countsByJoins = true → Makes (Condition.lowerAll c ps) fun _ rs =>
      Tested (ps.map .condition) (Sql.Condition.partsAll rs) (rs.map .condition)
  | [], _, _ => .pure .nil
  | p :: rest, _, hc =>
    (p.lower_tested hc).bind fun _ _ h => (Condition.lowerAll_tested rest hc).bind fun _ _ h' =>
      .pure (h.append h')

end

/-! ## Select lists -/

theorem Tested.ofColumns {path : Path} {columns : List Sql.Expression}
    (h : ∀ e ∈ columns, e.IsColumn) :
    Tested [.expression (.path path)]
      ((LoweredSelect.ofColumns columns).items.flatMap (·.expression.parts))
      ((LoweredSelect.ofColumns columns).items.map (.expression ·.expression)) where
  refused := by simp [Node.holds_expression_iff, Expression.children, Node.IsSubquery]
  plain q hq := by
    obtain ⟨item, hi, hq⟩ := List.mem_flatMap.1 hq
    obtain ⟨e, he, rfl⟩ := List.mem_map.1 hi
    obtain ⟨a, column, rfl⟩ := h e he
    cases List.mem_singleton.1 hq
  holds := by
    refine iff_of_false ?_ ?_
    · rintro ⟨m, hm, hq⟩
      obtain ⟨item, hi, rfl⟩ := List.mem_map.1 hm
      obtain ⟨e, he, rfl⟩ := List.mem_map.1 hi
      obtain ⟨a, column, rfl⟩ := h e he
      simp [Sql.Node.holdsQuery_expression_iff, Sql.Expression.of, Sql.Expression.children] at hq
    · simp [Node.holds_expression_iff, Expression.children, Node.TestsQuery]

theorem SelectItem.lowerAll_tested : ∀ (items : List (SelectItem Expression))
    {c : LoweringContext}, c.countsByJoins = true → Makes (SelectItem.lowerAll c items) fun _ r =>
      Tested (items.map (.expression ·.expression)) (r.items.flatMap (·.expression.parts))
        (r.items.map (.expression ·.expression))
  | [], _, _ => .pure .nil
  | ⟨e, aliasName⟩ :: rest, c, hc => by
    intro s t r h
    rcases SelectItem.lowerAll_cons_ok_iff.1 h with ⟨start, columns, u, r', rfl, hc', hr, rfl⟩ |
      ⟨lowered, u, before, after, r', -, hl, -, -, hr, rfl⟩
    all_goals
      obtain ⟨m, hrest, htested⟩ := SelectItem.lowerAll_tested rest hc hr
      simp only [LoweredSelect.append, List.flatMap_append, List.map_append]
    · obtain ⟨n, htallies, -, hcolumns⟩ := entityColumns_makes hc'
      exact ⟨_, htallies.trans hrest, (Tested.ofColumns hcolumns).append htested⟩
    · obtain ⟨n, htallies, hitem⟩ := e.lower_tested hc hl
      refine ⟨_, htallies.trans hrest, ?_⟩
      simpa using hitem.append htested

theorem QuerySpec.lower_tested {source : QuerySpec} {d : Dialect} {model : Mapping.Model}
    {spec : Sql.QuerySpec} (hd : d.supports .subqueryInSelect = false)
    (h : source.LowersTo d model spec) :
    Tested (source.select.map (.expression ·.expression))
      (spec.select.flatMap (·.expression.parts)) (spec.select.map (.expression ·.expression)) := by
  obtain ⟨isDistinct, select, roots, condition, groupBy, having, orderBy, limit, offset⟩ := source
  obtain ⟨s, t, hrun⟩ := h
  obtain ⟨s₀, select', s₁, _, _, _, _, _, _, _, _, _, _, _, _, _, -, -, h₁, -, -, -, -, -, -, -,
    rfl⟩ := QuerySpec.lower_ok_iff.1 hrun
  have hc : (LoweringContext.inSelect { dialect := d, model }).countsByJoins = true := by
    simp [LoweringContext.countsByJoins, LoweringContext.inSelect, hd]
  obtain ⟨_, -, htested⟩ := SelectItem.lowerAll_tested select hc h₁
  exact htested

theorem countsMembers_plain {spec : Sql.QuerySpec} (h : spec.CountsMembers) :
    ∀ item ∈ spec.select, ¬ (Sql.Node.expression item.expression).HoldsQuery ∧
      ∀ q, .subquery q ∉ item.expression.parts := by
  obtain ⟨table, a, ownerColumn, owner, -, h⟩ := h
  simp only [countQuery, Sql.Expression.subquery.injEq, Sql.Query.spec.injEq] at h
  subst h
  refine List.forall_mem_singleton.2 ⟨?_, fun q hq => ?_⟩
  · simp [Sql.Node.holdsQuery_expression_iff, Sql.Expression.children]
  · cases List.mem_singleton.1 hq

/-! ## Statements -/

/-- Where subqueries cannot be selected, no value that a query of a lowered statement selects is a
subquery or is made from one, and none is in the select list that it comes from. A query stands in
its select list exactly if a condition in the latter tests a query. -/
theorem Statement.lower_selected_queries {statement : Statement} {d : Dialect}
    {model : Mapping.Model} {lowered : Sql.Statement} (hd : d.supports .subqueryInSelect = false)
    (h : statement.lower d model = .ok lowered) {spec : Sql.QuerySpec}
    (hs : spec ∈ lowered.specs everyKey) :
    (∀ item ∈ spec.select, ∀ q, .subquery q ∉ item.expression.parts) ∧
    (spec.CountsMembers ∧
        (∀ item ∈ spec.select, ¬ (Sql.Node.expression item.expression).HoldsQuery) ∨
      ∃ source : QuerySpec, source.StandsIn statement ∧ source.LowersTo d model spec) ∧
    ∀ source : QuerySpec, source.LowersTo d model spec →
      (∀ item ∈ source.select, ¬ (Node.expression item.expression).Holds Node.IsSubquery) ∧
      ((∃ item ∈ spec.select, (Sql.Node.expression item.expression).HoldsQuery) ↔
        ∃ item ∈ source.select, (Node.expression item.expression).Holds Node.TestsQuery) := by
  obtain ⟨t, h⟩ := Statement.lower_ok_iff.1 h
  have hstem := Statement.lowerIn_stem h spec hs
  refine ⟨?_, hstem.imp_left fun hc => ⟨hc, fun item hi => (countsMembers_plain hc item hi).1⟩, ?_⟩
  · rcases hstem with hc | ⟨source, -, hlowers⟩
    · exact fun item hi => (countsMembers_plain hc item hi).2
    · intro item hi q hq
      exact (source.lower_tested hd hlowers).plain q (List.mem_flatMap.2 ⟨item, hi, hq⟩)
  · intro source hlowers
    have htested := source.lower_tested hd hlowers
    simpa using And.intro htested.refused htested.holds

/-- Selects a value that depends on whether there are tags. -/
def anyTag : QuerySpec where
  select :=
    [⟨.case [⟨.exists (.spec
        { select := [⟨.literal (.integer 1), none⟩], roots := [⟨"Tag", "g", []⟩] }) false,
        .literal (.integer 1)⟩] none, none⟩]
  roots := [⟨"Person", "p", []⟩]

/-- The query in the condition is selected by a dialect that cannot select subqueries. -/
theorem anyTag_selects_query : ∃ lowered, ∃ spec ∈ lowered.specs everyKey,
    (Dialect.ofProduct .ingres ⟨9, 3, 0⟩).supports .subqueryInSelect = false ∧
    (Statement.select (.spec anyTag) none).lower (Dialect.ofProduct .ingres ⟨9, 3, 0⟩) peopleModel =
      .ok lowered ∧
    (∀ item ∈ spec.select, ∀ q, .subquery q ∉ item.expression.parts) ∧
    ∃ item ∈ spec.select, (Sql.Node.expression item.expression).HoldsQuery := by
  have hd : (Dialect.ofProduct .ingres ⟨9, 3, 0⟩).supports .subqueryInSelect = false := by
    decide +kernel
  have hlowered : ∃ lowered, (Statement.select (.spec anyTag) none).lower
      (Dialect.ofProduct .ingres ⟨9, 3, 0⟩) peopleModel = .ok lowered ∧ () = () :=
    exists_lowered (by decide +kernel)
  obtain ⟨lowered, h, -⟩ := hlowered
  obtain ⟨spec, -, hlowers, hmem⟩ := Statement.lower_select_spec h
  obtain ⟨hplain, -, hall⟩ := Statement.lower_selected_queries hd h hmem
  obtain ⟨-, hholds⟩ := hall _ hlowers
  refine ⟨lowered, spec, hmem, hd, h, hplain, hholds.2 ⟨_, List.mem_singleton.2 rfl, ?_⟩⟩
  exact .expression List.mem_cons_self (.here trivial)

end Entity

end SqlDialects
