import SqlDialects.Proofs.Lowering.Aliases
import SqlDialects.Proofs.ScopedNodes

/-!
# Qualifiers and what the text declares

A column is written with the alias of its table, and the from clause of a query around it declares
that alias. The target of an update or delete is written without its alias, so that a query inside
the statement which refers to the target uses an alias that is declared nowhere.
-/

namespace SqlDialects.Sql

/-! ## Where a column is written -/

/-- The alias that a column is written with. -/
def Node.qualifier? (c : Context) : Node → Option String
  | .expression (.column (some a) _) => if c.bareAlias = some a then none else some a
  | _ => none

theorem Node.qualifier?_eq_some_iff {c : Context} {n : Node} {a : String} :
    n.qualifier? c = some a ↔
      ∃ name, n = .expression (.column (some a) name) ∧ c.bareAlias ≠ some a := by
  constructor
  · intro h
    unfold qualifier? at h
    split at h
    · next b name =>
      split at h
      · simp at h
      · next hc =>
        obtain rfl := Option.some.inj h
        exact ⟨name, rfl, hc⟩
    · simp at h
  · rintro ⟨name, rfl, hc⟩
    simp [qualifier?, hc]

/-- A qualifier stands before the name of its column, with a point between them. -/
theorem Node.render_of_qualifier {c : Context} {n : Node} {a : String}
    (h : n.qualifier? c = some a) :
    ∃ name, n.render c = .ok { pieces := [.text (a ++ "."), .name name] } := by
  obtain ⟨name, rfl, hc⟩ := qualifier?_eq_some_iff.1 h
  refine ⟨name, ?_⟩
  simp only [render, Expression.render, Context.column, if_neg hc]
  rfl

def Node.queries : Node → List Query
  | .query q => [q]
  | _ => []

/-- The aliases that the from clause of a query declares. An empty one is not written. -/
def Query.declared (q : Query) : List String := (Node.query q).names.filter (· ≠ "")

namespace Statement

def queries : Statement → List Query
  | select query _ => [query]
  | _ => []

def targetAlias? : Statement → Option String
  | update target _ _ | delete target _ => some target.aliasName
  | select _ _ | insert _ _ _ => none

/-- A node is written into the text of a statement, in a context and inside of some queries, the
innermost first. -/
inductive Writes (d : Dialect) (statement : Statement) : List Query → Context → Node → Prop
  | outer {b : Bool} {m : Node} (h : .part b m ∈ statement.layout d) :
    Writes d statement statement.queries
      (if b then (statement.context d).nested else statement.context d) m
  | inner {qs : List Query} {c : Context} {n : Node} {b : Bool} {m : Node}
    (hn : Writes d statement qs c n) (h : .part b m ∈ n.layout c) :
    Writes d statement (n.queries ++ qs) (if b then c.nested else c) m

variable {d : Dialect} {statement : Statement} {qs : List Query} {c : Context} {m n : Node}

/-- Outside of all queries, the target is all that is seen. -/
theorem scoped_child (hv : statement.Scoped) (h : m ∈ statement.children) :
    m.Scoped statement.targetAlias?.toList := by
  cases statement with
  | select query lock =>
    obtain rfl := List.mem_singleton.1 h
    exact hv
  | insert table columns source =>
    cases source with
    | rows values =>
      obtain ⟨e, he, rfl⟩ := List.mem_map.1 h
      obtain ⟨row, hrow, he⟩ := List.mem_flatten.1 he
      exact (Expression.scopedAll_iff _).1 (hv row hrow) e he
    | query q =>
      obtain rfl := List.mem_singleton.1 h
      exact hv
  | update target assignments condition =>
    rcases List.mem_append.1 h with h | h
    · obtain ⟨a, ha, rfl⟩ := List.mem_map.1 h
      exact (Assignment.scopedAll_iff _).1 hv.1 a ha
    · obtain ⟨p, hp, rfl⟩ := List.mem_map.1 h
      exact (Condition.scopedOption_iff _).1 hv.2 p (Option.mem_toList.1 hp)
  | delete target condition =>
    obtain ⟨p, hp, rfl⟩ := List.mem_map.1 h
    exact (Condition.scopedOption_iff _).1 hv p (Option.mem_toList.1 hp)

namespace Writes

theorem contains (h : statement.Writes d qs c n) :
    statement.Contains n ∧ ∀ q ∈ qs, statement.Contains (.query q) := by
  induction h with
  | outer h =>
    cases hs : statement.isSelect with
    | false =>
      refine ⟨⟨_, (child_of_layout hs h).1, .refl⟩, fun q hq => ?_⟩
      cases statement <;> simp [queries, isSelect] at hq hs
    | true =>
      cases statement with
      | select query lock =>
        refine ⟨⟨_, List.mem_singleton.2 rfl, .single (part_of_select h).2⟩, fun q hq => ?_⟩
        obtain rfl := List.mem_singleton.1 hq
        exact ⟨_, List.mem_singleton.2 rfl, .refl⟩
      | _ => simp [isSelect] at hs
  | @inner qs c n b m hn h ih =>
    obtain ⟨⟨k, hk, hnk⟩, hqs⟩ := ih
    refine ⟨⟨k, hk, (Node.below_of_layout h).within.trans hnk⟩, fun q hq => ?_⟩
    rcases List.mem_append.1 hq with hq | hq
    · cases n with
      | query q' =>
        obtain rfl := List.mem_singleton.1 hq
        exact ⟨k, hk, hnk⟩
      | _ => simp [Node.queries] at hq
    · exact hqs q hq

/-- What is seen where a node is written: the tables of the queries around it, and the target. -/
theorem seen (h : statement.Writes d qs c n) (hv : statement.Scoped) :
    ∃ visible, visible ⊆ qs.flatMap (Node.names ∘ .query) ++ statement.targetAlias?.toList ∧
      n.Scoped visible := by
  induction h with
  | outer h =>
    cases hs : statement.isSelect with
    | false =>
      exact ⟨_, List.subset_append_right _ _, scoped_child hv (child_of_layout hs h).1⟩
    | true =>
      cases statement with
      | select query lock =>
        obtain ⟨visible, hsub, hm⟩ := Node.scoped_child (n := .query query) hv (part_of_select h).2
        exact ⟨visible, by simpa [queries, targetAlias?] using hsub, hm⟩
      | _ => simp [isSelect] at hs
  | @inner qs c n b m hn h ih =>
    obtain ⟨visible, hsub, hscoped⟩ := ih
    obtain ⟨visible', hsub', hm⟩ := Node.scoped_below hscoped (Node.below_of_layout h)
    refine ⟨visible', List.Subset.trans hsub' ?_, hm⟩
    rw [List.flatMap_append, List.append_assoc]
    refine List.append_subset.2 ⟨?_, List.subset_append_of_subset_right _ hsub⟩
    refine List.subset_append_of_subset_left _ ?_
    cases n with
    | query q => simp [Node.queries]
    | _ => simp [Node.names]

/-- Outside of all queries, the target has no alias. -/
theorem context_of_outer (h : statement.Writes d [] c n) (hq : n.isQuery = false) :
    c.bareAlias = statement.targetAlias? := by
  generalize hqs : ([] : List Query) = qs at h
  induction h with
  | outer h =>
    cases hs : statement.isSelect with
    | false =>
      obtain ⟨-, rfl⟩ := child_of_layout hs h
      cases statement <;> simp_all [context, targetAlias?]
    | true => cases statement <;> simp [isSelect, queries] at hs hqs
  | @inner qs c n b m hn h ih =>
    obtain ⟨hnil, rfl⟩ := List.append_eq_nil_iff.1 hqs.symm
    cases n with
    | query q => simp [Node.queries] at hnil
    | expression e =>
      obtain ⟨-, rfl⟩ := Expression.child_of_layout h
      simpa [hq] using ih rfl rfl
    | condition p =>
      obtain ⟨-, rfl⟩ := Condition.below_of_layout h
      simpa [hq] using ih rfl rfl

end Writes

end Statement

end SqlDialects.Sql

namespace SqlDialects.Entity

open Sql (newKeys tableNames)

theorem Allotted.ne_empty {lo hi : Nat} {a : String} (h : Allotted lo hi a) : a ≠ "" := by
  obtain ⟨i, -, -, rfl⟩ := h
  intro h
  simp at h

/-! ## Lowered statements -/

/-- The columns of a lowered statement are scoped, and its aliases are all there and different. -/
theorem Statement.lower_scoped {statement : Statement} {d : Dialect} {model : Mapping.Model}
    {lowered : Sql.Statement} (h : statement.lower d model = .ok lowered) :
    lowered.Scoped ∧
      (lowered.targetAlias?.toList ++ tableNames (lowered.specs newKeys)).Nodup ∧
        ∀ a ∈ tableNames (lowered.specs newKeys), a ≠ "" := by
  obtain ⟨t, h⟩ := Statement.lower_ok_iff.1 h
  cases statement with
  | select query lock =>
    simp only [Statement.lowerIn, Lower.bind_ok_iff, Lower.pure_ok_iff, Prod.mk.injEq] at h
    obtain ⟨_, _, h, rfl, rfl⟩ := h
    have hs : Ready { dialect := d, model } ⟨0, []⟩ :=
      ⟨LoweringState.Sound.start, by simp⟩
    have hy := query.lower_yields hs h
    have hnames : t.names = [] := by
      rw [LoweringState.names, List.forall₂_nil_left_iff.1 hy.grows.scopes, List.flatMap_nil]
    exact ⟨hy.seen [] (hnames ▸ List.Subset.refl _), hy.nodup,
      fun a ha => (hy.fresh a ha).1.ne_empty⟩
  | update name aliasName assignments condition =>
    simp only [Statement.lowerIn, Lower.bind_ok_iff, Lower.pure_ok_iff, Prod.mk.injEq] at h
    obtain ⟨⟨entity, target⟩, _, hb, _, _, h₁, _, _, h₂, rfl, rfl⟩ := h
    obtain ⟨rfl, rfl⟩ := bindTarget_ok hb
    have hs : Ready { dialect := d, model } _ := ⟨ofTarget_sound aliasName entity, by simp⟩
    have h₁ := lowerAssignments_yields hs h₁
    have hy := h₁.and (Condition.lowerOption_yields condition (hs.keeps h₁.toKeeps) h₂)
    exact ⟨hy.ofTarget.2, hy.ofTarget.1, fun a ha => (hy.fresh a ha).1.ne_empty⟩
  | delete name aliasName condition =>
    simp only [Statement.lowerIn, Lower.bind_ok_iff, Lower.pure_ok_iff, Prod.mk.injEq] at h
    obtain ⟨⟨entity, target⟩, _, hb, _, _, h, rfl, rfl⟩ := h
    obtain ⟨rfl, rfl⟩ := bindTarget_ok hb
    have hs : Ready { dialect := d, model } _ := ⟨ofTarget_sound aliasName entity, by simp⟩
    have hy := Condition.lowerOption_yields condition hs h
    exact ⟨hy.ofTarget.2, hy.ofTarget.1, fun a ha => (hy.fresh a ha).1.ne_empty⟩

/-- In the text of a lowered statement a qualifier stands only inside of queries, and one of these
declares it exactly if it is not the alias of the target of an update or delete. -/
theorem Statement.lower_qualifier_declared {statement : Statement} {d : Dialect}
    {model : Mapping.Model} {lowered : Sql.Statement} (h : statement.lower d model = .ok lowered)
    {queries : List Sql.Query} {c : Sql.Context} {n : Sql.Node} {a : String}
    (hw : lowered.Writes d queries c n) (hq : n.qualifier? c = some a) :
    queries ≠ [] ∧
      ((∃ query ∈ queries, a ∈ query.declared) ↔ lowered.targetAlias? ≠ some a) := by
  obtain ⟨name, rfl, hc⟩ := Sql.Node.qualifier?_eq_some_iff.1 hq
  obtain ⟨hscoped, hnodup, hnames⟩ := Statement.lower_scoped h
  obtain ⟨visible, hsub, hv⟩ := hw.seen hscoped
  -- The qualifier is one of the aliases that are seen.
  have hseen : a ∈ queries.flatMap (Sql.Node.names ∘ .query) ++ lowered.targetAlias?.toList := by
    obtain ⟨b, hb, hab⟩ := hv
    exact hsub (Option.some.inj hab ▸ hb)
  -- The tables of the queries around it are tables of the statement.
  have htables {query : Sql.Query} (hquery : query ∈ queries)
      (ha : a ∈ (Sql.Node.query query).names) : a ∈ tableNames (lowered.specs newKeys) := by
    cases query with
    | spec body =>
      exact List.mem_flatMap.2 ⟨body,
        Sql.Statement.specs_subset Sql.newKeys_isFull (hw.contains.2 _ hquery)
          (Sql.Node.mem_specs body), ha⟩
    | group => simp [Sql.Node.names] at ha
  refine ⟨?_, ?_, fun htarget => ?_⟩
  · -- Outside of all queries only the target is seen, and it has no qualifier there.
    rintro rfl
    rw [List.flatMap_nil, List.nil_append, Option.mem_toList] at hseen
    exact hc (hw.context_of_outer rfl ▸ hseen)
  · -- The alias of the target is not allotted to a table.
    rintro ⟨query, hquery, ha⟩ htarget
    have ha := htables hquery (List.mem_filter.1 ha).1
    rw [htarget] at hnodup
    exact (List.nodup_cons.1 hnodup).1 ha
  · rcases List.mem_append.1 hseen with ha | ha
    · obtain ⟨query, hquery, ha⟩ := List.mem_flatMap.1 ha
      have hne := hnames a (htables hquery ha)
      exact ⟨query, hquery, List.mem_filter.2 ⟨ha, by simpa using hne⟩⟩
    · exact absurd (Option.mem_toList.1 ha) htarget

def deleteTagless : Statement :=
  .delete "Person" "p" (some (.compare (.size ⟨"p", ["tags"]⟩) .equal (.literal (.integer 0))))

def tagCount : Sql.Query :=
  .spec
    { select := [⟨.aggregate .count false none, none⟩]
      tables := [⟨⟨"tag", "t1"⟩, []⟩]
      condition := some (.equal (.of "t1" "person_id") (.of "t0" "id")) }

def deleteByTagCount : Sql.Statement :=
  .delete ⟨"person", "t0"⟩
    (some (.compare (.subquery tagCount) .equal (.literal (.integer 0))))

theorem deleteTagless_lowered :
    deleteTagless.lower (Dialect.ofProduct .postgreSql ⟨16, 0, 0⟩) peopleModel =
      .ok deleteByTagCount := rfl

/-- The condition of the count is written inside of its query. There the target has an alias. -/
theorem deleteByTagCount_writes :
    ∃ c, deleteByTagCount.Writes (Dialect.ofProduct .postgreSql ⟨16, 0, 0⟩) [tagCount] c
        (.expression (.of "t0" "id")) ∧ c.bareAlias = none := by
  have hcompare : deleteByTagCount.Writes (Dialect.ofProduct .postgreSql ⟨16, 0, 0⟩) [] _
      (.condition (.compare (.subquery tagCount) .equal (.literal (.integer 0)))) :=
    .outer (List.mem_of_getElem? (i := 3) rfl)
  have hsubquery := hcompare.inner (m := .expression (.subquery tagCount))
    (List.mem_of_getElem? (i := 0) rfl)
  have hquery := hsubquery.inner (m := .query tagCount) (List.mem_of_getElem? (i := 1) rfl)
  have hcondition := hquery.inner
    (m := .condition (.equal (.of "t1" "person_id") (.of "t0" "id")))
    (List.mem_of_getElem? (i := 7) rfl)
  exact ⟨_, hcondition.inner (List.mem_of_getElem? (i := 2) rfl), rfl⟩

/-- The query of the count refers to the target, and no from clause declares its alias. -/
theorem deleteTagless_qualifier_undeclared : ∃ lowered c,
    deleteTagless.lower (Dialect.ofProduct .postgreSql ⟨16, 0, 0⟩) peopleModel = .ok lowered ∧
      lowered.Writes (Dialect.ofProduct .postgreSql ⟨16, 0, 0⟩) [tagCount] c
        (.expression (.of "t0" "id")) ∧
      ¬ ∃ query ∈ [tagCount], "t0" ∈ query.declared := by
  obtain ⟨c, hw, hc⟩ := deleteByTagCount_writes
  refine ⟨_, c, deleteTagless_lowered, hw, fun hdeclared => ?_⟩
  have hq : Sql.Node.qualifier? c (.expression (.of "t0" "id")) = some "t0" :=
    Sql.Node.qualifier?_eq_some_iff.2 ⟨"id", rfl, by simp [hc]⟩
  exact (Statement.lower_qualifier_declared deleteTagless_lowered hw hq).2.1 hdeclared rfl

end SqlDialects.Entity
