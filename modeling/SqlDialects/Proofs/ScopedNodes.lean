import SqlDialects.Proofs.Rendering.Nodes
import SqlDialects.Proofs.Scoped

/-!
# What is seen below a node

The queries of a node are among those of the nodes above it. What is seen at a node is seen below
it too, and inside of a query its own tables come on top.
-/

namespace SqlDialects.Sql

/-! ## The queries below a node -/

theorem Expression.specsAll_eq {keys : KeyChoice} (es : List Expression) :
    Expression.specsAll keys es = es.flatMap (·.specs keys) := by
  induction es <;> simp_all [Expression.specsAll]

theorem Condition.specsAll_eq {keys : KeyChoice} (ps : List Condition) :
    Condition.specsAll keys ps = ps.flatMap (·.specs keys) := by
  induction ps <;> simp_all [Condition.specsAll]

theorem Query.specsAll_eq {keys : KeyChoice} (qs : List Query) :
    Query.specsAll keys qs = qs.flatMap (·.specs keys) := by
  induction qs <;> simp_all [Query.specsAll]

theorem CaseBranch.specsAll_eq {keys : KeyChoice}
    (branches : List (CaseBranch Condition Expression)) :
    CaseBranch.specsAll keys branches =
      branches.flatMap fun branch => branch.condition.specs keys ++ branch.result.specs keys := by
  induction branches <;> simp_all [CaseBranch.specsAll]

theorem SelectItem.specsAll_eq {keys : KeyChoice} (items : List (SelectItem Expression)) :
    SelectItem.specsAll keys items = items.flatMap (·.expression.specs keys) := by
  induction items <;> simp_all [SelectItem.specsAll]

theorem SortKey.specsAll_eq {keys : KeyChoice} (items : List (SortKey Expression)) :
    SortKey.specsAll keys items = items.flatMap (·.expression.specs keys) := by
  induction items <;> simp_all [SortKey.specsAll]

theorem Assignment.specsAll_eq {keys : KeyChoice} (assignments : List Assignment) :
    Assignment.specsAll keys assignments = assignments.flatMap (·.value.specs keys) := by
  induction assignments <;> simp_all [Assignment.specsAll]

theorem Expression.specsOption_eq {keys : KeyChoice} (e : Option Expression) :
    Expression.specsOption keys e = e.toList.flatMap (·.specs keys) := by
  cases e <;> simp [Expression.specsOption]

theorem Condition.specsOption_eq {keys : KeyChoice} (p : Option Condition) :
    Condition.specsOption keys p = p.toList.flatMap (·.specs keys) := by
  cases p <;> simp [Condition.specsOption]

theorem Join.specsAll_eq {keys : KeyChoice} : ∀ joins : List Join,
    Join.specsAll keys joins = joins.flatMap fun join => join.on.toList.flatMap (·.specs keys)
  | [] => rfl
  | ⟨_, _, _⟩ :: rest => by
    simp [Join.specsAll, Condition.specsOption_eq, Join.specsAll_eq rest]

theorem FromItem.specsAll_eq {keys : KeyChoice} : ∀ items : List FromItem,
    FromItem.specsAll keys items = items.flatMap (Join.specsAll keys ·.joins)
  | [] => rfl
  | ⟨_, _⟩ :: rest => by simp [FromItem.specsAll, FromItem.specsAll_eq rest]

section

/-- Keys that repeat no selected expression are looked at. -/
def KeyChoice.IsFull (keys : KeyChoice) : Prop :=
  ∀ select key, (¬ ∃ item ∈ select, item.expression = key) → keys select key = true

theorem everyKey_isFull : everyKey.IsFull := fun _ _ _ => rfl

theorem newKeys_isFull : newKeys.IsFull := fun _ _ h => by simpa [newKeys] using h

variable {keys : KeyChoice}

theorem Expression.mem_specsChosen (hkeys : keys.IsFull) {select : List (SelectItem Expression)}
    {spec : QuerySpec} {e : Expression} (hs : spec ∈ e.specs keys)
    (he : ¬ ∃ item ∈ select, item.expression = e) :
    ∀ {es : List Expression}, e ∈ es → spec ∈ Expression.specsChosen keys select es
  | key :: rest, h => by
    rw [Expression.specsChosen, List.mem_append]
    rcases List.mem_cons.1 h with rfl | h
    · exact .inl (by rw [if_pos (hkeys _ _ he)]; exact hs)
    · exact .inr (Expression.mem_specsChosen hkeys hs he h)

namespace Node

/-- The queries in a node, of those in groups only where the key is looked at. -/
def specs (keys : KeyChoice) : Node → List QuerySpec
  | expression e => e.specs keys
  | condition p => p.specs keys
  | query q => q.specs keys

end Node

theorem Expression.specs_subset {e : Expression} {m : Node} (h : m ∈ e.children) :
    m.specs keys ⊆ e.specs keys := by
  intro spec hs
  cases e with
  | column | literal | parameter | star => simp [children] at h
  | call _ items | tuple items =>
    obtain ⟨e, he, rfl⟩ := List.mem_map.1 h
    rw [specs, specsAll_eq]
    exact List.mem_flatMap.2 ⟨e, he, hs⟩
  | aggregate _ _ argument =>
    obtain ⟨e, he, rfl⟩ := List.mem_map.1 h
    rw [specs, specsOption_eq]
    exact List.mem_flatMap.2 ⟨e, he, hs⟩
  | extract | format | cast | negate | subquery =>
    obtain rfl := List.mem_singleton.1 h
    exact hs
  | timestampAdd | timestampDiff | binary =>
    simp only [children, List.mem_cons, List.not_mem_nil, or_false] at h
    rcases h with rfl | rfl
    · exact List.mem_append_left _ hs
    · exact List.mem_append_right _ hs
  | case branches otherwise =>
    rw [specs, CaseBranch.specsAll_eq, specsOption_eq, List.mem_append, List.mem_flatMap,
      List.mem_flatMap]
    simp only [children, List.mem_append, List.mem_flatMap, List.mem_map] at h
    rcases h with ⟨branch, hb, h⟩ | ⟨e, he, rfl⟩
    · refine .inl ⟨branch, hb, ?_⟩
      simp only [CaseBranch.nodes, List.mem_cons, List.not_mem_nil, or_false] at h
      rcases h with rfl | rfl
      · exact List.mem_append_left _ hs
      · exact List.mem_append_right _ hs
    · exact .inr ⟨e, he, hs⟩

theorem Condition.specs_subset {p : Condition} {m : Node} (h : m ∈ p.children) :
    m.specs keys ⊆ p.specs keys := by
  intro spec hs
  cases p with
  | all items | any items =>
    obtain ⟨q, hq, rfl⟩ := List.mem_map.1 h
    rw [specs, specsAll_eq]
    exact List.mem_flatMap.2 ⟨q, hq, hs⟩
  | compare | like | inQuery =>
    simp only [children, List.mem_cons, List.not_mem_nil, or_false] at h
    rcases h with rfl | rfl
    · exact List.mem_append_left _ hs
    · exact List.mem_append_right _ hs
  | between =>
    simp only [children, List.mem_cons, List.not_mem_nil, or_false] at h
    rcases h with rfl | rfl | rfl
    · exact List.mem_append_left _ hs
    · exact List.mem_append_right _ (List.mem_append_left _ hs)
    · exact List.mem_append_right _ (List.mem_append_right _ hs)
  | not | isNull | holds | «exists» =>
    obtain rfl := List.mem_singleton.1 h
    exact hs
  | inList operand items isNegated =>
    rw [specs, Expression.specsAll_eq]
    rcases List.mem_cons.1 h with rfl | h
    · exact List.mem_append_left _ hs
    · obtain ⟨e, he, rfl⟩ := List.mem_map.1 h
      exact List.mem_append_right _ (List.mem_flatMap.2 ⟨e, he, hs⟩)

/-- What a group repeats stands in the select list as well. -/
theorem QuerySpec.specs_subset (hkeys : keys.IsFull) {body : QuerySpec} {m : Node}
    (h : m ∈ body.children) : m.specs keys ⊆ body.specs keys := by
  intro spec hs
  obtain ⟨isDistinct, select, tables, condition, groupBy, having, orderBy, limit, offset⟩ := body
  have hselect (item : SelectItem Expression) (hi : item ∈ select)
      (hs : spec ∈ item.expression.specs keys) : spec ∈ SelectItem.specsAll keys select := by
    rw [SelectItem.specsAll_eq]
    exact List.mem_flatMap.2 ⟨item, hi, hs⟩
  simp only [specs, List.mem_cons, List.mem_append, FromItem.specsAll_eq, Join.specsAll_eq,
    Condition.specsOption_eq, SortKey.specsAll_eq, Expression.specsOption_eq, List.mem_flatMap]
  rcases QuerySpec.mem_children_iff.1 h with ⟨item, hi, rfl⟩ | ⟨e, he, rfl⟩ | ⟨p, hp, rfl⟩ |
    ⟨key, hkey, rfl⟩ | ⟨e, he, rfl⟩
  · exact .inr (.inr (.inl (hselect item hi hs)))
  · by_cases hr : ∃ item ∈ select, item.expression = e
    · obtain ⟨item, hi, rfl⟩ := hr
      exact .inr (.inr (.inl (hselect item hi hs)))
    · exact .inr (.inr (.inr (.inr (.inl (Expression.mem_specsChosen hkeys hs hr he)))))
  · simp only [conditions, joins, List.mem_append, List.mem_flatMap] at hp
    rcases hp with (⟨join, ⟨item, hi, hj⟩, hp⟩ | hp) | hp
    · exact .inr (.inl ⟨item, hi, join, hj, p, hp, hs⟩)
    · exact .inr (.inr (.inr (.inl ⟨p, hp, hs⟩)))
    · exact .inr (.inr (.inr (.inr (.inr (.inl ⟨p, hp, hs⟩)))))
  · exact .inr (.inr (.inr (.inr (.inr (.inr (.inl ⟨key, hkey, hs⟩))))))
  · rcases he with he | he
    · exact .inr (.inr (.inr (.inr (.inr (.inr (.inr (.inl
        ⟨e, Option.mem_toList.2 he, hs⟩)))))))
    · exact .inr (.inr (.inr (.inr (.inr (.inr (.inr (.inr
        ⟨e, Option.mem_toList.2 he, hs⟩)))))))

theorem Node.specs_subset (hkeys : keys.IsFull) {m n : Node} (h : m ∈ n.children) :
    m.specs keys ⊆ n.specs keys := by
  cases n with
  | expression e => exact Expression.specs_subset h
  | condition p => exact Condition.specs_subset h
  | query q =>
    cases q with
    | spec body => exact QuerySpec.specs_subset hkeys h
    | group operator parts orderBy limit offset =>
      intro spec hs
      simp only [specs, Query.specs, Query.specsAll_eq, SortKey.specsAll_eq,
        Expression.specsOption_eq, List.mem_append, List.mem_flatMap]
      simp only [children, Query.children, List.mem_append, List.mem_map] at h
      rcases h with ⟨q, hq, rfl⟩ | ⟨e, (⟨key, hkey, rfl⟩ | he) | he, rfl⟩
      · exact .inl ⟨q, hq, hs⟩
      · exact .inr (.inl ⟨key, hkey, hs⟩)
      · exact .inr (.inr (.inl ⟨e, he, hs⟩))
      · exact .inr (.inr (.inr ⟨e, he, hs⟩))

theorem Node.mem_specs (body : QuerySpec) : body ∈ (Node.query (.spec body)).specs keys := by
  obtain ⟨_, _, _, _, _, _, _, _, _⟩ := body
  exact List.mem_cons_self

theorem Node.specs_subset_of_within (hkeys : keys.IsFull) {m n : Node} (h : m.Within n) :
    m.specs keys ⊆ n.specs keys := by
  induction h with
  | refl => exact List.Subset.refl _
  | tail _ h ih => exact List.Subset.trans ih (Node.specs_subset hkeys h)

theorem Statement.specs_subset (hkeys : keys.IsFull) {statement : Statement} {n : Node}
    (h : statement.Contains n) : n.specs keys ⊆ statement.specs keys := by
  obtain ⟨m, hm, h⟩ := h
  refine List.Subset.trans (Node.specs_subset_of_within hkeys h) fun spec hs => ?_
  cases statement with
  | select query lock =>
    obtain rfl := List.mem_singleton.1 hm
    exact hs
  | insert table columns source =>
    cases source with
    | rows values =>
      obtain ⟨e, he, rfl⟩ := List.mem_map.1 hm
      obtain ⟨row, hrow, he⟩ := List.mem_flatten.1 he
      refine List.mem_flatMap.2 ⟨row, hrow, ?_⟩
      rw [Expression.specsAll_eq]
      exact List.mem_flatMap.2 ⟨e, he, hs⟩
    | query q =>
      obtain rfl := List.mem_singleton.1 hm
      exact hs
  | update target assignments condition =>
    rw [specs, Assignment.specsAll_eq, Condition.specsOption_eq]
    rcases List.mem_append.1 hm with hm | hm
    · obtain ⟨a, ha, rfl⟩ := List.mem_map.1 hm
      exact List.mem_append_left _ (List.mem_flatMap.2 ⟨a, ha, hs⟩)
    · obtain ⟨p, hp, rfl⟩ := List.mem_map.1 hm
      exact List.mem_append_right _ (List.mem_flatMap.2 ⟨p, hp, hs⟩)
  | delete target condition =>
    obtain ⟨p, hp, rfl⟩ := List.mem_map.1 hm
    rw [specs, Condition.specsOption_eq]
    exact List.mem_flatMap.2 ⟨p, hp, hs⟩

end

/-! ## What is seen below a node -/

section Scoped

variable {visible : List String}

theorem Expression.scopedAll_iff (es : List Expression) :
    Expression.ScopedAll visible es ↔ ∀ e ∈ es, e.Scoped visible := by
  induction es <;> simp_all [Expression.ScopedAll]

theorem Condition.scopedAll_iff (ps : List Condition) :
    Condition.ScopedAll visible ps ↔ ∀ p ∈ ps, p.Scoped visible := by
  induction ps <;> simp_all [Condition.ScopedAll]

theorem Query.scopedAll_iff (qs : List Query) :
    Query.ScopedAll visible qs ↔ ∀ q ∈ qs, q.Scoped visible := by
  induction qs <;> simp_all [Query.ScopedAll]

theorem CaseBranch.scopedAll_iff (branches : List (CaseBranch Condition Expression)) :
    CaseBranch.ScopedAll visible branches ↔
      ∀ branch ∈ branches, branch.condition.Scoped visible ∧ branch.result.Scoped visible := by
  induction branches <;> simp_all [CaseBranch.ScopedAll]

theorem SelectItem.scopedAll_iff (items : List (SelectItem Expression)) :
    SelectItem.ScopedAll visible items ↔ ∀ item ∈ items, item.expression.Scoped visible := by
  induction items <;> simp_all [SelectItem.ScopedAll]

theorem SortKey.scopedAll_iff (keys : List (SortKey Expression)) :
    SortKey.ScopedAll visible keys ↔ ∀ key ∈ keys, key.expression.Scoped visible := by
  induction keys <;> simp_all [SortKey.ScopedAll]

theorem Expression.scopedOption_iff (e : Option Expression) :
    Expression.ScopedOption visible e ↔ ∀ e' ∈ e, e'.Scoped visible := by
  cases e <;> simp [Expression.ScopedOption]

theorem Condition.scopedOption_iff (p : Option Condition) :
    Condition.ScopedOption visible p ↔ ∀ p' ∈ p, p'.Scoped visible := by
  cases p <;> simp [Condition.ScopedOption]

end Scoped

/-- A condition of a join sees some of the tables of its query. -/
theorem Join.scoped_of_mem : ∀ {joins : List Join} {visible : List String} {join : Join}
    {p : Condition}, Join.ScopedAll visible joins → join ∈ joins → join.on = some p →
      ∃ visible', visible' ⊆ joins.map (·.table.aliasName) ++ visible ∧ p.Scoped visible'
  | ⟨kind, table, on⟩ :: rest, visible, join, p, ⟨hfirst, hrest⟩, hj, hp => by
    rcases List.mem_cons.1 hj with rfl | hj
    · obtain rfl : on = some p := hp
      exact ⟨_, by simp, hfirst⟩
    · obtain ⟨visible', hsub, hv⟩ := Join.scoped_of_mem hrest hj hp
      refine ⟨visible', fun a ha => ?_, hv⟩
      have := hsub ha
      simp only [List.mem_append, List.mem_cons, List.map_cons] at this ⊢
      tauto

theorem FromItem.scoped_of_mem : ∀ {items : List FromItem} {visible : List String} {join : Join}
    {p : Condition}, FromItem.ScopedAll visible items → join ∈ items.flatMap FromItem.joins →
      join.on = some p →
      ∃ visible', visible' ⊆ items.flatMap FromItem.names ++ visible ∧ p.Scoped visible'
  | ⟨root, joins⟩ :: rest, visible, join, p, ⟨hfirst, hrest⟩, hj, hp => by
    rw [List.flatMap_cons, List.mem_append] at hj
    rcases hj with hj | hj
    · obtain ⟨visible', hsub, hv⟩ := Join.scoped_of_mem hfirst hj hp
      refine ⟨visible', fun a ha => ?_, hv⟩
      have := hsub ha
      simp only [List.flatMap_cons, FromItem.names, List.mem_append, List.mem_cons] at this ⊢
      tauto
    · obtain ⟨visible', hsub, hv⟩ := FromItem.scoped_of_mem hrest hj hp
      refine ⟨visible', fun a ha => ?_, hv⟩
      have := hsub ha
      simp only [List.flatMap_cons, List.mem_append] at this ⊢
      tauto

namespace Node

def Scoped (visible : List String) : Node → Prop
  | expression e => e.Scoped visible
  | condition p => p.Scoped visible
  | query q => q.Scoped visible

/-- The aliases of the tables of a query. -/
def names : Node → List String
  | query (.spec body) => body.tables.flatMap FromItem.names
  | _ => []

end Node

theorem Expression.scoped_child {e : Expression} {visible : List String} {m : Node}
    (hv : e.Scoped visible) (h : m ∈ e.children) : m.Scoped visible := by
  cases e with
  | column | literal | parameter | star => simp [children] at h
  | call _ items | tuple items =>
    obtain ⟨e, he, rfl⟩ := List.mem_map.1 h
    exact (scopedAll_iff _).1 hv e he
  | aggregate _ _ argument =>
    obtain ⟨e, he, rfl⟩ := List.mem_map.1 h
    exact (scopedOption_iff _).1 hv e (Option.mem_toList.1 he)
  | extract | format | cast | negate | subquery =>
    obtain rfl := List.mem_singleton.1 h
    exact hv
  | timestampAdd | timestampDiff | binary =>
    simp only [children, List.mem_cons, List.not_mem_nil, or_false] at h
    rcases h with rfl | rfl
    · exact hv.1
    · exact hv.2
  | case branches otherwise =>
    simp only [children, List.mem_append, List.mem_flatMap, List.mem_map] at h
    rcases h with ⟨branch, hb, h⟩ | ⟨e, he, rfl⟩
    · have hbranch := (CaseBranch.scopedAll_iff _).1 hv.1 branch hb
      simp only [CaseBranch.nodes, List.mem_cons, List.not_mem_nil, or_false] at h
      rcases h with rfl | rfl
      · exact hbranch.1
      · exact hbranch.2
    · exact (scopedOption_iff _).1 hv.2 e (Option.mem_toList.1 he)

theorem Condition.scoped_child {p : Condition} {visible : List String} {m : Node}
    (hv : p.Scoped visible) (h : m ∈ p.children) : m.Scoped visible := by
  cases p with
  | all items | any items =>
    obtain ⟨q, hq, rfl⟩ := List.mem_map.1 h
    exact (scopedAll_iff _).1 hv q hq
  | compare | like | inQuery =>
    simp only [children, List.mem_cons, List.not_mem_nil, or_false] at h
    rcases h with rfl | rfl
    · exact hv.1
    · exact hv.2
  | between =>
    simp only [children, List.mem_cons, List.not_mem_nil, or_false] at h
    rcases h with rfl | rfl | rfl
    · exact hv.1
    · exact hv.2.1
    · exact hv.2.2
  | not | isNull | holds | «exists» =>
    obtain rfl := List.mem_singleton.1 h
    exact hv
  | inList operand items isNegated =>
    rcases List.mem_cons.1 h with rfl | h
    · exact hv.1
    · obtain ⟨e, he, rfl⟩ := List.mem_map.1 h
      exact (Expression.scopedAll_iff _).1 hv.2 e he

theorem QuerySpec.scoped_child {body : QuerySpec} {visible : List String} {m : Node}
    (hv : body.Scoped visible) (h : m ∈ body.children) :
    ∃ visible', visible' ⊆ body.tables.flatMap FromItem.names ++ visible ∧ m.Scoped visible' := by
  obtain ⟨isDistinct, select, tables, condition, groupBy, having, orderBy, limit, offset⟩ := body
  obtain ⟨htables, hselect, hcondition, hgroup, hhaving, horder, hlimit, hoffset⟩ := hv
  rcases QuerySpec.mem_children_iff.1 h with ⟨item, hi, rfl⟩ | ⟨e, he, rfl⟩ | ⟨p, hp, rfl⟩ |
    ⟨key, hkey, rfl⟩ | ⟨e, he, rfl⟩
  · exact ⟨_, List.Subset.refl _, (SelectItem.scopedAll_iff _).1 hselect item hi⟩
  · exact ⟨_, List.Subset.refl _, (Expression.scopedAll_iff _).1 hgroup e he⟩
  · simp only [conditions, joins, List.mem_append, List.mem_flatMap, Option.mem_toList] at hp
    rcases hp with (⟨join, hj, hp⟩ | hp) | hp
    · exact FromItem.scoped_of_mem htables (List.mem_flatMap.2 hj) hp
    · exact ⟨_, List.Subset.refl _, (Condition.scopedOption_iff _).1 hcondition p hp⟩
    · exact ⟨_, List.Subset.refl _, (Condition.scopedOption_iff _).1 hhaving p hp⟩
  · exact ⟨_, List.Subset.refl _, (SortKey.scopedAll_iff _).1 horder key hkey⟩
  · rcases he with he | he
    · exact ⟨_, List.Subset.refl _, (Expression.scopedOption_iff _).1 hlimit e he⟩
    · exact ⟨_, List.Subset.refl _, (Expression.scopedOption_iff _).1 hoffset e he⟩

namespace Node

variable {m n : Node} {visible : List String}

/-- The tables of a query add to what is seen inside it. -/
theorem scoped_child (hv : n.Scoped visible) (h : m ∈ n.children) :
    ∃ visible', visible' ⊆ n.names ++ visible ∧ m.Scoped visible' := by
  cases n with
  | expression e => exact ⟨visible, List.Subset.refl _, Expression.scoped_child hv h⟩
  | condition p => exact ⟨visible, List.Subset.refl _, Condition.scoped_child hv h⟩
  | query q =>
    cases q with
    | spec body => exact QuerySpec.scoped_child hv h
    | group operator parts orderBy limit offset =>
      refine ⟨visible, List.Subset.refl _, ?_⟩
      obtain ⟨hparts, horder, hlimit, hoffset⟩ := hv
      simp only [children, Query.children, List.mem_append, List.mem_map, Option.mem_toList] at h
      rcases h with ⟨q, hq, rfl⟩ | ⟨e, (⟨key, hkey, rfl⟩ | he) | he, rfl⟩
      · exact (Query.scopedAll_iff _).1 hparts q hq
      · exact (SortKey.scopedAll_iff _).1 horder key hkey
      · exact (Expression.scopedOption_iff _).1 hlimit e he
      · exact (Expression.scopedOption_iff _).1 hoffset e he

theorem scoped_below (hv : n.Scoped visible) (h : m.Below n) :
    ∃ visible', visible' ⊆ n.names ++ visible ∧ m.Scoped visible' := by
  cases h with
  | child h => exact scoped_child hv h
  | element h he =>
    obtain ⟨visible', hsub, hv'⟩ := scoped_child hv h
    exact ⟨visible', hsub, Expression.scoped_child hv' (List.mem_map_of_mem he)⟩

end Node

theorem Assignment.scopedAll_iff {visible : List String} (assignments : List Assignment) :
    Assignment.ScopedAll visible assignments ↔ ∀ a ∈ assignments, a.value.Scoped visible := by
  induction assignments <;> simp_all [Assignment.ScopedAll]

end SqlDialects.Sql
