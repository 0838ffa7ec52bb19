import SqlDialects.Proofs.BareColumns
import SqlDialects.Proofs.Lowering.Counts
import SqlDialects.Proofs.Lowering.Occurrences
import SqlDialects.Proofs.ScopedNodes

/-!
# Grouping by owners

A query that counts collections by joins is grouped by their owners and by what it selects beside
the counts. Columns in the same item as a count, and columns of the order, are not made keys.
-/

namespace SqlDialects

namespace Sql

/-- Among the parts of a tree there is a `count(distinct ..)`. -/
def CountsDistinct (parts : List Expression) : Prop :=
  ∃ argument, Expression.aggregate .count true (some argument) ∈ parts

namespace QuerySpec

/-- The query is grouped for its counts. Its keys are selected values and ids of owners, and all
columns are in keys if those are that stand beside a count or in the order. -/
structure GroupedByOwners (spec : QuerySpec) : Prop where
  counts : ∃ item ∈ spec.select, CountsDistinct item.expression.parts
  owner : ∃ owner ∈ spec.groupBy, FromItem.CountFor spec.tables owner
  keys : ∀ key ∈ spec.groupBy,
    (∃ item ∈ spec.select, item.expression = key) ∨ FromItem.CountFor spec.tables key
  uncounted : ∀ item ∈ spec.select, ¬ CountsDistinct item.expression.parts →
    item.expression.bareColumns ⊆ spec.groupedColumns
  groupsColumns_iff : spec.GroupsColumns ↔
    (∀ item ∈ spec.select, CountsDistinct item.expression.parts →
      item.expression.bareColumns ⊆ spec.groupedColumns) ∧
    ∀ key ∈ spec.orderBy, key.expression.bareColumns ⊆ spec.groupedColumns

/-- The query is what becomes of one size where subqueries can be selected. -/
def CountsMembers (spec : QuerySpec) : Prop :=
  ∃ table aliasName ownerColumn, ∃ owner : Expression, owner.IsColumn ∧
    Entity.countQuery table aliasName ownerColumn owner = .subquery (.spec spec)

end QuerySpec

end Sql

namespace Entity

open Sql (FromItem everyKey CountsDistinct)
open Lower (Makes makes_throw makes_of_eq)

/-! ## Where queries come from -/

/-- The size of a collection stands in the node, outside of nested queries. -/
inductive Node.HoldsSize : Node → Prop
  | size (path : Path) : HoldsSize (.expression (.size path))
  | expression {e : Expression} {m : Node} (hm : m ∈ e.children) (h : m.HoldsSize) :
    HoldsSize (.expression e)
  | condition {p : Condition} {m : Node} (hm : m ∈ p.children) (h : m.HoldsSize) :
    HoldsSize (.condition p)

namespace QuerySpec

/-- A size is selected, and the dialect cannot select subqueries. -/
def CountsByJoins (source : QuerySpec) (d : Dialect) : Prop :=
  d.supports .subqueryInSelect = false ∧
    ∃ item ∈ source.select, (Node.expression item.expression).HoldsSize

/-- Nothing else stands in an item with a size. -/
def SelectsSizesAlone (source : QuerySpec) : Prop :=
  ∀ item ∈ source.select, (Node.expression item.expression).HoldsSize →
    ∃ path, item.expression = .size path

def LowersTo (source : QuerySpec) (d : Dialect) (model : Mapping.Model) (spec : Sql.QuerySpec) :
    Prop :=
  ∃ s t, source.lower { dialect := d, model } s = .ok (spec, t)

end QuerySpec

/-- The query counts members, or a query that stands in one of the nodes has been lowered to it. -/
def StemsFrom (d : Dialect) (model : Mapping.Model) (nodes : List Node) (spec : Sql.QuerySpec) :
    Prop :=
  spec.CountsMembers ∨ ∃ source : QuerySpec,
    (∃ n ∈ nodes, (Node.query (.spec source)).Within n) ∧ source.LowersTo d model spec

namespace StemsFrom

variable {d : Dialect} {model : Mapping.Model} {nodes nodes' : List Node} {spec : Sql.QuerySpec}

theorem mono (h : StemsFrom d model nodes spec) (hn : nodes ⊆ nodes') :
    StemsFrom d model nodes' spec :=
  h.imp_right fun ⟨source, ⟨n, hmem, hwithin⟩, h⟩ => ⟨source, ⟨n, hn hmem, hwithin⟩, h⟩

theorem up {k : Node} (h : StemsFrom d model k.children spec) : StemsFrom d model [k] spec :=
  h.imp_right fun ⟨source, ⟨_, hmem, hwithin⟩, h⟩ =>
    ⟨source, ⟨k, List.mem_singleton.2 rfl, hwithin.tail hmem⟩, h⟩

end StemsFrom

variable {c : LoweringContext}

/-! ## What is made of some nodes -/

/-- So many sizes in the nodes are counted by joins. The parts of what has been made count them, and
the queries in it come from the nodes. -/
structure Built (c : LoweringContext) (nodes : List Node) (n : Nat) (specs : List Sql.QuerySpec)
    (parts : List Sql.Expression) : Prop where
  counted : n ≠ 0 ↔ c.countsByJoins = true ∧ ∃ m ∈ nodes, m.HoldsSize
  counts : n ≠ 0 → CountsDistinct parts
  stem : ∀ spec ∈ specs, StemsFrom c.dialect c.model nodes spec

namespace Built

variable {nodes nodes' : List Node} {n n' : Nat} {specs specs' : List Sql.QuerySpec}
  {parts parts' : List Sql.Expression}

theorem nil : Built c [] 0 [] [] := ⟨by simp, nofun, nofun⟩

theorem append (h : Built c nodes n specs parts) (h' : Built c nodes' n' specs' parts') :
    Built c (nodes ++ nodes') (n + n') (specs ++ specs') (parts ++ parts') where
  counted := by
    have hsum : n + n' ≠ 0 ↔ n ≠ 0 ∨ n' ≠ 0 := by omega
    rw [hsum, h.counted, h'.counted]
    simp only [List.mem_append, or_and_right, exists_or, and_or_left]
  counts hsum := by
    have hsum : n ≠ 0 ∨ n' ≠ 0 := by omega
    rcases hsum with hn | hn
    · obtain ⟨argument, ha⟩ := h.counts hn
      exact ⟨argument, List.mem_append_left _ ha⟩
    · obtain ⟨argument, ha⟩ := h'.counts hn
      exact ⟨argument, List.mem_append_right _ ha⟩
  stem := List.forall_mem_append.2
    ⟨fun spec hs => (h.stem spec hs).mono (List.subset_append_left _ _),
      fun spec hs => (h'.stem spec hs).mono (List.subset_append_right _ _)⟩

/-- The parts may stand in something bigger. -/
theorem widen (h : Built c nodes n specs parts) (hp : parts ⊆ parts') :
    Built c nodes n specs parts' := by
  refine ⟨h.counted, fun hn => ?_, h.stem⟩
  obtain ⟨argument, ha⟩ := h.counts hn
  exact ⟨argument, hp ha⟩

theorem expression {e : Expression} (h : Built c e.children n specs parts)
    (hs : ∀ path, e ≠ .size path) : Built c [.expression e] n specs parts where
  counted := by
    rw [h.counted]
    refine and_congr_right fun _ => ⟨fun ⟨m, hm, hsize⟩ => ?_, fun ⟨m, hm, hsize⟩ => ?_⟩
    · exact ⟨_, List.mem_singleton.2 rfl, .expression hm hsize⟩
    · obtain rfl := List.mem_singleton.1 hm
      cases hsize with
      | size path => exact absurd rfl (hs path)
      | expression hm hsize => exact ⟨_, hm, hsize⟩
  counts := h.counts
  stem spec hspec := (h.stem spec hspec).up (k := .expression e)

theorem condition {p : Condition} (h : Built c p.children n specs parts) :
    Built c [.condition p] n specs parts where
  counted := by
    rw [h.counted]
    refine and_congr_right fun _ => ⟨fun ⟨m, hm, hsize⟩ => ?_, fun ⟨m, hm, hsize⟩ => ?_⟩
    · exact ⟨_, List.mem_singleton.2 rfl, .condition hm hsize⟩
    · obtain rfl := List.mem_singleton.1 hm
      cases hsize with
      | condition hm hsize => exact ⟨_, hm, hsize⟩
  counts := h.counts
  stem spec hspec := (h.stem spec hspec).up (k := .condition p)

/-- Sizes in nested queries are not counted for the query around them. -/
theorem query {q : Query} (h : ∀ spec ∈ specs, StemsFrom c.dialect c.model [.query q] spec) :
    Built c [.query q] 0 specs [] := by
  refine ⟨⟨fun hn => absurd rfl hn, fun ⟨_, m, hm, hsize⟩ => ?_⟩, fun hn => absurd rfl hn, h⟩
  obtain rfl := List.mem_singleton.1 hm
  cases hsize

theorem eq_zero (h : Built c.outsideSelect nodes n specs parts) : n = 0 := by
  by_contra hn
  exact Bool.noConfusion (h.counted.1 hn).1

end Built

theorem checkMember_makes {e : Expression} :
    Makes (checkMember c e) fun n _ => n = 0 ∧ True :=
  makes_of_eq fun _ _ _ hr => ⟨checkMember_ok hr, trivial⟩

theorem checkCall_makes {name : String} {arguments : Nat} :
    Makes (checkCall c name arguments) fun n _ => n = 0 ∧ True :=
  makes_of_eq fun _ _ _ hr => ⟨checkCall_ok hr, trivial⟩

theorem checkSubquery_makes : Makes (checkSubquery c) fun n _ => n = 0 ∧ True :=
  makes_of_eq fun _ _ _ hr => ⟨(checkSubquery_ok hr).2, trivial⟩

theorem checkOrder_makes {isNested : Bool} {q : Query} :
    Makes (checkOrder c isNested q) fun n _ => n = 0 ∧ True :=
  makes_of_eq fun _ _ _ hr => ⟨checkOrder_ok hr, trivial⟩

theorem checkGroup_makes {isNested : Bool} {operator : SetOperator} :
    Makes (checkGroup c isNested operator) fun n _ => n = 0 ∧ True :=
  makes_of_eq fun _ _ _ hr => ⟨checkGroup_ok hr, trivial⟩

theorem lowerSize_built {path : Path} : Makes (lowerSize c path) fun n r =>
    Built c [.expression (.size path)] n (r.specs everyKey) r.parts := by
  refine lowerSize_makes.imp ?_
  have hsize : ∃ m ∈ [Node.expression (.size path)], m.HoldsSize :=
    ⟨_, List.mem_singleton.2 rfl, .size path⟩
  rintro n _ (⟨hc, rfl, _, ⟨a, column, rfl⟩, rfl⟩ |
    ⟨hc, rfl, table, a, ownerColumn, _, ⟨b, column, rfl⟩, rfl⟩)
  · exact ⟨⟨fun _ => ⟨hc, hsize⟩, fun _ => Nat.one_ne_zero⟩,
      fun _ => ⟨_, List.mem_cons_self⟩, nofun⟩
  · refine ⟨by simp [hc], fun hn => absurd rfl hn, ?_⟩
    refine List.forall_mem_singleton.2 (.inl ⟨table, a, ownerColumn, _, ⟨b, column, rfl⟩, rfl⟩)

/-! ## Select lists -/

theorem specs_ofColumns {columns : List Sql.Expression} (h : ∀ e ∈ columns, e.IsColumn) :
    Sql.SelectItem.specsAll everyKey (LoweredSelect.ofColumns columns).items = [] := by
  induction columns with
  | nil => rfl
  | cons e rest ih =>
    obtain ⟨⟨a, column, rfl⟩, hrest⟩ := List.forall_mem_cons.1 h
    exact ih hrest

/-- What is made of a select list. The items without a count are plain, and those without anything
beside a size have no other columns. -/
structure BuiltSelect (c : LoweringContext) (items : List (SelectItem Expression)) (n : Nat)
    (r : LoweredSelect) : Prop where
  built : Built c.inSelect (items.map (.expression ·.expression)) n
    (Sql.SelectItem.specsAll everyKey r.items) (r.items.flatMap (·.expression.parts))
  plain : ∀ e ∈ r.plain, ∃ item ∈ r.items, item.expression = e
  uncounted : ∀ item ∈ r.items, ¬ CountsDistinct item.expression.parts →
    item.expression ∈ r.plain
  alone : (∀ item ∈ items, (Node.expression item.expression).HoldsSize →
    ∃ path, item.expression = .size path) →
      ∀ item ∈ r.items, item.expression ∈ r.plain ∨ item.expression.bareColumns = []

namespace BuiltSelect

variable {items items' : List (SelectItem Expression)} {n n' : Nat} {r r' : LoweredSelect}

theorem append (h : BuiltSelect c items n r) (h' : BuiltSelect c items' n' r') :
    BuiltSelect c (items ++ items') (n + n') (r.append r') where
  built := by
    simp only [LoweredSelect.append, Sql.SelectItem.specsAll_append, List.map_append,
      List.flatMap_append]
    exact h.built.append h'.built
  plain e he := by
    rcases List.mem_append.1 he with he | he
    · obtain ⟨item, hi, rfl⟩ := h.plain e he
      exact ⟨item, List.mem_append_left _ hi, rfl⟩
    · obtain ⟨item, hi, rfl⟩ := h'.plain e he
      exact ⟨item, List.mem_append_right _ hi, rfl⟩
  uncounted item hi ha := by
    rcases List.mem_append.1 hi with hi | hi
    · exact List.mem_append_left _ (h.uncounted item hi ha)
    · exact List.mem_append_right _ (h'.uncounted item hi ha)
  alone hsizes item hi := by
    obtain ⟨hfirst, hrest⟩ := List.forall_mem_append.1 hsizes
    rcases List.mem_append.1 hi with hi | hi
    · exact (h.alone hfirst item hi).imp_left (List.mem_append_left _)
    · exact (h'.alone hrest item hi).imp_left (List.mem_append_right _)

/-- An item is plain if no collection has been counted in it. -/
theorem item {e : Expression} {lowered : Sql.Expression}
    (h : Built c.inSelect [.expression e] n (lowered.specs everyKey) lowered.parts)
    (hsize : ∀ path, e = .size path → lowered.bareColumns = [])
    (aliasName : Option String) :
    BuiltSelect c [⟨e, aliasName⟩] n
      ⟨[⟨lowered, aliasName⟩], if n = 0 then [lowered] else []⟩ where
  built := by simpa [Sql.SelectItem.specsAll] using h
  plain e' he := by
    split at he
    · exact ⟨_, List.mem_singleton.2 rfl, (List.mem_singleton.1 he).symm⟩
    · cases he
  uncounted item hi ha := by
    obtain rfl := List.mem_singleton.1 hi
    have hn : n = 0 := by
      by_contra hn
      exact ha (h.counts hn)
    rw [if_pos hn]
    exact List.mem_singleton.2 rfl
  alone hsizes item hi := by
    obtain rfl := List.mem_singleton.1 hi
    by_cases hn : n = 0
    · rw [if_pos hn]
      exact .inl (List.mem_singleton.2 rfl)
    · obtain ⟨-, _, hm, hholds⟩ := h.counted.1 hn
      obtain rfl := List.mem_singleton.1 hm
      obtain ⟨path, he⟩ := hsizes _ (List.mem_singleton.2 rfl) hholds
      exact .inr (hsize path he)

theorem columns {start : String} {aliasName : Option String} {columns : List Sql.Expression}
    (h : ∀ e ∈ columns, e.IsColumn) :
    BuiltSelect c [⟨.path ⟨start, []⟩, aliasName⟩] 0 (.ofColumns columns) where
  built := by
    rw [specs_ofColumns h]
    have hpath : Built c.inSelect [.expression (.path ⟨start, []⟩)] 0 [] [] :=
      Built.nil.expression (by simp)
    exact hpath.widen (List.nil_subset _)
  plain e he := ⟨⟨e, none⟩, List.mem_map.2 ⟨e, he, rfl⟩, rfl⟩
  uncounted item hi _ := by
    obtain ⟨e, he, rfl⟩ := List.mem_map.1 hi
    exact he
  alone _ item hi := by
    obtain ⟨e, he, rfl⟩ := List.mem_map.1 hi
    exact .inl he

end BuiltSelect

/-! ## Queries -/

/-- The queries inside a query over tables are in one of its clauses. -/
theorem forall_inner_of_clauses {spec : Sql.QuerySpec} {p : Sql.QuerySpec → Prop}
    (htables : ∀ table ∈ spec.tables, ∀ join ∈ table.joins, join.ComparesColumns)
    (hselect : ∀ s ∈ Sql.SelectItem.specsAll everyKey spec.select, p s)
    (hcondition : ∀ s ∈ Sql.Condition.specsOption everyKey spec.condition, p s)
    (hgroupBy : ∀ s ∈ Sql.Expression.specsAll everyKey spec.groupBy, p s)
    (hhaving : ∀ s ∈ Sql.Condition.specsOption everyKey spec.having, p s)
    (horderBy : ∀ s ∈ Sql.SortKey.specsAll everyKey spec.orderBy, p s)
    (hlimit : ∀ s ∈ Sql.Expression.specsOption everyKey spec.limit, p s)
    (hoffset : ∀ s ∈ Sql.Expression.specsOption everyKey spec.offset, p s) :
    ∀ s ∈ (spec.specs everyKey).tail, p s := by
  have hnone : Sql.FromItem.specsAll everyKey spec.tables = [] := by
    rw [Sql.FromItem.specsAll_eq, List.flatMap_eq_nil_iff]
    intro table ht
    rw [Sql.Join.specsAll_eq, List.flatMap_eq_nil_iff]
    intro join hj
    rw [List.flatMap_eq_nil_iff]
    intro on ho
    obtain ⟨_, _, ⟨a, column, rfl⟩, ⟨b, column', rfl⟩, rfl⟩ :=
      htables table ht join hj on (Option.mem_toList.1 ho)
    rfl
  cases spec
  simp only [Sql.QuerySpec.specs, Sql.specsChosen_everyKey, List.tail_cons, List.forall_mem_append,
    hnone]
  exact ⟨List.forall_mem_nil p, hselect, hcondition, hgroupBy, hhaving, horderBy, hlimit, hoffset⟩

theorem QuerySpec.clauses_subset_children (source : QuerySpec) :
    source.select.map (.expression ·.expression) ⊆ source.children ∧
      source.condition.toList.map .condition ⊆ source.children ∧
      source.groupBy.map .expression ⊆ source.children ∧
      source.having.toList.map .condition ⊆ source.children ∧
      source.orderBy.map (.expression ·.expression) ⊆ source.children ∧
      source.limit.toList.map .expression ⊆ source.children ∧
      source.offset.toList.map .expression ⊆ source.children := by
  refine ⟨?_, ?_, ?_, ?_, ?_, ?_, ?_⟩ <;> intro m hm <;> rw [mem_children_iff] <;>
    simp only [List.mem_map, Option.mem_toList] at hm <;> grind

/-- Keys are the query's own, or selected values and ids. -/
theorem BuiltSelect.forall_groupKeys {items : List (SelectItem Expression)} {n : Nat}
    {r : LoweredSelect} (h : BuiltSelect c items n r) {p : Sql.QuerySpec → Prop}
    (hselect : ∀ s ∈ Sql.SelectItem.specsAll everyKey r.items, p s) (scope : Scope)
    {groupBy : List Sql.Expression}
    (hgroupBy : ∀ s ∈ Sql.Expression.specsAll everyKey groupBy, p s) :
    ∀ s ∈ Sql.Expression.specsAll everyKey (scope.groupKeys groupBy r.plain), p s := by
  unfold Scope.groupKeys
  split
  · exact hgroupBy
  · intro s hs
    rw [Sql.Expression.specsAll_eq] at hs
    obtain ⟨key, hkey, hs⟩ := List.mem_flatMap.1 hs
    rcases mem_groupByOwners hkey with hkey | ⟨owner, -, rfl⟩
    · obtain ⟨item, hi, rfl⟩ := h.plain key hkey
      refine hselect s ?_
      rw [Sql.SelectItem.specsAll_eq]
      exact List.mem_flatMap.2 ⟨item, hi, hs⟩
    · cases hs

section GroupByOwners

variable {items : List (SelectItem Expression)} {n : Nat} {r : LoweredSelect}
  {spec : Sql.QuerySpec} {owners : List (String × String)}

/-- What is selected without a count is a key of its own, or the same as one. -/
theorem BuiltSelect.groupedByOwners (h : BuiltSelect c items n r) (hn : n ≠ 0)
    (hselect : spec.select = r.items) (howners : owners ≠ [])
    (hjoined : ∀ owner ∈ owners, FromItem.CountFor spec.tables (.of owner.1 owner.2))
    (hkeys : spec.groupBy = groupByOwners owners r.plain) : spec.GroupedByOwners := by
  have huncounted : ∀ item ∈ spec.select, ¬ CountsDistinct item.expression.parts →
      item.expression.bareColumns ⊆ spec.groupedColumns := by
    intro item hi ha
    rw [hselect] at hi
    rw [Sql.QuerySpec.groupedColumns, hkeys]
    exact Sql.bareColumns_subset_groupByOwners (h.uncounted item hi ha)
  refine ⟨?_, ?_, fun key hkey => ?_, huncounted, ?_⟩
  · obtain ⟨argument, ha⟩ := h.built.counts hn
    obtain ⟨item, hi, ha⟩ := List.mem_flatMap.1 ha
    exact ⟨item, hselect ▸ hi, argument, ha⟩
  · obtain ⟨owner, ho⟩ := List.exists_mem_of_ne_nil owners howners
    exact ⟨_, hkeys ▸ Sql.owner_mem_groupByOwners ho, hjoined owner ho⟩
  · rw [hkeys] at hkey
    rcases mem_groupByOwners hkey with hkey | ⟨owner, ho, rfl⟩
    · exact .inl (hselect ▸ h.plain key hkey)
    · exact .inr (hjoined owner ho)
  · refine ⟨fun hall => ⟨fun item hi _ => hall.1 item hi, hall.2⟩, fun hall => ⟨?_, hall.2⟩⟩
    intro item hi
    by_cases ha : CountsDistinct item.expression.parts
    · exact hall.1 item hi ha
    · exact huncounted item hi ha

theorem BuiltSelect.groupsColumns_iff (h : BuiltSelect c items n r)
    (hsizes : ∀ item ∈ items, (Node.expression item.expression).HoldsSize →
      ∃ path, item.expression = .size path)
    (hselect : spec.select = r.items) (hkeys : spec.groupBy = groupByOwners owners r.plain) :
    spec.GroupsColumns ↔
      ∀ key ∈ spec.orderBy, key.expression.bareColumns ⊆ spec.groupedColumns := by
  refine ⟨And.right, fun horder => ⟨fun item hi => ?_, horder⟩⟩
  rw [hselect] at hi
  rw [Sql.QuerySpec.groupedColumns, hkeys]
  rcases h.alone hsizes item hi with hplain | hnone
  · exact Sql.bareColumns_subset_groupByOwners hplain
  · rw [hnone]
    exact List.nil_subset _

end GroupByOwners

/-! ## Trees -/

mutual

theorem Expression.lower_built : ∀ (e : Expression) {c : LoweringContext},
    Makes (e.lower c) fun n r => Built c [.expression e] n (r.specs everyKey) r.parts
  | .path path, c => by
    refine resolve_makes.imp ?_
    rintro _ _ ⟨rfl, a, column, rfl⟩
    exact (Built.nil.expression (by simp)).widen (List.nil_subset _)
  | .literal value, _ => .pure ((Built.nil.expression (by simp)).widen (List.nil_subset _))
  | .parameter value, _ => .pure ((Built.nil.expression (by simp)).widen (List.nil_subset _))
  | .call name arguments, c => by
    refine checkCall_makes.next fun _ _ => ?_
    refine (Expression.lowerAll_built arguments).bind fun n rs h => .pure ?_
    exact (h.expression (by simp)).widen (List.subset_cons_self _ _)
  | .aggregate function isDistinct argument, c => by
    refine (Expression.lowerOption_built argument).bind fun n r h => .pure ?_
    exact (h.expression (by simp)).widen (List.subset_cons_self _ _)
  | .extract unit source, c => by
    refine source.lower_built.bind fun n r h => .pure ?_
    exact (h.expression (by simp)).widen (List.subset_cons_self _ _)
  | .timestampAdd unit magnitude timestamp, c => by
    refine magnitude.lower_built.bind fun _ _ h => timestamp.lower_built.bind fun _ _ h' => .pure ?_
    exact ((h.append h').expression (by simp)).widen (List.subset_cons_self _ _)
  | .timestampDiff unit start finish, c => by
    refine start.lower_built.bind fun _ _ h => finish.lower_built.bind fun _ _ h' => .pure ?_
    exact ((h.append h').expression (by simp)).widen (List.subset_cons_self _ _)
  | .format source pattern, c => by
    refine source.lower_built.bind fun n r h => .pure ?_
    exact (h.expression (by simp)).widen (List.subset_cons_self _ _)
  | .binary left operator right, c => by
    refine left.lower_built.bind fun _ _ h => right.lower_built.bind fun _ _ h' => .pure ?_
    exact ((h.append h').expression (by simp)).widen (List.subset_cons_self _ _)
  | .negate operand, c => by
    refine operand.lower_built.bind fun n r h => .pure ?_
    exact (h.expression (by simp)).widen (List.subset_cons_self _ _)
  | .case branches otherwise, c => by
    refine (CaseBranch.lowerAll_built branches).bind fun _ _ h => ?_
    refine (Expression.lowerOption_built otherwise).bind fun _ _ h' => .pure ?_
    exact ((h.append h').expression (by simp)).widen (List.subset_cons_self _ _)
  | .cast source target, c => by
    refine source.lower_built.bind fun n r h => .pure ?_
    exact (h.expression (by simp)).widen (List.subset_cons_self _ _)
  | .subquery query, c => by
    refine checkSubquery_makes.next fun _ _ => (query.lower_built true).next fun q hq => .pure ?_
    exact ((Built.query hq).expression (by simp)).widen (List.nil_subset _)
  | .tuple items, c => by
    refine (Expression.lowerAll_built items).bind fun n rs h => .pure ?_
    exact (h.expression (by simp)).widen (List.subset_cons_self _ _)
  | .size path, c => lowerSize_built

theorem Expression.lowerAll_built : ∀ (es : List Expression) {c : LoweringContext},
    Makes (Expression.lowerAll c es) fun n rs => Built c (es.map .expression) n
      (Sql.Expression.specsAll everyKey rs) (Sql.Expression.partsAll rs)
  | [], c => .pure .nil
  | e :: rest, c => by
    refine e.lower_built.bind fun _ _ h => ?_
    exact (Expression.lowerAll_built rest).bind fun _ _ h' => .pure (h.append h')

theorem Expression.lowerOption_built : ∀ (e : Option Expression) {c : LoweringContext},
    Makes (Expression.lowerOption c e) fun n r => Built c (e.toList.map .expression) n
      (Sql.Expression.specsOption everyKey r) (Sql.Expression.partsOption r)
  | none, _ => .pure .nil
  | some e, _ => e.lower_built.bind fun _ _ h => .pure h

theorem CaseBranch.lowerAll_built : ∀ (branches : List (CaseBranch Condition Expression))
    {c : LoweringContext}, Makes (CaseBranch.lowerAll c branches) fun n rs =>
      Built c (branches.flatMap CaseBranch.nodes) n (Sql.CaseBranch.specsAll everyKey rs)
        (Sql.CaseBranch.partsAll rs)
  | [], c => .pure .nil
  | ⟨condition, result⟩ :: rest, c => by
    refine condition.lower_built.bind fun n₁ _ h₁ => result.lower_built.bind fun n₂ _ h₂ => ?_
    refine (CaseBranch.lowerAll_built rest).bind fun n₃ _ h₃ => .pure ?_
    rw [Nat.add_zero, ← Nat.add_assoc]
    exact (h₁.append h₂).append h₃

theorem Condition.lower_built : ∀ (p : Condition) {c : LoweringContext},
    Makes (p.lower c) fun n r => Built c [.condition p] n (r.specs everyKey) r.parts
  | .compare left operator right, c => by
    refine left.lower_built.bind fun _ _ h => right.lower_built.bind fun _ _ h' => .pure ?_
    exact (h.append h').condition
  | .all items, c => (Condition.lowerAll_built items).bind fun _ _ h => .pure h.condition
  | .any items, c => (Condition.lowerAll_built items).bind fun _ _ h => .pure h.condition
  | .not operand, c => operand.lower_built.bind fun _ _ h => .pure h.condition
  | .isNull operand isNegated, c => operand.lower_built.bind fun _ _ h => .pure h.condition
  | .inList operand items isNegated, c => by
    refine checkMember_makes.next fun _ _ => operand.lower_built.bind fun _ _ h => ?_
    exact (Expression.lowerAll_built items).bind fun _ _ h' => .pure (h.append h').condition
  | .inQuery operand query isNegated, c => by
    refine checkMember_makes.next fun _ _ => operand.lower_built.bind fun _ _ h => ?_
    refine (query.lower_built true).next fun q hq => .pure ?_
    have h := h.append (Built.query hq)
    rw [List.append_nil] at h
    exact h.condition
  | .exists query isNegated, c =>
    (query.lower_built true).next fun q hq => .pure (Built.query hq).condition
  | .like operand pattern escape ignoresCase isNegated, c => by
    refine operand.lower_built.bind fun _ _ h => pattern.lower_built.bind fun _ _ h' => .pure ?_
    exact (h.append h').condition
  | .between operand low high isNegated, c => by
    refine operand.lower_built.bind fun _ _ h₁ => low.lower_built.bind fun _ _ h₂ => ?_
    exact high.lower_built.bind fun _ _ h₃ => .pure (h₁.append (h₂.append h₃)).condition
  | .holds operand, c => operand.lower_built.bind fun _ _ h => .pure h.condition

theorem Condition.lowerAll_built : ∀ (ps : List Condition) {c : LoweringContext},
    Makes (Condition.lowerAll c ps) fun n rs => Built c (ps.map .condition) n
      (Sql.Condition.specsAll everyKey rs) (Sql.Condition.partsAll rs)
  | [], c => .pure .nil
  | p :: rest, c => by
    refine p.lower_built.bind fun _ _ h => ?_
    exact (Condition.lowerAll_built rest).bind fun _ _ h' => .pure (h.append h')

theorem Condition.lowerOption_built : ∀ (p : Option Condition) {c : LoweringContext},
    Makes (Condition.lowerOption c p) fun n r => ∃ parts, Built c (p.toList.map .condition) n
      (Sql.Condition.specsOption everyKey r) parts
  | none, _ => .pure ⟨[], .nil⟩
  | some p, _ => p.lower_built.bind fun _ _ h => .pure ⟨_, h⟩

/-- A query in another statement counts nothing for the query around it. -/
theorem Query.lower_built : ∀ (q : Query) (isNested : Bool) {c : LoweringContext},
    Makes (q.lower c.outsideSelect isNested) fun n r =>
      n = 0 ∧ ∀ spec ∈ r.specs everyKey, StemsFrom c.dialect c.model [.query q] spec
  | .spec spec, isNested, c => by
    refine checkOrder_makes.next fun _ _ => spec.lower_built.and_run.bind ?_
    rintro _ r ⟨⟨rfl, hinner, -⟩, s, t, hrun⟩
    refine .pure ⟨rfl, fun inner hi => ?_⟩
    have hr : r.specs everyKey = r :: (r.specs everyKey).tail := by cases r; rfl
    rw [Sql.Query.specs, hr] at hi
    rcases List.mem_cons.1 hi with rfl | hi
    · exact .inr ⟨spec, ⟨_, List.mem_singleton.2 rfl, .refl⟩, s, t, hrun⟩
    · exact (hinner inner hi).up (k := .query (.spec spec))
  | .group operator parts orderBy limit offset, isNested, c => by
    refine checkOrder_makes.next fun _ _ => checkGroup_makes.next fun _ _ => ?_
    refine (Query.lowerAll_built parts isNested).next fun qs hqs => ?_
    refine (SortKey.lowerAll_built orderBy).bind fun _ keys hkeys => ?_
    refine (Expression.lowerOption_built limit).bind fun _ l hl => ?_
    refine (Expression.lowerOption_built offset).bind fun _ o ho => .pure ?_
    have hclauses := hkeys.append (hl.append ho)
    have hnodes : orderBy.map (Node.expression ·.expression) ++
        (limit.toList.map .expression ++ offset.toList.map .expression) =
          (orderBy.map (·.expression) ++ limit.toList ++ offset.toList).map .expression := by
      simp [Function.comp_def]
    rw [hnodes] at hclauses
    refine ⟨hclauses.eq_zero, fun spec hs => ?_⟩
    refine StemsFrom.up (k := .query (.group operator parts orderBy limit offset)) ?_
    rcases List.mem_append.1 hs with hs | hs
    · exact (hqs spec hs).mono (List.subset_append_left _ _)
    · exact (hclauses.stem spec hs).mono (List.subset_append_right _ _)

theorem Query.lowerAll_built : ∀ (qs : List Query) (isNested : Bool) {c : LoweringContext},
    Makes (Query.lowerAll c.outsideSelect isNested qs) fun n rs =>
      n = 0 ∧ ∀ spec ∈ Sql.Query.specsAll everyKey rs,
        StemsFrom c.dialect c.model (qs.map .query) spec
  | [], isNested, c => .pure ⟨rfl, nofun⟩
  | q :: rest, isNested, c => by
    refine (q.lower_built isNested).next fun r hr => ?_
    refine (Query.lowerAll_built rest isNested).next fun rs hrs => .pure ⟨rfl, ?_⟩
    exact List.forall_mem_append.2 ⟨fun spec hs => (hr spec hs).mono (by simp),
      fun spec hs => (hrs spec hs).mono (List.subset_cons_self _ _)⟩

theorem QuerySpec.lower_built : ∀ (source : QuerySpec) {c : LoweringContext},
    Makes (source.lower c.outsideSelect) fun n spec => n = 0 ∧
      (∀ inner ∈ (spec.specs everyKey).tail,
        StemsFrom c.dialect c.model source.children inner) ∧
      (source.CountsByJoins c.dialect → spec.GroupedByOwners ∧
        (source.SelectsSizesAlone → (spec.GroupsColumns ↔
          ∀ key ∈ spec.orderBy, key.expression.bareColumns ⊆ spec.groupedColumns)))
  | ⟨isDistinct, select, roots, condition, groupBy, having, orderBy, limit, offset⟩, c => by
    intro s t spec hrun
    obtain ⟨s₀, select', s₁, condition', s₂, groupBy', s₃, having', s₄, orderBy', s₅, limit', s₆,
      offset', s₇, scope, -, h₀, h₁, h₂, h₃, h₄, h₅, h₆, h₇, rfl, rfl⟩ :=
        QuerySpec.lower_ok_iff.1 hrun
    obtain ⟨_, ht₀, rfl, -⟩ := lowerRoots_makes h₀
    obtain ⟨n, ht₁, hselect⟩ := SelectItem.lowerAll_built select h₁
    obtain ⟨_, ht₂, _, hcondition⟩ := Condition.lowerOption_built condition h₂
    obtain ⟨_, ht₃, hgroupBy⟩ := Expression.lowerAll_built groupBy h₃
    obtain ⟨_, ht₄, _, hhaving⟩ := Condition.lowerOption_built having h₄
    obtain ⟨_, ht₅, horderBy⟩ := SortKey.lowerAll_built orderBy h₅
    obtain ⟨_, ht₆, hlimit⟩ := Expression.lowerOption_built limit h₆
    obtain ⟨_, ht₇, hoffset⟩ := Expression.lowerOption_built offset h₇
    -- Only the select list is lowered where sizes are counted by joins.
    obtain rfl := hcondition.eq_zero
    obtain rfl := hgroupBy.eq_zero
    obtain rfl := hhaving.eq_zero
    obtain rfl := horderBy.eq_zero
    obtain rfl := hlimit.eq_zero
    obtain rfl := hoffset.eq_zero
    have htallies := ht₀.trans (ht₁.trans (ht₂.trans (ht₃.trans (ht₄.trans (ht₅.trans (ht₆.trans
      ht₇))))))
    simp only [Nat.add_zero, Nat.zero_add] at htallies
    obtain ⟨hcounted, hscope, hleft⟩ := htallies.leave
    refine ⟨0, hleft, rfl, ?_, fun ⟨hd, item, hi, hsize⟩ => ?_⟩
    · obtain ⟨hn₁, hn₂, hn₃, hn₄, hn₅, hn₆, hn₇⟩ := QuerySpec.clauses_subset_children
        ⟨isDistinct, select, roots, condition, groupBy, having, orderBy, limit, offset⟩
      have hitems := fun s hs => (hselect.built.stem s hs).mono hn₁
      have hown := fun s hs => (hgroupBy.stem s hs).mono hn₃
      exact forall_inner_of_clauses hscope.compares hitems
        (fun s hs => (hcondition.stem s hs).mono hn₂) (hselect.forall_groupKeys hitems scope hown)
        (fun s hs => (hhaving.stem s hs).mono hn₄) (fun s hs => (horderBy.stem s hs).mono hn₅)
        (fun s hs => (hlimit.stem s hs).mono hn₆) fun s hs => (hoffset.stem s hs).mono hn₇
    · have hc : c.outsideSelect.inSelect.countsByJoins = true := by
        rw [LoweringContext.countsByJoins, Bool.and_eq_true, Bool.not_eq_true']
        exact ⟨rfl, hd⟩
      have hn : n ≠ 0 := hselect.built.counted.2
        ⟨hc, _, List.mem_map.2 ⟨item, hi, rfl⟩, hsize⟩
      have hcount : scope.countedCollections ≠ 0 := hcounted ▸ hn
      have hkeys : scope.groupKeys groupBy' select'.plain =
        groupByOwners scope.owners select'.plain := if_neg hcount
      exact ⟨hselect.groupedByOwners hn rfl (hscope.owned hcount) hscope.joined hkeys,
        fun hsizes => hselect.groupsColumns_iff hsizes rfl hkeys⟩

theorem SelectItem.lowerAll_built : ∀ (items : List (SelectItem Expression))
    {c : LoweringContext},
      Makes (SelectItem.lowerAll c.inSelect items) (BuiltSelect c items)
  | [], c => .pure ⟨.nil, nofun, nofun, nofun⟩
  | ⟨e, aliasName⟩ :: rest, c => by
    intro s t r h
    rcases SelectItem.lowerAll_cons_ok_iff.1 h with ⟨start, columns, u, r', rfl, hc, hr, rfl⟩ |
      ⟨lowered, u, before, after, r', -, hl, hb, ha, hr, rfl⟩
    · obtain ⟨_, htallies, rfl, hcolumns⟩ := entityColumns_makes hc
      obtain ⟨n, hrest, hbuilt⟩ := SelectItem.lowerAll_built rest hr
      exact ⟨_, htallies.trans hrest, (BuiltSelect.columns hcolumns).append hbuilt⟩
    · obtain ⟨n, htallies, hitem⟩ := e.lower_built hl
      obtain ⟨m, hrest, hbuilt⟩ := SelectItem.lowerAll_built rest hr
      refine ⟨_, htallies.trans hrest, ?_⟩
      have hplain : after.countedCollections = before.countedCollections ↔ n = 0 := by
        have hcounts := congrArg (·[0]?) htallies.counts
        simp [LoweringState.counts, addCounts, hb, ha] at hcounts
        omega
      have hsize (path : Path) (he : e = .size path) : lowered.bareColumns = [] := by
        subst he
        obtain ⟨_, -, ⟨-, -, _, -, rfl⟩ | ⟨-, -, _, _, _, _, -, rfl⟩⟩ := lowerSize_makes hl <;> rfl
      simp only [hplain]
      exact (BuiltSelect.item hitem hsize aliasName).append hbuilt

theorem SortKey.lowerAll_built : ∀ (keys : List (SortKey Expression)) {c : LoweringContext},
    Makes (SortKey.lowerAll c keys) fun n rs => Built c (keys.map (.expression ·.expression)) n
      (Sql.SortKey.specsAll everyKey rs) (rs.flatMap (·.expression.parts))
  | [], c => .pure .nil
  | ⟨e, isDescending, nulls⟩ :: rest, c => by
    refine e.lower_built.bind fun _ _ h => ?_
    exact (SortKey.lowerAll_built rest).bind fun _ _ h' => .pure (h.append h')

end

/-! ## Statements -/

theorem lowerAssignments_built {d : Dialect} {model : Mapping.Model} (entity : Mapping.Entity) :
    ∀ assignments : List Assignment,
      Makes (lowerAssignments { dialect := d, model } entity assignments) fun n rs => n = 0 ∧
        ∀ spec ∈ Sql.Assignment.specsAll everyKey rs,
          StemsFrom d model (assignments.map (.expression ·.value)) spec
  | [] => .pure ⟨rfl, nofun⟩
  | a :: rest => by
    refine (makes_of_eq (p := fun _ => True)
      fun _ _ _ hr => ⟨assignedColumn_ok hr, trivial⟩).next fun column _ => ?_
    refine a.value.lower_built.bind fun n r h => ?_
    obtain rfl := Built.eq_zero (c := { dialect := d, model }) h
    refine (lowerAssignments_built entity rest).next fun rs hrs => .pure ⟨rfl, ?_⟩
    exact List.forall_mem_append.2 ⟨fun spec hs => (h.stem spec hs).mono (by simp),
      fun spec hs => (hrs spec hs).mono (List.subset_cons_self _ _)⟩

/-- The statement contains the query, at any depth. -/
def QuerySpec.StandsIn (source : QuerySpec) (statement : Statement) : Prop :=
  ∃ n ∈ statement.children, (Node.query (.spec source)).Within n

theorem Statement.lowerIn_stem {statement : Statement} {d : Dialect} {model : Mapping.Model}
    {s t : LoweringState} {lowered : Sql.Statement}
    (h : statement.lowerIn { dialect := d, model } s = .ok (lowered, t)) :
    ∀ spec ∈ lowered.specs everyKey, StemsFrom d model statement.children spec := by
  cases statement with
  | select query lock =>
    simp only [Statement.lowerIn, Lower.bind_ok_iff, Lower.pure_ok_iff, Prod.mk.injEq] at h
    obtain ⟨q, _, hq, rfl, rfl⟩ := h
    obtain ⟨_, -, -, hstem⟩ := query.lower_built false (c := { dialect := d, model }) hq
    exact hstem
  | update name aliasName assignments condition =>
    simp only [Statement.lowerIn, Lower.bind_ok_iff, Lower.pure_ok_iff, Prod.mk.injEq] at h
    obtain ⟨⟨entity, target⟩, _, -, as, _, has, p, _, hp, rfl, rfl⟩ := h
    obtain ⟨_, -, -, hassignments⟩ := lowerAssignments_built entity assignments has
    obtain ⟨_, -, _, hcondition⟩ := Condition.lowerOption_built condition hp
    exact List.forall_mem_append.2
      ⟨fun spec hs => (hassignments spec hs).mono (List.subset_append_left _ _),
        fun spec hs => (hcondition.stem spec hs).mono (List.subset_append_right _ _)⟩
  | delete name aliasName condition =>
    simp only [Statement.lowerIn, Lower.bind_ok_iff, Lower.pure_ok_iff, Prod.mk.injEq] at h
    obtain ⟨_, _, -, p, _, hp, rfl, rfl⟩ := h
    obtain ⟨_, -, _, hcondition⟩ := Condition.lowerOption_built condition hp
    exact hcondition.stem

/-- A query of a lowered statement counts members, or is made from a query of the statement. If the
latter counts by joins, the former is grouped by owners. Where sizes are selected alone, all columns
are in keys if those of the order are. -/
theorem Statement.lower_groupedByOwners {statement : Statement} {d : Dialect}
    {model : Mapping.Model} {lowered : Sql.Statement} (h : statement.lower d model = .ok lowered)
    {spec : Sql.QuerySpec} (hs : spec ∈ lowered.specs everyKey) :
    (spec.CountsMembers ∨
      ∃ source : QuerySpec, source.StandsIn statement ∧ source.LowersTo d model spec) ∧
    ∀ source : QuerySpec, source.LowersTo d model spec → source.CountsByJoins d →
      spec.GroupedByOwners ∧ (source.SelectsSizesAlone → (spec.GroupsColumns ↔
        ∀ key ∈ spec.orderBy, key.expression.bareColumns ⊆ spec.groupedColumns)) := by
  refine ⟨?_, ?_⟩
  · obtain ⟨t, h⟩ := Statement.lower_ok_iff.1 h
    exact Statement.lowerIn_stem h spec hs
  · rintro source ⟨s, t, hrun⟩ hcounts
    obtain ⟨_, -, -, -, hgrouped⟩ := source.lower_built (c := { dialect := d, model }) hrun
    exact hgrouped hcounts

/-! ## Numbers of nicknames by name -/

theorem Statement.lower_select_spec {source : QuerySpec} {lock : Option LockOptions} {d : Dialect}
    {model : Mapping.Model} {lowered : Sql.Statement}
    (h : (Statement.select (.spec source) lock).lower d model = .ok lowered) :
    ∃ spec, lowered = .select (.spec spec) lock ∧ source.LowersTo d model spec ∧
      spec ∈ lowered.specs everyKey := by
  obtain ⟨t, h⟩ := Statement.lower_ok_iff.1 h
  simp only [Statement.lowerIn, Query.lower, Lower.bind_ok_iff, Lower.pure_ok_iff,
    Prod.mk.injEq] at h
  obtain ⟨_, _, ⟨_, s, -, spec, _, hrun, rfl, rfl⟩, rfl, rfl⟩ := h
  refine ⟨spec, rfl, ⟨s, _, hrun⟩, ?_⟩
  cases spec
  exact List.mem_cons_self

/-- Selects the number of nicknames beside some other values, in the order of names. -/
def nicknamesByName (items : List (SelectItem Expression)) : QuerySpec where
  select := items ++ [⟨.size ⟨"p", ["nicknames"]⟩, none⟩]
  roots := [⟨"Person", "p", []⟩]
  orderBy := [{ expression := .path ⟨"p", ["name"]⟩ }]

theorem nicknamesByName_countsByJoins (items : List (SelectItem Expression)) :
    (nicknamesByName items).CountsByJoins (Dialect.ofProduct .ingres ⟨9, 3, 0⟩) :=
  ⟨by decide +kernel, _, List.mem_append_right _ (List.mem_singleton.2 rfl), .size _⟩

/-- The query groups its columns. -/
def groupsColumns : Sql.Statement → Bool
  | .select (.spec spec) _ => decide spec.GroupsColumns
  | _ => false

/-- The order is by a selected value. -/
theorem nicknamesByName_groupsColumns : ∃ lowered, ∃ spec ∈ lowered.specs everyKey,
    (Statement.select (.spec (nicknamesByName [⟨.path ⟨"p", ["name"]⟩, none⟩])) none).lower
      (Dialect.ofProduct .ingres ⟨9, 3, 0⟩) peopleModel = .ok lowered ∧
    spec.GroupedByOwners ∧ spec.GroupsColumns := by
  have hlowered : ∃ lowered, (Statement.select (.spec (nicknamesByName
      [⟨.path ⟨"p", ["name"]⟩, none⟩])) none).lower (Dialect.ofProduct .ingres ⟨9, 3, 0⟩)
        peopleModel = .ok lowered ∧ groupsColumns lowered = true :=
    exists_lowered (by decide +kernel)
  obtain ⟨lowered, h, hgroups⟩ := hlowered
  obtain ⟨spec, rfl, hlowers, hmem⟩ := Statement.lower_select_spec h
  obtain ⟨-, hall⟩ := Statement.lower_groupedByOwners h hmem
  exact ⟨_, spec, hmem, h, (hall _ hlowers (nicknamesByName_countsByJoins _)).1,
    of_decide_eq_true hgroups⟩

/-- The name is neither selected nor a key. -/
theorem nicknamesByName_not_groupsColumns : ∃ lowered, ∃ spec ∈ lowered.specs everyKey,
    (Statement.select (.spec (nicknamesByName [])) none).lower
      (Dialect.ofProduct .ingres ⟨9, 3, 0⟩) peopleModel = .ok lowered ∧
    (nicknamesByName []).LowersTo (Dialect.ofProduct .ingres ⟨9, 3, 0⟩) peopleModel spec ∧
    (nicknamesByName []).CountsByJoins (Dialect.ofProduct .ingres ⟨9, 3, 0⟩) ∧
    ¬ spec.GroupsColumns := by
  have hlowered : ∃ lowered, (Statement.select (.spec (nicknamesByName [])) none).lower
      (Dialect.ofProduct .ingres ⟨9, 3, 0⟩) peopleModel = .ok lowered ∧
        groupsColumns lowered = false :=
    exists_lowered (by decide +kernel)
  obtain ⟨lowered, h, hgroups⟩ := hlowered
  obtain ⟨spec, rfl, hlowers, hmem⟩ := Statement.lower_select_spec h
  exact ⟨_, spec, hmem, h, hlowers, nicknamesByName_countsByJoins _,
    of_decide_eq_false hgroups⟩

end Entity

end SqlDialects
