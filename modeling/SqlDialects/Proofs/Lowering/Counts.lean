import SqlDialects.Proofs.Lowering.Aliases
import SqlDialects.Proofs.Lowering.Outcomes

/-!
# Collections that a step counts

Of all steps only the size of a collection adds to the collections that the innermost query counts.
It joins the members to their owner and notes the owner.
-/

namespace SqlDialects

namespace Sql

/-- The join has a row for each of the members of an owner, and one for an owner without any. -/
def Join.CountsFor (join : Join) (owner : Expression) : Prop :=
  join.kind = .left ∧
    ∃ column, join.on = some (.equal (.of join.table.aliasName column) owner)

/-- One of the joins of the query counts the members of the owner. -/
def FromItem.CountFor (tables : List FromItem) (owner : Expression) : Prop :=
  ∃ table ∈ tables, ∃ join ∈ table.joins, join.CountsFor owner

end Sql

namespace Entity

open Sql (FromItem)

/-! ## Scopes that count -/

/-- Joins compare columns, and the collections that are counted have owners with a join. -/
structure Scope.Tallied (scope : Scope) : Prop where
  compares : scope.ComparesColumns
  joined : ∀ owner ∈ scope.owners, FromItem.CountFor scope.tables (.of owner.1 owner.2)
  owned : scope.countedCollections ≠ 0 → scope.owners ≠ []

namespace Scope.Tallied

variable {scope : Scope}

theorem empty (isGrouped : Bool) : Scope.Tallied { isGrouped } :=
  ⟨nofun, nofun, fun h => absurd rfl h⟩

theorem bind (h : scope.Tallied) (name : String) (binding : Binding) :
    (scope.bind name binding).Tallied :=
  ⟨h.compares, h.joined, h.owned⟩

theorem addTable (h : scope.Tallied) (table : TableReference) :
    (scope.addTable { root := table }).Tallied where
  compares := List.forall_mem_append.2 ⟨h.compares, List.forall_mem_singleton.2 nofun⟩
  joined owner ho := by
    obtain ⟨item, hitem, hjoin⟩ := h.joined owner ho
    exact ⟨item, List.mem_append_left _ hitem, hjoin⟩
  owned := h.owned

end Scope.Tallied

theorem mem_tables_extend {scope : Scope} {table : FromItem} (h : table ∈ scope.tables)
    (item : Nat) (joins : List Sql.Join) :
    ∃ table' ∈ (scope.extend item joins).tables, table.joins ⊆ table'.joins := by
  obtain ⟨i, hi⟩ := List.mem_iff_getElem?.1 h
  by_cases hitem : item = i
  · subst hitem
    exact ⟨_, List.mem_of_getElem? (Scope.get_extend hi joins), List.subset_append_left _ _⟩
  · refine ⟨table, List.mem_of_getElem? (i := i) ?_, List.Subset.refl _⟩
    simp [Scope.extend, hitem, hi]

theorem countFor_extend {scope : Scope} {owner : Sql.Expression}
    (h : FromItem.CountFor scope.tables owner) (item : Nat) (joins : List Sql.Join) :
    FromItem.CountFor (scope.extend item joins).tables owner := by
  obtain ⟨table, ht, join, hj, hcounts⟩ := h
  obtain ⟨table', ht', hsub⟩ := mem_tables_extend ht item joins
  exact ⟨table', ht', join, hsub hj, hcounts⟩

namespace Scope.Tallied

variable {scope : Scope} {item : Nat}

theorem extend (h : scope.Tallied) {joins : List Sql.Join}
    (hj : ∀ join ∈ joins, join.ComparesColumns) : (scope.extend item joins).Tallied where
  compares := forall_mem_modify
    (fun _ ht => List.forall_mem_append.2 ⟨ht, hj⟩) h.compares
  joined owner ho := countFor_extend (h.joined owner ho) item joins
  owned := h.owned

theorem addPathJoin (h : scope.Tallied) {key : String × String} {join : Sql.Join}
    (hj : join.ComparesColumns) : (scope.addPathJoin item key join).Tallied :=
  have h : (scope.extend item [join]).Tallied := h.extend (List.forall_mem_singleton.2 hj)
  ⟨h.compares, h.joined, h.owned⟩

theorem addCount (h : scope.Tallied) {table : FromItem} (ht : scope.tables[item]? = some table)
    {owner : String × String} {join : Sql.Join} (hj : join.ComparesColumns)
    (hc : join.CountsFor (.of owner.1 owner.2)) : (scope.addCount item owner join).Tallied := by
  have hnew : FromItem.CountFor (scope.extend item [join]).tables (.of owner.1 owner.2) :=
    ⟨_, List.mem_of_getElem? (Scope.get_extend ht [join]), join,
      List.mem_append_right _ (List.mem_singleton.2 rfl), hc⟩
  have hold : (scope.extend item [join]).Tallied := h.extend (List.forall_mem_singleton.2 hj)
  refine ⟨hold.compares, fun other ho => ?_, fun _ => ?_⟩
  · simp only [Scope.addCount] at ho
    split at ho
    · exact hold.joined other ho
    · rcases List.mem_append.1 ho with ho | ho
      · exact hold.joined other ho
      · obtain rfl := List.mem_singleton.1 ho
        exact hnew
  · simp only [Scope.addCount]
    split
    case isTrue hcontains => exact List.ne_nil_of_mem (List.contains_iff_mem.1 hcontains)
    case isFalse => simp

end Scope.Tallied

/-! ## Steps that count -/

/-- How many collections each query counts. The innermost query comes first. -/
def LoweringState.counts (s : LoweringState) : List Nat := s.scopes.map (·.countedCollections)

/-- The innermost query counts some more. -/
def addCounts (n : Nat) (counts : List Nat) : List Nat := counts.modify 0 (· + n)

@[simp]
theorem addCounts_zero (counts : List Nat) : addCounts 0 counts = counts := by
  cases counts <;> rfl

theorem addCounts_addCounts (m n : Nat) (counts : List Nat) :
    addCounts n (addCounts m counts) = addCounts (m + n) counts := by
  cases counts with
  | nil => rfl
  | cons k rest => simp [addCounts, Nat.add_assoc]

/-- The innermost query counts so many collections more, and scopes stay tallied. -/
structure Tallies (n : Nat) (s t : LoweringState) : Prop where
  counts : t.counts = addCounts n s.counts
  scopes : List.Forall₂ (fun scope scope' => scope.Tallied → scope'.Tallied) s.scopes t.scopes

namespace Tallies

variable {m n : Nat} {s t u : LoweringState}

theorem refl (s : LoweringState) : Tallies 0 s s :=
  ⟨(addCounts_zero _).symm, List.forall₂_same.2 fun _ _ => id⟩

theorem trans (h : Tallies m s t) (h' : Tallies n t u) : Tallies (m + n) s u where
  counts := by rw [h'.counts, h.counts, addCounts_addCounts]
  scopes := forall₂_trans (fun _ _ _ h h' hs => h' (h hs)) h.scopes h'.scopes

/-- A change that counts nothing. -/
theorem change {depth nextAlias : Nat} {change : Scope → Scope}
    (hc : ∀ scope, (change scope).countedCollections = scope.countedCollections)
    (ht : ∀ scope, scope.Tallied → (change scope).Tallied) :
    Tallies 0 s ⟨nextAlias, s.scopes.modify depth change⟩ where
  counts := by
    rw [addCounts_zero]
    refine List.ext_getElem (by simp [LoweringState.counts]) fun i _ _ => ?_
    simp only [LoweringState.counts, List.getElem_map, List.getElem_modify]
    split
    · exact hc _
    · rfl
  scopes := by
    cases hd : s.scopes[depth]? with
    | none =>
      rw [List.modify_eq_self (List.getElem?_eq_none_iff.1 hd)]
      exact List.forall₂_same.2 fun _ _ => id
    | some scope => exact forall₂_modify (fun _ => id) hd (ht scope)

/-- The innermost query counts one collection more. -/
theorem count {scope : Scope} {table : FromItem} {nextAlias item : Nat} {owner : String × String}
    {join : Sql.Join} (hd : s.scopes[0]? = some scope) (ht : scope.tables[item]? = some table)
    (hj : join.ComparesColumns) (hc : join.CountsFor (.of owner.1 owner.2)) :
    Tallies 1 s ⟨nextAlias, s.scopes.modify 0 (Scope.addCount item owner join)⟩ where
  counts := by
    obtain ⟨_, _ | ⟨first, rest⟩⟩ := s
    · simp at hd
    · simp [LoweringState.counts, addCounts, Scope.addCount]
  scopes := forall₂_modify (fun _ => id) hd fun h => h.addCount ht hj hc

/-- A query is left. What has been counted in it is noted in its scope. -/
theorem leave {isGrouped : Bool} {scope : Scope}
    (h : Tallies n (s.enter isGrouped) { t with scopes := scope :: t.scopes }) :
    scope.countedCollections = n ∧ scope.Tallied ∧ Tallies 0 s t := by
  obtain _ | ⟨hscope, hrest⟩ := h.scopes
  have hcounts : scope.countedCollections :: t.counts = (0 + n) :: s.counts := h.counts
  rw [Nat.zero_add, List.cons.injEq] at hcounts
  exact ⟨hcounts.1, hscope (.empty isGrouped), hcounts.2.trans (addCounts_zero _).symm, hrest⟩

end Tallies

namespace Lower

variable {α β : Type} {x : Lower α} {f : α → Lower β} {p p' : Nat → α → Prop}
  {q : Nat → β → Prop}

/-- If the step goes well, it counts some collections and makes something of that kind. -/
def Makes (x : Lower α) (p : Nat → α → Prop) : Prop :=
  ∀ ⦃s t : LoweringState⦄ ⦃a : α⦄, x s = .ok (a, t) → ∃ n, Tallies n s t ∧ p n a

namespace Makes

theorem pure {a : α} (h : p 0 a) : Makes (pure a) p := by
  intro s t b hr
  obtain ⟨rfl, rfl⟩ := Prod.mk.inj (pure_ok_iff.1 hr)
  exact ⟨0, .refl _, h⟩

theorem bind (hx : Makes x p) (hf : ∀ n a, p n a → Makes (f a) fun m b => q (n + m) b) :
    Makes (x >>= f) q := by
  intro s t b hr
  obtain ⟨a, u, hxa, hfb⟩ := bind_ok_iff.1 hr
  obtain ⟨n, hn, ha⟩ := hx hxa
  obtain ⟨m, hm, hb⟩ := hf n a ha hfb
  exact ⟨n + m, hn.trans hm, hb⟩

/-- Nothing is counted by the first step. -/
theorem next {p : α → Prop} (hx : Makes x fun n a => n = 0 ∧ p a)
    (hf : ∀ a, p a → Makes (f a) q) : Makes (x >>= f) q :=
  hx.bind fun n a ⟨hn, ha⟩ => by
    subst hn
    simpa only [Nat.zero_add] using hf a ha

theorem imp (hx : Makes x p) (h : ∀ n a, p n a → p' n a) : Makes x p' := by
  intro s t a hr
  obtain ⟨n, hn, ha⟩ := hx hr
  exact ⟨n, hn, h n a ha⟩

/-- Something that the step has made comes from a run of it. -/
theorem and_run (hx : Makes x p) : Makes x fun n a => p n a ∧ ∃ s t, x s = .ok (a, t) := by
  intro s t a hr
  obtain ⟨n, hn, ha⟩ := hx hr
  exact ⟨n, hn, ha, s, t, hr⟩

end Makes

theorem makes_throw {e : DialectError} : Makes (throw e : Lower α) p :=
  fun _ _ _ hr => (throw_ok_iff.1 hr).elim

/-- A step that only checks, or looks something up. -/
theorem makes_of_eq {p : α → Prop} (h : ∀ s t a, x s = .ok (a, t) → s = t ∧ p a) :
    Makes x fun n a => n = 0 ∧ p a := by
  intro s t a hr
  obtain ⟨rfl, ha⟩ := h s t a hr
  exact ⟨0, .refl s, rfl, ha⟩

end Lower

open Lower (Makes makes_throw makes_of_eq)

variable {c : LoweringContext}

/-! ## Paths -/

theorem makes_property {entity : Mapping.Entity} {name : String} :
    Makes (Lower.property entity name) fun n property =>
      n = 0 ∧ entity.property name = .ok property :=
  makes_of_eq fun _ _ _ hr => (Lower.property_ok_iff.1 hr).symm

theorem makes_entity {name : String} :
    Makes (c.entity name) fun n entity => n = 0 ∧ c.model.entity name = .ok entity :=
  makes_of_eq fun _ _ _ hr => (Lower.entity_ok_iff.1 hr).symm

theorem makes_freshAlias : Makes Lower.freshAlias fun n _ => n = 0 ∧ True := by
  intro s t a hr
  obtain ⟨rfl, rfl⟩ := Prod.mk.inj (Lower.freshAlias_ok_iff.1 hr)
  exact ⟨0, ⟨(addCounts_zero _).symm, List.forall₂_same.2 fun _ _ => id⟩, rfl, trivial⟩

theorem makes_modifyScope {depth : Nat} {change : Scope → Scope}
    (hc : ∀ scope, (change scope).countedCollections = scope.countedCollections)
    (ht : ∀ scope, scope.Tallied → (change scope).Tallied) :
    Makes (Lower.modifyScope depth change) fun n _ => n = 0 ∧ True := by
  intro s t a hr
  obtain rfl := Lower.modifyScope_ok_iff.1 hr
  exact ⟨0, .change hc ht, rfl, trivial⟩

theorem makes_bind {name : String} {binding : Binding} :
    Makes (Lower.bind name binding) fun n _ => n = 0 ∧ True :=
  makes_modifyScope (fun _ => rfl) fun _ hs => hs.bind name binding

theorem makes_addTable {table : TableReference} :
    Makes (Lower.addTable { root := table }) fun n _ => n = 0 ∧ True :=
  makes_modifyScope (fun _ => rfl) fun _ hs => hs.addTable table

theorem makes_addJoins {depth item : Nat} {joins : List Sql.Join} {missing : String}
    (h : ∀ join ∈ joins, join.ComparesColumns) :
    Makes (Lower.addJoins depth item joins missing) fun n _ => n = 0 ∧ True := by
  intro s t a hr
  obtain ⟨-, rfl⟩ := Lower.addJoins_ok_iff.1 hr
  exact ⟨0, .change (fun _ => rfl) fun _ hs => hs.extend h, rfl, trivial⟩

theorem joinAlong_makes {place : Place} {association : Mapping.ToOne} {target : Mapping.Entity} :
    Makes (joinAlong c place association target) fun n _ => n = 0 ∧ True := by
  intro s t a hr
  obtain ⟨scope, -, -, ⟨-, rfl⟩ | ⟨-, -, -, rfl⟩⟩ := joinAlong_ok_iff.1 hr
  · exact ⟨0, .refl _, rfl, trivial⟩
  · have hjoin : (associationJoin place association target s.fresh).ComparesColumns :=
      equiJoin_comparesColumns Place.column_isColumn
    exact ⟨0, .change (fun _ => rfl) fun _ hs => hs.addPathJoin hjoin, rfl, trivial⟩

theorem step_makes {path : Path} {place : Place} {name : String} :
    Makes (step c path place name) fun n _ => n = 0 ∧ True := by
  refine makes_property.next fun property _ => ?_
  cases property with
  | toOne association =>
    exact makes_entity.next fun _ _ => joinAlong_makes.next fun _ _ => .pure ⟨rfl, trivial⟩
  | basic a => exact makes_throw
  | toMany collection => exact makes_throw

theorem walk_makes {path : Path} : ∀ {names : List String} {place : Place},
    Makes (walk c path place names) fun n _ => n = 0 ∧ True
  | [], _ => .pure ⟨rfl, trivial⟩
  | _ :: _, _ => step_makes.next fun _ _ => walk_makes

theorem navigate_makes {path : Path} {steps : Nat} :
    Makes (navigate c path steps) fun n _ => n = 0 ∧ True :=
  (makes_of_eq (p := fun _ => True)
    fun _ _ _ hr => ⟨(Lower.lookup_ok_iff.1 hr).2, trivial⟩).next fun _ _ => walk_makes

theorem foreignKey?_makes {path : Path} {owner name : String} {steps : Nat} :
    Makes (foreignKey? c path owner name steps)
      fun n found => n = 0 ∧ ∀ column ∈ found, column.IsColumn := by
  refine navigate_makes.next fun place _ => makes_property.next fun property _ => ?_
  cases property with
  | toOne association =>
    refine makes_entity.next fun target _ => ?_
    split
    · exact .pure ⟨rfl, fun _ h => Option.some.inj h ▸ Place.column_isColumn⟩
    · exact .pure ⟨rfl, nofun⟩
  | basic a => exact .pure ⟨rfl, nofun⟩
  | toMany collection => exact .pure ⟨rfl, nofun⟩

theorem propertyColumn_makes {path : Path} {name : String} {steps : Nat} :
    Makes (propertyColumn c path name steps) fun n e => n = 0 ∧ e.IsColumn := by
  refine navigate_makes.next fun place _ => makes_property.next fun property _ => ?_
  cases property with
  | toOne association => exact .pure ⟨rfl, Place.column_isColumn⟩
  | basic a => exact .pure ⟨rfl, Place.column_isColumn⟩
  | toMany collection => exact makes_throw

theorem resolve_makes {path : Path} : Makes (resolve c path) fun n e => n = 0 ∧ e.IsColumn := by
  unfold resolve
  split
  · exact navigate_makes.next fun _ _ => .pure ⟨rfl, Place.id_isColumn⟩
  · exact propertyColumn_makes
  · refine foreignKey?_makes.next fun found hfound => ?_
    cases found with
    | some column => exact .pure ⟨rfl, hfound column rfl⟩
    | none => exact propertyColumn_makes

theorem entityColumns_makes {path : Path} : Makes (entityColumns c path)
    fun n columns => n = 0 ∧ ∀ e ∈ columns, e.IsColumn := by
  refine navigate_makes.next fun place _ => .pure ⟨rfl, fun e he => ?_⟩
  simp only [List.mem_append, List.mem_cons, List.mem_map] at he
  rcases he with (rfl | ⟨a, -, rfl⟩) | ⟨a, -, rfl⟩ <;> exact Place.column_isColumn

/-! ## Roots and joins -/

theorem joinsTo_makes {join : PathJoin} {place : Place} {property : Mapping.Property} :
    Makes (joinsTo c join place property)
      fun n found => n = 0 ∧ ∀ join ∈ found.2.2, join.ComparesColumns := by
  cases property with
  | basic a => exact makes_throw
  | toOne association =>
    refine makes_entity.next fun _ _ => makes_freshAlias.next fun _ _ => .pure ⟨rfl, ?_⟩
    exact List.forall_mem_singleton.2 (equiJoin_comparesColumns Place.column_isColumn)
  | toMany collection =>
    refine makes_entity.next fun element _ => ?_
    split
    · refine makes_freshAlias.next fun _ _ => .pure ⟨rfl, ?_⟩
      exact List.forall_mem_singleton.2 (equiJoin_comparesColumns Place.id_isColumn)
    · refine makes_freshAlias.next fun link _ => makes_freshAlias.next fun _ _ => .pure ⟨rfl, ?_⟩
      refine List.forall_mem_cons.2 ⟨equiJoin_comparesColumns Place.id_isColumn, ?_⟩
      exact List.forall_mem_singleton.2 (equiJoin_comparesColumns ⟨link, _, rfl⟩)

theorem lowerJoin_makes {join : PathJoin} :
    Makes (lowerJoin c join) fun n _ => n = 0 ∧ True := by
  unfold lowerJoin
  split
  · refine navigate_makes.next fun place _ => makes_property.next fun property _ => ?_
    refine joinsTo_makes.next fun found hfound => ?_
    exact (makes_addJoins hfound).next fun _ _ => makes_bind
  · exact makes_throw

theorem lowerJoins_makes : ∀ {joins : List PathJoin},
    Makes (lowerJoins c joins) fun n _ => n = 0 ∧ True
  | [] => .pure ⟨rfl, trivial⟩
  | _ :: _ => lowerJoin_makes.next fun _ _ => lowerJoins_makes

theorem lowerRoots_makes : ∀ {roots : List Root} {item : Nat},
    Makes (lowerRoots c item roots) fun n _ => n = 0 ∧ True
  | [], _ => .pure ⟨rfl, trivial⟩
  | _ :: _, _ => by
    refine makes_entity.next fun _ _ => makes_freshAlias.next fun _ _ => ?_
    refine makes_addTable.next fun _ _ => makes_bind.next fun _ _ => ?_
    exact lowerJoins_makes.next fun _ _ => lowerRoots_makes

/-! ## Sizes of collections -/

theorem countJoined_makes {place : Place} {table ownerColumn memberColumn : String} :
    Makes (countJoined c place table ownerColumn memberColumn) fun n e =>
      n = 1 ∧ ∃ column : Sql.Expression, column.IsColumn ∧
        e = .aggregate .count true (some column) := by
  intro s t e hr
  obtain ⟨scope, hd, -, -, ⟨item, ht⟩, rfl, rfl⟩ := countJoined_ok hr
  exact ⟨1, .count hd ht (equiJoin_comparesColumns Place.id_isColumn) ⟨rfl, ownerColumn, rfl⟩, rfl,
    _, ⟨s.fresh, memberColumn, rfl⟩, rfl⟩

namespace LoweringContext

/-- Sizes of collections are counted by joins here. -/
def countsByJoins (c : LoweringContext) : Bool :=
  c.isInSelect && !c.dialect.supports .subqueryInSelect

end LoweringContext

theorem lowerSize_makes {path : Path} : Makes (lowerSize c path) fun n e =>
    (c.countsByJoins = true ∧ n = 1 ∧ ∃ column : Sql.Expression, column.IsColumn ∧
      e = .aggregate .count true (some column)) ∨
    (c.countsByJoins = false ∧ n = 0 ∧ ∃ table aliasName ownerColumn,
      ∃ owner : Sql.Expression, owner.IsColumn ∧
        e = countQuery table aliasName ownerColumn owner) := by
  unfold lowerSize
  split
  · exact makes_throw
  · refine navigate_makes.next fun place _ => makes_property.next fun property _ => ?_
    cases property with
    | toMany collection =>
      refine makes_entity.next fun element _ => ?_
      dsimp only
      split
      case isTrue h => exact countJoined_makes.imp fun _ _ hn => .inl ⟨h, hn⟩
      case isFalse h =>
        refine makes_freshAlias.next fun aliasName _ => .pure (.inr ?_)
        exact ⟨Bool.eq_false_iff.2 h, rfl, _, aliasName, _, _, Place.id_isColumn, rfl⟩
    | basic a => exact makes_throw
    | toOne association => exact makes_throw

end Entity

end SqlDialects
