import SqlDialects.Entity.Lowering.Navigation
import SqlDialects.Proofs.Gates

/-!
# Outcomes of lowering steps

A step fails, or it makes something. What is said of a step here holds of both: an error is true of
the dialect, and a result is as told. All joins that are added on the way compare two columns.
-/

namespace SqlDialects

/-! ## Joins between columns -/

namespace Sql

def Expression.IsColumn (e : Expression) : Prop := ∃ aliasName column, e = .of aliasName column

/-- The condition of the join, if it has one, is that two columns are equal. -/
def Join.ComparesColumns (join : Join) : Prop :=
  ∀ p ∈ join.on, ∃ left right : Expression, left.IsColumn ∧ right.IsColumn ∧ p = .equal left right

end Sql

namespace Entity

open Sql (Join FromItem)

theorem equiJoin_comparesColumns {kind : JoinKind} {table aliasName column : String}
    {other : Sql.Expression} (h : other.IsColumn) :
    (equiJoin kind table aliasName column other).ComparesColumns := by
  intro p hp
  obtain rfl := Option.some.inj hp
  exact ⟨_, other, ⟨aliasName, column, rfl⟩, h, rfl⟩

theorem Place.column_isColumn {place : Place} {name : String} : (place.column name).IsColumn :=
  ⟨place.aliasName, name, rfl⟩

theorem Place.id_isColumn {place : Place} : place.id.IsColumn := column_isColumn

def Scope.ComparesColumns (scope : Scope) : Prop :=
  ∀ table ∈ scope.tables, ∀ join ∈ table.joins, join.ComparesColumns

def LoweringState.ComparesColumns (s : LoweringState) : Prop :=
  ∀ scope ∈ s.scopes, scope.ComparesColumns

theorem forall_mem_modify {α : Type} {p : α → Prop} {f : α → α} (hf : ∀ a, p a → p (f a)) :
    ∀ {l : List α} {i : Nat}, (∀ a ∈ l, p a) → ∀ a ∈ l.modify i f, p a
  | [], _, _ => by simp
  | first :: rest, 0, h => by
    rw [List.modify_zero_cons]
    obtain ⟨hfirst, hrest⟩ := List.forall_mem_cons.1 h
    exact List.forall_mem_cons.2 ⟨hf first hfirst, hrest⟩
  | first :: rest, i + 1, h => by
    rw [List.modify_succ_cons]
    obtain ⟨hfirst, hrest⟩ := List.forall_mem_cons.1 h
    exact List.forall_mem_cons.2 ⟨hfirst, forall_mem_modify hf hrest⟩

/-! ## Outcomes -/

namespace Lower

variable {α β : Type} {d : Dialect} {x : Lower α} {f : α → Lower β} {p p' : α → Prop}
  {q : β → Prop}

/-- Where joins compare columns, the step fails with an error that is true of the dialect, or makes
something of the kind and adds no other joins. -/
def Meets (d : Dialect) (x : Lower α) (makes : α → Prop) : Prop :=
  ∀ s : LoweringState, s.ComparesColumns →
    match x s with
    | .ok (a, t) => t.ComparesColumns ∧ makes a
    | .error e => d.Explains e

theorem Meets.imp (hx : Meets d x p) (h : ∀ a, p a → p' a) : Meets d x p' := by
  intro s hs
  have hx := hx s hs
  cases hr : x s with
  | error e => simpa only [hr] using hx
  | ok r =>
    simp only [hr] at hx
    exact ⟨hx.1, h r.1 hx.2⟩

theorem Meets.pure {a : α} (h : p a) : Meets d (pure a) p := fun _ hs => And.intro hs h

theorem Meets.bind (hx : Meets d x p) (hf : ∀ a, p a → Meets d (f a) q) :
    Meets d (x >>= f) q := by
  intro s hs
  have hx := hx s hs
  show match (x s).bind fun r => f r.1 r.2 with
    | .ok (a, t) => t.ComparesColumns ∧ q a
    | .error e => d.Explains e
  cases hr : x s with
  | error e =>
    simp only [hr] at hx
    exact hx
  | ok r =>
    simp only [hr] at hx
    exact hf r.1 hx.2 r.2 hx.1

theorem meets_throw {e : DialectError} (h : d.Explains e) : Meets d (throw e) p := fun _ _ => h

theorem meets_malformed {reason : String} : Meets d (malformed reason) p := meets_throw trivial

theorem meets_lift {x : Except DialectError α} (h : d.ExplainsFailure x) :
    Meets d (liftM x) fun a => x = .ok a := by
  intro s hs
  cases x with
  | error e => exact h e rfl
  | ok a => exact And.intro hs rfl

theorem meets_get : Meets d get LoweringState.ComparesColumns := fun _ hs => And.intro hs hs

theorem meets_modifyScope {depth : Nat} {change : Scope → Scope}
    (h : ∀ scope, scope.ComparesColumns → (change scope).ComparesColumns) :
    Meets d (modifyScope depth change) fun _ => True :=
  fun _ hs => And.intro (forall_mem_modify h hs) trivial

theorem meets_freshAlias : Meets d freshAlias fun _ => True := fun _ hs => And.intro hs trivial

theorem meets_property {entity : Mapping.Entity} {name : String} :
    Meets d (property entity name) fun _ => True :=
  (meets_lift Dialect.explainsFailure_property).imp fun _ _ => trivial

theorem meets_push {scope : Scope} (h : scope.ComparesColumns) :
    Meets d (push scope) fun _ => True :=
  fun _ hs => And.intro (List.forall_mem_cons.2 ⟨h, hs⟩) trivial

theorem meets_pop : Meets d pop Scope.ComparesColumns := by
  intro s hs
  obtain ⟨nextAlias, scopes⟩ := s
  cases scopes with
  | nil => exact trivial
  | cons scope rest => exact And.comm.1 (List.forall_mem_cons.1 hs)

theorem meets_current : Meets d current fun _ => True := by
  intro s hs
  obtain ⟨nextAlias, scopes⟩ := s
  cases scopes with
  | nil => exact trivial
  | cons scope rest => exact And.intro hs trivial

theorem meets_bind {name : String} {binding : Binding} :
    Meets d (Lower.bind name binding) fun _ => True := meets_modifyScope fun _ h => h

theorem meets_addTable {table : FromItem} (h : ∀ join ∈ table.joins, join.ComparesColumns) :
    Meets d (addTable table) fun _ => True :=
  meets_modifyScope fun _ hs =>
    List.forall_mem_append.2 ⟨hs, List.forall_mem_singleton.2 h⟩

theorem meets_addJoins {depth item : Nat} {joins : List Join} {missing : String}
    (h : ∀ join ∈ joins, join.ComparesColumns) :
    Meets d (addJoins depth item joins missing) fun _ => True := by
  refine meets_get.bind fun _ _ => ?_
  dsimp only
  split
  · refine meets_modifyScope fun _ hs => forall_mem_modify (fun table ht => ?_) hs
    exact List.forall_mem_append.2 ⟨ht, h⟩
  · exact meets_malformed

theorem meets_lookup {name : String} : Meets d (lookup name) fun _ => True := by
  refine meets_get.bind fun s _ => ?_
  split
  · exact .pure trivial
  · exact meets_malformed

end Lower

open Lower (Meets)

variable {c : LoweringContext}

namespace LoweringContext

variable {α : Type} {p : α → Prop}

theorem meets_unsupported {construct : String}
    (h : Capability.constructs.lookup construct = none) :
    Meets c.dialect (c.unsupported construct) p :=
  Lower.meets_throw (Dialect.explains_unsupported h)

/-- The construct goes on with something of the statement. -/
theorem meets_unsupported_append {start : String} (rest : String)
    (h : Capability.constructs.all (fun entry => !start.toList.isPrefixOf entry.1.toList) = true) :
    Meets c.dialect (c.unsupported (start ++ rest)) p :=
  meets_unsupported (Capability.lookup_append h rest)

theorem meets_lacks {capability : Capability} {construct : String}
    (h : Capability.constructs.lookup construct = some capability)
    (hs : c.dialect.supports capability = false) :
    Meets c.dialect (c.lacks capability construct) p :=
  Lower.meets_throw (Dialect.explains_lacks h hs)

theorem meets_require {capability : Capability} {construct : String}
    (h : Capability.constructs.lookup construct = some capability) :
    Meets c.dialect (c.require capability construct)
      fun _ => c.dialect.supports capability = true := by
  refine (Lower.meets_lift (Dialect.explainsFailure_require h)).imp fun _ hok => ?_
  unfold Dialect.require at hok
  split at hok
  · next hs => exact hs
  · cases hok

theorem meets_entity {name : String} : Meets c.dialect (c.entity name) fun _ => True :=
  (Lower.meets_lift Dialect.explainsFailure_entity).imp fun _ _ => trivial

end LoweringContext

open Lower LoweringContext

/-! ## Paths -/

theorem joinAlong_meets {place : Place} {association : Mapping.ToOne} {target : Mapping.Entity} :
    Meets c.dialect (joinAlong c place association target) fun _ => True := by
  have himplicit : Capability.constructs.lookup "implicit join in update or delete" = none := by
    decide
  refine meets_get.bind fun s _ => ?_
  dsimp only
  split
  · exact meets_unsupported himplicit
  · split
    · exact meets_unsupported himplicit
    · split
      · exact .pure trivial
      · refine meets_freshAlias.bind fun aliasName _ => ?_
        have hjoin : (equiJoin .inner target.table aliasName target.id.column
            (place.column association.column)).ComparesColumns :=
          equiJoin_comparesColumns Place.column_isColumn
        refine (meets_addJoins (List.forall_mem_singleton.2 hjoin)).bind fun _ _ => ?_
        exact Meets.bind (meets_modifyScope fun _ h => h) fun _ _ => .pure trivial

theorem step_meets {path : Path} {place : Place} {name : String} :
    Meets c.dialect (step c path place name) fun _ => True := by
  refine meets_property.bind fun property _ => ?_
  cases property with
  | toOne association =>
    exact meets_entity.bind fun target _ => joinAlong_meets.bind fun _ _ => .pure trivial
  | basic value => exact meets_malformed
  | toMany collection => exact meets_unsupported_append _ (by decide)

theorem walk_meets {path : Path} : ∀ {names : List String} {place : Place},
    Meets c.dialect (walk c path place names) fun _ => True
  | [], _ => .pure trivial
  | _ :: _, _ => step_meets.bind fun _ _ => walk_meets

theorem navigate_meets {path : Path} {steps : Nat} :
    Meets c.dialect (navigate c path steps) fun _ => True :=
  meets_lookup.bind fun _ _ => walk_meets

theorem foreignKey?_meets {path : Path} {owner name : String} {steps : Nat} :
    Meets c.dialect (foreignKey? c path owner name steps)
      fun found => ∀ column ∈ found, column.IsColumn := by
  refine navigate_meets.bind fun place _ => meets_property.bind fun property _ => ?_
  cases property with
  | toOne association =>
    refine meets_entity.bind fun target _ => ?_
    split
    · exact .pure fun column h => Option.some.inj h ▸ Place.column_isColumn
    · exact .pure nofun
  | basic value => exact .pure nofun
  | toMany collection => exact .pure nofun

theorem propertyColumn_meets {path : Path} {name : String} {steps : Nat} :
    Meets c.dialect (propertyColumn c path name steps) Sql.Expression.IsColumn := by
  refine navigate_meets.bind fun place _ => meets_property.bind fun property _ => ?_
  cases property with
  | basic value => exact .pure Place.column_isColumn
  | toOne association => exact .pure Place.column_isColumn
  | toMany collection => exact meets_unsupported_append _ (by decide)

theorem resolve_meets {path : Path} : Meets c.dialect (resolve c path) Sql.Expression.IsColumn := by
  unfold resolve
  split
  · exact navigate_meets.bind fun place _ => .pure Place.id_isColumn
  · exact propertyColumn_meets
  · refine foreignKey?_meets.bind fun found hfound => ?_
    cases found with
    | some column => exact .pure (hfound column rfl)
    | none => exact propertyColumn_meets

theorem entityColumns_meets {path : Path} :
    Meets c.dialect (entityColumns c path) fun columns => ∀ e ∈ columns, e.IsColumn := by
  refine navigate_meets.bind fun place _ => .pure fun e he => ?_
  simp only [List.mem_append, List.mem_cons, List.mem_map] at he
  rcases he with (rfl | ⟨a, -, rfl⟩) | ⟨a, -, rfl⟩ <;> exact Place.column_isColumn

/-! ## Joins -/

theorem joinsTo_meets {join : PathJoin} {place : Place} {property : Mapping.Property} :
    Meets c.dialect (joinsTo c join place property)
      fun found => ∀ join ∈ found.2.2, join.ComparesColumns := by
  cases property with
  | basic value => exact meets_malformed
  | toOne association =>
    refine meets_entity.bind fun target _ => meets_freshAlias.bind fun aliasName _ => .pure ?_
    exact List.forall_mem_singleton.2 (equiJoin_comparesColumns Place.column_isColumn)
  | toMany collection =>
    refine meets_entity.bind fun element _ => ?_
    split
    · refine meets_freshAlias.bind fun aliasName _ => .pure ?_
      exact List.forall_mem_singleton.2 (equiJoin_comparesColumns Place.id_isColumn)
    · refine meets_freshAlias.bind fun link _ => meets_freshAlias.bind fun aliasName _ => .pure ?_
      refine List.forall_mem_cons.2 ⟨equiJoin_comparesColumns Place.id_isColumn, ?_⟩
      exact List.forall_mem_singleton.2 (equiJoin_comparesColumns ⟨link, _, rfl⟩)

theorem lowerJoin_meets {join : PathJoin} :
    Meets c.dialect (lowerJoin c join) fun _ => True := by
  unfold lowerJoin
  split
  · refine navigate_meets.bind fun place _ => meets_property.bind fun property _ => ?_
    refine joinsTo_meets.bind fun found hfound => ?_
    exact (meets_addJoins hfound).bind fun _ _ => meets_bind
  · exact meets_malformed

theorem lowerJoins_meets : ∀ {joins : List PathJoin},
    Meets c.dialect (lowerJoins c joins) fun _ => True
  | [] => .pure trivial
  | _ :: _ => lowerJoin_meets.bind fun _ _ => lowerJoins_meets

theorem lowerRoots_meets : ∀ {roots : List Root} {item : Nat},
    Meets c.dialect (lowerRoots c item roots) fun _ => True
  | [], _ => .pure trivial
  | root :: rest, _ => by
    refine meets_entity.bind fun entity _ => meets_freshAlias.bind fun aliasName _ => ?_
    have hbare : ∀ join ∈ (FromItem.mk ⟨entity.table, aliasName⟩ []).joins,
        join.ComparesColumns := by simp
    refine (meets_addTable hbare).bind fun _ _ => meets_bind.bind fun _ _ => ?_
    exact lowerJoins_meets.bind fun _ _ => lowerRoots_meets

/-! ## Sizes of collections -/

theorem countJoined_meets {place : Place} {table ownerColumn memberColumn : String}
    (hs : c.dialect.supports .subqueryInSelect = false) :
    Meets c.dialect (countJoined c place table ownerColumn memberColumn)
      fun e => ∃ column : Sql.Expression, column.IsColumn ∧
        e = .aggregate .count true (some column) := by
  refine meets_current.bind fun scope _ => ?_
  split
  · exact meets_lacks (by decide) hs
  · split
    · exact meets_lacks (by decide) hs
    · refine meets_freshAlias.bind fun aliasName _ => ?_
      have hjoin : (equiJoin .left table aliasName ownerColumn place.id).ComparesColumns :=
        equiJoin_comparesColumns Place.id_isColumn
      refine (meets_addJoins (List.forall_mem_singleton.2 hjoin)).bind fun _ _ => ?_
      dsimp only
      refine Meets.bind (meets_modifyScope fun _ h => h) fun _ _ => .pure ?_
      exact ⟨_, ⟨aliasName, memberColumn, rfl⟩, rfl⟩

/-- A size becomes a count over a join, or a subquery that counts. -/
theorem lowerSize_meets {path : Path} : Meets c.dialect (lowerSize c path) fun e =>
    (∃ column : Sql.Expression, column.IsColumn ∧ e = .aggregate .count true (some column)) ∨
      ∃ table aliasName ownerColumn, ∃ owner : Sql.Expression, owner.IsColumn ∧
        e = countQuery table aliasName ownerColumn owner := by
  unfold lowerSize
  split
  · exact meets_malformed
  · refine navigate_meets.bind fun place _ => meets_property.bind fun property _ => ?_
    cases property with
    | toMany collection =>
      refine meets_entity.bind fun element _ => ?_
      dsimp only
      split
      · next h =>
        have hs : c.dialect.supports .subqueryInSelect = false := by simp_all
        exact (countJoined_meets hs).imp fun _ h => .inl h
      · refine meets_freshAlias.bind fun aliasName _ => .pure (.inr ?_)
        exact ⟨_, aliasName, _, _, Place.id_isColumn, rfl⟩
    | basic value => exact meets_malformed
    | toOne association => exact meets_malformed

end Entity

end SqlDialects
