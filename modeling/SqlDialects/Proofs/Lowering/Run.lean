import SqlDialects.Entity.Lowering.Tree

/-!
# Runs of the lowering

What is known of a step that has gone well: its result, the state after it, and the steps that it
is made of.
-/

namespace SqlDialects.Sql

/-- More joins hang on a table. -/
def FromItem.extend (item : FromItem) (joins : List Join) : FromItem :=
  { item with joins := item.joins ++ joins }

end SqlDialects.Sql

namespace SqlDialects.Entity

namespace Lower

variable {α β : Type} {s : LoweringState}

/-! ## Making steps -/

@[simp]
theorem pure_ok_iff {a : α} {r : α × LoweringState} :
    (pure a : Lower α) s = .ok r ↔ r = (a, s) :=
  ⟨fun h => (Except.ok.inj h).symm, fun h => congrArg Except.ok h.symm⟩

@[simp]
theorem bind_ok_iff {x : Lower α} {f : α → Lower β} {r : β × LoweringState} :
    (x >>= f) s = .ok r ↔ ∃ a t, x s = .ok (a, t) ∧ f a t = .ok r := by
  show (x s).bind (fun p => f p.1 p.2) = .ok r ↔ _
  cases hx : x s with
  | error e => simp [Except.bind]
  | ok p =>
    constructor
    · intro h
      exact ⟨p.1, p.2, rfl, h⟩
    · rintro ⟨a, t, ⟨⟩, h⟩
      exact h

@[simp]
theorem throw_ok_iff {e : DialectError} {r : α × LoweringState} :
    (throw e : Lower α) s = .ok r ↔ False :=
  ⟨nofun, False.elim⟩

@[simp]
theorem malformed_ok_iff {reason : String} {r : α × LoweringState} :
    (malformed reason : Lower α) s = .ok r ↔ False :=
  throw_ok_iff

@[simp]
theorem lift_ok_iff {x : Except DialectError α} {r : α × LoweringState} :
    (liftM x : Lower α) s = .ok r ↔ x = .ok r.1 ∧ s = r.2 := by
  obtain ⟨a, t⟩ := r
  cases x with
  | error e => exact ⟨nofun, nofun⟩
  | ok b =>
    show Except.ok (b, s) = .ok (a, t) ↔ _
    simp [eq_comm]

theorem get_bind (f : LoweringState → Lower α) :
    ((get : Lower LoweringState) >>= f) s = f s s :=
  rfl

@[simp]
theorem set_ok_iff {t : LoweringState} {r : PUnit × LoweringState} :
    (set t : Lower PUnit) s = .ok r ↔ r.2 = t := by
  show Except.ok ((), t) = .ok r ↔ _
  obtain ⟨⟨⟩, u⟩ := r
  simp [eq_comm]

@[simp]
theorem modify_ok_iff {f : LoweringState → LoweringState} {r : PUnit × LoweringState} :
    (modify f : Lower PUnit) s = .ok r ↔ r.2 = f s := by
  show Except.ok ((), f s) = .ok r ↔ _
  obtain ⟨⟨⟩, u⟩ := r
  simp [eq_comm]

@[simp]
theorem unsupported_ok_iff {c : LoweringContext} {construct : String} {r : α × LoweringState} :
    (c.unsupported construct : Lower α) s = .ok r ↔ False :=
  throw_ok_iff

@[simp]
theorem lacks_ok_iff {c : LoweringContext} {capability : Capability} {construct : String}
    {r : α × LoweringState} :
    (c.lacks capability construct : Lower α) s = .ok r ↔ False :=
  throw_ok_iff

@[simp]
theorem require_ok_iff {c : LoweringContext} {capability : Capability} {construct : String}
    {r : Unit × LoweringState} :
    c.require capability construct s = .ok r ↔
      c.dialect.supports capability = true ∧ s = r.2 := by
  simp only [LoweringContext.require, lift_ok_iff, Dialect.require]
  split <;> simp_all

@[simp]
theorem entity_ok_iff {c : LoweringContext} {name : String}
    {r : Mapping.Entity × LoweringState} :
    c.entity name s = .ok r ↔ c.model.entity name = .ok r.1 ∧ s = r.2 :=
  lift_ok_iff

@[simp]
theorem property_ok_iff {entity : Mapping.Entity} {name : String}
    {r : Mapping.Property × LoweringState} :
    property entity name s = .ok r ↔ entity.property name = .ok r.1 ∧ s = r.2 :=
  lift_ok_iff

/-! ## Aliases and scopes -/

end Lower

namespace LoweringState

/-- The state after an alias has been allotted. -/
def allot (s : LoweringState) : LoweringState := { s with nextAlias := s.nextAlias + 1 }

/-- The alias that is allotted next. -/
def fresh (s : LoweringState) : String := "t" ++ toString s.nextAlias

/-- The state after a change to one of the scopes. -/
def modifyScope (s : LoweringState) (depth : Nat) (change : Scope → Scope) : LoweringState :=
  { s with scopes := s.scopes.modify depth change }

@[simp]
theorem allot_scopes (s : LoweringState) : s.allot.scopes = s.scopes := rfl

@[simp]
theorem allot_nextAlias (s : LoweringState) : s.allot.nextAlias = s.nextAlias + 1 := rfl

@[simp]
theorem modifyScope_nextAlias (s : LoweringState) (depth : Nat) (change : Scope → Scope) :
    (s.modifyScope depth change).nextAlias = s.nextAlias := rfl

@[simp]
theorem modifyScope_scopes (s : LoweringState) (depth : Nat) (change : Scope → Scope) :
    (s.modifyScope depth change).scopes = s.scopes.modify depth change := rfl

theorem get_modifyScope {s : LoweringState} {depth : Nat} {scope : Scope}
    (h : s.scopes[depth]? = some scope) (change : Scope → Scope) :
    (s.modifyScope depth change).scopes[depth]? = some (change scope) := by
  simp [h]

end LoweringState

namespace Lower

variable {s : LoweringState}

@[simp]
theorem freshAlias_ok_iff {r : String × LoweringState} :
    freshAlias s = .ok r ↔ r = (s.fresh, s.allot) :=
  ⟨fun h => (Except.ok.inj h).symm, fun h => congrArg Except.ok h.symm⟩

@[simp]
theorem push_ok_iff {scope : Scope} {r : Unit × LoweringState} :
    push scope s = .ok r ↔ r.2 = { s with scopes := scope :: s.scopes } :=
  modify_ok_iff

@[simp]
theorem pop_ok_iff {r : Scope × LoweringState} :
    pop s = .ok r ↔ s.scopes = r.1 :: r.2.scopes ∧ r.2.nextAlias = s.nextAlias := by
  obtain ⟨nextAlias, scopes⟩ := s
  obtain ⟨scope, ⟨nextAlias', scopes'⟩⟩ := r
  simp only [pop, get_bind]
  cases scopes with
  | nil => simp
  | cons first rest =>
    show Except.ok (first, _) = .ok _ ↔ _
    simp only [Except.ok.injEq, Prod.mk.injEq, LoweringState.mk.injEq, List.cons.injEq]
    grind

@[simp]
theorem current_ok_iff {r : Scope × LoweringState} :
    current s = .ok r ↔ s.scopes.head? = some r.1 ∧ s = r.2 := by
  obtain ⟨nextAlias, scopes⟩ := s
  simp only [current, get_bind]
  cases scopes with
  | nil => simp
  | cons first rest =>
    obtain ⟨scope, t⟩ := r
    simp only [pure_ok_iff, Prod.mk.injEq, List.head?_cons, Option.some.injEq]
    grind

@[simp]
theorem modifyScope_ok_iff {depth : Nat} {change : Scope → Scope} {r : Unit × LoweringState} :
    modifyScope depth change s = .ok r ↔ r.2 = s.modifyScope depth change :=
  modify_ok_iff

end Lower

/-! ## Changes to a scope -/

/-- More joins hang on one table of a scope. -/
def Scope.extend (item : Nat) (joins : List Sql.Join) (scope : Scope) : Scope :=
  { scope with tables := scope.tables.modify item (·.extend joins) }

/-- A path joins a table, and later paths find it by the key. -/
def Scope.addPathJoin (item : Nat) (key : String × String) (join : Sql.Join) (scope : Scope) :
    Scope :=
  { scope.extend item [join] with pathJoins := (key, join.table.aliasName) :: scope.pathJoins }

def Scope.bind (name : String) (binding : Binding) (scope : Scope) : Scope :=
  { scope with bindings := (name, binding) :: scope.bindings }

def Scope.addTable (table : Sql.FromItem) (scope : Scope) : Scope :=
  { scope with tables := scope.tables ++ [table] }

namespace Lower

@[simp]
theorem bindVariable_ok_iff {name : String} {binding : Binding} {r : Unit × LoweringState} :
    bind name binding s = .ok r ↔ r.2 = s.modifyScope 0 (Scope.bind name binding) :=
  modify_ok_iff

@[simp]
theorem addTable_ok_iff {table : Sql.FromItem} {r : Unit × LoweringState} :
    addTable table s = .ok r ↔ r.2 = s.modifyScope 0 (Scope.addTable table) :=
  modify_ok_iff

@[simp]
theorem addJoins_ok_iff {depth item : Nat} {joins : List Sql.Join} {missing : String}
    {r : Unit × LoweringState} :
    addJoins depth item joins missing s = .ok r ↔
      (∃ scope table, s.scopes[depth]? = some scope ∧ scope.tables[item]? = some table) ∧
        r.2 = s.modifyScope depth (Scope.extend item joins) := by
  simp only [addJoins, get_bind]
  split
  case isTrue h =>
    rw [modifyScope_ok_iff]
    simp only [Option.isSome_iff_exists, Option.bind_eq_some_iff] at h
    obtain ⟨table, scope, h⟩ := h
    exact ⟨fun hr => ⟨⟨scope, table, h⟩, hr⟩, fun hr => hr.2⟩
  case isFalse h =>
    simp only [malformed_ok_iff, false_iff, not_and]
    rintro ⟨scope, table, hs, ht⟩
    simp [hs, ht] at h

@[simp]
theorem lookup_ok_iff {name : String} {r : (Nat × Binding) × LoweringState} :
    lookup name s = .ok r ↔ findBinding name s.scopes = some r.1 ∧ s = r.2 := by
  obtain ⟨found, t⟩ := r
  simp only [lookup, get_bind]
  cases findBinding name s.scopes with
  | none => simp
  | some f =>
    simp only [pure_ok_iff, Prod.mk.injEq, Option.some.injEq]
    grind

end Lower

/-! ## Joins -/

@[simp]
theorem LoweringState.modifyScope_modifyScope (s : LoweringState) (depth : Nat)
    (f g : Scope → Scope) :
    (s.modifyScope depth f).modifyScope depth g = s.modifyScope depth (g ∘ f) := by
  simp [LoweringState.modifyScope, List.modify_modify_eq]

/-- What an association joins to the table that it starts from. -/
def associationJoin (place : Place) (association : Mapping.ToOne) (target : Mapping.Entity)
    (aliasName : String) : Sql.Join :=
  equiJoin .inner target.table aliasName target.id.column (place.column association.column)

/-- The way of an association, which later paths use again. -/
def pathKey (place : Place) (association : Mapping.ToOne) : String × String :=
  (place.aliasName, Text.lower association.name)

variable {c : LoweringContext} {s t : LoweringState}

/-- A walk along an association uses a join that is there, or adds one. -/
theorem joinAlong_ok_iff {place : Place} {association : Mapping.ToOne} {target : Mapping.Entity}
    {aliasName : String} : joinAlong c place association target s = .ok (aliasName, t) ↔
    ∃ scope, s.scopes[place.depth]? = some scope ∧ scope.allowsPathJoins ∧
      ((scope.pathJoins.lookup (pathKey place association) = some aliasName ∧ t = s) ∨
        (scope.pathJoins.lookup (pathKey place association) = none ∧
          (∃ table, scope.tables[place.item]? = some table) ∧ aliasName = s.fresh ∧
          t = s.allot.modifyScope place.depth (Scope.addPathJoin place.item
            (pathKey place association) (associationJoin place association target s.fresh)))) := by
  simp only [joinAlong, Lower.get_bind]
  cases hs : s.scopes[place.depth]? with
  | none => simp
  | some scope =>
    simp only [Option.some.injEq, exists_eq_left']
    split
    case isTrue hp =>
      rw [Bool.not_eq_true'] at hp
      simp [hp]
    case isFalse hp =>
      rw [Bool.not_eq_true', Bool.not_eq_false] at hp
      simp only [hp, true_and]
      cases hl : scope.pathJoins.lookup (pathKey place association) with
      | some joined =>
        rw [pathKey] at hl
        simp only [hl, Lower.pure_ok_iff, Prod.mk.injEq, Option.some.injEq, reduceCtorEq, false_and,
          or_false]
        rw [eq_comm (a := joined)]
      | none =>
        rw [pathKey] at hl
        simp only [hl, Lower.bind_ok_iff, Lower.freshAlias_ok_iff, Lower.addJoins_ok_iff,
          Lower.modifyScope_ok_iff, Lower.pure_ok_iff, Prod.mk.injEq]
        constructor
        · rintro ⟨_, _, ⟨rfl, rfl⟩, _, _, ⟨⟨scope', table, hs', ht⟩, rfl⟩, _, _, rfl, rfl, rfl⟩
          simp only [LoweringState.allot_scopes, hs, Option.some.injEq] at hs'
          subst hs'
          refine .inr ⟨trivial, ⟨table, ht⟩, rfl, ?_⟩
          rw [LoweringState.modifyScope_modifyScope]
          rfl
        · rintro (⟨h, -⟩ | ⟨-, ⟨table, ht⟩, rfl, rfl⟩)
          · cases h
          · refine ⟨_, _, ⟨rfl, rfl⟩, (), _, ⟨⟨scope, table, hs, ht⟩, rfl⟩, (), _, rfl, rfl, ?_⟩
            rw [LoweringState.modifyScope_modifyScope]
            rfl

/-- A step along a path follows an association. -/
theorem step_ok_iff {path : Path} {place next : Place} {name : String} :
    step c path place name s = .ok (next, t) ↔
      ∃ association target aliasName, place.entity.property name = .ok (.toOne association) ∧
        c.model.entity association.target = .ok target ∧
        joinAlong c place association target s = .ok (aliasName, t) ∧
        next = { place with entity := target, aliasName } := by
  simp only [step, Lower.bind_ok_iff, Lower.property_ok_iff]
  constructor
  · rintro ⟨property, _, ⟨hp, rfl⟩, h⟩
    cases property with
    | toOne association =>
      simp only [Lower.bind_ok_iff, Lower.entity_ok_iff, Lower.pure_ok_iff, Prod.mk.injEq] at h
      obtain ⟨target, _, ⟨ht, rfl⟩, aliasName, _, hj, rfl, rfl⟩ := h
      exact ⟨association, target, aliasName, hp, ht, hj, rfl⟩
    | basic a => simp at h
    | toMany collection => simp at h
  · rintro ⟨association, target, aliasName, hp, ht, hj, rfl⟩
    refine ⟨_, _, ⟨hp, rfl⟩, ?_⟩
    simp only [Lower.bind_ok_iff, Lower.entity_ok_iff, Lower.pure_ok_iff]
    exact ⟨target, _, ⟨ht, rfl⟩, aliasName, _, hj, rfl⟩

theorem mem_of_lookup {α β : Type} [BEq α] [LawfulBEq α] {k : α} {b : β} {l : List (α × β)}
    (h : l.lookup k = some b) : (k, b) ∈ l := by
  obtain ⟨l₁, l₂, rfl, -⟩ := List.lookup_eq_some_iff.1 h
  simp

theorem mem_of_findBinding {name : String} {binding : Binding} : ∀ {scopes : List Scope}
    {depth : Nat}, Lower.findBinding name scopes = some (depth, binding) →
      ∃ scope, scopes[depth]? = some scope ∧ (name, binding) ∈ scope.bindings
  | [], _, h => by simp [Lower.findBinding] at h
  | first :: rest, depth, h => by
    simp only [Lower.findBinding] at h
    cases hl : first.bindings.lookup name with
    | some b =>
      simp only [hl, Option.some.injEq, Prod.mk.injEq] at h
      obtain ⟨rfl, rfl⟩ := h
      exact ⟨first, rfl, mem_of_lookup hl⟩
    | none =>
      simp only [hl, Option.map_eq_some_iff, Prod.exists, Prod.mk.injEq] at h
      obtain ⟨d, b, hf, rfl, rfl⟩ := h
      obtain ⟨scope, hd, hb⟩ := mem_of_findBinding hf
      exact ⟨scope, by simpa using hd, hb⟩

/-- Where a variable stands. -/
def Binding.place (binding : Binding) (depth : Nat) : Place :=
  ⟨depth, binding.item, binding.entity, binding.aliasName⟩

theorem navigate_ok_iff {path : Path} {steps : Nat} {place : Place} :
    navigate c path steps s = .ok (place, t) ↔
      ∃ depth binding, Lower.findBinding path.start s.scopes = some (depth, binding) ∧
        walk c path (binding.place depth) (path.properties.take steps) s = .ok (place, t) := by
  simp only [navigate, Lower.bind_ok_iff, Lower.lookup_ok_iff]
  constructor
  · rintro ⟨⟨depth, binding⟩, _, ⟨hf, rfl⟩, h⟩
    exact ⟨depth, binding, hf, h⟩
  · rintro ⟨depth, binding, hf, h⟩
    exact ⟨(depth, binding), s, ⟨hf, rfl⟩, h⟩

/-- A join leads over an association or a collection, and takes two tables over a join table. -/
theorem joinsTo_ok {join : PathJoin} {place : Place} {property : Mapping.Property}
    {entity : Mapping.Entity} {aliasName : String} {joins : List Sql.Join}
    (h : joinsTo c join place property s = .ok ((entity, aliasName, joins), t)) :
    (∃ association, property = .toOne association ∧
      c.model.entity association.target = .ok entity ∧ aliasName = s.fresh ∧ t = s.allot ∧
      joins = [equiJoin join.kind entity.table s.fresh entity.id.column
        (place.column association.column)]) ∨
    ∃ collection, property = .toMany collection ∧
      c.model.entity collection.element = .ok entity ∧
      ((∃ column, collection.storage = .foreignKey column ∧ aliasName = s.fresh ∧ t = s.allot ∧
        joins = [equiJoin join.kind entity.table s.fresh column place.id]) ∨
      ∃ table ownerColumn elementColumn,
        collection.storage = .joinTable table ownerColumn elementColumn ∧
        aliasName = s.allot.fresh ∧ t = s.allot.allot ∧
        joins = [equiJoin join.kind table s.fresh ownerColumn place.id,
          equiJoin join.kind entity.table s.allot.fresh entity.id.column
            (.of s.fresh elementColumn)]) := by
  cases property with
  | basic a => simp [joinsTo] at h
  | toOne association =>
    simp only [joinsTo, Lower.bind_ok_iff, Lower.entity_ok_iff, Lower.freshAlias_ok_iff,
      Lower.pure_ok_iff, Prod.mk.injEq] at h
    obtain ⟨target, _, ⟨ht, rfl⟩, _, _, ⟨rfl, rfl⟩, ⟨rfl, rfl, rfl⟩, rfl⟩ := h
    exact .inl ⟨association, rfl, ht, rfl, rfl, rfl⟩
  | toMany collection =>
    simp only [joinsTo, Lower.bind_ok_iff, Lower.entity_ok_iff] at h
    obtain ⟨element, _, ⟨he, rfl⟩, h⟩ := h
    cases hc : collection.storage with
    | foreignKey column =>
      simp only [hc, Lower.bind_ok_iff, Lower.freshAlias_ok_iff, Lower.pure_ok_iff,
        Prod.mk.injEq] at h
      obtain ⟨_, _, ⟨rfl, rfl⟩, ⟨rfl, rfl, rfl⟩, rfl⟩ := h
      exact .inr ⟨collection, rfl, he, .inl ⟨column, hc, rfl, rfl, rfl⟩⟩
    | joinTable table ownerColumn elementColumn =>
      simp only [hc, Lower.bind_ok_iff, Lower.freshAlias_ok_iff, Lower.pure_ok_iff,
        Prod.mk.injEq] at h
      obtain ⟨_, _, ⟨rfl, rfl⟩, _, _, ⟨rfl, rfl⟩, ⟨rfl, rfl, rfl⟩, rfl⟩ := h
      exact .inr ⟨collection, rfl, he, .inr ⟨table, ownerColumn, elementColumn, hc, rfl, rfl, rfl⟩⟩

/-! ## Sizes of collections -/

/-- A collection is counted in the query of its owner. -/
def Scope.addCount (item : Nat) (owner : String × String) (join : Sql.Join) (scope : Scope) :
    Scope :=
  { scope.extend item [join] with
    countedCollections := scope.countedCollections + 1
    owners := if scope.owners.contains owner then scope.owners else scope.owners ++ [owner] }

theorem countJoined_ok {place : Place} {table ownerColumn memberColumn : String}
    {e : Sql.Expression}
    (h : countJoined c place table ownerColumn memberColumn s = .ok (e, t)) :
    ∃ scope, s.scopes[0]? = some scope ∧ scope.isGrouped = false ∧ place.depth = 0 ∧
      (∃ item, scope.tables[place.item]? = some item) ∧
      e = .aggregate .count true (some (.of s.fresh memberColumn)) ∧
      t = s.allot.modifyScope 0 (Scope.addCount place.item
        (place.aliasName, place.entity.id.column)
        (equiJoin .left table s.fresh ownerColumn place.id)) := by
  simp only [countJoined, Lower.bind_ok_iff, Lower.current_ok_iff] at h
  obtain ⟨scope, _, ⟨hd, rfl⟩, h⟩ := h
  split at h
  case isTrue => simp at h
  case isFalse hg =>
    split at h
    case isTrue => simp at h
    case isFalse hp =>
      simp only [Lower.bind_ok_iff, Lower.freshAlias_ok_iff, Lower.addJoins_ok_iff,
        Lower.modifyScope_ok_iff, Lower.pure_ok_iff, Prod.mk.injEq] at h
      obtain ⟨_, _, ⟨rfl, rfl⟩, _, _, ⟨⟨scope', item, hd', ht⟩, rfl⟩, _, _, rfl, rfl, rfl⟩ := h
      rw [List.head?_eq_getElem?] at hd
      obtain rfl : scope = scope' := by simpa [hd] using hd'
      refine ⟨scope, hd, by simpa using hg, by simpa using hp, ⟨item, ht⟩, rfl, ?_⟩
      rw [LoweringState.modifyScope_modifyScope]
      rfl

/-- The size of a collection is counted by a join, or in a subquery of its own. -/
theorem lowerSize_ok_iff {path : Path} {e : Sql.Expression} :
    lowerSize c path s = .ok (e, t) ↔
      ∃ name place u collection element, path.properties.getLast? = some name ∧
        navigate c path (path.properties.length - 1) s = .ok (place, u) ∧
        place.entity.property name = .ok (.toMany collection) ∧
        c.model.entity collection.element = .ok element ∧
        if c.isInSelect && !c.dialect.supports .subqueryInSelect then
          countJoined c place (memberTable collection element).1
            (memberTable collection element).2.1 (memberTable collection element).2.2 u = .ok (e, t)
        else
          e = countQuery (memberTable collection element).1 u.fresh
            (memberTable collection element).2.1 place.id ∧ t = u.allot := by
  cases hp : path.properties.getLast? with
  | none => simp [lowerSize, hp]
  | some name =>
    simp only [lowerSize, hp, Lower.bind_ok_iff, Lower.property_ok_iff, Option.some.injEq]
    constructor
    · rintro ⟨place, u, hn, property, _, ⟨hproperty, rfl⟩, h⟩
      cases property with
      | basic a => simp at h
      | toOne association => simp at h
      | toMany collection =>
        simp only [Lower.bind_ok_iff, Lower.entity_ok_iff] at h
        obtain ⟨element, _, ⟨he, rfl⟩, h⟩ := h
        refine ⟨name, place, u, collection, element, rfl, hn, hproperty, he, ?_⟩
        split at h
        case isTrue hc => rwa [if_pos hc]
        case isFalse hc =>
          simp only [Lower.bind_ok_iff, Lower.freshAlias_ok_iff, Lower.pure_ok_iff,
            Prod.mk.injEq] at h
          obtain ⟨_, _, ⟨rfl, rfl⟩, rfl, rfl⟩ := h
          rw [if_neg hc]
          exact ⟨rfl, rfl⟩
    · rintro ⟨_, place, u, collection, element, rfl, hn, hproperty, he, h⟩
      refine ⟨place, u, hn, .toMany collection, u, ⟨hproperty, rfl⟩, ?_⟩
      simp only [Lower.bind_ok_iff, Lower.entity_ok_iff]
      refine ⟨element, u, ⟨he, rfl⟩, ?_⟩
      split at h
      case isTrue hc => rwa [if_pos hc]
      case isFalse hc =>
        obtain ⟨rfl, rfl⟩ := h
        rw [if_neg hc]
        simp only [Lower.bind_ok_iff, Lower.freshAlias_ok_iff, Lower.pure_ok_iff]
        exact ⟨_, _, rfl, rfl⟩

/-! ## Checks -/

theorem checkMember_ok {e : Expression} {r : Unit × LoweringState}
    (h : checkMember c e s = .ok r) : s = r.2 := by
  cases e
  case tuple => exact (Lower.require_ok_iff.1 h).2
  case subquery => exact (Lower.require_ok_iff.1 h).2
  all_goals exact (congrArg Prod.snd (Lower.pure_ok_iff.1 h)).symm

theorem checkCall_ok {name : String} {n : Nat} {r : Unit × LoweringState}
    (h : checkCall c name n s = .ok r) : s = r.2 := by
  simp only [checkCall, Lower.bind_ok_iff, Lower.lift_ok_iff] at h
  obtain ⟨_, _, ⟨-, rfl⟩, -, rfl⟩ := h
  rfl

theorem checkSubquery_ok {r : Unit × LoweringState} (h : checkSubquery c s = .ok r) :
    (c.isInSelect && !c.dialect.supports .subqueryInSelect) = false ∧ s = r.2 := by
  unfold checkSubquery at h
  split at h
  case isTrue => simp at h
  case isFalse hc =>
    exact ⟨by simpa using hc, (congrArg Prod.snd (Lower.pure_ok_iff.1 h)).symm⟩

theorem checkOrder_ok {isNested : Bool} {query : Query} {r : Unit × LoweringState}
    (h : checkOrder c isNested query s = .ok r) : s = r.2 := by
  unfold checkOrder at h
  split at h
  · simp at h
  · exact (congrArg Prod.snd (Lower.pure_ok_iff.1 h)).symm

theorem checkGroup_ok {isNested : Bool} {operator : SetOperator} {r : Unit × LoweringState}
    (h : checkGroup c isNested operator s = .ok r) : s = r.2 := by
  unfold checkGroup at h
  cases isNested <;> split at h <;> simp at h
  · exact h.2
  · rw [h]
  · exact h.1.2
  · exact h.2

/-! ## Select lists -/

/-- A select item is lowered to the columns of an entity, or as an expression. In the latter case
it is plain if no collection has been counted in it. -/
theorem SelectItem.lowerAll_cons_ok_iff {e : Expression} {aliasName : Option String}
    {rest : List (SelectItem Expression)} {r : LoweredSelect} :
    SelectItem.lowerAll c (⟨e, aliasName⟩ :: rest) s = .ok (r, t) ↔
    (∃ start columns u r', e = .path ⟨start, []⟩ ∧
      entityColumns c ⟨start, []⟩ s = .ok (columns, u) ∧
      SelectItem.lowerAll c rest u = .ok (r', t) ∧
      r = (LoweredSelect.ofColumns columns).append r') ∨
    ∃ lowered u before after r', (∀ start, e ≠ .path ⟨start, []⟩) ∧
      e.lower c s = .ok (lowered, u) ∧
      s.scopes[0]? = some before ∧ u.scopes[0]? = some after ∧
      SelectItem.lowerAll c rest u = .ok (r', t) ∧
      r = LoweredSelect.append ⟨[⟨lowered, aliasName⟩],
        if after.countedCollections = before.countedCollections then [lowered] else []⟩ r' := by
  by_cases he : ∃ start, e = .path ⟨start, []⟩
  · obtain ⟨start, rfl⟩ := he
    simp only [SelectItem.lowerAll, Lower.bind_ok_iff, Lower.pure_ok_iff, Prod.mk.injEq]
    constructor
    · rintro ⟨columns, u, hc, r', _, hr, rfl, rfl⟩
      exact .inl ⟨start, columns, u, r', rfl, hc, hr, rfl⟩
    · rintro (⟨_, columns, u, r', he, hc, hr, rfl⟩ | ⟨_, _, _, _, _, hne, -⟩)
      · cases he
        exact ⟨columns, u, hc, r', t, hr, rfl, rfl⟩
      · exact absurd rfl (hne start)
  · have hne : ∀ start, e ≠ .path ⟨start, []⟩ := fun start h => he ⟨start, h⟩
    rw [SelectItem.lowerAll]
    · simp only [Lower.bind_ok_iff, Lower.current_ok_iff, Lower.pure_ok_iff, Prod.mk.injEq,
        List.head?_eq_getElem?]
      constructor
      · rintro ⟨before, _, ⟨hb, rfl⟩, lowered, u, hl, after, _, ⟨ha, rfl⟩, r', _, hr, rfl, rfl⟩
        exact .inr ⟨lowered, u, before, after, r', hne, hl, hb, ha, hr, rfl⟩
      · rintro (⟨start, _, _, _, rfl, -⟩ | ⟨lowered, u, before, after, r', -, hl, hb, ha, hr, rfl⟩)
        · exact absurd rfl (hne start)
        · exact ⟨before, s, ⟨hb, rfl⟩, lowered, u, hl, after, u, ⟨ha, rfl⟩, r', t, hr, rfl, rfl⟩
    · exact hne

/-! ## Queries -/

/-- The state in which the roots of a query are lowered. -/
def LoweringState.enter (s : LoweringState) (isGrouped : Bool) : LoweringState :=
  { s with scopes := { isGrouped } :: s.scopes }

/-- The keys of a lowered query. They are replaced if a collection is counted by a join. -/
def Scope.groupKeys (scope : Scope) (groupBy plain : List Sql.Expression) : List Sql.Expression :=
  if scope.countedCollections = 0 then groupBy else groupByOwners scope.owners plain

/-- The parts of a query are lowered one after the other in a scope of their own. -/
theorem QuerySpec.lower_ok_iff {isDistinct : Bool} {select : List (SelectItem Expression)}
    {roots : List Root} {condition : Option Condition} {groupBy : List Expression}
    {having : Option Condition} {orderBy : List (SortKey Expression)}
    {limit offset : Option Expression} {r : Sql.QuerySpec} :
    QuerySpec.lower c
      ⟨isDistinct, select, roots, condition, groupBy, having, orderBy, limit, offset⟩ s =
        .ok (r, t) ↔
    ∃ s₀ select' s₁ condition' s₂ groupBy' s₃ having' s₄ orderBy' s₅ limit' s₆ offset' s₇ scope,
      roots ≠ [] ∧
      lowerRoots c 0 roots (s.enter (isGrouped select groupBy having)) = .ok ((), s₀) ∧
      SelectItem.lowerAll c.inSelect select s₀ = .ok (select', s₁) ∧
      Condition.lowerOption c condition s₁ = .ok (condition', s₂) ∧
      Expression.lowerAll c groupBy s₂ = .ok (groupBy', s₃) ∧
      Condition.lowerOption c having s₃ = .ok (having', s₄) ∧
      SortKey.lowerAll c orderBy s₄ = .ok (orderBy', s₅) ∧
      Expression.lowerOption c limit s₅ = .ok (limit', s₆) ∧
      Expression.lowerOption c offset s₆ = .ok (offset', s₇) ∧
      s₇ = { t with scopes := scope :: t.scopes } ∧
      r = ⟨isDistinct, select'.items, scope.tables, condition',
        scope.groupKeys groupBy' select'.plain, having', orderBy', limit', offset'⟩ := by
  cases roots with
  | nil => simp [QuerySpec.lower]
  | cons root rest =>
    simp only [QuerySpec.lower, List.isEmpty_cons, Bool.false_eq_true, if_false,
      Lower.bind_ok_iff, Lower.push_ok_iff, Lower.pop_ok_iff, Lower.pure_ok_iff, Prod.mk.injEq]
    constructor
    · rintro ⟨_, _, rfl, _, s₀, h₀, select', s₁, h₁, condition', s₂, h₂, groupBy', s₃, h₃, having',
        s₄, h₄, orderBy', s₅, h₅, limit', s₆, h₆, offset', s₇, h₇, scope, _, ⟨hscopes, hnext⟩, rfl,
        rfl⟩
      refine ⟨s₀, select', s₁, condition', s₂, groupBy', s₃, having', s₄, orderBy', s₅, limit', s₆,
        offset', s₇, scope, by simp, h₀, h₁, h₂, h₃, h₄, h₅, h₆, h₇, ?_, rfl⟩
      cases s₇
      simp_all
    · rintro ⟨s₀, select', s₁, condition', s₂, groupBy', s₃, having', s₄, orderBy', s₅, limit', s₆,
        offset', s₇, scope, -, h₀, h₁, h₂, h₃, h₄, h₅, h₆, h₇, rfl, rfl⟩
      exact ⟨(), _, rfl, (), s₀, h₀, select', s₁, h₁, condition', s₂, h₂, groupBy', s₃, h₃, having',
        s₄, h₄, orderBy', s₅, h₅, limit', s₆, h₆, offset', _, h₇, scope, t, ⟨rfl, rfl⟩, rfl, rfl⟩

/-! ## Statements -/

theorem assignedColumn_ok {entity : Mapping.Entity} {name : String} {r : String × LoweringState}
    (h : assignedColumn c entity name s = .ok r) : s = r.2 := by
  simp only [assignedColumn, Lower.bind_ok_iff, Lower.property_ok_iff] at h
  obtain ⟨property, _, ⟨-, rfl⟩, h⟩ := h
  cases property with
  | basic a => exact (congrArg Prod.snd (Lower.pure_ok_iff.1 h)).symm
  | toOne association => exact (congrArg Prod.snd (Lower.pure_ok_iff.1 h)).symm
  | toMany collection => simp at h

/-- The scope of the target of an update or delete. -/
def Scope.ofTarget (variableName : String) (entity : Mapping.Entity) (aliasName : String) :
    Scope :=
  { allowsPathJoins := false
    tables := [{ root := ⟨entity.table, aliasName⟩ }]
    bindings := [(variableName, ⟨entity, aliasName, 0⟩)] }

theorem bindTarget_ok {name variableName : String} {target : TableReference}
    {entity : Mapping.Entity} (h : bindTarget c name variableName s = .ok ((entity, target), t)) :
    target = ⟨entity.table, s.fresh⟩ ∧
      t = { s.allot with scopes := Scope.ofTarget variableName entity s.fresh :: s.scopes } := by
  simp only [bindTarget, Lower.bind_ok_iff, Lower.entity_ok_iff, Lower.freshAlias_ok_iff,
    Lower.push_ok_iff, Lower.pure_ok_iff, Prod.mk.injEq] at h
  obtain ⟨_, _, ⟨-, rfl⟩, _, _, ⟨rfl, rfl⟩, _, _, rfl, ⟨rfl, rfl⟩, rfl⟩ := h
  exact ⟨rfl, rfl⟩

theorem Statement.lower_ok_iff {statement : Statement} {d : Dialect} {model : Mapping.Model}
    {lowered : Sql.Statement} : statement.lower d model = .ok lowered ↔
      ∃ t, statement.lowerIn { dialect := d, model } {} = .ok (lowered, t) := by
  simp only [Statement.lower, StateT.run]
  cases hl : statement.lowerIn { dialect := d, model } {} with
  | error e => exact ⟨nofun, nofun⟩
  | ok r =>
    constructor
    · intro h
      obtain rfl : r.1 = lowered := Except.ok.inj h
      exact ⟨r.2, rfl⟩
    · rintro ⟨t, h⟩
      obtain rfl := Except.ok.inj h
      rfl

end SqlDialects.Entity

/-! ## Models -/

namespace SqlDialects.Mapping

/-- The entity is one of the model. -/
def Model.Has (model : Model) (entity : Entity) : Prop :=
  ∃ name, model.entity name = .ok entity

theorem Model.mem_entities_of_has {model : Model} {entity : Entity} (h : model.Has entity) :
    entity ∈ model.entities := by
  obtain ⟨name, h⟩ := h
  unfold Model.entity at h
  split at h
  case h_1 e he =>
    obtain rfl := Except.ok.inj h
    exact List.mem_map.2 ⟨_, SqlDialects.Entity.mem_of_lookup he, rfl⟩
  case h_2 => cases h

end SqlDialects.Mapping
