import SqlDialects.Proofs.Counting.Keys
import SqlDialects.Proofs.Lowering.Scopes

/-!
# Two runs of the lowering

The same tree is lowered for a dialect without subqueries in the select list and for that dialect
with them. The scopes of both runs differ only in the joins for counts.
-/

namespace SqlDialects

/-- The dialect, if it had subqueries in the select list. -/
def Dialect.withSubqueries (d : Dialect) : Dialect := d.allow [(.subqueryInSelect, .always)]

theorem Dialect.withSubqueries_supports (d : Dialect) (capability : Capability) :
    d.withSubqueries.supports capability =
      (decide (capability = .subqueryInSelect) || d.supports capability) := by
  show (if capability = .subqueryInSelect then Gate.always else d.profile.gate capability).admits
    d.profile.version = _
  split <;> rename_i h
  · simp [h, Gate.admits]
  · simp [h, supports, CapabilityProfile.supports]

namespace Entity

open Sql (Count FromItem TablesAdd)

/-- The context of the second run. -/
def LoweringContext.withSubqueries (c : LoweringContext) : LoweringContext :=
  { c with dialect := c.dialect.withSubqueries }

/-! ## Scopes of both runs -/

variable {σ : Type} [DecidableEq σ] (db : Sql.Database σ) (model : Mapping.Model)

/-- The scope of the first run has a join for each of these counts. -/
structure ScopeTwin (counts : List Count) (scope scope' : Scope) : Prop where
  bindings : scope.bindings = scope'.bindings
  entities : ∀ b ∈ scope.bindings, model.Has b.2.entity
  pathJoins : scope.pathJoins = scope'.pathJoins
  opens : scope.allowsPathJoins = true ∧ scope'.allowsPathJoins = true
  tables : ∃ counts', TablesAdd counts' scope.tables scope'.tables ∧ counts'.Perm counts
  counted : scope.countedCollections = counts.length ∧ scope'.countedCollections = 0
  owners : ∀ owner, owner ∈ scope.owners ↔ ∃ k ∈ counts, k.owner = owner
  ungrouped : counts ≠ [] → scope.isGrouped = false
  distinct : ∀ k ∈ counts, k.Distinct db

/-- The scopes of both runs, with the counts of each. -/
inductive ScopesTwin : List (List Count) → List Scope → List Scope → Prop
  | nil : ScopesTwin [] [] []
  | cons {counts : List Count} {all : List (List Count)} {scope scope' : Scope}
      {scopes scopes' : List Scope} (h : ScopeTwin db model counts scope scope')
      (hs : ScopesTwin all scopes scopes') :
      ScopesTwin (counts :: all) (scope :: scopes) (scope' :: scopes')

/-- The states of both runs. -/
structure Paired (all : List (List Count)) (s s' : LoweringState) : Prop where
  nextAlias : s.nextAlias = s'.nextAlias
  scopes : ScopesTwin db model all s.scopes s'.scopes

structure Twin (all : List (List Count)) (s s' : LoweringState) : Prop
    extends Paired db model all s s' where
  sound : s.Sound
  sound' : s'.Sound

variable {db model}

namespace ScopeTwin

variable {counts : List Count} {scope scope' : Scope}

theorem bind (h : ScopeTwin db model counts scope scope') (name : String) (binding : Binding)
    (hb : model.Has binding.entity) :
    ScopeTwin db model counts (scope.bind name binding) (scope'.bind name binding) :=
  { h with
    bindings := congrArg ((name, binding) :: ·) h.bindings
    entities := List.forall_mem_cons.2 ⟨hb, h.entities⟩ }

theorem tables_eq (h : ScopeTwin db model [] scope scope') : scope.tables = scope'.tables := by
  obtain ⟨counts', ht, hp⟩ := h.tables
  obtain rfl := List.perm_nil.1 hp
  exact ht.eq_of_nil

/-- Any change to the tables, as long as nothing is counted. -/
theorem changeTables (h : ScopeTwin db model [] scope scope')
    (change : List FromItem → List FromItem) :
    ScopeTwin db model [] { scope with tables := change scope.tables }
      { scope' with tables := change scope'.tables } :=
  { h with tables := ⟨[], by rw [h.tables_eq]; exact .refl _, .refl _⟩ }

/-- A path joins a table on both sides. -/
theorem addPathJoin (h : ScopeTwin db model counts scope scope') {item : Nat}
    {key : String × String} {table a column other otherColumn : String}
    (ho : scope'.Holds item other) :
    ScopeTwin db model counts
      (scope.addPathJoin item key (equiJoin .inner table a column (.of other otherColumn)))
      (scope'.addPathJoin item key (equiJoin .inner table a column (.of other otherColumn))) := by
  obtain ⟨counts', ht, hp⟩ := h.tables
  obtain ⟨item', hi, ho⟩ := ho
  exact
    { h with
      pathJoins := congrArg ((key, a) :: ·) h.pathJoins
      tables := ⟨counts', ht.modify hi fun _ _ hadds => hadds.extend_path ho, hp⟩ }

/-- A collection is counted on one side. -/
theorem addCount (h : ScopeTwin db model counts scope scope') {item : Nat} {k : Count}
    (ho : scope'.Holds item k.owner.1) (hg : scope.isGrouped = false) (hd : k.Distinct db) :
    ScopeTwin db model (counts ++ [k]) (scope.addCount item k.owner k.join) scope' := by
  obtain ⟨counts', ht, hp⟩ := h.tables
  obtain ⟨item', hi, ho⟩ := ho
  obtain ⟨counts'', ht', hp'⟩ := ht.modify_count hi ho
  refine
    { h with
      tables := ⟨counts'', ht', hp'.trans (hp.append_right _)⟩
      counted := ⟨?_, h.counted.2⟩
      owners := fun owner => ?_
      ungrouped := fun _ => hg
      distinct := List.forall_mem_append.2 ⟨h.distinct, List.forall_mem_singleton.2 hd⟩ }
  · rw [List.length_append, List.length_singleton, ← h.counted.1]
    rfl
  · have hnew : owner ∈ (scope.addCount item k.owner k.join).owners ↔
        owner ∈ scope.owners ∨ k.owner = owner := by
      simp only [Scope.addCount]
      split
      case isTrue hc =>
        rw [List.contains_iff_mem] at hc
        exact ⟨.inl, fun h => h.elim id fun he => he ▸ hc⟩
      case isFalse => rw [List.mem_append, List.mem_singleton, eq_comm (a := owner)]
    rw [hnew, h.owners]
    simp only [List.mem_append, List.mem_singleton, or_and_right, exists_or, exists_eq_left]

end ScopeTwin

namespace ScopesTwin

variable {all : List (List Count)} {scopes scopes' : List Scope}

theorem get (h : ScopesTwin db model all scopes scopes') : ∀ {i : Nat} {scope : Scope},
    scopes[i]? = some scope → ∃ counts scope', all[i]? = some counts ∧
      scopes'[i]? = some scope' ∧ ScopeTwin db model counts scope scope' := by
  induction h with
  | nil => simp
  | cons h _ ih =>
    intro i scope hi
    cases i with
    | zero =>
      obtain rfl : _ = scope := by simpa using hi
      exact ⟨_, _, rfl, rfl, h⟩
    | succ i => exact ih (by simpa using hi)

theorem modify {f g : Scope → Scope} (h : ScopesTwin db model all scopes scopes') :
    ∀ {i : Nat} {scope' : Scope}, scopes'[i]? = some scope' →
      (∀ counts scope, ScopeTwin db model counts scope scope' →
        ScopeTwin db model counts (f scope) (g scope')) →
      ScopesTwin db model all (scopes.modify i f) (scopes'.modify i g) := by
  induction h with
  | nil => simp
  | cons h hs ih =>
    intro i scope' hi hfg
    cases i with
    | zero =>
      obtain rfl : _ = scope' := by simpa using hi
      exact .cons (hfg _ _ h) hs
    | succ i => exact .cons h (ih (by simpa using hi) hfg)

theorem findBinding_eq (h : ScopesTwin db model all scopes scopes') (name : String) :
    Lower.findBinding name scopes = Lower.findBinding name scopes' := by
  induction h with
  | nil => rfl
  | cons h _ ih => simp only [Lower.findBinding, h.bindings, ih]

theorem entity_of_findBinding (h : ScopesTwin db model all scopes scopes') {name : String}
    {depth : Nat} {binding : Binding}
    (hf : Lower.findBinding name scopes = some (depth, binding)) : model.Has binding.entity := by
  obtain ⟨scope, hd, hb⟩ := mem_of_findBinding hf
  obtain ⟨_, _, -, -, htwin⟩ := h.get hd
  exact htwin.entities _ hb

end ScopesTwin

/-- What is open in the second run is open in the first one. -/
theorem ScopesTwin.names_subset {all : List (List Count)} {scopes scopes' : List Scope}
    (h : ScopesTwin db model all scopes scopes') :
    scopes'.flatMap Scope.names ⊆ scopes.flatMap Scope.names := by
  induction h with
  | nil => exact List.Subset.refl _
  | cons h _ ih =>
    obtain ⟨counts', ht, -⟩ := h.tables
    rw [List.flatMap_cons, List.flatMap_cons]
    refine List.append_subset.2 ⟨fun a ha => ?_, List.subset_append_of_subset_right _ ih⟩
    exact List.mem_append_left _ (ht.names_perm.mem_iff.2 (List.mem_append_right _ ha))

/-! ## Counts that are gained -/

/-- The innermost query counts more collections. -/
def gain (counts : List Count) : List (List Count) → List (List Count)
  | [] => []
  | first :: rest => (first ++ counts) :: rest

@[simp]
theorem gain_nil (all : List (List Count)) : gain [] all = all := by
  cases all <;> simp [gain]

theorem gain_append (counts counts' : List Count) (all : List (List Count)) :
    gain (counts ++ counts') all = gain counts' (gain counts all) := by
  cases all <;> simp [gain]

theorem gain_head {counts first : List Count} {all : List (List Count)} (h : all[0]? = some first) :
    (gain counts all)[0]? = some (first ++ counts) := by
  cases all with
  | nil => simp at h
  | cons _ rest =>
    obtain rfl : _ = first := by simpa using h
    rfl

/-! ## Walking along paths -/

variable {c : LoweringContext} {all : List (List Count)} {s s' t : LoweringState}

theorem Twin.of_keeps {t' : LoweringState} (h : Paired db model all t t') (hk : Keeps s t)
    (hk' : Keeps s' t') : Twin db model all t t' :=
  { h with
    sound := hk.sound
    sound' := hk'.sound }

theorem Paired.allot (h : Paired db model all s s') : Paired db model all s.allot s'.allot :=
  ⟨congrArg (· + 1) h.nextAlias, h.scopes⟩

theorem Paired.fresh_eq (h : Paired db model all s s') : s.fresh = s'.fresh := by
  rw [LoweringState.fresh, h.nextAlias, LoweringState.fresh]

theorem joinAlong_paired {place : Place} {association : Mapping.ToOne} {target : Mapping.Entity}
    {aliasName : String} (h : Paired db model all s s') (hp' : place.StandsIn s')
    (hj : joinAlong c place association target s = .ok (aliasName, t)) :
    ∃ t', joinAlong c.withSubqueries place association target s' = .ok (aliasName, t') ∧
      Paired db model all t t' := by
  obtain ⟨scope, hd, -, hcases⟩ := joinAlong_ok_iff.1 hj
  obtain ⟨counts, scope', -, hd', htwin⟩ := h.scopes.get hd
  obtain ⟨scope₁, hd₁, hholds⟩ := hp'
  obtain rfl : scope' = scope₁ := by simpa [hd'] using hd₁
  rcases hcases with ⟨hl, rfl⟩ | ⟨hl, -, rfl, rfl⟩
  · refine ⟨s', joinAlong_ok_iff.2 ⟨scope', hd', htwin.opens.2, .inl ⟨?_, rfl⟩⟩, h⟩
    rw [← htwin.pathJoins, hl]
  · obtain ⟨table, ht, -⟩ := id hholds
    refine ⟨_, joinAlong_ok_iff.2 ⟨scope', hd', htwin.opens.2, .inr ⟨?_, ⟨table, ht⟩, h.fresh_eq,
      rfl⟩⟩, ?_⟩
    · rw [← htwin.pathJoins, hl]
    · rw [← h.fresh_eq]
      refine ⟨h.allot.nextAlias, h.allot.scopes.modify hd' fun counts scope htwin => ?_⟩
      exact htwin.addPathJoin hholds

theorem walk_twin {path : Path} : ∀ {names : List String} {place place' : Place}
    {s s' t : LoweringState}, Twin db c.model all s s' → place.StandsIn s → place.StandsIn s' →
      c.model.Has place.entity → walk c path place names s = .ok (place', t) →
      ∃ t', walk c.withSubqueries path place names s' = .ok (place', t') ∧
        Twin db c.model all t t' ∧ c.model.Has place'.entity
  | [], _, _, _, _, _, h, _, _, he, hw => by
    obtain ⟨rfl, rfl⟩ := Prod.mk.inj (Lower.pure_ok_iff.1 hw)
    exact ⟨_, rfl, h, he⟩
  | name :: rest, _, _, _, _, _, h, hp, hp', he, hw => by
    simp only [walk, Lower.bind_ok_iff] at hw
    obtain ⟨next, u, hstep, hw⟩ := hw
    obtain ⟨association, target, aliasName, hproperty, htarget, hj, rfl⟩ := step_ok_iff.1 hstep
    obtain ⟨u', hj', hpaired⟩ := joinAlong_paired h.toPaired hp' hj
    obtain ⟨hk, hstands⟩ := joinAlong_keeps h.sound hp hj
    obtain ⟨hk', hstands'⟩ := joinAlong_keeps h.sound' hp' hj'
    obtain ⟨t', hw', htwin, hentity⟩ :=
      walk_twin (.of_keeps hpaired hk hk') hstands hstands' ⟨_, htarget⟩ hw
    refine ⟨t', ?_, htwin, hentity⟩
    simp only [walk, Lower.bind_ok_iff]
    exact ⟨_, u', step_ok_iff.2 ⟨association, target, aliasName, hproperty, htarget, hj', rfl⟩, hw'⟩

/-- Both runs come to the same place. -/
theorem navigate_twin {path : Path} {steps : Nat} {place : Place} (h : Twin db c.model all s s')
    (hn : navigate c path steps s = .ok (place, t)) :
    ∃ t', navigate c.withSubqueries path steps s' = .ok (place, t') ∧
      Twin db c.model all t t' ∧ c.model.Has place.entity := by
  obtain ⟨depth, binding, hf, hw⟩ := navigate_ok_iff.1 hn
  have hf' := (h.scopes.findBinding_eq path.start).symm.trans hf
  have stands {s : LoweringState} (hs : s.Sound)
      (hf : Lower.findBinding path.start s.scopes = some (depth, binding)) :
      (binding.place depth).StandsIn s := by
    obtain ⟨scope, hd, hb⟩ := mem_of_findBinding hf
    exact ⟨scope, hd, (hs.scopes.get hd).bindings _ hb⟩
  obtain ⟨t', hw', htwin, he⟩ := walk_twin h (stands h.sound hf) (stands h.sound' hf')
    (h.scopes.entity_of_findBinding hf) hw
  exact ⟨t', navigate_ok_iff.2 ⟨depth, binding, hf', hw'⟩, htwin, he⟩

/-- A collection is counted in the innermost scope of the first run. -/
theorem Paired.count {scope scope' : Scope} {item : Nat} {k : Count}
    (h : Paired db model all s s') (hs : s.scopes[0]? = some scope) (hg : scope.isGrouped = false)
    (hs' : s'.scopes[0]? = some scope') (ho : scope'.Holds item k.owner.1) (hd : k.Distinct db) :
    Paired db model (gain [k] all) (s.modifyScope 0 (Scope.addCount item k.owner k.join)) s' := by
  obtain ⟨n, scopes⟩ := s
  obtain ⟨n', scopes'⟩ := s'
  obtain ⟨hn, hscopes⟩ := h
  cases hscopes with
  | nil => simp at hs
  | cons hfirst hrest =>
    obtain rfl : _ = scope := by simpa using hs
    obtain rfl : _ = scope' := by simpa using hs'
    exact ⟨hn, .cons (hfirst.addCount ho hg hd) hrest⟩

/-! ## Roots and joins -/

theorem joinsTo_paired {join : PathJoin} {place : Place} {property : Mapping.Property}
    {r : Mapping.Entity × String × List Sql.Join} (h : Paired db c.model all s s')
    (hj : joinsTo c join place property s = .ok (r, t)) :
    ∃ t', joinsTo c.withSubqueries join place property s' = .ok (r, t') ∧
      Paired db c.model all t t' ∧ c.model.Has r.1 := by
  cases property with
  | basic a => simp [joinsTo] at hj
  | toOne association =>
    simp only [joinsTo, Lower.bind_ok_iff, Lower.entity_ok_iff, Lower.freshAlias_ok_iff,
      Lower.pure_ok_iff, Prod.mk.injEq] at hj ⊢
    obtain ⟨target, _, ⟨ht, rfl⟩, _, _, ⟨rfl, rfl⟩, rfl, rfl⟩ := hj
    refine ⟨s'.allot, ⟨target, s', ⟨ht, rfl⟩, _, _, ⟨rfl, rfl⟩, ?_, rfl⟩, h.allot, _, ht⟩
    rw [h.fresh_eq]
  | toMany collection =>
    simp only [joinsTo, Lower.bind_ok_iff, Lower.entity_ok_iff] at hj ⊢
    obtain ⟨element, _, ⟨he, rfl⟩, hj⟩ := hj
    cases hc : collection.storage with
    | foreignKey column =>
      simp only [hc, Lower.bind_ok_iff, Lower.freshAlias_ok_iff, Lower.pure_ok_iff,
        Prod.mk.injEq] at hj ⊢
      obtain ⟨_, _, ⟨rfl, rfl⟩, rfl, rfl⟩ := hj
      refine ⟨s'.allot, ⟨element, s', ⟨he, rfl⟩, _, _, ⟨rfl, rfl⟩, ?_, rfl⟩, h.allot, _, he⟩
      rw [h.fresh_eq]
    | joinTable table ownerColumn elementColumn =>
      simp only [hc, Lower.bind_ok_iff, Lower.freshAlias_ok_iff, Lower.pure_ok_iff,
        Prod.mk.injEq] at hj ⊢
      obtain ⟨_, _, ⟨rfl, rfl⟩, _, _, ⟨rfl, rfl⟩, rfl, rfl⟩ := hj
      refine ⟨s'.allot.allot, ⟨element, s', ⟨he, rfl⟩, _, _, ⟨rfl, rfl⟩, _, _, ⟨rfl, rfl⟩, ?_,
        rfl⟩, h.allot.allot, _, he⟩
      rw [h.fresh_eq, h.allot.fresh_eq]

/-- A change to the innermost scopes, in which nothing is counted yet. -/
theorem Paired.modify {change : Scope → Scope} (h : Paired db model ([] :: all) s s')
    (hc : ∀ scope scope', ScopeTwin db model [] scope scope' →
      ScopeTwin db model [] (change scope) (change scope')) :
    Paired db model ([] :: all) (s.modifyScope 0 change) (s'.modifyScope 0 change) := by
  obtain ⟨n, scopes⟩ := s
  obtain ⟨n', scopes'⟩ := s'
  obtain ⟨hn, hscopes⟩ := h
  cases hscopes with
  | cons hfirst hrest => exact ⟨hn, .cons (hc _ _ hfirst) hrest⟩

theorem lowerJoin_paired {join : PathJoin} (h : Paired db c.model ([] :: all) s s')
    (hj : lowerJoin c join s = .ok ((), t)) :
    ∃ t', lowerJoin c.withSubqueries join s' = .ok ((), t') ∧
      Paired db c.model ([] :: all) t t' := by
  rcases hp : join.path.properties with _ | ⟨name, _ | ⟨_, _⟩⟩
  all_goals simp only [lowerJoin, hp, Lower.malformed_ok_iff] at hj ⊢
  simp only [Lower.bind_ok_iff, Lower.property_ok_iff, Lower.addJoins_ok_iff,
    Lower.bindVariable_ok_iff, Prod.exists] at hj ⊢
  obtain ⟨place, u, hn, property, _, ⟨hproperty, rfl⟩, entity, aliasName, joins, v, hto, _, _,
    ⟨⟨scope, table, hd, ht⟩, rfl⟩, rfl⟩ := hj
  obtain ⟨depth, binding, hf, hw⟩ := navigate_ok_iff.1 hn
  rw [List.take_zero] at hw
  obtain ⟨rfl, rfl⟩ := Prod.mk.inj (Lower.pure_ok_iff.1 hw)
  have hn' : navigate c.withSubqueries join.path 0 s' = .ok (binding.place depth, s') := by
    refine navigate_ok_iff.2 ⟨depth, binding, (h.scopes.findBinding_eq _).symm.trans hf, ?_⟩
    rw [List.take_zero]
    rfl
  obtain ⟨v', hto', hpaired, he⟩ := joinsTo_paired h hto
  obtain ⟨counts, scope', hcounts, hd', htwin⟩ := hpaired.scopes.get hd
  obtain rfl : [] = counts := by simpa using hcounts
  refine ⟨_, ⟨_, s', hn', property, s', ⟨hproperty, rfl⟩, entity, aliasName, joins, v', hto', (), _,
    ⟨⟨scope', table, hd', ?_⟩, rfl⟩, rfl⟩, ?_⟩
  · rw [← htwin.tables_eq, ht]
  · refine (hpaired.modify fun _ _ h => ?_).modify fun _ _ h => h.bind _ _ he
    exact h.changeTables (·.modify binding.item (·.extend joins))

theorem lowerJoins_paired : ∀ {joins : List PathJoin} {s s' t : LoweringState},
    Paired db c.model ([] :: all) s s' → lowerJoins c joins s = .ok ((), t) →
      ∃ t', lowerJoins c.withSubqueries joins s' = .ok ((), t') ∧
        Paired db c.model ([] :: all) t t'
  | [], _, s', _, h, hj => by
    obtain ⟨-, rfl⟩ := Prod.mk.inj (Lower.pure_ok_iff.1 hj)
    exact ⟨s', rfl, h⟩
  | join :: rest, _, _, _, h, hj => by
    simp only [lowerJoins, Lower.bind_ok_iff] at hj ⊢
    obtain ⟨_, u, hfirst, hrest⟩ := hj
    obtain ⟨u', hfirst', h⟩ := lowerJoin_paired h hfirst
    obtain ⟨t', hrest', h⟩ := lowerJoins_paired h hrest
    exact ⟨t', ⟨(), u', hfirst', hrest'⟩, h⟩

theorem addRoot_paired (root : Root) {entity : Mapping.Entity} (item : Nat)
    (h : Paired db model ([] :: all) s s') (he : model.Has entity) :
    Paired db model ([] :: all) (s.addRoot root entity item) (s'.addRoot root entity item) := by
  unfold LoweringState.addRoot
  rw [← h.fresh_eq]
  refine h.allot.modify fun _ _ h => ?_
  have htables := h.changeTables (· ++ [{ root := ⟨entity.table, s.fresh⟩ }])
  exact htables.bind root.aliasName ⟨entity, s.fresh, item⟩ he

theorem lowerRoots_paired : ∀ {roots : List Root} {item : Nat} {s s' t : LoweringState},
    Paired db c.model ([] :: all) s s' → lowerRoots c item roots s = .ok ((), t) →
      ∃ t', lowerRoots c.withSubqueries item roots s' = .ok ((), t') ∧
        Paired db c.model ([] :: all) t t'
  | [], _, _, s', _, h, hr => by
    obtain ⟨-, rfl⟩ := Prod.mk.inj (Lower.pure_ok_iff.1 hr)
    exact ⟨s', rfl, h⟩
  | root :: rest, item, s, s', t, h, hr => by
    simp only [lowerRoots, Lower.bind_ok_iff, Lower.entity_ok_iff, Lower.freshAlias_ok_iff,
      Lower.addTable_ok_iff, Lower.bindVariable_ok_iff, Prod.mk.injEq] at hr ⊢
    obtain ⟨entity, _, ⟨he, rfl⟩, _, _, ⟨rfl, rfl⟩, _, _, rfl, _, _, rfl, _, u, hj, hr⟩ := hr
    rw [LoweringState.modifyScope_modifyScope] at hj
    obtain ⟨u', hj', h⟩ := lowerJoins_paired (addRoot_paired root item h ⟨_, he⟩) hj
    obtain ⟨t', hr', h⟩ := lowerRoots_paired h hr
    refine ⟨t', ⟨entity, s', ⟨he, rfl⟩, _, _, ⟨rfl, rfl⟩, (), _, rfl, (), _, rfl, (), u', ?_, hr'⟩,
      h⟩
    rw [LoweringState.modifyScope_modifyScope]
    exact hj'

/-- A query is entered in both runs. -/
theorem Paired.enter (h : Paired db model all s s') (isGrouped : Bool) :
    Paired db model ([] :: all) (s.enter isGrouped) (s'.enter isGrouped) where
  nextAlias := h.nextAlias
  scopes := .cons
    { bindings := rfl
      entities := by simp
      pathJoins := rfl
      opens := ⟨rfl, rfl⟩
      tables := ⟨[], .nil, .refl _⟩
      counted := ⟨rfl, rfl⟩
      owners := by simp
      ungrouped := fun h => absurd rfl h
      distinct := by simp } h.scopes

end Entity

end SqlDialects
