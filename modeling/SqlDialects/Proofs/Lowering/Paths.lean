import SqlDialects.Proofs.Lowering.Aliases
import SqlDialects.Proofs.Lowering.Traces

/-!
# Paths and variables in lowered trees

Each path becomes the column that it leads to, and the roots and joins of a query become its
variables and tables.
-/

namespace SqlDialects.Entity

open Sql (FromItem)

/-! ## What follows from a step -/

/-- Something has been made between two states, and `holds` is true of it in the end. -/
structure Ensures (model : Mapping.Model) (s t : LoweringState) (holds : Setting → Prop) : Prop
    extends Keeps s t where
  passes : ∀ g, s.Traced model g → ∃ g', Passes model s t g g' ∧
    ∀ σ : Setting, σ.Completes model t g' → holds σ

namespace Ensures

variable {model : Mapping.Model} {s t u : LoweringState} {p q : Setting → Prop}

/-- Nothing is needed for it. -/
theorem leaf (hs : s.Sound) (hp : ∀ σ, p σ) : Ensures model s s p :=
  ⟨Keeps.refl hs, fun g hg => ⟨g, Passes.refl hg, fun σ _ => hp σ⟩⟩

/-- Aliases that are allotted for nothing. -/
theorem skip (hs : s.Sound) {n : Nat} (hn : s.nextAlias ≤ n) :
    Ensures model s { s with nextAlias := n } fun _ => True :=
  ⟨Keeps.skip hs hn, fun g hg => ⟨g, ⟨(Passes.refl hg).widens, .refl g, hg.skip hn⟩,
    fun _ _ => trivial⟩⟩

theorem and (h : Ensures model s t p) (h' : Ensures model t u q) :
    Ensures model s u fun σ => p σ ∧ q σ where
  toKeeps := h.toKeeps.trans h'.toKeeps
  passes g hg := by
    obtain ⟨g₁, h₁, hp⟩ := h.passes g hg
    obtain ⟨g₂, h₂, hq⟩ := h'.passes g₁ h₁.traced
    exact ⟨g₂, h₁.trans h₂, fun σ hσ => ⟨hp σ (hσ.before h₂), hq σ hσ⟩⟩

theorem imp (h : Ensures model s t p) (hpq : ∀ σ : Setting, σ.model = model → p σ → q σ) :
    Ensures model s t q where
  toKeeps := h.toKeeps
  passes g hg := by
    obtain ⟨g', hp, hσ⟩ := h.passes g hg
    exact ⟨g', hp, fun σ hc => hpq σ hc.model (hσ σ hc)⟩

end Ensures

variable {c : LoweringContext} {s t u : LoweringState}

/-! ## Columns -/

namespace Setting

variable {σ : Setting} {group group' : FromItem} {names : List String}

/-- The names alone say which entity a chain leads to. -/
theorem Chain.entity_unique {entity e e' : Mapping.Entity} {a b d d' : String}
    (h : σ.Chain group entity a names e d) (h' : σ.Chain group' entity b names e' d') : e = e' := by
  induction names generalizing entity a b with
  | nil => exact h.1.symm.trans h'.1
  | cons name rest ih =>
    obtain ⟨association, target, next, hp, ht, -, -, h⟩ := h
    obtain ⟨association', target', next', hp', ht', -, -, h'⟩ := h'
    obtain rfl : association = association' := by simpa using hp.symm.trans hp'
    obtain rfl : target = target' := Except.ok.inj (ht.symm.trans ht')
    exact ih h h'

theorem Chain.last {entity e : Mapping.Entity} {a d owner : String}
    (h : σ.Chain group entity a (names ++ [owner]) e d) : ∃ e' d' association,
      σ.Chain group entity a names e' d' ∧ e'.property owner = .ok (.toOne association) ∧
      σ.model.entity association.target = .ok e := by
  induction names generalizing entity a with
  | nil =>
    obtain ⟨association, target, next, hp, ht, -, -, rfl, -⟩ := h
    exact ⟨entity, a, association, ⟨rfl, rfl⟩, hp, ht⟩
  | cons name rest ih =>
    obtain ⟨association, target, next, hp, ht, hw, hj, h⟩ := h
    obtain ⟨e', d', last, h, hlast⟩ := ih h
    exact ⟨e', d', last, ⟨association, target, next, hp, ht, hw, hj, h⟩, hlast⟩

/-- The last of the names is an association of the entity that is reached without it. -/
theorem Reaches.last {v owner a b : String} {e e' : Mapping.Entity}
    (h : σ.Reaches v names group e a) (h' : σ.Reaches v (names ++ [owner]) group' e' b) :
    ∃ association, e.property owner = .ok (.toOne association) ∧
      σ.model.entity association.target = .ok e' := by
  obtain ⟨query, binding, hv, -, -, h⟩ := h
  obtain ⟨query', binding', hv', -, -, h'⟩ := h'
  obtain ⟨rfl, rfl⟩ : query = query' ∧ binding = binding' := by simpa using hv.symm.trans hv'
  obtain ⟨mid, d, association, hmid, hp, ht⟩ := h'.last
  obtain rfl : e = mid := h.entity_unique hmid
  exact ⟨association, hp, ht⟩

end Setting

theorem navigate_ensures {path : Path} {steps : Nat} {place : Place}
    (hm : c.model.HasAsciiNames) (hs : s.Sound) (h : navigate c path steps s = .ok (place, t)) :
    Ensures c.model s t fun σ => ∃ group, place.group? σ = some group ∧
      σ.Reaches path.start (path.properties.take steps) group place.entity place.aliasName where
  toKeeps := (navigate_keeps hs h).1
  passes g hg := by
    obtain ⟨depth, binding, hf, h⟩ := navigate_ok_iff.1 h
    obtain ⟨scope, hd, hb⟩ := mem_of_findBinding hf
    have hholds := (hs.scopes.get hd).bindings _ hb
    have he := (hg.scopes scope (List.mem_of_getElem? hd)).bindings _ hb
    obtain ⟨g', hp, hdepth, hitem, hchain⟩ := walk_passes hm hs ⟨scope, hd, hholds⟩ hg he h
    refine ⟨g', hp, fun σ hσ => ?_⟩
    obtain ⟨table, ht, ha⟩ := hholds
    have hbefore := hσ.before hp
    obtain ⟨group, hgroup, hw⟩ := hbefore.group (binding.place depth) hd ht
    obtain ⟨query, hquery, hi⟩ :=
      innermost_of_findBinding (hbefore.queries.imp fun _ _ h => h.1) hf
    refine ⟨group, ?_, query, binding, hi, ?_, hw.names_subset ha, hchain σ group hσ hgroup⟩
    · rw [Place.group?, hdepth, hitem]
      exact hgroup
    · simpa [Place.group?, Binding.place, hquery] using hgroup

theorem propertyColumn_ensures {path : Path} {name : String} {steps : Nat} {e : Sql.Expression}
    (hm : c.model.HasAsciiNames) (hs : s.Sound)
    (h : propertyColumn c path name steps s = .ok (e, t)) :
    Ensures c.model s t fun σ => ∃ group entity aliasName property column,
      σ.Reaches path.start (path.properties.take steps) group entity aliasName ∧
      entity.property name = .ok property ∧ property.column? = some column ∧
      e = .of aliasName column := by
  simp only [propertyColumn, Lower.bind_ok_iff, Lower.property_ok_iff] at h
  obtain ⟨place, _, hn, property, _, ⟨hp, rfl⟩, h⟩ := h
  have hn := navigate_ensures hm hs hn
  cases property with
  | basic a =>
    obtain ⟨rfl, rfl⟩ := Prod.mk.inj (Lower.pure_ok_iff.1 h)
    refine hn.imp fun σ _ => ?_
    rintro ⟨group, -, hr⟩
    exact ⟨group, _, _, _, _, hr, hp, rfl, rfl⟩
  | toOne association =>
    obtain ⟨rfl, rfl⟩ := Prod.mk.inj (Lower.pure_ok_iff.1 h)
    refine hn.imp fun σ _ => ?_
    rintro ⟨group, -, hr⟩
    exact ⟨group, _, _, _, _, hr, hp, rfl, rfl⟩
  | toMany collection => simp at h

theorem foreignKey?_ensures {path : Path} {owner name : String} {steps : Nat}
    {found : Option Sql.Expression} (hm : c.model.HasAsciiNames) (hs : s.Sound)
    (h : foreignKey? c path owner name steps s = .ok (found, t)) :
    Ensures c.model s t fun σ => ∃ group entity aliasName,
      σ.Reaches path.start (path.properties.take steps) group entity aliasName ∧
      match found with
      | some e => ∃ association target, entity.property owner = .ok (.toOne association) ∧
          σ.model.entity association.target = .ok target ∧
          Text.sameName target.id.name name = true ∧ e = .of aliasName association.column
      | none => ∀ association target, entity.property owner = .ok (.toOne association) →
          σ.model.entity association.target = .ok target →
          Text.sameName target.id.name name = false := by
  simp only [foreignKey?, Lower.bind_ok_iff, Lower.property_ok_iff] at h
  obtain ⟨place, _, hn, property, _, ⟨hp, rfl⟩, h⟩ := h
  have hn := navigate_ensures hm hs hn
  cases property with
  | toOne association =>
    simp only [Lower.bind_ok_iff, Lower.entity_ok_iff] at h
    obtain ⟨target, _, ⟨ht, rfl⟩, h⟩ := h
    split at h
    case isTrue hsame =>
      obtain ⟨rfl, rfl⟩ := Prod.mk.inj (Lower.pure_ok_iff.1 h)
      refine hn.imp fun σ hσ => ?_
      rintro ⟨group, -, hr⟩
      exact ⟨group, _, _, hr, association, target, hp, hσ ▸ ht, hsame, rfl⟩
    case isFalse hsame =>
      obtain ⟨rfl, rfl⟩ := Prod.mk.inj (Lower.pure_ok_iff.1 h)
      refine hn.imp fun σ hσ => ?_
      rintro ⟨group, -, hr⟩
      refine ⟨group, _, _, hr, fun association' target' hp' ht' => ?_⟩
      obtain rfl : association = association' := by simpa using hp.symm.trans hp'
      obtain rfl : target = target' := Except.ok.inj (ht.symm.trans (hσ ▸ ht'))
      simpa using hsame
  | basic a =>
    obtain ⟨rfl, rfl⟩ := Prod.mk.inj (Lower.pure_ok_iff.1 h)
    refine hn.imp fun σ _ => ?_
    rintro ⟨group, -, hr⟩
    exact ⟨group, _, _, hr, fun _ _ hp' => by simpa using hp.symm.trans hp'⟩
  | toMany collection =>
    obtain ⟨rfl, rfl⟩ := Prod.mk.inj (Lower.pure_ok_iff.1 h)
    refine hn.imp fun σ _ => ?_
    rintro ⟨group, -, hr⟩
    exact ⟨group, _, _, hr, fun _ _ hp' => by simpa using hp.symm.trans hp'⟩

theorem resolve_ensures {path : Path} {e : Sql.Expression} (hm : c.model.HasAsciiNames)
    (hs : s.Sound) (h : resolve c path s = .ok (e, t)) :
    Ensures c.model s t fun σ => σ.PathColumn path.start path.properties e := by
  rcases hr : path.properties.reverse with _ | ⟨name, _ | ⟨owner, rest⟩⟩
  all_goals simp only [resolve, hr] at h
  all_goals have hp := List.reverse_eq_iff.1 hr
  · simp only [Lower.bind_ok_iff, Lower.pure_ok_iff, Prod.mk.injEq] at h
    obtain ⟨place, _, hn, rfl, rfl⟩ := h
    refine (navigate_ensures hm hs hn).imp fun σ _ => ?_
    rintro ⟨group, -, hreach⟩
    rw [hp] at hreach ⊢
    exact .id hreach
  · refine (propertyColumn_ensures hm hs h).imp fun σ _ => ?_
    rintro ⟨group, entity, a, property, column, hreach, hproperty, hcolumn, rfl⟩
    rw [hp] at hreach ⊢
    exact .property hreach (.inl rfl) hproperty hcolumn
  · have hpath : path.properties = rest.reverse ++ [owner, name] := by simpa using hp
    have hlast : path.properties = (rest.reverse ++ [owner]) ++ [name] := by simpa using hp
    have htake : path.properties.take rest.length = rest.reverse := by
      rw [hpath, List.take_left' List.length_reverse]
    have htake' : path.properties.take (rest.length + 1) = rest.reverse ++ [owner] := by
      rw [hlast, List.take_left' (by simp)]
    simp only [Lower.bind_ok_iff] at h
    obtain ⟨found, _, hf, h⟩ := h
    have hf := foreignKey?_ensures hm hs hf
    rw [htake] at hf
    cases found with
    | some column =>
      obtain ⟨rfl, rfl⟩ := Prod.mk.inj (Lower.pure_ok_iff.1 h)
      refine hf.imp fun σ _ => ?_
      rintro ⟨group, entity, a, hreach, association, target, ho, ht, hsame, rfl⟩
      rw [hpath]
      exact .foreignKey hreach ho ht hsame
    | none =>
      have hc := propertyColumn_ensures hm hf.sound h
      rw [htake'] at hc
      refine (hf.and hc).imp fun σ _ => ?_
      rintro ⟨⟨group, entity, a, hreach, hnot⟩, group', entity', a', property, column, hreach',
        hproperty, hcolumn, rfl⟩
      obtain ⟨association, ho, ht⟩ := hreach.last hreach'
      rw [hlast]
      exact .property hreach' (.inr (hnot association entity' ho ht)) hproperty hcolumn

theorem entityColumns_ensures {path : Path} {columns : List Sql.Expression}
    (hm : c.model.HasAsciiNames) (hs : s.Sound)
    (h : entityColumns c path s = .ok (columns, t)) :
    Ensures c.model s t fun σ => ∃ group entity aliasName,
      σ.Reaches path.start [] group entity aliasName ∧
      columns = entity.columns.map (Sql.Expression.of aliasName) := by
  simp only [entityColumns, Lower.bind_ok_iff, Lower.pure_ok_iff, Prod.mk.injEq] at h
  obtain ⟨place, _, hn, rfl, rfl⟩ := h
  refine (navigate_ensures hm hs hn).imp fun σ _ => ?_
  rintro ⟨group, -, hr⟩
  refine ⟨group, _, _, hr, ?_⟩
  simp [Mapping.Entity.columns, Place.id, Place.column, Function.comp_def]

/-! ## Sizes of collections -/

theorem countJoined_ensures {place : Place} {table ownerColumn memberColumn : String}
    {e : Sql.Expression} (hs : s.Sound) (hq : s.InQuery) (hp : place.StandsIn s)
    (h : countJoined c place table ownerColumn memberColumn s = .ok (e, t)) :
    Ensures c.model s t fun σ => ∃ counted,
      e = .aggregate .count true (some (.of counted memberColumn)) ∧
      ∀ group, place.group? σ = some group →
        equiJoin .left table counted ownerColumn place.id ∈ group.joins where
  toKeeps := (countJoined_keeps hs hq hp h).1
  passes g hg := by
    obtain ⟨scope, hd, hgrouped, hz, ⟨item, ht⟩, rfl, rfl⟩ := countJoined_ok h
    have hscope := hg.scopes scope (List.mem_of_getElem? hd)
    have hwidens := (ScopeWidens.extend ht
      [equiJoin .left table s.fresh ownerColumn place.id]).tables
    refine ⟨g, ⟨forall₂_modify ScopeWidens.refl hd ⟨rfl, hwidens⟩, .refl g, hg.change hd
      (Nat.le_succ _) (.refl g) rfl (fun _ _ he => .inl he) (hscope.grow (.refl g)
        (fun _ hb => .inl hb) rfl (fun _ _ hi => forall₂_getElem? hwidens hi) ?_ ?_)⟩, ?_⟩
    · intro w hw hstart
      refine ⟨hw, ?_⟩
      rcases List.mem_append.1 ((Scope.names_extend_perm ht).mem_iff.1 hstart) with hin | hin
      · obtain hin : w.start = s.fresh := by simpa [equiJoin] using hin
        exact absurd hin ((hg.way_allotted hw).1.ne s.fresh_allotted)
      · exact hin
    · intro h
      exact absurd h (by simpa [Scope.addCount, Scope.extend] using hgrouped)
    · refine fun σ hσ => ⟨s.fresh, rfl, fun group hgroup => ?_⟩
      have hd' (f : Scope → Scope) :
          (s.allot.modifyScope 0 f).scopes[place.depth]? = some (f scope) := by
        rw [hz]
        exact s.allot.get_modifyScope hd f
      obtain ⟨group', hgroup', hw⟩ := hσ.group place (hd' _) (Scope.get_extend ht _)
      obtain rfl : group = group' := Option.some.inj (hgroup.symm.trans hgroup')
      exact hw.joins_subset (List.mem_append_right _ (List.mem_singleton.2 rfl))

theorem lowerSize_ensures {path : Path} {e : Sql.Expression} (hm : c.model.HasAsciiNames)
    (hs : Ready c s) (h : lowerSize c path s = .ok (e, t)) :
    Ensures c.model s t fun σ => σ.PathSize path.start path.properties e := by
  obtain ⟨last, place, u, collection, element, hlast, hn, hp, he, h⟩ := lowerSize_ok_iff.1 h
  obtain ⟨names, hpath⟩ := List.getLast?_eq_some_iff.1 hlast
  have htake : path.properties.take (path.properties.length - 1) = names := by simp [hpath]
  have hplace := (navigate_keeps hs.sound hn).2
  have hn := navigate_ensures hm hs.sound hn
  rw [htake] at hn
  rw [hpath]
  split at h
  case isTrue hc =>
    have hq := hn.grows.inQuery (hs.inQuery (Bool.and_eq_true_iff.1 hc).1)
    refine (hn.and (countJoined_ensures hn.sound hq hplace h)).imp fun σ hσ => ?_
    rintro ⟨⟨group, hgroup, hr⟩, counted, rfl, hj⟩
    exact .joined hr hp (hσ ▸ he) (hj group hgroup)
  case isFalse =>
    obtain ⟨rfl, rfl⟩ := h
    refine (hn.and (Ensures.skip hn.sound (Nat.le_succ _))).imp fun σ hσ => ?_
    rintro ⟨⟨group, -, hr⟩, -⟩
    exact .queried hr hp (hσ ▸ he)

/-! ## Roots and joins -/

def Scope.query (scope : Scope) : OpenQuery := ⟨scope.bindings, scope.tables⟩

/-- A step that changes the innermost scope only, and what `opens` says of the change. -/
structure Opens (model : Mapping.Model) (s t : LoweringState)
    (opens : Setting → OpenQuery → OpenQuery → Prop) : Prop extends Keeps s t where
  passes : ∀ g, s.Traced model g → ∀ scope rest, s.scopes = scope :: rest →
    ∃ g' scope', t.scopes = scope' :: rest ∧ g.Grows g' ∧ t.Traced model g' ∧
      ∀ σ : Setting, σ.model = model →
        List.Forall₂ (fun scope query => query.bindings = scope.bindings) rest σ.queries →
        opens σ scope.query scope'.query

namespace Opens

variable {model : Mapping.Model} {p q : Setting → OpenQuery → OpenQuery → Prop}

theorem refl (hs : s.Sound) : Opens model s s fun _ query opened => opened = query :=
  ⟨Keeps.refl hs, fun g hg scope _ h => ⟨g, scope, h, .refl g, hg, fun _ _ _ => rfl⟩⟩

theorem trans (h : Opens model s t p) (h' : Opens model t u q) :
    Opens model s u fun σ query opened => ∃ next, p σ query next ∧ q σ next opened where
  toKeeps := h.toKeeps.trans h'.toKeeps
  passes g hg scope rest hscopes := by
    obtain ⟨g₁, scope₁, hscopes₁, h₁, ht₁, hp⟩ := h.passes g hg scope rest hscopes
    obtain ⟨g₂, scope₂, hscopes₂, h₂, ht₂, hq⟩ := h'.passes g₁ ht₁ scope₁ rest hscopes₁
    exact ⟨g₂, scope₂, hscopes₂, h₁.trans h₂, ht₂,
      fun σ hσ hqueries => ⟨scope₁.query, hp σ hσ hqueries, hq σ hσ hqueries⟩⟩

theorem imp (h : Opens model s t p)
    (hpq : ∀ (σ : Setting) query opened, σ.model = model → p σ query opened → q σ query opened) :
    Opens model s t q where
  toKeeps := h.toKeeps
  passes g hg scope rest hscopes := by
    obtain ⟨g', scope', hscopes', hgrows, ht, hp⟩ := h.passes g hg scope rest hscopes
    exact ⟨g', scope', hscopes', hgrows, ht, fun σ hσ hqueries => hpq _ _ _ hσ (hp σ hσ hqueries)⟩

end Opens

theorem joinsTo_over {join : PathJoin} {place : Place} {property : Mapping.Property}
    {entity : Mapping.Entity} {aliasName : String} {joins : List Sql.Join}
    (h : joinsTo c join place property s = .ok ((entity, aliasName, joins), t)) :
    c.model.Has entity ∧ ∀ σ : Setting, σ.model = c.model →
      σ.JoinsOver join.kind place.entity place.aliasName property entity aliasName joins := by
  rcases joinsTo_ok h with ⟨association, rfl, he, rfl, rfl, rfl⟩ |
    ⟨collection, rfl, he, ⟨column, hc, rfl, rfl, rfl⟩ |
      ⟨table, ownerColumn, elementColumn, hc, rfl, rfl, rfl⟩⟩
  · exact ⟨⟨_, he⟩, fun σ hσ => .toOne (hσ ▸ he)⟩
  · exact ⟨⟨_, he⟩, fun σ hσ => .foreignKey (hσ ▸ he) hc⟩
  · exact ⟨⟨_, he⟩, fun σ hσ => .joinTable (hσ ▸ he) hc⟩

/-- A scope gets one more variable, and tables under the aliases in `added`. -/
structure Scope.Binds (scope scope' : Scope) (binding : String × Binding) (added : List String) :
    Prop where
  names : scope'.names.Perm (added ++ scope.names)
  bindings : scope'.bindings = binding :: scope.bindings
  aliasName : binding.2.aliasName ∈ added
  tables : ∀ (i : Nat) (group : FromItem), scope.tables[i]? = some group →
    ∃ group', scope'.tables[i]? = some group' ∧ Widens group group'
  pathJoins : scope'.pathJoins = scope.pathJoins
  isGrouped : scope'.isGrouped = scope.isGrouped
  countedCollections : scope'.countedCollections = scope.countedCollections

theorem Scope.Traced.bind {model : Mapping.Model} {g : Trace} {scope scope' : Scope}
    {binding : String × Binding} {added : List String} (h : scope.Traced model g)
    (hb : scope.Binds scope' binding added)
    (hg : g.Grows (g.name binding.2.aliasName binding.2.entity))
    (hadded : ∀ w ∈ g.ways, w.start ∉ added) :
    scope'.Traced model (g.name binding.2.aliasName binding.2.entity) := by
  refine h.grow hg (fun b hmem => ?_) hb.pathJoins hb.tables (fun w hw hstart => ⟨hw, ?_⟩)
    fun hgrouped => ?_
  · rw [hb.bindings] at hmem
    rcases List.mem_cons.1 hmem with rfl | hmem
    · exact .inr (Trace.name_entity ..)
    · exact .inl hmem
  · exact (List.mem_append.1 (hb.names.mem_iff.1 hstart)).resolve_left (hadded w hw)
  · rw [hb.countedCollections]
    exact h.uncounted (hb.isGrouped ▸ hgrouped)

/-- The innermost scope gets a variable whose alias is new. -/
theorem Opens.bind {model : Mapping.Model} {n : Nat} {scope : Scope} {change : Scope → Scope}
    {binding : String × Binding} {added : List String} {p : Setting → OpenQuery → OpenQuery → Prop}
    (hk : Keeps s ⟨n, s.scopes.modify 0 change⟩) (hd : s.scopes[0]? = some scope)
    (hb : scope.Binds (change scope) binding added)
    (hadded : ∀ a ∈ added, Allotted s.nextAlias n a) (hm : model.Has binding.2.entity)
    (hp : ∀ σ : Setting, σ.model = model →
      List.Forall₂ (fun scope query => query.bindings = scope.bindings) s.scopes
        (scope.query :: σ.queries) → p σ scope.query (change scope).query) :
    Opens model s ⟨n, s.scopes.modify 0 change⟩ p where
  toKeeps := hk
  passes g hg scope' rest hscopes := by
    obtain rfl : scope' = scope := by simpa [hscopes] using hd
    have hnew := hadded _ hb.aliasName
    have hgrows := Trace.grows_name (hg.entity_eq_none hnew) binding.2.entity
    have hscope := (hg.scopes scope' (List.mem_of_getElem? hd)).bind hb hgrows
      fun w hw hin => (hg.way_allotted hw).1.ne (hadded _ hin) rfl
    refine ⟨_, change scope', by simp [hscopes], hgrows,
      hg.change hd hk.grows.nextAlias hgrows rfl (fun a e he => ?_) hscope,
      fun σ hσ hqueries => hp σ hσ (hscopes ▸ .cons rfl hqueries)⟩
    rcases Trace.entity_name he with he | ⟨rfl, rfl⟩
    · exact .inl he
    · exact .inr ⟨hm, hnew⟩

theorem lowerJoin_opens {join : PathJoin} (hs : s.Sound) (hq : s.InQuery)
    (h : lowerJoin c join s = .ok ((), t)) :
    Opens c.model s t fun σ query opened => σ.OpensJoin query join opened := by
  have hk := lowerJoin_keeps hs hq h
  rcases hp : join.path.properties with _ | ⟨name, _ | ⟨_, _⟩⟩
  all_goals simp only [lowerJoin, hp, Lower.malformed_ok_iff] at h
  simp only [Lower.bind_ok_iff, Lower.property_ok_iff, Lower.addJoins_ok_iff,
    Lower.bindVariable_ok_iff] at h
  obtain ⟨place, u, hn, property, _, ⟨hproperty, rfl⟩, ⟨entity, aliasName, joins⟩, v, hj, _, _,
    ⟨⟨scope, table, hd, ht⟩, rfl⟩, rfl⟩ := h
  obtain ⟨depth, binding, hf, hw⟩ := navigate_ok_iff.1 hn
  obtain ⟨rfl, rfl⟩ := Prod.mk.inj (Lower.pure_ok_iff.1 hw)
  obtain ⟨hhas, hover⟩ := joinsTo_over hj
  have hj := joinsTo_goesOut hj
  rw [LoweringState.modifyScope_modifyScope, LoweringState.modifyScope, hj.scopes] at hk ⊢
  rw [hj.scopes] at hd
  refine Opens.bind hk hd ⟨Scope.names_extend_perm ht, rfl, ?_,
    fun i group hi => forall₂_getElem? (ScopeWidens.extend ht joins).tables hi, rfl, rfl, rfl⟩
    hj.allotted hhas fun σ hσ hqueries => ?_
  · obtain ⟨target, htarget, hname⟩ := hj.target
    exact List.mem_map.2 ⟨target, htarget, hname⟩
  · obtain ⟨found, -, hfound⟩ := innermost_of_findBinding hqueries hf
    exact ⟨name, found, binding, property, entity, aliasName, joins, hp, hfound, hproperty,
      hover σ hσ, rfl⟩

theorem lowerJoins_opens : ∀ {joins : List PathJoin} {s t : LoweringState}, s.Sound → s.InQuery →
    lowerJoins c joins s = .ok ((), t) →
    Opens c.model s t fun σ query opened => σ.OpensJoins query joins opened
  | [], _, _, hs, _, h => by
    obtain ⟨-, rfl⟩ := Prod.mk.inj (Lower.pure_ok_iff.1 h)
    exact Opens.refl hs
  | join :: rest, _, _, hs, hq, h => by
    simp only [lowerJoins, Lower.bind_ok_iff] at h
    obtain ⟨_, _, hj, h⟩ := h
    have hj := lowerJoin_opens hs hq hj
    exact hj.trans (lowerJoins_opens hj.sound (hj.grows.inQuery hq) h)

/-- A variable for a root, at a table of its own. -/
theorem addRoot_opens {model : Mapping.Model} (root : Root) (entity : Mapping.Entity) {item : Nat}
    (hs : s.Sound) (hq : s.InQuery) (hi : s.sizes.head? = some item) (hm : model.Has entity) :
    Opens model s (s.addRoot root entity item) fun _ query opened =>
      opened = ⟨(root.aliasName, ⟨entity, s.fresh, query.tables.length⟩) :: query.bindings,
        query.tables ++ [{ root := ⟨entity.table, s.fresh⟩ }]⟩ := by
  obtain ⟨scope, hd, -⟩ := id hq
  obtain rfl : scope.tables.length = item := by
    rw [LoweringState.sizes, List.head?_map, List.head?_eq_getElem?, hd] at hi
    exact Option.some.inj hi
  have hb : scope.Binds ((scope.addTable { root := ⟨entity.table, s.fresh⟩ }).bind root.aliasName
      ⟨entity, s.fresh, scope.tables.length⟩)
      (root.aliasName, ⟨entity, s.fresh, scope.tables.length⟩) [s.fresh] := by
    refine ⟨?_, rfl, List.mem_singleton.2 rfl, fun i group hgroup => ⟨group, ?_, .refl group⟩, rfl,
      rfl, rfl⟩
    · simp [Scope.names, Scope.bind, Scope.addTable, FromItem.names]
    · exact (List.getElem?_append_left (List.getElem?_eq_some_iff.1 hgroup).1).trans hgroup
  exact Opens.bind (addRoot_keeps root entity hs hq hi).1 hd hb
    (List.forall_mem_singleton.2 s.fresh_allotted) hm fun _ _ _ => rfl

theorem lowerRoots_opens : ∀ {roots : List Root} {item : Nat} {s t : LoweringState}, s.Sound →
    s.InQuery → s.sizes.head? = some item → lowerRoots c item roots s = .ok ((), t) →
    Opens c.model s t fun σ query opened => σ.OpensRoots query roots opened
  | [], _, _, _, hs, _, _, h => by
    obtain ⟨-, rfl⟩ := Prod.mk.inj (Lower.pure_ok_iff.1 h)
    exact Opens.refl hs
  | root :: rest, item, s, t, hs, hq, hi, h => by
    simp only [lowerRoots, Lower.bind_ok_iff, Lower.entity_ok_iff, Lower.freshAlias_ok_iff,
      Lower.addTable_ok_iff, Lower.bindVariable_ok_iff, Prod.mk.injEq] at h
    obtain ⟨entity, _, ⟨he, rfl⟩, _, _, ⟨rfl, rfl⟩, _, _, rfl, _, _, rfl, _, u, hj, h⟩ := h
    rw [LoweringState.modifyScope_modifyScope] at hj
    have hi' := (addRoot_keeps root entity hs hq hi).2
    have hr := addRoot_opens root entity hs hq hi ⟨_, he⟩
    have hjoins := lowerJoins_opens hr.sound (hr.grows.inQuery hq) hj
    have hq' := hjoins.grows.inQuery (hr.grows.inQuery hq)
    have hrest := lowerRoots_opens hjoins.sound hq' (by rw [lowerJoins_sizes hj]; exact hi') h
    refine (hr.trans (hjoins.trans hrest)).imp fun σ query opened hσ => ?_
    rintro ⟨_, rfl, next, hnext, hopened⟩
    exact ⟨entity, s.fresh, next, hσ ▸ he, hnext, hopened⟩

end SqlDialects.Entity
