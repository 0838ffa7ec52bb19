import SqlDialects.Proofs.Lowering.Spelling
import SqlDialects.Proofs.References

/-!
# Joins that paths add

A path joins the targets of its associations to the query that binds its variable, also where it
stands in a query inside of that one. The joins stand behind those that the query asks for, and are
inner ones.
-/

namespace SqlDialects

open Sql (FromItem Join everyKey)

/-! ## Joins along associations -/

namespace Sql

variable {model : Mapping.Model}

/-- An inner join that finds the target of the association by the foreign key. -/
def Join.GoesAlong (model : Mapping.Model) (association : Mapping.ToOne) (join : Join) : Prop :=
  ∃ (entity target : Mapping.Entity) (name : String),
    entity.property name = .ok (.toOne association) ∧
      model.entity association.target = .ok target ∧ ∃ a other,
        join = Entity.equiJoin .inner target.table a target.id.column (.of other association.column)

/-- One of the joins refers to `r`, and goes along an association that has this name in small
letters. -/
def Steps (model : Mapping.Model) (joins : List Join) (name : String) (r : Reference) : Prop :=
  ∃ join ∈ joins, join.reference? = some r ∧
    ∃ association, join.GoesAlong model association ∧ Text.lower association.name = name

/-- From an alias the names lead along joins that refer to these, one after the other. -/
def Leads (model : Mapping.Model) (joins : List Join) :
    List String → String → List Reference → Prop
  | [], _, references => references = []
  | name :: rest, a, references => ∃ r references', references = r :: references' ∧ r.start = a ∧
    Steps model joins (Text.lower name) r ∧ Leads model joins rest r.aliasName references'

theorem Steps.mono {joins joins' : List Join} {name : String} {r : Reference}
    (h : Steps model joins name r) (hj : joins ⊆ joins') : Steps model joins' name r := by
  obtain ⟨join, hmem, hr⟩ := h
  exact ⟨join, hj hmem, hr⟩

theorem Leads.mono {joins joins' : List Join} (hj : joins ⊆ joins') : ∀ {names : List String}
    {a : String} {references : List Reference}, Leads model joins names a references →
      Leads model joins' names a references
  | [], _, _, h => h
  | _ :: _, _, _, ⟨r, references', hr, ha, hstep, h⟩ =>
    ⟨r, references', hr, ha, hstep.mono hj, h.mono hj⟩

/-- Each of the references is that of a join. -/
theorem Leads.exists_join {joins : List Join} : ∀ {names : List String} {a : String}
    {references : List Reference}, Leads model joins names a references →
      ∀ r ∈ references, ∃ join ∈ joins, join.reference? = some r ∧
        ∃ association, join.GoesAlong model association
  | [], _, _, h => by
    subst h
    exact nofun
  | name :: rest, _, _, ⟨r, references', hr, _, ⟨join, hj, hjr, association, ha, _⟩, h⟩ => by
    subst hr
    exact List.forall_mem_cons.2 ⟨⟨join, hj, hjr, association, ha⟩, h.exists_join⟩

/-! ## Joins that a table gains -/

/-- Joins are added after those that the table has: inner ones along associations, and left ones. -/
structure FromItem.Gains (model : Mapping.Model) (item item' : FromItem) : Prop where
  root : item'.root = item.root
  joins : ∃ joins, item'.joins = item.joins ++ joins ∧ Entity.HangsOn item.names joins ∧
    ∀ join ∈ joins, (∃ association, join.GoesAlong model association) ∨ join.kind = .left

namespace FromItem.Gains

variable {item item' item'' : FromItem}

theorem refl (item : FromItem) : item.Gains model item :=
  ⟨rfl, [], (List.append_nil _).symm, trivial, by simp⟩

theorem names (h : item.Gains model item') {joins : List Join}
    (hj : item'.joins = item.joins ++ joins) :
    item'.names = item.names ++ joins.map (·.table.aliasName) := by
  simp [FromItem.names, h.root, hj]

theorem trans (h : item.Gains model item') (h' : item'.Gains model item'') :
    item.Gains model item'' := by
  obtain ⟨joins, hj, hhangs, hkinds⟩ := h.joins
  obtain ⟨joins', hj', hhangs', hkinds'⟩ := h'.joins
  refine ⟨h'.root.trans h.root, joins ++ joins', by rw [hj', hj, List.append_assoc], ?_,
    List.forall_mem_append.2 ⟨hkinds, hkinds'⟩⟩
  refine hhangs.append (hhangs'.mono ?_)
  rw [h.names hj]
  exact List.perm_append_comm.subset

theorem extend {kind : JoinKind} {table a column other otherColumn : String}
    (ho : other ∈ item.names)
    (hkind : (∃ association, (Entity.equiJoin kind table a column
      (.of other otherColumn)).GoesAlong model association) ∨ kind = .left) :
    item.Gains model (item.extend [Entity.equiJoin kind table a column (.of other otherColumn)]) :=
  ⟨rfl, _, rfl, ⟨⟨_, _, _, _, _, _, ho, rfl⟩, trivial⟩, List.forall_mem_singleton.2 hkind⟩

theorem joins_subset (h : item.Gains model item') : item.joins ⊆ item'.joins := by
  obtain ⟨joins, hj, -, -⟩ := h.joins
  rw [hj]
  exact List.subset_append_left _ _

theorem names_subset (h : item.Gains model item') : item.names ⊆ item'.names := by
  obtain ⟨joins, hj, -, -⟩ := h.joins
  rw [h.names hj]
  exact List.subset_append_left _ _

end FromItem.Gains

end Sql

namespace Entity

open Sql (Steps Reference)

variable {c : LoweringContext} {model : Mapping.Model} {s t u : LoweringState}

/-! ## What the tables of open queries gain -/

def Scope.joins (scope : Scope) : List Join := scope.tables.flatMap (·.joins)

/-- What paths have joined to the scope since it had these aliases is noted there: where it starts,
the name in small letters, and where it leads. -/
structure Scope.Noted (model : Mapping.Model) (opened : List String) (scope : Scope) : Prop where
  names : opened ⊆ scope.names
  joins : ∀ p ∈ scope.pathJoins, ∃ r : Reference, r.start = p.1.1 ∧ r.aliasName = p.2 ∧
    Steps model (Join.shown opened scope.joins) p.1.2 r

/-- The tables of the scope gain joins, and those of paths are noted. -/
structure Scope.Gains (model : Mapping.Model) (scope scope' : Scope) : Prop where
  tables : List.Forall₂ (FromItem.Gains model) scope.tables scope'.tables
  notes : ∀ opened, scope.Noted model opened → scope'.Noted model opened

theorem shown_subset {opened : List String} {joins joins' : List Join} (h : joins ⊆ joins') :
    Join.shown opened joins ⊆ Join.shown opened joins' :=
  fun _ hj => List.mem_filter.2 ⟨h (List.mem_of_mem_filter hj), (List.mem_filter.1 hj).2⟩

section

variable {scope scope' scope'' : Scope}

theorem joins_subset_of_gains
    (h : List.Forall₂ (FromItem.Gains model) scope.tables scope'.tables) :
    scope.joins ⊆ scope'.joins :=
  flatMap_subset_of_forall₂ (h.imp fun _ _ h => h.joins_subset)

theorem names_subset_of_gains
    (h : List.Forall₂ (FromItem.Gains model) scope.tables scope'.tables) :
    scope.names ⊆ scope'.names :=
  flatMap_subset_of_forall₂ (h.imp fun _ _ h => h.names_subset)

/-- Notes stay right when the tables gain more. -/
theorem Scope.Noted.widen {opened : List String} (h : scope.Noted model opened)
    (ht : List.Forall₂ (FromItem.Gains model) scope.tables scope'.tables) :
    opened ⊆ scope'.names ∧ ∀ p ∈ scope.pathJoins, ∃ r : Reference, r.start = p.1.1 ∧
      r.aliasName = p.2 ∧ Steps model (Join.shown opened scope'.joins) p.1.2 r := by
  refine ⟨List.Subset.trans h.names (names_subset_of_gains ht), fun p hp => ?_⟩
  obtain ⟨r, hstart, halias, hstep⟩ := h.joins p hp
  exact ⟨r, hstart, halias, hstep.mono (shown_subset (joins_subset_of_gains ht))⟩

theorem Scope.Gains.of_tables
    (ht : List.Forall₂ (FromItem.Gains model) scope.tables scope'.tables)
    (hp : scope'.pathJoins = scope.pathJoins) : scope.Gains model scope' :=
  ⟨ht, fun _ h => ⟨(h.widen ht).1, hp ▸ (h.widen ht).2⟩⟩

theorem Scope.Gains.refl (scope : Scope) : scope.Gains model scope :=
  .of_tables (List.forall₂_same.2 fun item _ => .refl item) rfl

theorem Scope.Gains.trans (h : scope.Gains model scope') (h' : scope'.Gains model scope'') :
    scope.Gains model scope'' where
  tables := forall₂_trans (P := FromItem.Gains model) (Q := FromItem.Gains model)
    (fun _ _ _ h₁ h₂ => h₁.trans h₂) h.tables h'.tables
  notes opened hn := h'.notes opened (h.notes opened hn)

theorem Scope.tables_extend {item : Nat} {a : String} {join : Join} (ha : scope.Holds item a)
    (h : ∀ table : FromItem, a ∈ table.names → table.Gains model (table.extend [join])) :
    List.Forall₂ (FromItem.Gains model) scope.tables (scope.extend item [join]).tables := by
  obtain ⟨table, ht, ha⟩ := ha
  exact forall₂_modify FromItem.Gains.refl ht (h table ha)

end

def Gains (model : Mapping.Model) (s t : LoweringState) : Prop :=
  List.Forall₂ (Scope.Gains model) s.scopes t.scopes

namespace Gains

theorem refl (s : LoweringState) : Gains model s s :=
  List.forall₂_same.2 fun scope _ => .refl scope

theorem trans (h : Gains model s t) (h' : Gains model t u) : Gains model s u :=
  forall₂_trans (P := Scope.Gains model) (Q := Scope.Gains model)
    (fun _ _ _ h₁ h₂ => h₁.trans h₂) h h'

theorem change {depth : Nat} {scope : Scope} {change : Scope → Scope}
    (hd : s.scopes[depth]? = some scope) (h : scope.Gains model (change scope)) :
    Gains model s (s.modifyScope depth change) :=
  forall₂_modify Scope.Gains.refl hd h

end Gains

theorem LoweringState.Sound.fresh_notMem (hs : s.Sound) : s.fresh ∉ s.names :=
  fun h => (hs.allotted _ h).ne s.fresh_allotted rfl

theorem joinAlong_gains {place : Place} {association : Mapping.ToOne} {target : Mapping.Entity}
    {name aliasName : String} (ha : place.entity.property name = .ok (.toOne association))
    (ht : model.entity association.target = .ok target) (hs : s.Sound) (hp : place.StandsIn s)
    (h : joinAlong c place association target s = .ok (aliasName, t)) : Gains model s t := by
  obtain ⟨scope', hd', hholds⟩ := hp
  obtain ⟨scope, hd, -, ⟨-, rfl⟩ | ⟨-, ⟨table, htable⟩, -, rfl⟩⟩ := joinAlong_ok_iff.1 h
  · exact .refl _
  obtain rfl : scope = scope' := by simpa [hd] using hd'
  have halong : (associationJoin place association target s.fresh).GoesAlong model association :=
    ⟨_, _, _, ha, ht, _, _, rfl⟩
  have htables : List.Forall₂ (FromItem.Gains model) scope.tables
      (scope.extend place.item [associationJoin place association target s.fresh]).tables :=
    Scope.tables_extend hholds fun table hmem => .extend hmem (.inl ⟨association, halong⟩)
  refine Gains.change (s := s.allot) hd ⟨htables, fun opened hn => ?_⟩
  obtain ⟨hnames, hjoins⟩ := hn.widen htables
  refine ⟨hnames, List.forall_mem_cons.2 ⟨?_, hjoins⟩⟩
  -- The alias of the new join is not one of those in the scope.
  have hnew : s.fresh ∉ opened := fun hmem =>
    hs.fresh_notMem (Scope.mem_state_names hd (hn.names hmem))
  have hmem : associationJoin place association target s.fresh ∈
      (scope.extend place.item [associationJoin place association target s.fresh]).joins :=
    List.mem_flatMap.2 ⟨_, List.mem_of_getElem? (Scope.get_extend htable _),
      List.mem_append_right _ (List.mem_singleton.2 rfl)⟩
  exact ⟨⟨target.table, s.fresh, target.id.column, place.aliasName, association.column⟩, rfl, rfl,
    _, List.mem_filter.2 ⟨hmem, decide_eq_true hnew⟩, rfl, association, halong, rfl⟩

theorem walk_gains {path : Path} : ∀ {names : List String} {place place' : Place}
    {s t : LoweringState}, s.Sound → place.StandsIn s →
      walk c path place names s = .ok (place', t) → Gains c.model s t
  | [], _, _, _, _, _, _, h => by
    obtain ⟨rfl, rfl⟩ := Prod.mk.inj (Lower.pure_ok_iff.1 h)
    exact .refl _
  | name :: rest, _, _, _, _, hs, hp, h => by
    simp only [walk, Lower.bind_ok_iff] at h
    obtain ⟨next, _, hstep, h⟩ := h
    obtain ⟨_, _, _, ha, ht, hj, rfl⟩ := step_ok_iff.1 hstep
    obtain ⟨hk, hp'⟩ := joinAlong_keeps hs hp hj
    exact (joinAlong_gains ha ht hs hp hj).trans (walk_gains hk.sound hp' h)

theorem standsIn_of_findBinding {name : String} {depth : Nat} {binding : Binding} (hs : s.Sound)
    (hf : Lower.findBinding name s.scopes = some (depth, binding)) :
    Place.StandsIn ⟨depth, binding.item, binding.entity, binding.aliasName⟩ s := by
  obtain ⟨scope, hd, hb⟩ := mem_of_findBinding hf
  exact ⟨scope, hd, (hs.scopes.get hd).bindings _ hb⟩

theorem navigate_gains {path : Path} {steps : Nat} {place : Place} (hs : s.Sound)
    (h : navigate c path steps s = .ok (place, t)) : Gains c.model s t := by
  obtain ⟨depth, binding, hf, h⟩ := navigate_ok_iff.1 h
  exact walk_gains hs (standsIn_of_findBinding hs hf) h

/-- A size is counted where its path has led. -/
theorem lowerSize_navigates {path : Path} {e : Sql.Expression} (hs : s.Sound)
    (h : lowerSize c path s = .ok (e, t)) : ∃ place u,
      navigate c path (path.properties.length - 1) s = .ok (place, u) ∧ Gains c.model u t := by
  obtain ⟨_, place, u, collection, element, -, hn, -, -, h⟩ := lowerSize_ok_iff.1 h
  refine ⟨place, u, hn, ?_⟩
  split at h
  case isTrue =>
    obtain ⟨scope, hd, -, hz, -, -, rfl⟩ := countJoined_ok h
    obtain ⟨-, scope', hd', ha⟩ := navigate_keeps hs hn
    obtain rfl : scope = scope' := by simpa [hz, hd] using hd'
    exact Gains.change (s := u.allot) hd (.of_tables (Scope.tables_extend ha fun table hmem =>
      .extend hmem (.inr rfl)) rfl)
  case isFalse =>
    obtain ⟨-, rfl⟩ := h
    exact .refl _

theorem Course.gains (h : Course model s t) (hs : s.Sound) : Gains model s t := by
  induction h with
  | refl => exact .refl _
  | trans h _ ih ih' => exact (ih hs).trans (ih' (h.keeps hs).sound)
  | navigate hm h => exact hm ▸ navigate_gains hs h
  | size hm _ h =>
    obtain ⟨place, u, hn, hgains⟩ := lowerSize_navigates hs h
    exact hm ▸ (navigate_gains hs hn).trans hgains
  | query _ hr _ ih =>
    have hk := lowerRoots_keeps (hs.enter _) ⟨_, rfl, rfl⟩ rfl hr
    obtain ⟨scope, hu, -⟩ := lowerRoots_scopes hr
    have hgains := ih hk.sound
    rw [Gains, hu] at hgains
    exact (List.forall₂_cons.1 hgains).2

/-! ## Where paths lead -/

/-- From a place the names lead along joins of its scope. -/
theorem walk_leads {path : Path} {opened : List String} : ∀ {names : List String}
    {place place' : Place} {s t : LoweringState} {scope : Scope}, s.Sound → place.StandsIn s →
      s.scopes[place.depth]? = some scope → scope.Noted c.model opened →
      walk c path place names s = .ok (place', t) →
        ∃ scope' references, t.scopes[place.depth]? = some scope' ∧
          Sql.Leads c.model (Join.shown opened scope'.joins) names place.aliasName references
  | [], _, _, _, _, scope, _, _, hd, _, h => by
    obtain ⟨rfl, rfl⟩ := Prod.mk.inj (Lower.pure_ok_iff.1 h)
    exact ⟨scope, [], hd, rfl⟩
  | name :: rest, place, _, _, _, scope, hs, hp, hd, hn, h => by
    simp only [walk, Lower.bind_ok_iff] at h
    obtain ⟨_, u, hstep, h⟩ := h
    obtain ⟨association, target, aliasName, ha, ht, hj, rfl⟩ := step_ok_iff.1 hstep
    obtain ⟨hk, hp'⟩ := joinAlong_keeps hs hp hj
    obtain ⟨scope₁, hd₁, hgains₁⟩ := forall₂_getElem? (joinAlong_gains ha ht hs hp hj) hd
    have hn₁ := hgains₁.notes opened hn
    obtain ⟨scope₂, hd₂, -, hl⟩ := joinAlong_notes hj
    obtain rfl : scope₁ = scope₂ := by simpa [hd₁] using hd₂
    obtain ⟨r, hstart, halias, hsteps⟩ := hn₁.joins _ (mem_of_lookup hl)
    obtain ⟨scope', references, hd', hleads⟩ := walk_leads hk.sound hp' hd₁ hn₁ h
    obtain ⟨scope₃, hd₃, hgains₃⟩ := forall₂_getElem? (walk_gains hk.sound hp' h) hd₁
    obtain rfl : scope' = scope₃ := by simpa [hd'] using hd₃
    obtain ⟨-, -, hname⟩ := Mapping.Entity.toOne_of_property ha
    have hlower : Text.lower association.name = Text.lower name := by
      rw [← Text.lower_folded association.name, ← Text.lower_folded name, Text.folded, Text.folded,
        hname]
    refine ⟨scope', r :: references, hd', r, references, rfl, hstart, ?_, ?_⟩
    · rw [← hlower]
      exact hsteps.mono (shown_subset (joins_subset_of_gains hgains₃.tables))
    · rw [halias]
      exact hleads

/-- However many queries have been opened, a path leads along joins of the query that binds its
variable. -/
theorem Visits.leads {path : Path} (h : Visits model path s t) (hs : s.Sound) {depth : Nat}
    {binding : Binding} {scope : Scope} {opened : List String}
    (hf : Lower.findBinding path.start s.scopes = some (depth, binding))
    (hd : s.scopes[depth]? = some scope) (hn : scope.Noted model opened) :
    ∃ scope' steps references, t.scopes[depth]? = some scope' ∧ path.Joins model steps ∧
      Sql.Leads model (Join.shown opened scope'.joins) (path.properties.take steps)
        binding.aliasName references := by
  induction h generalizing depth scope with
  | before h _ ih =>
    obtain ⟨scope', hd', hgains⟩ := forall₂_getElem? (h.gains hs) hd
    exact ih (h.keeps hs).sound (h.recalls.findBinding_eq _ ▸ hf) hd' (hgains.notes opened hn)
  | after h h' ih =>
    obtain ⟨scope', steps, references, hd', hj, hleads⟩ := ih hs hf hd hn
    obtain ⟨scope'', hd'', hgains⟩ :=
      forall₂_getElem? (h'.gains (h.course.keeps hs).sound) hd'
    exact ⟨scope'', steps, references, hd'', hj,
      hleads.mono (shown_subset (joins_subset_of_gains hgains.tables))⟩
  | walk hm hj h =>
    subst hm
    obtain ⟨depth', binding', hf', hw⟩ := navigate_ok_iff.1 h
    obtain ⟨rfl, rfl⟩ := Prod.mk.inj (Option.some.inj (hf.symm.trans hf'))
    obtain ⟨scope', references, hd', hleads⟩ :=
      walk_leads hs (standsIn_of_findBinding hs hf) hd hn hw
    exact ⟨scope', _, references, hd', hj, hleads⟩
  | size hm _ h =>
    subst hm
    obtain ⟨place, u, hnav, hgains⟩ := lowerSize_navigates hs h
    obtain ⟨depth', binding', hf', hw⟩ := navigate_ok_iff.1 hnav
    obtain ⟨rfl, rfl⟩ := Prod.mk.inj (Option.some.inj (hf.symm.trans hf'))
    obtain ⟨scope', references, hd', hleads⟩ :=
      walk_leads hs (standsIn_of_findBinding hs hf) hd hn hw
    obtain ⟨scope'', hd'', hgains⟩ := forall₂_getElem? hgains hd'
    exact ⟨scope'', _, references, hd'', .inl rfl,
      hleads.mono (shown_subset (joins_subset_of_gains hgains.tables))⟩
  | @query s t u _ _ _ _ _ hfree hr _ ih =>
    have hk := lowerRoots_keeps (hs.enter _) ⟨_, rfl, rfl⟩ rfl hr
    obtain ⟨first, hu, -, hvariables⟩ := lowerRoots_scopes hr
    have hnone : first.bindings.lookup path.start = none := by
      rw [← Option.not_isSome_iff_eq_none, hvariables]
      exact hfree
    have hfound : Lower.findBinding path.start u.scopes = some (depth + 1, binding) := by
      simp only [hu, Lower.findBinding, hnone, hf, Option.map_some]
    exact ih hk.sound hfound (by rw [hu]; exact hd) hn

/-! ## Queries -/

/-- The query is lowered to the second one, and this is its scope when its roots and the joins that
it asks for have been lowered. -/
def QuerySpec.OpensAs (source : QuerySpec) (d : Dialect) (model : Mapping.Model) (scope : Scope)
    (spec : Sql.QuerySpec) : Prop :=
  ∃ s t u, s.Sound ∧ source.lower { dialect := d, model } s = .ok (spec, t) ∧
    source.Opens { dialect := d, model } s u ∧ u.scopes[0]? = some scope

/-- The joins of these tables that are not among those of the scope. -/
def Scope.newJoins (scope : Scope) (tables : List FromItem) : List Join :=
  Join.shown scope.names (tables.flatMap (·.joins))

/-- A path that stands in the query, or in one inside of it, and starts at one of its variables
leads along joins of the query. -/
def QuerySpec.LeadsPaths (source : QuerySpec) (model : Mapping.Model) (scope : Scope)
    (spec : Sql.QuerySpec) : Prop :=
  ∀ n ∈ source.children, ∀ path : Path, n.Uses path → path.start ∈ source.variables →
    ∃ binding steps references, scope.bindings.lookup path.start = some binding ∧
      path.Joins model steps ∧ Sql.Leads model (scope.newJoins spec.tables)
        (path.properties.take steps) binding.aliasName references

theorem QuerySpec.OpensAs.gains {source : QuerySpec} {d : Dialect} {scope : Scope}
    {spec : Sql.QuerySpec} (h : source.OpensAs d model scope spec) :
    List.Forall₂ (FromItem.Gains model) scope.tables spec.tables ∧
      (spec.tables.flatMap FromItem.names).Nodup ∧ source.LeadsPaths model scope spec := by
  obtain ⟨s, t, u, hs, hrun, hopens, hd⟩ := h
  obtain ⟨u', last, hopens', ⟨hcourse, hvisits⟩, htables, -⟩ :=
    source.lower_runs (c := { dialect := d, model }) hrun
  obtain rfl : u = u' := (Prod.mk.inj (Except.ok.inj (hopens.symm.trans hopens'))).2
  have hk := lowerRoots_keeps (hs.enter _) ⟨_, rfl, rfl⟩ rfl hopens
  obtain ⟨first, hfirst, hgains⟩ := forall₂_getElem? (hcourse.gains hk.sound) hd
  obtain rfl : last = first := by simpa using hfirst
  obtain ⟨scope', hu, hempty, hvariables⟩ := lowerRoots_scopes hopens
  obtain rfl : scope' = scope := by simpa [hu] using hd
  have hnoted : scope'.Noted model scope'.names :=
    ⟨List.Subset.refl _, by rw [hempty]; exact nofun⟩
  rw [htables]
  refine ⟨hgains.tables, (hcourse.keeps hk.sound).sound.names_nodup List.getElem?_cons_zero, ?_⟩
  intro n hn path huse hstart
  obtain ⟨binding, hbinding⟩ := Option.isSome_iff_exists.1 ((hvariables path.start).2 hstart)
  have hf : Lower.findBinding path.start u.scopes = some (0, binding) := by
    simp only [hu, Lower.findBinding, hbinding]
  obtain ⟨scope'', steps, references, hd', hj, hleads⟩ :=
    (hvisits n hn path huse).leads hk.sound hf hd hnoted
  obtain rfl : last = scope'' := by simpa using hd'
  exact ⟨binding, steps, references, hbinding, hj, by rw [Scope.newJoins, htables]; exact hleads⟩

end Entity

end SqlDialects
