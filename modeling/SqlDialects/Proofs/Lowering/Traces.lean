import Mathlib.Logic.Function.Basic
import SqlDialects.Proofs.Lowering.Scopes
import SqlDialects.Proofs.Resolved

/-!
# What paths leave behind

Beside the state of the lowering goes a trace, which no step looks at: the entities that aliases
stand for, and all ways along which paths have joined tables, those of queries that are closed
included. With it, a way that is found in a scope again is the same way as before.
-/

namespace SqlDialects

/-! ## Names -/

namespace Text

theorem lowerAfter_ascii {cs : List Char} (h : ∀ c ∈ cs, isAscii c = true) (before : List Char) :
    lowerAfter before cs = cs.map Char.toLower := by
  induction cs generalizing before with
  | nil => rfl
  | cons c rest ih =>
    obtain ⟨hc, hrest⟩ := List.forall_mem_cons.1 h
    have hne : c ≠ 'Σ' := by
      rintro rfl
      exact absurd hc (by decide)
    rw [lowerAfter, if_neg hne, lowerChar, if_pos hc, ih hrest, List.map_cons,
      List.singleton_append]

theorem sameName_of_lower {a b : String} (ha : isAsciiText a = true) (hb : isAsciiText b = true)
    (h : lower a = lower b) : foldAscii a = foldAscii b := by
  have h := String.ofList_injective h
  rwa [lowerAfter_ascii (List.all_eq_true.1 ha), lowerAfter_ascii (List.all_eq_true.1 hb)] at h

end Text

namespace Mapping

theorem Entity.property_congr (entity : Entity) {name name' : String}
    (h : Text.foldAscii name = Text.foldAscii name') :
    entity.property? name = entity.property? name' := by
  unfold property? Text.sameName
  rw [h]

theorem Entity.toOne_of_property {entity : Entity} {name : String} {association : ToOne}
    (h : entity.property name = .ok (.toOne association)) :
    entity.property? name = some (.toOne association) ∧ association ∈ entity.toOne ∧
      Text.foldAscii association.name = Text.foldAscii name := by
  unfold property at h
  split at h
  case h_2 => cases h
  case h_1 p hp =>
    obtain rfl := Except.ok.inj h
    refine ⟨hp, ?_⟩
    unfold property? at hp
    split at hp
    · cases hp
    split at hp
    · cases hp
    split at hp
    · next found hfound =>
      cases hp
      have hname := List.find?_some hfound
      exact ⟨List.mem_of_find?_eq_some hfound, by simpa [Text.sameName] using hname⟩
    · obtain ⟨_, _, hp⟩ := Option.map_eq_some_iff.1 hp
      cases hp

/-- No two associations that can be found in an entity have the same name in small letters. -/
theorem Model.association_unique {model : Model} (hm : model.HasAsciiNames) {entity : Entity}
    (he : model.Has entity) {name name' : String} {association association' : ToOne}
    (h : entity.property name = .ok (.toOne association))
    (h' : entity.property name' = .ok (.toOne association'))
    (hl : Text.lower association.name = Text.lower association'.name) :
    association = association' := by
  obtain ⟨hp, hmem, hname⟩ := Entity.toOne_of_property h
  obtain ⟨hp', hmem', hname'⟩ := Entity.toOne_of_property h'
  have hascii (a : ToOne) (ha : a ∈ entity.toOne) : Text.isAsciiText a.name = true := by
    refine hm entity (mem_entities_of_has he) _ ?_
    simp only [Entity.names, List.cons_append, List.mem_cons, List.mem_append]
    exact .inr (.inr (.inl (.inr (List.mem_map_of_mem ha))))
  have hfold := Text.sameName_of_lower (hascii _ hmem) (hascii _ hmem') hl
  have hsame := Entity.property_congr entity (hname.symm.trans (hfold.trans hname'))
  simpa [hp, hp'] using hsame

end Mapping

namespace Entity

open Sql (FromItem)

/-! ## Tables that get wider -/

namespace Widens

variable {group group' group'' : FromItem}

theorem refl (group : FromItem) : Widens group group := ⟨rfl, List.prefix_refl _⟩

theorem trans (h : Widens group group') (h' : Widens group' group'') : Widens group group'' :=
  ⟨h.1.trans h'.1, h.2.trans h'.2⟩

theorem extend (group : FromItem) (joins : List Sql.Join) : Widens group (group.extend joins) :=
  ⟨rfl, List.prefix_append _ _⟩

theorem joins_subset (h : Widens group group') : group.joins ⊆ group'.joins := h.2.subset

theorem names_subset (h : Widens group group') : group.names ⊆ group'.names := by
  unfold FromItem.names
  rw [h.1]
  exact List.cons_subset_cons _ (List.map_subset _ h.joins_subset)

end Widens

theorem forall₂_refl {tables : List FromItem} : List.Forall₂ Widens tables tables :=
  List.forall₂_same.2 fun group _ => Widens.refl group

/-- The scope has its variables still, and joins were added to its tables. -/
structure ScopeWidens (scope scope' : Scope) : Prop where
  bindings : scope'.bindings = scope.bindings
  tables : List.Forall₂ Widens scope.tables scope'.tables

namespace ScopeWidens

variable {scope scope' scope'' : Scope}

theorem refl (scope : Scope) : ScopeWidens scope scope := ⟨rfl, forall₂_refl⟩

theorem trans (h : ScopeWidens scope scope') (h' : ScopeWidens scope' scope'') :
    ScopeWidens scope scope'' :=
  ⟨h'.bindings.trans h.bindings,
    forall₂_trans (P := Widens) (Q := Widens) (fun _ _ _ h₁ h₂ => h₁.trans h₂) h.tables h'.tables⟩

theorem extend {item : Nat} {group : FromItem} (h : scope.tables[item]? = some group)
    (joins : List Sql.Join) : ScopeWidens scope (scope.extend item joins) :=
  ⟨rfl, forall₂_modify Widens.refl h (Widens.extend group joins)⟩

end ScopeWidens

/-! ## The trace -/

/-- The entities that aliases stand for, and the ways along which paths have joined. -/
structure Trace where
  entity : String → Option Mapping.Entity := fun _ => none
  ways : List Way := []

structure Trace.Grows (g g' : Trace) : Prop where
  entity : ∀ a e, g.entity a = some e → g'.entity a = some e
  ways : g.ways ⊆ g'.ways

namespace Trace

variable {g g' g'' : Trace}

theorem Grows.refl (g : Trace) : g.Grows g := ⟨fun _ _ h => h, List.Subset.refl _⟩

theorem Grows.trans (h : g.Grows g') (h' : g'.Grows g'') : g.Grows g'' :=
  ⟨fun a e he => h'.entity a e (h.entity a e he), List.Subset.trans h.ways h'.ways⟩

/-- One more alias stands for an entity. -/
def name (g : Trace) (aliasName : String) (entity : Mapping.Entity) : Trace :=
  { g with entity := Function.update g.entity aliasName (some entity) }

/-- Paths have joined along one more way, to an entity. -/
def join (g : Trace) (way : Way) (target : Mapping.Entity) : Trace :=
  { g.name way.aliasName target with ways := way :: g.ways }

theorem name_entity (g : Trace) (a : String) (e : Mapping.Entity) :
    (g.name a e).entity a = some e := Function.update_self ..

theorem entity_name {a b : String} {e e' : Mapping.Entity}
    (h : (g.name a e).entity b = some e') : g.entity b = some e' ∨ b = a ∧ e' = e := by
  by_cases hb : b = a
  · subst hb
    rw [name_entity] at h
    exact .inr ⟨rfl, (Option.some.inj h).symm⟩
  · exact .inl (by simpa [name, hb] using h)

theorem grows_name {a : String} (h : g.entity a = none) (e : Mapping.Entity) :
    g.Grows (g.name a e) where
  entity b e' hb := by
    have hne : b ≠ a := by
      rintro rfl
      simp [h] at hb
    simpa [name, hne] using hb
  ways := List.Subset.refl _

theorem grows_join {w : Way} (h : g.entity w.aliasName = none) (e : Mapping.Entity) :
    g.Grows (g.join w e) :=
  ⟨(grows_name h e).entity, List.subset_cons_self _ _⟩

end Trace

/-- How a scope has a join that paths have added: it is the one of a way. -/
def Scope.Notes (scope : Scope) (model : Mapping.Model) (ways : List Way)
    (p : (String × String) × String) : Prop :=
  ∃ (association : Mapping.ToOne) (target : Mapping.Entity) (item : Nat) (group : FromItem),
    p.1.2 = Text.lower association.name ∧
    ⟨p.1.1, association, p.2⟩ ∈ ways ∧ model.entity association.target = .ok target ∧
    scope.tables[item]? = some group ∧ p.1.1 ∈ group.names ∧
    equiJoin .inner target.table p.2 target.id.column (.of p.1.1 association.column) ∈ group.joins

/-- The trace has the variables and the joins of a scope, and the scope has all ways that start at
its tables. -/
structure Scope.Traced (scope : Scope) (model : Mapping.Model) (g : Trace) : Prop where
  bindings : ∀ b ∈ scope.bindings, g.entity b.2.aliasName = some b.2.entity
  pathJoins : ∀ p ∈ scope.pathJoins, scope.Notes model g.ways p
  ways : ∀ w ∈ g.ways, w.start ∈ scope.names →
    ((w.start, Text.lower w.association.name), w.aliasName) ∈ scope.pathJoins
  uncounted : scope.isGrouped = true → scope.countedCollections = 0

/-- A way goes along an association of the entity at its start. -/
def Trace.Goes (g : Trace) (model : Mapping.Model) (w : Way) : Prop :=
  ∃ owner name target, g.entity w.start = some owner ∧
    owner.property name = .ok (.toOne w.association) ∧
    model.entity w.association.target = .ok target ∧ g.entity w.aliasName = some target

structure LoweringState.Traced (s : LoweringState) (model : Mapping.Model) (g : Trace) : Prop where
  scopes : ∀ scope ∈ s.scopes, scope.Traced model g
  goes : ∀ w ∈ g.ways, g.Goes model w
  known : ∀ a e, g.entity a = some e → model.Has e ∧ Allotted 0 s.nextAlias a
  shared : Shared (· ∈ g.ways)

namespace Scope.Traced

variable {model : Mapping.Model} {g g' : Trace} {scope scope' : Scope}

theorem notes_mono {p : (String × String) × String} (h : scope.Notes model g.ways p)
    (hg : g.ways ⊆ g'.ways)
    (ht : ∀ (i : Nat) (group : FromItem), scope.tables[i]? = some group →
      ∃ group', scope'.tables[i]? = some group' ∧ Widens group group') :
    scope'.Notes model g'.ways p := by
  obtain ⟨association, target, item, group, hl, hw, htarget, hgroup, hstart, hj⟩ := h
  obtain ⟨group', hgroup', hwiden⟩ := ht item group hgroup
  exact ⟨association, target, item, group', hl, hg hw, htarget, hgroup',
    hwiden.names_subset hstart, hwiden.joins_subset hj⟩

/-- A scope may get more tables and more joins, under aliases at which no way starts, and more
variables whose entities are known. -/
theorem grow (h : scope.Traced model g) (hg : g.Grows g')
    (hb : ∀ b ∈ scope'.bindings, b ∈ scope.bindings ∨ g'.entity b.2.aliasName = some b.2.entity)
    (hp : scope'.pathJoins = scope.pathJoins)
    (ht : ∀ (i : Nat) (group : FromItem), scope.tables[i]? = some group →
      ∃ group', scope'.tables[i]? = some group' ∧ Widens group group')
    (hw : ∀ w ∈ g'.ways, w.start ∈ scope'.names → w ∈ g.ways ∧ w.start ∈ scope.names)
    (hc : scope'.isGrouped = true → scope'.countedCollections = 0) : scope'.Traced model g' where
  bindings b hmem := by
    rcases hb b hmem with hold | hnew
    · exact hg.entity _ _ (h.bindings b hold)
    · exact hnew
  pathJoins p hmem := notes_mono (h.pathJoins p (hp ▸ hmem)) hg.ways ht
  ways w hmem hstart := by
    obtain ⟨hold, hstart⟩ := hw w hmem hstart
    rw [hp]
    exact h.ways w hold hstart
  uncounted := hc

end Scope.Traced

theorem Scope.Traced.mono {model : Mapping.Model} {g g' : Trace} {scope : Scope}
    (h : scope.Traced model g) (hg : g.Grows g')
    (hw : ∀ w ∈ g'.ways, w.start ∈ scope.names → w ∈ g.ways) : scope.Traced model g' :=
  h.grow hg (fun _ hb => .inl hb) rfl (fun _ group hi => ⟨group, hi, Widens.refl group⟩)
    (fun w hmem hstart => ⟨hw w hmem hstart, hstart⟩) h.uncounted

theorem Trace.Goes.mono {model : Mapping.Model} {g g' : Trace} {w : Way} (h : g.Goes model w)
    (hg : g.Grows g') : g'.Goes model w := by
  obtain ⟨owner, name, target, hs, hp, htarget, ht⟩ := h
  exact ⟨owner, name, target, hg.entity _ _ hs, hp, htarget, hg.entity _ _ ht⟩

theorem Shared.cons {w : Way} {ways : List Way} (h : Shared (· ∈ ways))
    (ha : ∀ v ∈ ways, v.aliasName ≠ w.aliasName)
    (hs : ∀ v ∈ ways, v.start = w.start → v.association ≠ w.association) :
    Shared (· ∈ w :: ways) := by
  have hother (v : Way) (hv : v ∈ ways) :
      v.aliasName = w.aliasName ↔ v.start = w.start ∧ v.association = w.association :=
    ⟨fun heq => absurd heq (ha v hv), fun heq => absurd heq.2 (hs v hv heq.1)⟩
  intro v v' hv hv'
  rcases List.mem_cons.1 hv with hv | hv <;> rcases List.mem_cons.1 hv' with hv' | hv'
  · simp [hv, hv']
  · rw [hv, eq_comm, hother v' hv', eq_comm (a := v'.start), eq_comm (a := v'.association)]
  · rw [hv']
    exact hother v hv
  · exact h v v' hv hv'

theorem mem_modify {α : Type} {l : List α} {i : Nat} {f : α → α} {x y : α} (hx : l[i]? = some x)
    (hy : y ∈ l.modify i f) : (∃ j, j ≠ i ∧ l[j]? = some y) ∨ y = f x := by
  obtain ⟨j, hj⟩ := List.mem_iff_getElem?.1 hy
  rw [List.getElem?_modify] at hj
  by_cases hij : i = j
  · subst hij
    simp only [hx, if_true, Option.map_eq_map, Option.map_some, Option.some.injEq] at hj
    exact .inr hj.symm
  · simp only [hij, if_false, Option.map_eq_map, Option.map_id'] at hj
    exact .inl ⟨j, fun h => hij h.symm, hj⟩

namespace LoweringState.Traced

variable {model : Mapping.Model} {g g' : Trace} {s : LoweringState}

theorem entity_eq_none (h : s.Traced model g) {n : Nat} {a : String}
    (ha : Allotted s.nextAlias n a) : g.entity a = none := by
  cases he : g.entity a with
  | none => rfl
  | some e => exact absurd rfl ((h.known a e he).2.ne ha)

theorem way_allotted (h : s.Traced model g) {w : Way} (hw : w ∈ g.ways) :
    Allotted 0 s.nextAlias w.start ∧ Allotted 0 s.nextAlias w.aliasName := by
  obtain ⟨owner, name, target, hs, -, -, ht⟩ := h.goes w hw
  exact ⟨(h.known _ _ hs).2, (h.known _ _ ht).2⟩

/-- Aliases that are allotted for nothing. -/
theorem skip (h : s.Traced model g) {n : Nat} (hn : s.nextAlias ≤ n) :
    Traced { s with nextAlias := n } model g :=
  ⟨h.scopes, h.goes, fun a e he => (h.known a e he).imp_right (·.mono (Nat.le_refl _) hn),
    h.shared⟩

/-- A change to one scope that leaves the ways alone. -/
theorem change (h : s.Traced model g) {n depth : Nat} {scope : Scope} {change : Scope → Scope}
    (hd : s.scopes[depth]? = some scope) (hn : s.nextAlias ≤ n) (hg : g.Grows g')
    (hw : g'.ways = g.ways)
    (hk : ∀ a e, g'.entity a = some e → g.entity a = some e ∨
      model.Has e ∧ Allotted s.nextAlias n a)
    (hc : (change scope).Traced model g') :
    Traced ⟨n, s.scopes.modify depth change⟩ model g' where
  scopes other hmem := by
    rcases mem_modify hd hmem with ⟨j, -, hj⟩ | rfl
    · exact (h.scopes other (List.mem_of_getElem? hj)).mono hg fun w hmem _ => hw ▸ hmem
    · exact hc
  goes w hmem := (h.goes w (hw ▸ hmem)).mono hg
  known a e he := by
    rcases hk a e he with hold | ⟨hmodel, ha⟩
    · exact (h.known a e hold).imp_right (·.mono (Nat.le_refl _) hn)
    · exact ⟨hmodel, ha.mono (Nat.zero_le _) (Nat.le_refl _)⟩
  shared := hw ▸ h.shared

end LoweringState.Traced

/-! ## Steps with their traces -/

/-- A step keeps the variables of all scopes, adds joins, and takes one trace to another. -/
structure Passes (model : Mapping.Model) (s t : LoweringState) (g g' : Trace) : Prop where
  widens : List.Forall₂ ScopeWidens s.scopes t.scopes
  grows : g.Grows g'
  traced : t.Traced model g'

namespace Passes

variable {model : Mapping.Model} {s t u : LoweringState} {g g' g'' : Trace}

theorem refl (h : s.Traced model g) : Passes model s s g g :=
  ⟨List.forall₂_same.2 fun scope _ => ScopeWidens.refl scope, Trace.Grows.refl g, h⟩

theorem trans (h : Passes model s t g g') (h' : Passes model t u g' g'') :
    Passes model s u g g'' :=
  ⟨forall₂_trans (P := ScopeWidens) (Q := ScopeWidens) (fun _ _ _ h₁ h₂ => h₁.trans h₂) h.widens
    h'.widens, h.grows.trans h'.grows, h'.traced⟩

end Passes

variable {c : LoweringContext} {s t : LoweringState} {g : Trace}

/-- The join of a new way is noted in the scope of its start. -/
theorem Scope.Traced.addPathJoin {model : Mapping.Model} {scope : Scope} {place : Place}
    {association : Mapping.ToOne} {target : Mapping.Entity} {table : FromItem} {fresh : String}
    (h : scope.Traced model g) (ht : scope.tables[place.item]? = some table)
    (hstart : place.aliasName ∈ table.names)
    (htarget : model.entity association.target = .ok target)
    (hg : g.Grows (g.join ⟨place.aliasName, association, fresh⟩ target))
    (hfresh : ∀ v ∈ g.ways, v.start ≠ fresh) :
    (scope.addPathJoin place.item (pathKey place association)
      (associationJoin place association target fresh)).Traced model
        (g.join ⟨place.aliasName, association, fresh⟩ target) where
  bindings b hb := hg.entity _ _ (h.bindings b hb)
  pathJoins p hp := by
    rcases List.mem_cons.1 hp with rfl | hp
    · exact ⟨association, target, place.item,
        table.extend [associationJoin place association target fresh], rfl, List.mem_cons_self,
        htarget, Scope.get_extend ht _,
        (Widens.extend table _).names_subset hstart,
        List.mem_append_right _ (List.mem_singleton.2 rfl)⟩
    · exact notes_mono (h.pathJoins p hp) hg.ways
        fun i group hi => forall₂_getElem? (ScopeWidens.extend ht _).tables hi
  ways v hv hin := by
    rcases List.mem_cons.1 hv with rfl | hv
    · exact List.mem_cons_self
    · have hin := (Scope.names_extend_perm ht).mem_iff.1 hin
      rcases List.mem_append.1 hin with hin | hin
      · obtain hin : v.start = fresh := by simpa [associationJoin, equiJoin] using hin
        exact absurd hin (hfresh v hv)
      · exact List.mem_cons_of_mem _ (h.ways v hv hin)
  uncounted := h.uncounted

section Ways

variable {place : Place} {name aliasName : String} {association : Mapping.ToOne}
  {target : Mapping.Entity} {scope : Scope} {table : FromItem}

/-- A way that is found again is the same way, and its join hangs on the table of its start. -/
theorem way_again (hm : c.model.HasAsciiNames) (hs : s.Sound) (hg : s.Traced c.model g)
    (hd : s.scopes[place.depth]? = some scope) (ha : scope.Holds place.item place.aliasName)
    (he : g.entity place.aliasName = some place.entity)
    (hname : place.entity.property name = .ok (.toOne association))
    (htarget : c.model.entity association.target = .ok target)
    (hl : scope.pathJoins.lookup (pathKey place association) = some aliasName) :
    g.entity aliasName = some target ∧ ⟨place.aliasName, association, aliasName⟩ ∈ g.ways ∧
      ∃ group, scope.tables[place.item]? = some group ∧
        associationJoin place association target aliasName ∈ group.joins := by
  have hscope := hg.scopes scope (List.mem_of_getElem? hd)
  obtain ⟨association', target', item, group, hlower, hway, htarget', hgroup, hstart, hj⟩ :=
    hscope.pathJoins _ (mem_of_lookup hl)
  obtain ⟨owner, name', target'', howner, hname', htarget'', hentity⟩ := hg.goes _ hway
  obtain rfl : place.entity = owner := Option.some.inj (he.symm.trans howner)
  obtain rfl : association = association' :=
    Mapping.Model.association_unique hm (hg.known _ _ he).1 hname hname' hlower
  obtain rfl : target = target' := Except.ok.inj (htarget.symm.trans htarget')
  obtain rfl : target = target'' := Except.ok.inj (htarget.symm.trans htarget'')
  obtain rfl : place.item = item := ha.unique (hs.names_nodup hd) ⟨group, hgroup, hstart⟩
  exact ⟨hentity, hway, group, hgroup, hj⟩

/-- No way of the trace is like one that its scope has not noted. -/
theorem way_unlike (hg : s.Traced c.model g) (hd : s.scopes[place.depth]? = some scope)
    (ha : scope.Holds place.item place.aliasName)
    (hl : scope.pathJoins.lookup (pathKey place association) = none) {v : Way} (hv : v ∈ g.ways)
    (hstart : v.start = place.aliasName) : v.association ≠ association := by
  rintro rfl
  have hfound := (hg.scopes scope (List.mem_of_getElem? hd)).ways v hv (hstart ▸ ha.mem_names)
  rw [hstart] at hfound
  simpa [pathKey] using List.lookup_eq_none_iff.1 hl _ hfound

/-- A new way is joined under an alias at which no way starts and to which none leads. -/
theorem way_new (hs : s.Sound) (hg : s.Traced c.model g)
    (hd : s.scopes[place.depth]? = some scope) (ht : scope.tables[place.item]? = some table)
    (hmem : place.aliasName ∈ table.names) (he : g.entity place.aliasName = some place.entity)
    (hname : place.entity.property name = .ok (.toOne association))
    (htarget : c.model.entity association.target = .ok target)
    (hl : scope.pathJoins.lookup (pathKey place association) = none) :
    Passes c.model s (s.allot.modifyScope place.depth (Scope.addPathJoin place.item
      (pathKey place association) (associationJoin place association target s.fresh))) g
      (g.join ⟨place.aliasName, association, s.fresh⟩ target) := by
  have hnone : g.entity s.fresh = none := hg.entity_eq_none s.fresh_allotted
  have hgrows := Trace.grows_join (w := ⟨place.aliasName, association, s.fresh⟩) hnone target
  have ha : scope.Holds place.item place.aliasName := ⟨table, ht, hmem⟩
  have hscope := hg.scopes scope (List.mem_of_getElem? hd)
  refine ⟨forall₂_modify ScopeWidens.refl hd ⟨rfl, (ScopeWidens.extend ht _).tables⟩, hgrows,
    fun other hother => ?_, fun v hv => ?_, fun a e hae => ?_,
    hg.shared.cons (fun v hv => (hg.way_allotted hv).2.ne s.fresh_allotted)
      fun v hv => way_unlike hg hd ha hl hv⟩
  · rcases mem_modify hd hother with ⟨j, hj, hother⟩ | rfl
    · -- The new way starts at an alias of the changed scope, so the others need not note it.
      refine (hg.scopes other (List.mem_of_getElem? hother)).mono hgrows fun v hv hin => ?_
      rcases List.mem_cons.1 hv with rfl | hv
      · exact absurd (index_eq_of_nodup_flatMap hs.nodup hother hd hin ha.mem_names) hj
      · exact hv
    · exact hscope.addPathJoin ht hmem htarget hgrows
        fun v hv => (hg.way_allotted hv).1.ne s.fresh_allotted
  · rcases List.mem_cons.1 hv with rfl | hv
    · exact ⟨place.entity, name, target, hgrows.entity _ _ he, hname, htarget,
        Trace.name_entity ..⟩
    · exact (hg.goes v hv).mono hgrows
  · rcases Trace.entity_name hae with hae | ⟨rfl, rfl⟩
    · exact (hg.known a e hae).imp_right (·.mono (Nat.le_refl _) (Nat.le_succ _))
    · exact ⟨⟨_, htarget⟩, s.fresh_allotted.mono (Nat.zero_le _) (Nat.le_refl _)⟩

/-- A walk along an association either goes a way again or goes a new one. -/
theorem joinAlong_passes (hm : c.model.HasAsciiNames) (hs : s.Sound) (hp : place.StandsIn s)
    (hg : s.Traced c.model g) (he : g.entity place.aliasName = some place.entity)
    (hname : place.entity.property name = .ok (.toOne association))
    (htarget : c.model.entity association.target = .ok target)
    (h : joinAlong c place association target s = .ok (aliasName, t)) :
    ∃ g', Passes c.model s t g g' ∧ g'.entity aliasName = some target ∧
      ⟨place.aliasName, association, aliasName⟩ ∈ g'.ways ∧
      ∃ scope group, t.scopes[place.depth]? = some scope ∧
        scope.tables[place.item]? = some group ∧
        associationJoin place association target aliasName ∈ group.joins := by
  obtain ⟨scope', hd', ha⟩ := hp
  obtain ⟨scope, hd, -, ⟨hl, rfl⟩ | ⟨hl, ⟨table, ht⟩, rfl, rfl⟩⟩ := joinAlong_ok_iff.1 h
  all_goals obtain rfl : scope = scope' := by simpa [hd] using hd'
  · obtain ⟨hentity, hway, group, hgroup, hj⟩ :=
      way_again hm hs hg hd ha he hname htarget hl
    exact ⟨g, Passes.refl hg, hentity, hway, scope, group, hd, hgroup, hj⟩
  · obtain ⟨table', ht', hmem⟩ := ha
    obtain rfl : table = table' := by simpa [ht] using ht'
    exact ⟨_, way_new hs hg hd ht hmem he hname htarget hl, Trace.name_entity ..,
      List.mem_cons_self, _, table.extend _, s.allot.get_modifyScope hd _,
      Scope.get_extend ht _, List.mem_append_right _ (List.mem_singleton.2 rfl)⟩

end Ways

/-! ## What becomes of open queries -/

/-- A setting in which the open scopes have got all their joins, and paths all their ways. -/
structure Setting.Completes (σ : Setting) (model : Mapping.Model) (t : LoweringState) (g : Trace) :
    Prop where
  model : σ.model = model
  ways : ∀ w ∈ g.ways, σ.ways w
  queries : List.Forall₂ (fun scope query => query.bindings = scope.bindings ∧
    List.Forall₂ Widens scope.tables query.tables) t.scopes σ.queries

namespace Setting.Completes

variable {σ : Setting} {model : Mapping.Model} {g g' : Trace}

theorem before (h : σ.Completes model t g') (hp : Passes model s t g g') : σ.Completes model s g :=
  ⟨h.model, fun w hw => h.ways w (hp.grows.ways hw), forall₂_trans (P := ScopeWidens)
    (fun _ _ _ h₁ h₂ => ⟨h₂.1.trans h₁.bindings,
      forall₂_trans (P := Widens) (Q := Widens) (fun _ _ _ h₁ h₂ => h₁.trans h₂) h₁.tables h₂.2⟩)
    hp.widens h.queries⟩

end Setting.Completes

/-- The table in the end that a place belongs to. -/
def Place.group? (place : Place) (σ : Setting) : Option FromItem :=
  σ.queries[place.depth]?.bind fun query => query.tables[place.item]?

theorem Setting.Completes.group {σ : Setting} {model : Mapping.Model} {scope : Scope}
    {group : FromItem} (h : σ.Completes model s g) (place : Place)
    (hd : s.scopes[place.depth]? = some scope) (hi : scope.tables[place.item]? = some group) :
    ∃ group', place.group? σ = some group' ∧ Widens group group' := by
  obtain ⟨query, hq, -, htables⟩ := forall₂_getElem? h.queries hd
  obtain ⟨group', hg, hw⟩ := forall₂_getElem? htables hi
  exact ⟨group', by simp [Place.group?, hq, hg], hw⟩

/-- The bindings of a query in the end are those of its scope. -/
theorem innermost_of_findBinding {name : String} {binding : Binding} {scopes : List Scope}
    {queries : List OpenQuery} {depth : Nat}
    (hq : List.Forall₂ (fun (scope : Scope) (query : OpenQuery) =>
      query.bindings = scope.bindings) scopes queries)
    (h : Lower.findBinding name scopes = some (depth, binding)) :
    ∃ query, queries[depth]? = some query ∧ innermost name queries = some (query, binding) := by
  induction hq generalizing depth with
  | nil => simp [Lower.findBinding] at h
  | @cons scope query _ _ hbindings _ ih =>
    unfold Lower.findBinding at h
    unfold innermost
    rw [hbindings]
    cases hl : scope.bindings.lookup name with
    | some b =>
      simp only [hl, Option.some.injEq, Prod.mk.injEq] at h
      obtain ⟨rfl, rfl⟩ := h
      exact ⟨query, rfl, rfl⟩
    | none =>
      simp only [hl, Option.map_eq_some_iff, Prod.exists, Prod.mk.injEq] at h
      obtain ⟨d, b, hf, rfl, rfl⟩ := h
      obtain ⟨found, hd, hi⟩ := ih hf
      exact ⟨found, hd, hi⟩

/-! ## Walks -/

theorem walk_passes {path : Path} (hm : c.model.HasAsciiNames) : ∀ {names : List String}
    {place place' : Place} {s t : LoweringState} {g : Trace}, s.Sound → place.StandsIn s →
      s.Traced c.model g → g.entity place.aliasName = some place.entity →
      walk c path place names s = .ok (place', t) →
      ∃ g', Passes c.model s t g g' ∧ place'.depth = place.depth ∧ place'.item = place.item ∧
        ∀ σ group, Setting.Completes σ c.model t g' → place.group? σ = some group →
          σ.Chain group place.entity place.aliasName names place'.entity place'.aliasName
  | [], place, _, s, _, g, hs, hp, hg, he, h => by
    obtain ⟨rfl, rfl⟩ := Prod.mk.inj (Lower.pure_ok_iff.1 h)
    exact ⟨g, Passes.refl hg, rfl, rfl, fun _ _ _ _ => ⟨rfl, rfl⟩⟩
  | name :: rest, place, _, s, _, g, hs, hp, hg, he, h => by
    simp only [walk, Lower.bind_ok_iff] at h
    obtain ⟨next, u, hstep, h⟩ := h
    obtain ⟨association, target, aliasName, hname, htarget, hj, rfl⟩ := step_ok_iff.1 hstep
    obtain ⟨hk, hp'⟩ := joinAlong_keeps hs hp hj
    obtain ⟨g₁, h₁, he', hway, scope, group, hd, hi, hjoin⟩ :=
      joinAlong_passes hm hs hp hg he hname htarget hj
    obtain ⟨g₂, h₂, hdepth, hitem, hchain⟩ := walk_passes hm hk.sound hp' h₁.traced he' h
    refine ⟨g₂, h₁.trans h₂, hdepth, hitem, fun σ group' hσ hgroup' => ?_⟩
    obtain ⟨group'', hgroup'', hw⟩ := (hσ.before h₂).group place hd hi
    obtain rfl : group' = group'' := Option.some.inj (hgroup'.symm.trans hgroup'')
    exact ⟨association, target, aliasName, hname, hσ.model ▸ htarget,
      hσ.ways _ (h₂.grows.ways hway), hw.joins_subset hjoin, hchain σ group' hσ hgroup'⟩

end Entity

end SqlDialects
