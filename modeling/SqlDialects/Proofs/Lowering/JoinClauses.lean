import SqlDialects.Proofs.Lowering.PathJoins
import SqlDialects.Proofs.Rendering.JoinClauses
import SqlDialects.Proofs.Rendering.WellFormed

/-!
# Join clauses of lowered queries

Every join that the lowering makes has a condition, also if a cross join is asked for. So the text
has a well-formed join clause for each join but these.
-/

namespace SqlDialects

open Sql (FromItem Join JoinClause everyKey)
open scoped List

namespace Entity

variable {c : LoweringContext} {model : Mapping.Model} {s t : LoweringState}

/-! ## Joins that a query asks for -/

def QuerySpec.joins (source : QuerySpec) : List PathJoin := source.roots.flatMap (·.joins)

/-- The tables that a join leads to are joined by its kind. -/
structure PathJoin.Makes (join : PathJoin) (joins : List Join) : Prop where
  ne_nil : joins ≠ []
  kinds : ∀ made ∈ joins, made.kind = join.kind

/-- The query has joins for each join that the source asks for, and inner and left ones. -/
def QuerySpec.JoinsAs (source : QuerySpec) (spec : Sql.QuerySpec) : Prop :=
  ∃ (asked : List (List Join)) (added : List Join), List.Forall₂ PathJoin.Makes source.joins asked ∧
    (∀ join ∈ added, join.kind = .inner ∨ join.kind = .left) ∧
    spec.joins.Perm (asked.flatten ++ added)

theorem joinsTo_makesJoins {join : PathJoin} {place : Place} {property : Mapping.Property}
    {entity : Mapping.Entity} {aliasName : String} {joins : List Join}
    (h : joinsTo c join place property s = .ok ((entity, aliasName, joins), t)) :
    join.Makes joins := by
  rcases joinsTo_ok h with ⟨_, -, -, -, -, rfl⟩ |
    ⟨_, -, -, ⟨_, -, -, -, rfl⟩ | ⟨_, _, _, -, -, -, rfl⟩⟩
  · exact ⟨List.cons_ne_nil _ _, by simp [equiJoin]⟩
  · exact ⟨List.cons_ne_nil _ _, by simp [equiJoin]⟩
  · exact ⟨List.cons_ne_nil _ _, by simp [equiJoin]⟩

/-- The joins of the innermost query. -/
def LoweringState.openJoins (s : LoweringState) : List Join := s.scopes.head?.elim [] Scope.joins

namespace LoweringState

theorem openJoins_of_scopes (h : t.scopes = s.scopes) : t.openJoins = s.openJoins := by
  rw [openJoins, h, openJoins]

theorem openJoins_modifyScope {change : Scope → Scope}
    (h : ∀ scope, (change scope).joins = scope.joins) :
    (s.modifyScope 0 change).openJoins = s.openJoins := by
  obtain ⟨_, _ | ⟨scope, rest⟩⟩ := s
  · rfl
  · exact h scope

theorem openJoins_bind {name : String} {binding : Binding} :
    (s.modifyScope 0 (Scope.bind name binding)).openJoins = s.openJoins :=
  openJoins_modifyScope fun _ => rfl

/-- A root alone has no joins. -/
theorem openJoins_addTable {root : TableReference} :
    (s.modifyScope 0 (Scope.addTable { root })).openJoins = s.openJoins :=
  openJoins_modifyScope fun scope => by simp [Scope.addTable, Scope.joins]

theorem openJoins_extend {scope : Scope} {item : Nat} {table : FromItem} {joins : List Join}
    (hd : s.scopes[0]? = some scope) (ht : scope.tables[item]? = some table) :
    (s.modifyScope 0 (Scope.extend item joins)).openJoins ~ joins ++ s.openJoins := by
  obtain ⟨_, _ | ⟨first, rest⟩⟩ := s
  · cases hd
  · obtain rfl := Option.some.inj hd
    exact flatMap_modify_perm ht List.perm_append_comm

end LoweringState

theorem lowerJoin_joins {join : PathJoin} (h : lowerJoin c join s = .ok ((), t)) :
    ∃ made, join.Makes made ∧ t.openJoins.Perm (made ++ s.openJoins) := by
  rcases hp : join.path.properties with _ | ⟨name, _ | ⟨_, _⟩⟩
  all_goals simp only [lowerJoin, hp, Lower.malformed_ok_iff] at h
  simp only [Lower.bind_ok_iff, Lower.property_ok_iff, Lower.addJoins_ok_iff,
    Lower.bindVariable_ok_iff] at h
  obtain ⟨place, _, hn, property, _, ⟨-, rfl⟩, ⟨entity, aliasName, joins⟩, v, hj, _, _,
    ⟨⟨scope, table, hd, ht⟩, rfl⟩, rfl⟩ := h
  obtain rfl := navigate_zero_ok hn
  refine ⟨joins, joinsTo_makesJoins hj, ?_⟩
  rw [LoweringState.openJoins_bind,
    ← LoweringState.openJoins_of_scopes (joinsTo_goesOut hj).scopes]
  exact LoweringState.openJoins_extend hd ht

theorem lowerJoins_joins : ∀ {joins : List PathJoin} {s t : LoweringState},
    lowerJoins c joins s = .ok ((), t) → ∃ made, List.Forall₂ PathJoin.Makes joins made ∧
      t.openJoins.Perm (made.flatten ++ s.openJoins)
  | [], _, _, h => by
    obtain ⟨-, rfl⟩ := Prod.mk.inj (Lower.pure_ok_iff.1 h)
    exact ⟨[], .nil, .refl _⟩
  | join :: rest, s, t, h => by
    simp only [lowerJoins, Lower.bind_ok_iff] at h
    obtain ⟨_, u, hj, h⟩ := h
    obtain ⟨first, hfirst, hu⟩ := lowerJoin_joins hj
    obtain ⟨made, hmade, ht⟩ := lowerJoins_joins h
    refine ⟨first :: made, .cons hfirst hmade, ?_⟩
    calc t.openJoins
      _ ~ made.flatten ++ u.openJoins := ht
      _ ~ made.flatten ++ (first ++ s.openJoins) := hu.append_left _
      _ ~ first ++ (made.flatten ++ s.openJoins) := List.perm_append_comm_assoc _ _ _
      _ = (first :: made).flatten ++ s.openJoins := by rw [List.flatten_cons, List.append_assoc]

theorem lowerRoots_joins : ∀ {roots : List Root} {item : Nat} {s t : LoweringState},
    lowerRoots c item roots s = .ok ((), t) → ∃ made,
      List.Forall₂ PathJoin.Makes (roots.flatMap (·.joins)) made ∧
        t.openJoins.Perm (made.flatten ++ s.openJoins)
  | [], _, _, _, h => by
    obtain ⟨-, rfl⟩ := Prod.mk.inj (Lower.pure_ok_iff.1 h)
    exact ⟨[], .nil, .refl _⟩
  | root :: rest, item, s, t, h => by
    simp only [lowerRoots, Lower.bind_ok_iff, Lower.entity_ok_iff, Lower.freshAlias_ok_iff,
      Lower.addTable_ok_iff, Lower.bindVariable_ok_iff, Prod.mk.injEq] at h
    obtain ⟨entity, _, ⟨-, rfl⟩, _, _, ⟨rfl, rfl⟩, _, _, rfl, _, _, rfl, _, u, hj, h⟩ := h
    obtain ⟨first, hfirst, hu⟩ := lowerJoins_joins hj
    obtain ⟨made, hmade, ht⟩ := lowerRoots_joins h
    rw [LoweringState.openJoins_bind, LoweringState.openJoins_addTable,
      LoweringState.openJoins_of_scopes s.allot_scopes] at hu
    refine ⟨first ++ made, List.rel_append hfirst hmade, ?_⟩
    calc t.openJoins
      _ ~ made.flatten ++ u.openJoins := ht
      _ ~ made.flatten ++ (first.flatten ++ s.openJoins) := hu.append_left _
      _ ~ first.flatten ++ (made.flatten ++ s.openJoins) := List.perm_append_comm_assoc _ _ _
      _ = (first ++ made).flatten ++ s.openJoins := by
        rw [List.flatten_append, List.append_assoc]

/-! ## Joins that a query has -/

theorem HangsOn.on_ne_none : ∀ {joins : List Join} {visible : List String},
    HangsOn visible joins → ∀ join ∈ joins, join.on ≠ none
  | [], _, _ => nofun
  | _ :: _, _, ⟨⟨_, _, _, _, _, _, _, rfl⟩, h⟩ =>
    List.forall_mem_cons.2 ⟨Option.some_ne_none _, h.on_ne_none⟩

/-- What tables gain are inner joins and left ones. -/
theorem exists_added {tables tables' : List FromItem}
    (h : List.Forall₂ (FromItem.Gains model) tables tables') :
    ∃ added : List Join, (∀ join ∈ added, join.kind = .inner ∨ join.kind = .left) ∧
      (tables'.flatMap (·.joins)).Perm (tables.flatMap (·.joins) ++ added) := by
  induction h with
  | nil => exact ⟨[], nofun, .refl _⟩
  | @cons item item' tables tables' hgains _ ih =>
    obtain ⟨joins, hjoins, -, hkinds⟩ := hgains.joins
    obtain ⟨added, hadded, hperm⟩ := ih
    refine ⟨joins ++ added, List.forall_mem_append.2 ⟨fun join hj => ?_, hadded⟩, ?_⟩
    · rcases hkinds join hj with ⟨_, _, _, _, -, -, _, _, rfl⟩ | hkind
      · exact .inl rfl
      · exact .inr hkind
    · rw [List.flatMap_cons, List.flatMap_cons, hjoins, List.append_assoc, List.append_assoc]
      exact ((hperm.append_left _).trans (List.perm_append_comm_assoc _ _ _)).append_left _

/-- A query has the joins that its source asks for, and each of its joins has a condition. -/
theorem QuerySpec.lower_joins {source : QuerySpec} {d : Dialect} {spec : Sql.QuerySpec}
    (hs : s.Sound) (hrun : source.lower { dialect := d, model } s = .ok (spec, t)) :
    source.JoinsAs spec ∧ ∀ join ∈ spec.joins, join.on ≠ none := by
  obtain ⟨u, last, hopens, ⟨hcourse, -⟩, htables, -⟩ :=
    source.lower_runs (c := { dialect := d, model }) hrun
  have hk := lowerRoots_keeps (hs.enter _) ⟨_, rfl, rfl⟩ rfl hopens
  obtain ⟨first, hu, -⟩ := lowerRoots_scopes hopens
  have hgains := hcourse.gains hk.sound
  rw [Gains, hu] at hgains
  obtain ⟨asked, hasked, hperm⟩ := lowerRoots_joins hopens
  obtain ⟨added, hadded, hperm'⟩ := exists_added (List.forall₂_cons.1 hgains).1.tables
  have hopened : first.joins ~ asked.flatten := by
    simpa [LoweringState.openJoins, LoweringState.enter, Scope.joins, hu] using hperm
  constructor
  · refine ⟨asked, added, hasked, hadded, ?_⟩
    rw [Sql.QuerySpec.joins, htables]
    exact hperm'.trans (hopened.append_right _)
  · intro join hj
    rw [Sql.QuerySpec.joins, htables] at hj
    obtain ⟨item, hitem, hj⟩ := List.mem_flatMap.1 hj
    exact ((hcourse.keeps hk.sound).sound.scopes.1.joins item hitem).on_ne_none join hj

theorem noCross_of_makes {joins : List PathJoin} {asked : List (List Join)}
    (h : List.Forall₂ PathJoin.Makes joins asked) :
    (∀ made ∈ asked.flatten, made.kind ≠ .cross) ↔ ∀ join ∈ joins, join.kind ≠ .cross := by
  induction h with
  | nil => simp
  | @cons join made joins asked hmakes _ ih =>
    rw [List.flatten_cons, List.forall_mem_append, ih, List.forall_mem_cons]
    refine and_congr_left fun _ => ⟨fun hmade => ?_, fun hkind m hm => ?_⟩
    · obtain ⟨m, hm⟩ := List.exists_mem_of_ne_nil _ hmakes.ne_nil
      rw [← hmakes.kinds m hm]
      exact hmade m hm
    · rw [hmakes.kinds m hm]
      exact hkind

theorem QuerySpec.JoinsAs.noCross_iff {source : QuerySpec} {spec : Sql.QuerySpec}
    (h : source.JoinsAs spec) :
    (∀ join ∈ spec.joins, join.kind ≠ .cross) ↔ ∀ join ∈ source.joins, join.kind ≠ .cross := by
  obtain ⟨asked, added, hasked, hadded, hperm⟩ := h
  have hmore : ∀ join ∈ added, join.kind ≠ .cross := by
    intro join hj
    rcases hadded join hj with hkind | hkind <;> simp [hkind]
  rw [← noCross_of_makes hasked]
  simp only [hperm.mem_iff, List.forall_mem_append]
  exact and_iff_left hmore

/-- Where all joins have conditions, cross joins are the clauses that are not well formed. -/
theorem wellFormed_iff_noCross {body : Sql.QuerySpec} (h : ∀ join ∈ body.joins, join.on ≠ none) :
    (∀ clause ∈ body.joinClauses, clause.IsWellFormed) ↔
      ∀ join ∈ body.joins, join.kind ≠ .cross := by
  rw [Sql.QuerySpec.joinClauses, List.forall_mem_map]
  refine forall₂_congr fun join hj => ?_
  rw [Join.clause_isWellFormed_iff, iff_false_right (h join hj)]

/-! ## Statements -/

theorem joins_of_countsMembers {spec : Sql.QuerySpec} (h : spec.CountsMembers) :
    spec.joins = [] := by
  obtain ⟨table, a, ownerColumn, owner, -, h⟩ := h
  simp only [countQuery, Sql.Expression.subquery.injEq, Sql.Query.spec.injEq] at h
  subst h
  rfl

/-- Wherever a query is written, its from clause consists of join clauses that have exactly one
condition each. If the query joins any tables, it does so as a query of the statement asks for it,
and all its join clauses are well formed exactly if that one asks for no cross join. -/
theorem Statement.lower_joinClauses {statement : Statement} {d : Dialect} {model : Mapping.Model}
    {lowered : Sql.Statement} {config : Sql.TranslationConfig} {t : Sql.Translation}
    (h : statement.lower d model = .ok lowered) (ht : lowered.translate d config = .ok t)
    {site : Sql.Site} {body : Sql.QuerySpec} (hw : lowered.WritesAt d site (.query (.spec body))) :
    (∃ before tables after,
      t = .ofFragment d config (site.around (before ++ .ofText " from " ++ tables ++ after)) ∧
      Sql.Slot.fill site.context
        (Sql.Slot.separated ", " (FromItem.clauseLayouts site.hint body.tables)) = .ok tables) ∧
    (∀ clause ∈ body.joinClauses, clause.conditions.length = 1) ∧
    (body.joinClauses = [] ∨ ∃ source : QuerySpec, source.StandsIn statement ∧
      source.LowersTo d model body ∧ source.JoinsAs body ∧
      ((∀ clause ∈ body.joinClauses, clause.IsWellFormed) ↔
        ∀ join ∈ source.joins, join.kind ≠ .cross)) := by
  obtain ⟨f, hf, rfl⟩ := Sql.Statement.exists_render_of_translate ht
  obtain ⟨g, hg, rfl⟩ := hw.around hf
  obtain ⟨before, tables, after, rfl, htables⟩ := Sql.QuerySpec.exists_from hg
  refine ⟨⟨before, tables, after, rfl, htables⟩, ?_⟩
  obtain ⟨isInner, hshows, -⟩ := hw.shows
  have hspec : body ∈ lowered.specs everyKey :=
    Sql.Statement.specs_subset Sql.everyKey_isFull (Sql.Statement.contains_of_shows hshows)
      (Sql.Node.mem_specs body)
  rcases Statement.lower_arise h body hspec with hcounts | ⟨source, hstands, s, u, hs, hrun⟩
  · have hnone : body.joinClauses = [] := by
      rw [Sql.QuerySpec.joinClauses, joins_of_countsMembers hcounts, List.map_nil]
    exact ⟨by rw [hnone]; exact nofun, .inl hnone⟩
  · obtain ⟨hjoins, hon⟩ := QuerySpec.lower_joins hs hrun
    refine ⟨fun clause hc => ?_, .inr ⟨source, hstands, ⟨s, u, hrun⟩, hjoins, ?_⟩⟩
    · obtain ⟨join, hj, rfl⟩ := List.mem_map.1 hc
      obtain ⟨p, hp⟩ := Option.ne_none_iff_exists'.1 (hon join hj)
      rw [Join.clause, hp, Option.toList_some, List.length_singleton]
    · exact (wellFormed_iff_noCross hon).trans hjoins.noCross_iff

/-- Names of persons, each with all tags. -/
def withEachTag : Statement :=
  .select (.spec
    { select := [⟨.path ⟨"p", ["name"]⟩, none⟩]
      roots := [⟨"Person", "p", [⟨.cross, ⟨"p", ["tags"]⟩, "g"⟩]⟩] }) none

/-- The kinds of the join clauses of a selected query. -/
def clauseKinds : Sql.Statement → List JoinKind
  | .select (.spec body) none => body.joinClauses.map (·.kind)
  | _ => []

theorem withEachTag_cross_with_condition : ∃ (body : Sql.QuerySpec) (t : Sql.Translation),
    withEachTag.lower (Dialect.ofProduct .postgreSql ⟨16, 0, 0⟩) peopleModel =
      .ok (.select (.spec body) none) ∧
    (Sql.Statement.select (.spec body) none).translate (Dialect.ofProduct .postgreSql ⟨16, 0, 0⟩)
      (.ofDialect (Dialect.ofProduct .postgreSql ⟨16, 0, 0⟩)) = .ok t ∧
    t.sql = "select t0.name from person t0 cross join tag t1 on t1.person_id = t0.id" ∧
    ∃ clause ∈ body.joinClauses, clause.kind = .cross ∧ clause.conditions.length = 1 ∧
      ¬ clause.IsWellFormed := by
  obtain ⟨lowered, h, hlowered⟩ : ∃ lowered,
      withEachTag.lower (Dialect.ofProduct .postgreSql ⟨16, 0, 0⟩) peopleModel = .ok lowered ∧
      (clauseKinds lowered, (lowered.translate (Dialect.ofProduct .postgreSql ⟨16, 0, 0⟩)
        (.ofDialect (Dialect.ofProduct .postgreSql ⟨16, 0, 0⟩))).toOption.map (·.sql)) =
      ([.cross],
        some "select t0.name from person t0 cross join tag t1 on t1.person_id = t0.id") :=
    exists_lowered (by decide +kernel)
  obtain ⟨hkinds, htext⟩ := Prod.mk.inj hlowered
  obtain ⟨body, rfl, -⟩ := Statement.lower_select_spec h
  cases ht : (Sql.Statement.select (.spec body) none).translate
      (Dialect.ofProduct .postgreSql ⟨16, 0, 0⟩)
      (.ofDialect (Dialect.ofProduct .postgreSql ⟨16, 0, 0⟩)) with
  | error e => simp [ht, Except.toOption] at htext
  | ok t =>
    obtain ⟨-, hone, -⟩ := Statement.lower_joinClauses h ht (.selected rfl)
    obtain ⟨clause, hclauses, hkind⟩ := List.map_eq_singleton_iff.1 hkinds
    have hmem : clause ∈ body.joinClauses := hclauses ▸ List.mem_singleton.2 rfl
    refine ⟨body, t, h, ht, ?_, clause, hmem, hkind, hone clause hmem, ?_⟩
    · simpa [ht, Except.toOption] using htext
    · rw [JoinClause.IsWellFormed, hone clause hmem, hkind]
      decide

end Entity

end SqlDialects
