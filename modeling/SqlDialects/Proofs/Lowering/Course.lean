import SqlDialects.Proofs.Lowering.Grouping

/-!
# The course of a lowering

While a tree is lowered, paths are walked, sizes are counted, and inner queries are opened and left.
Whatever all of these keep, the lowering of any tree keeps.
-/

namespace SqlDialects.Entity

open Sql (FromItem everyKey)

variable {c : LoweringContext} {model : Mapping.Model} {s t u : LoweringState}

/-! ## Kinds of scopes -/

/-- Whether paths can join tables to each scope, and whether its query has groups. -/
def LoweringState.kinds (s : LoweringState) : List (Bool × Bool) :=
  s.scopes.map fun scope => (scope.allowsPathJoins, scope.isGrouped)

theorem LoweringState.kinds_modifyScope {depth : Nat} {change : Scope → Scope}
    (h : ∀ scope, (change scope).allowsPathJoins = scope.allowsPathJoins ∧
      (change scope).isGrouped = scope.isGrouped) :
    (s.modifyScope depth change).kinds = s.kinds := by
  simp only [kinds, modifyScope_scopes]
  refine List.ext_getElem (by simp) fun i _ _ => ?_
  simp only [List.getElem_map, List.getElem_modify]
  split
  · exact Prod.ext (h _).1 (h _).2
  · rfl

theorem LoweringState.kinds_cons {scope : Scope} {rest : List (Bool × Bool)} {kind : Bool × Bool}
    (h : s.kinds = kind :: rest) (hd : s.scopes[0]? = some scope) :
    scope.allowsPathJoins = kind.1 ∧ scope.isGrouped = kind.2 := by
  have hkind := congrArg (·[0]?) h
  simp only [kinds, List.getElem?_map, hd, Option.map_some, List.getElem?_cons_zero,
    Option.some.injEq] at hkind
  exact Prod.mk.inj hkind

theorem LoweringState.inQuery_of_kinds (h : t.kinds = s.kinds) (hq : s.InQuery) : t.InQuery := by
  obtain ⟨scope, hd, ha⟩ := hq
  have hkind := congrArg (·[0]?) h
  simp only [kinds, List.getElem?_map, hd, Option.map_some, Option.map_eq_some_iff,
    Prod.mk.injEq] at hkind
  obtain ⟨scope', hd', ha', -⟩ := hkind
  exact ⟨scope', hd', ha'.trans ha⟩

theorem walk_kinds {path : Path} : ∀ {names : List String} {place place' : Place}
    {s t : LoweringState}, walk c path place names s = .ok (place', t) → t.kinds = s.kinds
  | [], _, _, _, _, h => by
    obtain ⟨rfl, rfl⟩ := Prod.mk.inj (Lower.pure_ok_iff.1 h)
    rfl
  | name :: rest, _, _, s, _, h => by
    simp only [walk, Lower.bind_ok_iff] at h
    obtain ⟨next, u, hstep, h⟩ := h
    obtain ⟨_, _, _, -, -, hj, rfl⟩ := step_ok_iff.1 hstep
    obtain ⟨_, _, -, ⟨-, rfl⟩ | ⟨-, -, -, rfl⟩⟩ := joinAlong_ok_iff.1 hj
    · exact walk_kinds h
    · exact (walk_kinds h).trans (LoweringState.kinds_modifyScope fun _ => ⟨rfl, rfl⟩)

theorem navigate_kinds {path : Path} {steps : Nat} {place : Place}
    (h : navigate c path steps s = .ok (place, t)) : t.kinds = s.kinds := by
  obtain ⟨_, _, -, h⟩ := navigate_ok_iff.1 h
  exact walk_kinds h

/-- The innermost scope gets these variables and stays of its kind, those around it stay as they
are. -/
structure Binds (names : List String) (s t : LoweringState) : Prop where
  kinds : t.kinds = s.kinds
  tail : t.scopes.tail = s.scopes.tail
  head : ∀ scope ∈ s.scopes.head?, ∃ scope' ∈ t.scopes.head?,
    scope'.pathJoins = scope.pathJoins ∧
      ∀ v, (scope'.bindings.lookup v).isSome ↔ v ∈ names ∨ (scope.bindings.lookup v).isSome

namespace Binds

variable {names names' : List String}

theorem of_scopes (h : t.scopes = s.scopes) : Binds [] s t where
  kinds := congrArg (List.map _) h
  tail := congrArg List.tail h
  head scope hs := ⟨scope, h ▸ hs, rfl, by simp⟩

theorem trans (h : Binds names s t) (h' : Binds names' t u) : Binds (names ++ names') s u where
  kinds := h'.kinds.trans h.kinds
  tail := h'.tail.trans h.tail
  head scope hs := by
    obtain ⟨scope', ht, hp, hb⟩ := h.head scope hs
    obtain ⟨scope'', hu, hp', hb'⟩ := h'.head scope' ht
    refine ⟨scope'', hu, hp'.trans hp, fun v => ?_⟩
    rw [hb', hb, List.mem_append]
    tauto

/-- One variable more, whatever else becomes of the tables. -/
theorem bind (name : String) (binding : Binding) {change : Scope → Scope}
    (h : ∀ scope, (change scope).allowsPathJoins = scope.allowsPathJoins ∧
      (change scope).isGrouped = scope.isGrouped ∧
      (change scope).pathJoins = scope.pathJoins ∧ (change scope).bindings = scope.bindings) :
    Binds [name] s (s.modifyScope 0 (Scope.bind name binding ∘ change)) where
  kinds := LoweringState.kinds_modifyScope fun scope => ⟨(h scope).1, (h scope).2.1⟩
  tail := by rcases s with ⟨_, _ | ⟨_, _⟩⟩ <;> rfl
  head scope hs := by
    obtain ⟨_, _ | ⟨first, rest⟩⟩ := s
    · cases hs
    · obtain rfl := Option.some.inj hs
      obtain ⟨-, -, hp, hb⟩ := h first
      refine ⟨_, rfl, hp, fun v => ?_⟩
      simp only [Function.comp_apply, Scope.bind, hb, List.lookup_cons, List.mem_singleton]
      by_cases hv : v = name
      · simp [hv]
      · simp only [beq_false_of_ne hv, hv, false_or]

end Binds

theorem navigate_zero_ok {path : Path} {place : Place}
    (h : navigate c path 0 s = .ok (place, t)) : t = s := by
  obtain ⟨_, _, -, h⟩ := navigate_ok_iff.1 h
  exact (Prod.mk.inj (Lower.pure_ok_iff.1 h)).2

theorem lowerJoin_binds {join : PathJoin} (h : lowerJoin c join s = .ok ((), t)) :
    Binds [join.aliasName] s t := by
  rcases hp : join.path.properties with _ | ⟨name, _ | ⟨_, _⟩⟩
  all_goals simp only [lowerJoin, hp, Lower.malformed_ok_iff] at h
  simp only [Lower.bind_ok_iff, Lower.property_ok_iff, Lower.addJoins_ok_iff,
    Lower.bindVariable_ok_iff] at h
  obtain ⟨place, _, hn, property, _, ⟨-, rfl⟩, ⟨entity, aliasName, joins⟩, v, hj, _, _,
    ⟨-, rfl⟩, rfl⟩ := h
  obtain rfl := navigate_zero_ok hn
  rw [LoweringState.modifyScope_modifyScope]
  exact (Binds.of_scopes (joinsTo_goesOut hj).scopes).trans
    (.bind _ _ fun _ => ⟨rfl, rfl, rfl, rfl⟩)

theorem lowerJoins_binds : ∀ {joins : List PathJoin} {s t : LoweringState},
    lowerJoins c joins s = .ok ((), t) → Binds (joins.map (·.aliasName)) s t
  | [], _, _, h => by
    obtain ⟨-, rfl⟩ := Prod.mk.inj (Lower.pure_ok_iff.1 h)
    exact .of_scopes rfl
  | join :: rest, _, _, h => by
    simp only [lowerJoins, Lower.bind_ok_iff] at h
    obtain ⟨_, _, hj, h⟩ := h
    exact (lowerJoin_binds hj).trans (lowerJoins_binds h)

theorem lowerRoots_binds : ∀ {roots : List Root} {item : Nat} {s t : LoweringState},
    lowerRoots c item roots s = .ok ((), t) → Binds (roots.flatMap Root.variables) s t
  | [], _, _, _, h => by
    obtain ⟨-, rfl⟩ := Prod.mk.inj (Lower.pure_ok_iff.1 h)
    exact .of_scopes rfl
  | root :: rest, item, s, t, h => by
    simp only [lowerRoots, Lower.bind_ok_iff, Lower.entity_ok_iff, Lower.freshAlias_ok_iff,
      Lower.addTable_ok_iff, Lower.bindVariable_ok_iff, Prod.mk.injEq] at h
    obtain ⟨entity, _, ⟨-, rfl⟩, _, _, ⟨rfl, rfl⟩, _, _, rfl, _, _, rfl, _, u, hj, h⟩ := h
    rw [LoweringState.modifyScope_modifyScope] at hj
    have hallot : Binds [] s s.allot := .of_scopes s.allot_scopes
    have hroot {binding : Binding} {table : FromItem} : Binds [root.aliasName] s.allot
        (s.allot.modifyScope 0 (Scope.bind root.aliasName binding ∘ Scope.addTable table)) :=
      .bind _ _ fun _ => ⟨rfl, rfl, rfl, rfl⟩
    exact hallot.trans (hroot.trans ((lowerJoins_binds hj).trans (lowerRoots_binds h)))

/-- The roots of a query bind its variables in a scope of their own, and leave the scopes around it
alone. -/
theorem lowerRoots_scopes {roots : List Root} {isGrouped : Bool}
    (h : lowerRoots c 0 roots (s.enter isGrouped) = .ok ((), t)) :
    ∃ scope, t.scopes = scope :: s.scopes ∧ scope.pathJoins = [] ∧
      ∀ v, (scope.bindings.lookup v).isSome ↔ v ∈ roots.flatMap Root.variables := by
  obtain ⟨-, htail, hhead⟩ := lowerRoots_binds h
  obtain ⟨scope, ht, hp, hb⟩ := hhead _ rfl
  refine ⟨scope, ?_, hp, fun v => (hb v).trans (by simp)⟩
  rw [← List.cons_head?_tail ht, htail]
  rfl

theorem lowerSize_kinds {path : Path} {e : Sql.Expression}
    (h : lowerSize c path s = .ok (e, t)) : t.kinds = s.kinds := by
  obtain ⟨_, place, u, collection, element, -, hn, -, -, h⟩ := lowerSize_ok_iff.1 h
  rw [← navigate_kinds hn]
  split at h
  case isTrue =>
    obtain ⟨scope, -, -, -, -, -, rfl⟩ := countJoined_ok h
    exact LoweringState.kinds_modifyScope fun _ => ⟨rfl, rfl⟩
  case isFalse =>
    obtain ⟨-, rfl⟩ := h
    rfl

/-! ## Courses -/

/-- The roots of the query are lowered in a new scope, before its other clauses. -/
def QuerySpec.Opens (c : LoweringContext) (source : QuerySpec) (s t : LoweringState) : Prop :=
  lowerRoots c 0 source.roots
    (s.enter (isGrouped source.select source.groupBy source.having)) = .ok ((), t)

/-- How the lowering of a tree goes from one state to another. Sizes that are counted by joins are
those of an open query. -/
inductive Course (model : Mapping.Model) : LoweringState → LoweringState → Prop
  | refl (s : LoweringState) : Course model s s
  | trans {s t u : LoweringState} (h : Course model s t) (h' : Course model t u) : Course model s u
  | navigate {s t : LoweringState} {c : LoweringContext} {path : Path} {steps : Nat} {place : Place}
    (hm : c.model = model) (h : navigate c path steps s = .ok (place, t)) : Course model s t
  | size {s t : LoweringState} {c : LoweringContext} {path : Path} {e : Sql.Expression}
    (hm : c.model = model) (hq : c.isInSelect = true → s.InQuery)
    (h : lowerSize c path s = .ok (e, t)) : Course model s t
  | query {s t u : LoweringState} {c : LoweringContext} {roots : List Root} {isGrouped : Bool}
    {scope : Scope} (hm : c.model = model)
    (hr : lowerRoots c 0 roots (s.enter isGrouped) = .ok ((), u))
    (h : Course model u { t with scopes := scope :: t.scopes }) : Course model s t

namespace Course

theorem kinds (h : Course model s t) : t.kinds = s.kinds := by
  induction h with
  | refl => rfl
  | trans _ _ ih ih' => exact ih'.trans ih
  | navigate _ h => exact navigate_kinds h
  | size _ _ h => exact lowerSize_kinds h
  | query _ hr _ ih => exact (List.cons.inj (ih.trans (lowerRoots_binds hr).kinds)).2

theorem inQuery (h : Course model s t) (hq : s.InQuery) : t.InQuery :=
  LoweringState.inQuery_of_kinds h.kinds hq

theorem keeps (h : Course model s t) (hs : s.Sound) : Keeps s t := by
  induction h with
  | refl => exact .refl hs
  | trans _ _ ih ih' => exact (ih hs).trans (ih' (ih hs).sound)
  | navigate _ h => exact (navigate_keeps hs h).1
  | size _ hq h => exact (lowerSize_yields ⟨hs, hq⟩ h).toKeeps
  | query _ hr _ ih =>
    have hk := lowerRoots_keeps (hs.enter _) ⟨_, rfl, rfl⟩ rfl hr
    exact (hk.trans (ih hk.sound)).leave

end Course

/-! ## Queries from sound states -/

/-- The query counts members, or a query that stands in one of the nodes has been lowered to it from
a sound state. -/
def Arises (d : Dialect) (model : Mapping.Model) (nodes : List Node) (spec : Sql.QuerySpec) :
    Prop :=
  spec.CountsMembers ∨ ∃ source : QuerySpec,
    (∃ n ∈ nodes, (Node.query (.spec source)).Within n) ∧
      ∃ s t, s.Sound ∧ source.lower { dialect := d, model } s = .ok (spec, t)

/-- All of the queries arise from the nodes. -/
def Arise (c : LoweringContext) (nodes : List Node) (specs : List Sql.QuerySpec) : Prop :=
  ∀ spec ∈ specs, Arises c.dialect c.model nodes spec

namespace Arise

variable {nodes nodes' : List Node} {specs specs' : List Sql.QuerySpec}

theorem nil : Arise c nodes [] := nofun

theorem mono (h : Arise c nodes specs) (hn : nodes ⊆ nodes') : Arise c nodes' specs :=
  fun spec hs => (h spec hs).imp_right fun ⟨source, ⟨n, hmem, hwithin⟩, h⟩ =>
    ⟨source, ⟨n, hn hmem, hwithin⟩, h⟩

theorem append (h : Arise c nodes specs) (h' : Arise c nodes' specs') :
    Arise c (nodes ++ nodes') (specs ++ specs') :=
  List.forall_mem_append.2
    ⟨h.mono (List.subset_append_left _ _), h'.mono (List.subset_append_right _ _)⟩

theorem up {n : Node} (h : Arise c n.children specs) : Arise c [n] specs :=
  fun spec hs => (h spec hs).imp_right fun ⟨source, ⟨_, hmem, hwithin⟩, h⟩ =>
    ⟨source, ⟨n, List.mem_singleton.2 rfl, hwithin.tail hmem⟩, h⟩

end Arise

/-! ## Visits of paths -/

/-- So many names of the path are joined: all but the last one, or all but the last two, if the last
one is the id that a foreign key refers to. -/
def Path.Joins (path : Path) (model : Mapping.Model) (steps : Nat) : Prop :=
  steps = path.properties.length - 1 ∨ steps + 2 = path.properties.length ∧
    ∃ target last, model.Has target ∧ path.properties.getLast? = some last ∧
      Text.sameName target.id.name last = true

/-- The path is walked on the course from one state to another, but in no query that is opened there
and binds its variable. -/
inductive Visits (model : Mapping.Model) (path : Path) : LoweringState → LoweringState → Prop
  | before {s t u : LoweringState} (h : Course model s t) (h' : Visits model path t u) :
    Visits model path s u
  | after {s t u : LoweringState} (h : Visits model path s t) (h' : Course model t u) :
    Visits model path s u
  | walk {s t : LoweringState} {c : LoweringContext} {steps : Nat} {place : Place}
    (hm : c.model = model) (hj : path.Joins model steps)
    (h : navigate c path steps s = .ok (place, t)) : Visits model path s t
  | size {s t : LoweringState} {c : LoweringContext} {e : Sql.Expression} (hm : c.model = model)
    (hq : c.isInSelect = true → s.InQuery) (h : lowerSize c path s = .ok (e, t)) :
    Visits model path s t
  | query {s t u : LoweringState} {c : LoweringContext} {roots : List Root} {isGrouped : Bool}
    {scope : Scope} (hm : c.model = model) (hfree : path.start ∉ roots.flatMap Root.variables)
    (hr : lowerRoots c 0 roots (s.enter isGrouped) = .ok ((), u))
    (h : Visits model path u { t with scopes := scope :: t.scopes }) : Visits model path s t

theorem Visits.course {path : Path} (h : Visits model path s t) : Course model s t := by
  induction h with
  | before h _ ih => exact h.trans ih
  | after _ h ih => exact ih.trans h
  | walk hm _ h => exact .navigate hm h
  | size hm hq h => exact .size hm hq h
  | query hm _ hr _ ih => exact .query hm hr ih

/-- A course on which all paths of the nodes are walked. -/
structure Traverses (model : Mapping.Model) (nodes : List Node) (s t : LoweringState) : Prop where
  course : Course model s t
  visits : ∀ n ∈ nodes, ∀ path, n.Uses path → Visits model path s t

namespace Traverses

variable {nodes nodes' : List Node}

theorem nil (h : Course model s t) : Traverses model [] s t := ⟨h, nofun⟩

theorem mono (h : Traverses model nodes s t) (hn : nodes' ⊆ nodes) : Traverses model nodes' s t :=
  ⟨h.course, fun n hmem => h.visits n (hn hmem)⟩

theorem trans (h : Traverses model nodes s t) (h' : Traverses model nodes' t u) :
    Traverses model (nodes ++ nodes') s u where
  course := h.course.trans h'.course
  visits := List.forall_mem_append.2
    ⟨fun n hmem path hu => (h.visits n hmem path hu).after h'.course,
      fun n hmem path hu => .before h.course (h'.visits n hmem path hu)⟩

theorem up {n : Node} (hn : n.path? = none) (h : Traverses model n.children s t) :
    Traverses model [n] s t where
  course := h.course
  visits := List.forall_mem_singleton.2 fun path hu => by
    obtain ⟨m, hm, hu⟩ := hu.exists_child hn
    exact h.visits m hm path hu

end Traverses

/-- Only its own path is used in a node that is one. -/
theorem Traverses.of_path {n : Node} {path : Path} (hn : n.path? = some path)
    (hc : n.children = []) (h : Course model s t) (hv : Visits model path s t) :
    Traverses model [n] s t where
  course := h
  visits := List.forall_mem_singleton.2 fun path' hu => by
    cases hu with
    | here hp =>
      obtain rfl := Option.some.inj (hn.symm.trans hp)
      exact hv
    | child hm => simp [hc] at hm

namespace Lower

variable {α β : Type} {x : Lower α} {f : α → Lower β} {g : α → β} {p p' : α → Prop} {q : β → Prop}
  {nodes nodes' : List Node}

/-- If the step goes well, it is a course of the lowering on which the paths of the nodes are
walked. From a sound state it makes something of that kind. -/
def Runs (c : LoweringContext) (nodes : List Node) (x : Lower α) (p : α → Prop) : Prop :=
  ∀ ⦃s t : LoweringState⦄ ⦃a : α⦄, (c.isInSelect = true → s.InQuery) → x s = .ok (a, t) →
    Traverses c.model nodes s t ∧ (s.Sound → p a)

namespace Runs

theorem pure {a : α} (h : p a) : Runs c [] (pure a) p := by
  intro s t b _ hr
  obtain ⟨rfl, rfl⟩ := Prod.mk.inj (pure_ok_iff.1 hr)
  exact ⟨.nil (.refl _), fun _ => h⟩

theorem bind (hx : Runs c nodes x p) (hf : ∀ a, Runs c nodes' (f a) fun b => p a → q b) :
    Runs c (nodes ++ nodes') (x >>= f) q := by
  intro s t b hq hr
  obtain ⟨a, u, hxa, hfb⟩ := bind_ok_iff.1 hr
  obtain ⟨hway, ha⟩ := hx hq hxa
  obtain ⟨hway', hb⟩ := hf a (fun hc => hway.course.inQuery (hq hc)) hfb
  exact ⟨hway.trans hway', fun hs => hb (hway.course.keeps hs).sound (ha hs)⟩

theorem map (hx : Runs c nodes x p) (h : ∀ a, p a → q (g a)) :
    Runs c nodes (x >>= fun a => Pure.pure (g a)) q := by
  intro s t b hq hr
  obtain ⟨a, u, hxa, hb⟩ := bind_ok_iff.1 hr
  obtain ⟨rfl, rfl⟩ := Prod.mk.inj (pure_ok_iff.1 hb)
  obtain ⟨hway, ha⟩ := hx hq hxa
  exact ⟨hway, fun hs => h a (ha hs)⟩

/-- A step that leaves the state alone comes first. -/
theorem next (hx : ∀ s t a, x s = .ok (a, t) → s = t) (hf : ∀ a, Runs c nodes (f a) q) :
    Runs c nodes (x >>= f) q := by
  intro s t b hq hr
  obtain ⟨a, u, hxa, hfb⟩ := bind_ok_iff.1 hr
  obtain rfl := hx s u a hxa
  exact hf a hq hfb

/-- What has been made of the children of a node has been made of the node. -/
theorem up {n : Node} {specs : α → List Sql.QuerySpec} (hn : n.path? = none)
    (h : Runs c n.children x fun a => Arise c n.children (specs a)) :
    Runs c [n] x fun a => Arise c [n] (specs a) := by
  intro s t a hq hr
  obtain ⟨hway, ha⟩ := h hq hr
  exact ⟨hway.up hn, fun hs => (ha hs).up⟩

/-- Outside of a select list no query has to be open. -/
theorem run (hx : Runs c nodes x p) (hc : c.isInSelect = false) {a : α} (h : x s = .ok (a, t)) :
    Traverses c.model nodes s t ∧ (s.Sound → p a) :=
  hx (by simp [hc]) h

theorem outside (hx : Runs c.outsideSelect nodes x p) : Runs c nodes x p :=
  fun _ _ _ _ hr => hx.run rfl hr

end Runs

end Lower

open Lower (Runs)

/-! ## Paths and sizes -/

theorem propertyColumn_visits {path : Path} {name : String} {steps : Nat} {e : Sql.Expression}
    (hj : path.Joins c.model steps) (h : propertyColumn c path name steps s = .ok (e, t)) :
    Course c.model s t ∧ Visits c.model path s t := by
  obtain ⟨place, u, hn, h⟩ := Lower.bind_ok_iff.1 h
  obtain ⟨property, v, hp, h⟩ := Lower.bind_ok_iff.1 h
  obtain rfl := (Lower.property_ok_iff.1 hp).2
  suffices htu : u = t by
    subst htu
    exact ⟨.navigate rfl hn, .walk rfl hj hn⟩
  cases property with
  | basic a => exact (Prod.mk.inj (Lower.pure_ok_iff.1 h)).2.symm
  | toOne association => exact (Prod.mk.inj (Lower.pure_ok_iff.1 h)).2.symm
  | toMany collection => exact (Lower.unsupported_ok_iff.1 h).elim

/-- A foreign key is found where the last name is the id that it refers to. -/
theorem foreignKey?_navigates {path : Path} {owner name : String} {steps : Nat}
    {found : Option Sql.Expression} (h : foreignKey? c path owner name steps s = .ok (found, t)) :
    ∃ place, navigate c path steps s = .ok (place, t) ∧
      (found ≠ none → ∃ target, c.model.Has target ∧ Text.sameName target.id.name name = true) := by
  simp only [foreignKey?, Lower.bind_ok_iff, Lower.property_ok_iff] at h
  obtain ⟨place, _, hn, property, _, ⟨-, rfl⟩, h⟩ := h
  cases property with
  | toOne association =>
    simp only [Lower.bind_ok_iff, Lower.entity_ok_iff] at h
    obtain ⟨target, _, ⟨ht, rfl⟩, h⟩ := h
    split at h
    case isTrue hsame =>
      obtain ⟨rfl, rfl⟩ := Prod.mk.inj (Lower.pure_ok_iff.1 h)
      exact ⟨place, hn, fun _ => ⟨target, ⟨_, ht⟩, hsame⟩⟩
    case isFalse =>
      obtain ⟨rfl, rfl⟩ := Prod.mk.inj (Lower.pure_ok_iff.1 h)
      exact ⟨place, hn, fun hf => absurd rfl hf⟩
  | basic a =>
    obtain ⟨rfl, rfl⟩ := Prod.mk.inj (Lower.pure_ok_iff.1 h)
    exact ⟨place, hn, fun hf => absurd rfl hf⟩
  | toMany collection =>
    obtain ⟨rfl, rfl⟩ := Prod.mk.inj (Lower.pure_ok_iff.1 h)
    exact ⟨place, hn, fun hf => absurd rfl hf⟩

theorem resolve_visits {path : Path} {e : Sql.Expression} (h : resolve c path s = .ok (e, t)) :
    Course c.model s t ∧ Visits c.model path s t := by
  rcases hrev : path.properties.reverse with _ | ⟨name, _ | ⟨owner, rest⟩⟩
  all_goals
    have hlength := congrArg List.length hrev
    simp only [List.length_reverse, List.length_nil, List.length_cons] at hlength
    simp only [resolve, hrev] at h
  · obtain ⟨place, u, hn, h⟩ := Lower.bind_ok_iff.1 h
    obtain ⟨rfl, rfl⟩ := Prod.mk.inj (Lower.pure_ok_iff.1 h)
    exact ⟨.navigate rfl hn, .walk rfl (.inl (by omega)) hn⟩
  · exact propertyColumn_visits (.inl (by omega)) h
  · obtain ⟨found, u, hf, h⟩ := Lower.bind_ok_iff.1 h
    obtain ⟨place, hn, hfound⟩ := foreignKey?_navigates hf
    cases found with
    | some column =>
      obtain ⟨rfl, rfl⟩ := Prod.mk.inj (Lower.pure_ok_iff.1 h)
      obtain ⟨target, ht, hsame⟩ := hfound (Option.some_ne_none _)
      have hlast : path.properties.getLast? = some name := by
        rw [← List.head?_reverse, hrev, List.head?_cons]
      exact ⟨.navigate rfl hn, .walk rfl (.inr ⟨hlength.symm, target, name, ht, hlast, hsame⟩) hn⟩
    | none =>
      obtain ⟨hcourse, hvisits⟩ := propertyColumn_visits (.inl (by omega)) h
      exact ⟨.trans (.navigate rfl hn) hcourse, .before (.navigate rfl hn) hvisits⟩

theorem entityColumns_visits {start : String} {columns : List Sql.Expression}
    (h : entityColumns c ⟨start, []⟩ s = .ok (columns, t)) :
    Course c.model s t ∧ Visits c.model ⟨start, []⟩ s t := by
  obtain ⟨place, u, hn, h⟩ := Lower.bind_ok_iff.1 h
  obtain ⟨-, rfl⟩ := Prod.mk.inj (Lower.pure_ok_iff.1 h)
  exact ⟨.navigate rfl hn, .walk rfl (.inl rfl) hn⟩

theorem lowerSize_runs {path : Path} :
    Runs c [.expression (.size path)] (lowerSize c path) fun r =>
      Arise c [.expression (.size path)] (r.specs everyKey) := by
  intro s t r hq hr
  refine ⟨.of_path rfl rfl (.size rfl hq hr) (.size rfl hq hr), fun _ spec hs => .inl ?_⟩
  obtain ⟨_, -, h⟩ := lowerSize_makes hr
  rcases h with ⟨-, -, _, ⟨a, column, rfl⟩, rfl⟩ |
    ⟨-, -, table, a, ownerColumn, _, ⟨b, column, rfl⟩, rfl⟩
  · cases hs
  · obtain rfl := List.mem_singleton.1 hs
    exact ⟨table, a, ownerColumn, _, ⟨b, column, rfl⟩, rfl⟩

/-! ## Trees -/

theorem HangsOn.comparesColumns : ∀ {joins : List Sql.Join} {visible : List String},
    HangsOn visible joins → ∀ join ∈ joins, join.ComparesColumns
  | [], _, _ => nofun
  | _ :: _, _, ⟨⟨_, _, _, _, other, column, _, rfl⟩, h⟩ =>
    List.forall_mem_cons.2 ⟨equiJoin_comparesColumns ⟨other, column, rfl⟩, h.comparesColumns⟩

theorem QuerySpec.children_subset_clauses (source : QuerySpec) :
    source.children ⊆ source.select.map (.expression ·.expression) ++
      (source.condition.toList.map .condition ++ (source.groupBy.map .expression ++
        (source.having.toList.map .condition ++ (source.orderBy.map (.expression ·.expression) ++
          (source.limit.toList.map .expression ++ source.offset.toList.map .expression))))) := by
  intro n hn
  simp only [mem_children_iff, Option.mem_def] at hn
  simp only [List.mem_append, List.mem_map, Option.mem_toList]
  grind

mutual

theorem Expression.lower_runs : ∀ (e : Expression) {c : LoweringContext},
    Runs c [.expression e] (e.lower c) fun r => Arise c [.expression e] (r.specs everyKey)
  | .path path, c => by
    intro s t r hq hr
    obtain ⟨_, -, -, a, column, rfl⟩ := resolve_makes hr
    obtain ⟨hcourse, hvisits⟩ := resolve_visits hr
    exact ⟨.of_path rfl rfl hcourse hvisits, fun _ => .nil⟩
  | .literal value, _ => .up rfl (.pure .nil)
  | .parameter value, _ => .up rfl (.pure .nil)
  | .call name arguments, c => by
    refine .next (fun _ _ _ h => checkCall_ok h) fun _ => ?_
    exact .up rfl ((Expression.lowerAll_runs arguments).map fun _ => id)
  | .aggregate function isDistinct argument, c =>
    .up rfl ((Expression.lowerOption_runs argument).map fun _ => id)
  | .extract unit source, c => .up rfl (source.lower_runs.map fun _ => id)
  | .timestampAdd unit magnitude timestamp, c =>
    .up rfl (magnitude.lower_runs.bind fun _ => timestamp.lower_runs.map fun _ h' h => h.append h')
  | .timestampDiff unit start finish, c =>
    .up rfl (start.lower_runs.bind fun _ => finish.lower_runs.map fun _ h' h => h.append h')
  | .format source pattern, c => .up rfl (source.lower_runs.map fun _ => id)
  | .binary left operator right, c =>
    .up rfl (left.lower_runs.bind fun _ => right.lower_runs.map fun _ h' h => h.append h')
  | .negate operand, c => .up rfl (operand.lower_runs.map fun _ => id)
  | .case branches otherwise, c =>
    .up rfl ((CaseBranch.lowerAll_runs branches).bind fun _ =>
      (Expression.lowerOption_runs otherwise).map fun _ h' h => h.append h')
  | .cast source target, c => .up rfl (source.lower_runs.map fun _ => id)
  | .subquery query, c => by
    refine .next (fun _ _ _ h => (checkSubquery_ok h).2) fun _ => ?_
    exact .up rfl ((query.lower_runs true).map fun _ => id)
  | .tuple items, c => .up rfl ((Expression.lowerAll_runs items).map fun _ => id)
  | .size path, c => lowerSize_runs

theorem Expression.lowerAll_runs : ∀ (es : List Expression) {c : LoweringContext},
    Runs c (es.map .expression) (Expression.lowerAll c es) fun rs =>
      Arise c (es.map .expression) (Sql.Expression.specsAll everyKey rs)
  | [], _ => .pure .nil
  | e :: rest, _ =>
    e.lower_runs.bind fun _ => (Expression.lowerAll_runs rest).map fun _ h' h => h.append h'

theorem Expression.lowerOption_runs : ∀ (e : Option Expression) {c : LoweringContext},
    Runs c (e.toList.map .expression) (Expression.lowerOption c e) fun r =>
      Arise c (e.toList.map .expression) (Sql.Expression.specsOption everyKey r)
  | none, _ => .pure .nil
  | some e, _ => e.lower_runs.map fun _ => id

theorem CaseBranch.lowerAll_runs : ∀ (branches : List (CaseBranch Condition Expression))
    {c : LoweringContext}, Runs c (branches.flatMap CaseBranch.nodes)
      (CaseBranch.lowerAll c branches) fun rs =>
        Arise c (branches.flatMap CaseBranch.nodes) (Sql.CaseBranch.specsAll everyKey rs)
  | [], _ => .pure .nil
  | ⟨condition, result⟩ :: rest, _ =>
    condition.lower_runs.bind fun _ => result.lower_runs.bind fun _ =>
      (CaseBranch.lowerAll_runs rest).map fun _ h₃ h₂ h₁ => (h₁.append h₂).append h₃

theorem Condition.lower_runs : ∀ (p : Condition) {c : LoweringContext},
    Runs c [.condition p] (p.lower c) fun r => Arise c [.condition p] (r.specs everyKey)
  | .compare left operator right, c =>
    .up rfl (left.lower_runs.bind fun _ => right.lower_runs.map fun _ h' h => h.append h')
  | .all items, c => .up rfl ((Condition.lowerAll_runs items).map fun _ => id)
  | .any items, c => .up rfl ((Condition.lowerAll_runs items).map fun _ => id)
  | .not operand, c => .up rfl (operand.lower_runs.map fun _ => id)
  | .isNull operand isNegated, c => .up rfl (operand.lower_runs.map fun _ => id)
  | .inList operand items isNegated, c => by
    refine .next (fun _ _ _ h => checkMember_ok h) fun _ => .up rfl ?_
    exact operand.lower_runs.bind fun _ =>
      (Expression.lowerAll_runs items).map fun _ h' h => h.append h'
  | .inQuery operand query isNegated, c => by
    refine .next (fun _ _ _ h => checkMember_ok h) fun _ => .up rfl ?_
    exact operand.lower_runs.bind fun _ => (query.lower_runs true).map fun _ h' h => h.append h'
  | .exists query isNegated, c => .up rfl ((query.lower_runs true).map fun _ => id)
  | .like operand pattern escape ignoresCase isNegated, c =>
    .up rfl (operand.lower_runs.bind fun _ => pattern.lower_runs.map fun _ h' h => h.append h')
  | .between operand low high isNegated, c =>
    .up rfl (operand.lower_runs.bind fun _ => low.lower_runs.bind fun _ =>
      high.lower_runs.map fun _ h₃ h₂ h₁ => h₁.append (h₂.append h₃))
  | .holds operand, c => .up rfl (operand.lower_runs.map fun _ => id)

theorem Condition.lowerAll_runs : ∀ (ps : List Condition) {c : LoweringContext},
    Runs c (ps.map .condition) (Condition.lowerAll c ps) fun rs =>
      Arise c (ps.map .condition) (Sql.Condition.specsAll everyKey rs)
  | [], _ => .pure .nil
  | p :: rest, _ =>
    p.lower_runs.bind fun _ => (Condition.lowerAll_runs rest).map fun _ h' h => h.append h'

theorem Condition.lowerOption_runs : ∀ (p : Option Condition) {c : LoweringContext},
    Runs c (p.toList.map .condition) (Condition.lowerOption c p) fun r =>
      Arise c (p.toList.map .condition) (Sql.Condition.specsOption everyKey r)
  | none, _ => .pure .nil
  | some p, _ => p.lower_runs.map fun _ => id

theorem Query.lower_runs : ∀ (q : Query) (isNested : Bool) {c : LoweringContext},
    Runs c [.query q] (q.lower c.outsideSelect isNested) fun r =>
      Arise c [.query q] (r.specs everyKey)
  | .spec source, isNested, c => by
    refine .next (fun _ _ _ h => checkOrder_ok h) fun _ => ?_
    intro s t r _ hr
    simp only [Lower.bind_ok_iff, Lower.pure_ok_iff, Prod.mk.injEq] at hr
    obtain ⟨spec, _, hrun, rfl, rfl⟩ := hr
    obtain ⟨u, scope, hopens, ⟨hcourse, hvisits⟩, -, harise⟩ := source.lower_runs (c := c) hrun
    refine ⟨⟨.query (c := c.outsideSelect) rfl hopens hcourse, ?_⟩, fun hs => ?_⟩
    · refine List.forall_mem_singleton.2 fun path hu => ?_
      cases hu with
      | here hp => cases hp
      | child hm hfree hu =>
        exact .query (c := c.outsideSelect) rfl (hfree source rfl) hopens (hvisits _ hm path hu)
    · have hspec : spec.specs everyKey = spec :: (spec.specs everyKey).tail := by cases spec; rfl
      show Arise c [.query (.spec source)] (spec.specs everyKey)
      rw [hspec]
      refine List.forall_mem_cons.2 ⟨.inr ⟨source, ?_, s, _, hs, hrun⟩, (harise hs).up⟩
      exact ⟨_, List.mem_singleton.2 rfl, .refl⟩
  | .group operator parts orderBy limit offset, isNested, c => by
    refine .next (fun _ _ _ h => checkOrder_ok h) fun _ => ?_
    refine .next (fun _ _ _ h => checkGroup_ok h) fun _ => .up rfl ?_
    have hnodes : (Node.query (.group operator parts orderBy limit offset)).children =
        parts.map .query ++ (orderBy.map (.expression ·.expression) ++
          (limit.toList.map .expression ++ offset.toList.map .expression)) := by
      simp [Node.children, Query.children, Function.comp_def]
    rw [hnodes]
    refine (Query.lowerAll_runs parts isNested).bind fun _ => ?_
    refine Runs.outside ((SortKey.lowerAll_runs orderBy).bind fun _ => ?_)
    exact (Expression.lowerOption_runs limit).bind fun _ =>
      (Expression.lowerOption_runs offset).map fun _ h₄ h₃ h₂ h₁ =>
        h₁.append (h₂.append (h₃.append h₄))

theorem Query.lowerAll_runs : ∀ (qs : List Query) (isNested : Bool) {c : LoweringContext},
    Runs c (qs.map .query) (Query.lowerAll c.outsideSelect isNested qs) fun rs =>
      Arise c (qs.map .query) (Sql.Query.specsAll everyKey rs)
  | [], _, _ => .pure .nil
  | q :: rest, isNested, _ =>
    (q.lower_runs isNested).bind fun _ =>
      (Query.lowerAll_runs rest isNested).map fun _ h' h => h.append h'

/-- After its roots the run of a query is a course in its scope on which its paths are walked, and
the queries inside it arise from its clauses. -/
theorem QuerySpec.lower_runs : ∀ (source : QuerySpec) {c : LoweringContext} {s t : LoweringState}
    {spec : Sql.QuerySpec}, source.lower c.outsideSelect s = .ok (spec, t) →
      ∃ u scope, source.Opens c.outsideSelect s u ∧
        Traverses c.model source.children u { t with scopes := scope :: t.scopes } ∧
        spec.tables = scope.tables ∧
        (s.Sound → Arise c source.children (spec.specs everyKey).tail)
  | ⟨isDistinct, select, roots, condition, groupBy, having, orderBy, limit, offset⟩, c, s, t, spec,
      hrun => by
    obtain ⟨s₀, select', s₁, condition', s₂, groupBy', s₃, having', s₄, orderBy', s₅, limit', s₆,
      offset', s₇, scope, -, h₀, h₁, h₂, h₃, h₄, h₅, h₆, h₇, rfl, rfl⟩ :=
        QuerySpec.lower_ok_iff.1 hrun
    have hq : s₀.InQuery :=
      LoweringState.inQuery_of_kinds (lowerRoots_binds h₀).kinds ⟨_, rfl, rfl⟩
    obtain ⟨_, -, hselect⟩ := SelectItem.lowerAll_built select (c := c) h₁
    obtain ⟨hw₁, ha₁⟩ := SelectItem.lowerAll_runs select (c := c.inSelect) (fun _ => hq) h₁
    obtain ⟨hw₂, ha₂⟩ := (Condition.lowerOption_runs condition (c := c.outsideSelect)).run rfl h₂
    obtain ⟨hw₃, ha₃⟩ := (Expression.lowerAll_runs groupBy (c := c.outsideSelect)).run rfl h₃
    obtain ⟨hw₄, ha₄⟩ := (Condition.lowerOption_runs having (c := c.outsideSelect)).run rfl h₄
    obtain ⟨hw₅, ha₅⟩ := (SortKey.lowerAll_runs orderBy (c := c.outsideSelect)).run rfl h₅
    obtain ⟨hw₆, ha₆⟩ := (Expression.lowerOption_runs limit (c := c.outsideSelect)).run rfl h₆
    obtain ⟨hw₇, ha₇⟩ := (Expression.lowerOption_runs offset (c := c.outsideSelect)).run rfl h₇
    have hway := hw₁.trans (hw₂.trans (hw₃.trans (hw₄.trans (hw₅.trans (hw₆.trans hw₇)))))
    refine ⟨s₀, scope, h₀, hway.mono (QuerySpec.children_subset_clauses _), rfl, fun hs => ?_⟩
    have hs₀ := (lowerRoots_keeps (hs.enter _) ⟨_, rfl, rfl⟩ rfl h₀).sound
    have hs₁ := (hw₁.course.keeps hs₀).sound
    have hs₂ := (hw₂.course.keeps hs₁).sound
    have hs₃ := (hw₃.course.keeps hs₂).sound
    have hs₄ := (hw₄.course.keeps hs₃).sound
    have hs₅ := (hw₅.course.keeps hs₄).sound
    have hs₆ := (hw₆.course.keeps hs₅).sound
    have hscope := (hw₇.course.keeps hs₆).sound.scopes.1
    obtain ⟨hn₁, hn₂, hn₃, hn₄, hn₅, hn₆, hn₇⟩ := QuerySpec.clauses_subset_children
      ⟨isDistinct, select, roots, condition, groupBy, having, orderBy, limit, offset⟩
    exact forall_inner_of_clauses (p := Arises c.dialect c.model _)
      (fun table ht => (hscope.joins table ht).comparesColumns) ((ha₁ hs₀).mono hn₁)
      ((ha₂ hs₁).mono hn₂)
      (hselect.forall_groupKeys ((ha₁ hs₀).mono hn₁) scope ((ha₃ hs₂).mono hn₃))
      ((ha₄ hs₃).mono hn₄) ((ha₅ hs₄).mono hn₅) ((ha₆ hs₅).mono hn₆) ((ha₇ hs₆).mono hn₇)

theorem SelectItem.lowerAll_runs : ∀ (items : List (SelectItem Expression)) {c : LoweringContext},
    Runs c (items.map (.expression ·.expression)) (SelectItem.lowerAll c items) fun r =>
      Arise c (items.map (.expression ·.expression)) (Sql.SelectItem.specsAll everyKey r.items)
  | [], _ => .pure .nil
  | ⟨e, aliasName⟩ :: rest, c => by
    intro s t r hq hr
    rcases SelectItem.lowerAll_cons_ok_iff.1 hr with ⟨start, columns, u, r', rfl, hc, hr', rfl⟩ |
      ⟨lowered, u, before, after, r', -, hl, -, -, hr', rfl⟩
    · obtain ⟨hcourse, hvisits⟩ := entityColumns_visits hc
      obtain ⟨hway, ha⟩ :=
        SelectItem.lowerAll_runs rest (fun hc => hcourse.inQuery (hq hc)) hr'
      obtain ⟨_, -, -, hcolumns⟩ := entityColumns_makes hc
      refine ⟨Traverses.trans (.of_path rfl rfl hcourse hvisits) hway, fun hs => ?_⟩
      simp only [LoweredSelect.append, Sql.SelectItem.specsAll_append, specs_ofColumns hcolumns,
        List.nil_append]
      exact (ha (hcourse.keeps hs).sound).mono (List.subset_cons_self _ _)
    · obtain ⟨hway, ha⟩ := e.lower_runs hq hl
      obtain ⟨hway', ha'⟩ :=
        SelectItem.lowerAll_runs rest (fun hc => hway.course.inQuery (hq hc)) hr'
      exact ⟨hway.trans hway',
        fun hs => (ha hs).append (ha' (hway.course.keeps hs).sound)⟩

theorem SortKey.lowerAll_runs : ∀ (keys : List (SortKey Expression)) {c : LoweringContext},
    Runs c (keys.map (.expression ·.expression)) (SortKey.lowerAll c keys) fun rs =>
      Arise c (keys.map (.expression ·.expression)) (Sql.SortKey.specsAll everyKey rs)
  | [], _ => .pure .nil
  | ⟨e, _, _⟩ :: rest, _ =>
    e.lower_runs.bind fun _ => (SortKey.lowerAll_runs rest).map fun _ h' h => h.append h'

end

/-! ## Statements -/

theorem lowerAssignments_runs (entity : Mapping.Entity) : ∀ assignments : List Assignment,
    Runs c (assignments.map (.expression ·.value)) (lowerAssignments c entity assignments) fun rs =>
      Arise c (assignments.map (.expression ·.value)) (Sql.Assignment.specsAll everyKey rs)
  | [] => .pure .nil
  | a :: rest => by
    refine .next (fun _ _ _ h => assignedColumn_ok h) fun _ => a.value.lower_runs.bind fun _ => ?_
    exact (lowerAssignments_runs entity rest).map fun _ h' h => h.append h'

/-- All queries of a lowered statement arise from the statement. -/
theorem Statement.lower_arise {statement : Statement} {d : Dialect} {model : Mapping.Model}
    {lowered : Sql.Statement} (h : statement.lower d model = .ok lowered) :
    Arise { dialect := d, model } statement.children (lowered.specs everyKey) := by
  obtain ⟨t, h⟩ := Statement.lower_ok_iff.1 h
  cases statement with
  | select query lock =>
    simp only [Statement.lowerIn, Lower.bind_ok_iff, Lower.pure_ok_iff, Prod.mk.injEq] at h
    obtain ⟨q, _, hq, rfl, rfl⟩ := h
    exact ((query.lower_runs false (c := { dialect := d, model })).run rfl hq).2 .start
  | update name aliasName assignments condition =>
    simp only [Statement.lowerIn, Lower.bind_ok_iff, Lower.pure_ok_iff, Prod.mk.injEq] at h
    obtain ⟨⟨entity, target⟩, _, hb, as, _, has, p, _, hp, rfl, rfl⟩ := h
    obtain ⟨rfl, rfl⟩ := bindTarget_ok hb
    have hs := ofTarget_sound aliasName entity
    obtain ⟨hway, hassignments⟩ :=
      (lowerAssignments_runs entity assignments (c := { dialect := d, model })).run rfl has
    obtain ⟨-, hcondition⟩ :=
      (Condition.lowerOption_runs condition (c := { dialect := d, model })).run rfl hp
    exact (hassignments hs).append (hcondition (hway.course.keeps hs).sound)
  | delete name aliasName condition =>
    simp only [Statement.lowerIn, Lower.bind_ok_iff, Lower.pure_ok_iff, Prod.mk.injEq] at h
    obtain ⟨⟨entity, target⟩, _, hb, p, _, hp, rfl, rfl⟩ := h
    obtain ⟨rfl, rfl⟩ := bindTarget_ok hb
    exact ((Condition.lowerOption_runs condition (c := { dialect := d, model })).run rfl hp).2
      (ofTarget_sound aliasName entity)

end SqlDialects.Entity
