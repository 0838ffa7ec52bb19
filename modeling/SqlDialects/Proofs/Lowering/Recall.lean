import SqlDialects.Proofs.Lowering.Course
import SqlDialects.Proofs.Lowering.Traces

/-!
# Joins that paths find again

What a path has joined stays noted in the scope that binds its variable until the scope is left. So
the same path comes to the same place again, and adds nothing, however its properties are spelled.
-/

namespace SqlDialects.Entity

variable {c c' : LoweringContext} {model : Mapping.Model} {s t u : LoweringState}

/-! ## Scopes that recall -/

/-- The scope has its variables and the joins that paths have added still. -/
structure ScopeRecalls (scope scope' : Scope) : Prop where
  bindings : scope'.bindings = scope.bindings
  allows : scope'.allowsPathJoins = scope.allowsPathJoins
  pathJoins : ∀ key a, scope.pathJoins.lookup key = some a → scope'.pathJoins.lookup key = some a

namespace ScopeRecalls

variable {scope scope' scope'' : Scope}

theorem refl (scope : Scope) : ScopeRecalls scope scope := ⟨rfl, rfl, fun _ _ h => h⟩

theorem trans (h : ScopeRecalls scope scope') (h' : ScopeRecalls scope' scope'') :
    ScopeRecalls scope scope'' :=
  ⟨h'.bindings.trans h.bindings, h'.allows.trans h.allows,
    fun key a ha => h'.pathJoins key a (h.pathJoins key a ha)⟩

theorem addPathJoin {key : String × String} (h : scope.pathJoins.lookup key = none) (item : Nat)
    (join : Sql.Join) : ScopeRecalls scope (scope.addPathJoin item key join) := by
  refine ⟨rfl, rfl, fun key' a ha => ?_⟩
  have hne : key' ≠ key := by
    rintro rfl
    simp [h] at ha
  rw [← ha]
  simp [Scope.addPathJoin, Scope.extend, List.lookup_cons, beq_false_of_ne hne]

end ScopeRecalls

/-- All scopes recall what they had. -/
def Recalls (s t : LoweringState) : Prop := List.Forall₂ ScopeRecalls s.scopes t.scopes

namespace Recalls

theorem refl (s : LoweringState) : Recalls s s := List.forall₂_same.2 fun _ _ => .refl _

theorem trans (h : Recalls s t) (h' : Recalls t u) : Recalls s u :=
  forall₂_trans (fun _ _ _ h₁ h₂ => h₁.trans h₂) h h'

theorem change {depth : Nat} {scope : Scope} {change : Scope → Scope}
    (hd : s.scopes[depth]? = some scope) (h : ScopeRecalls scope (change scope)) :
    Recalls s (s.modifyScope depth change) :=
  forall₂_modify ScopeRecalls.refl hd h

theorem findBinding_eq (h : Recalls s t) (name : String) :
    Lower.findBinding name t.scopes = Lower.findBinding name s.scopes := by
  obtain ⟨_, scopes⟩ := s
  obtain ⟨_, scopes'⟩ := t
  change List.Forall₂ ScopeRecalls scopes scopes' at h
  show Lower.findBinding name scopes' = Lower.findBinding name scopes
  induction h with
  | nil => rfl
  | cons h _ ih => simp only [Lower.findBinding, h.bindings, ih]

end Recalls

theorem joinAlong_recalls {place : Place} {association : Mapping.ToOne} {target : Mapping.Entity}
    {aliasName : String} (h : joinAlong c place association target s = .ok (aliasName, t)) :
    Recalls s t := by
  obtain ⟨scope, hd, -, ⟨-, rfl⟩ | ⟨hl, -, -, rfl⟩⟩ := joinAlong_ok_iff.1 h
  · exact .refl _
  · exact Recalls.change (s := s.allot) hd (.addPathJoin hl _ _)

theorem walk_recalls {path : Path} : ∀ {names : List String} {place place' : Place}
    {s t : LoweringState}, walk c path place names s = .ok (place', t) → Recalls s t
  | [], _, _, _, _, h => by
    obtain ⟨rfl, rfl⟩ := Prod.mk.inj (Lower.pure_ok_iff.1 h)
    exact .refl _
  | name :: rest, _, _, _, _, h => by
    simp only [walk, Lower.bind_ok_iff] at h
    obtain ⟨next, u, hstep, h⟩ := h
    obtain ⟨_, _, _, -, -, hj, -⟩ := step_ok_iff.1 hstep
    exact (joinAlong_recalls hj).trans (walk_recalls h)

theorem navigate_recalls {path : Path} {steps : Nat} {place : Place}
    (h : navigate c path steps s = .ok (place, t)) : Recalls s t := by
  obtain ⟨_, _, -, h⟩ := navigate_ok_iff.1 h
  exact walk_recalls h

theorem lowerSize_recalls {path : Path} {e : Sql.Expression}
    (h : lowerSize c path s = .ok (e, t)) : Recalls s t := by
  obtain ⟨_, place, u, collection, element, -, hn, -, -, h⟩ := lowerSize_ok_iff.1 h
  refine (navigate_recalls hn).trans ?_
  split at h
  case isTrue =>
    obtain ⟨scope, hd, -, -, -, -, rfl⟩ := countJoined_ok h
    exact Recalls.change (s := u.allot) hd ⟨rfl, rfl, fun _ _ h => h⟩
  case isFalse =>
    obtain ⟨-, rfl⟩ := h
    exact .refl _

theorem Course.recalls (h : Course model s t) : Recalls s t := by
  induction h with
  | refl => exact .refl _
  | trans _ _ ih ih' => exact ih.trans ih'
  | navigate _ h => exact navigate_recalls h
  | size _ _ h => exact lowerSize_recalls h
  | query _ hr _ ih =>
    obtain ⟨scope, hu, -⟩ := lowerRoots_scopes hr
    rw [Recalls, hu] at ih
    exact (List.forall₂_cons.1 ih).2

/-! ## Passages -/

/-- How the lowering of a statement goes on, through queries that are opened and left, while this
many of the outermost scopes stay open. -/
inductive Passage (model : Mapping.Model) (kept : Nat) : LoweringState → LoweringState → Prop
  | trans {s t u : LoweringState} (h : Passage model kept s t) (h' : Passage model kept t u) :
    Passage model kept s u
  | course {s t : LoweringState} (h : Course model s t) : Passage model kept s t
  | enter {s t : LoweringState} {c : LoweringContext} {roots : List Root} {isGrouped : Bool}
    (hm : c.model = model) (h : lowerRoots c 0 roots (s.enter isGrouped) = .ok ((), t)) :
    Passage model kept s t
  | leave {s : LoweringState} {scope : Scope} (h : kept ≤ s.scopes.length) :
    Passage model kept { s with scopes := scope :: s.scopes } s

theorem Passage.recalls {kept : Nat} (h : Passage model kept s t) : ∀ {inner outer : List Scope},
    s.scopes = inner ++ outer → outer.length = kept →
      ∃ inner' outer', t.scopes = inner' ++ outer' ∧ List.Forall₂ ScopeRecalls outer outer' := by
  induction h with
  | trans _ _ ih ih' =>
    intro inner outer hs hk
    obtain ⟨inner', outer', ht, hr⟩ := ih hs hk
    obtain ⟨inner'', outer'', hu, hr'⟩ := ih' ht (hr.length_eq.symm.trans hk)
    exact ⟨inner'', outer'', hu, forall₂_trans (fun _ _ _ h₁ h₂ => h₁.trans h₂) hr hr'⟩
  | course h =>
    intro inner outer hs _
    have hr := List.forall₂_drop inner.length h.recalls
    rw [hs, List.drop_left] at hr
    exact ⟨_, _, (List.take_append_drop inner.length _).symm, hr⟩
  | enter _ h =>
    intro inner outer hs _
    obtain ⟨scope, ht, -⟩ := lowerRoots_scopes h
    exact ⟨scope :: inner, outer, by rw [ht, hs, List.cons_append],
      List.forall₂_same.2 fun _ _ => .refl _⟩
  | @leave s scope hk =>
    intro inner outer hs hlen
    cases inner with
    | nil =>
      have := congrArg List.length hs
      simp only [List.length_cons, List.nil_append] at this
      omega
    | cons first inner =>
      exact ⟨inner, outer, (List.cons.inj hs).2, List.forall₂_same.2 fun _ _ => .refl _⟩

/-! ## The same path again -/

theorem lookup_of_findBinding {name : String} {binding : Binding} : ∀ {scopes : List Scope}
    {depth : Nat}, Lower.findBinding name scopes = some (depth, binding) →
      ∃ scope, scopes[depth]? = some scope ∧ scope.bindings.lookup name = some binding
  | [], _, h => by simp [Lower.findBinding] at h
  | first :: rest, depth, h => by
    simp only [Lower.findBinding] at h
    cases hl : first.bindings.lookup name with
    | some b =>
      simp only [hl, Option.some.injEq, Prod.mk.injEq] at h
      obtain ⟨rfl, rfl⟩ := h
      exact ⟨first, rfl, hl⟩
    | none =>
      simp only [hl, Option.map_eq_some_iff, Prod.exists, Prod.mk.injEq] at h
      obtain ⟨d, b, hf, rfl, rfl⟩ := h
      obtain ⟨scope, hd, hb⟩ := lookup_of_findBinding hf
      exact ⟨scope, by simpa using hd, hb⟩

/-- The scope at one depth is recalled by the scope at another. -/
def RecallsAt (s : LoweringState) (depth : Nat) (t : LoweringState) (depth' : Nat) : Prop :=
  ∃ scope scope', s.scopes[depth]? = some scope ∧ t.scopes[depth']? = some scope' ∧
    ScopeRecalls scope scope'

theorem Recalls.at (h : Recalls s t) {depth depth' : Nat} (h' : RecallsAt t depth u depth') :
    RecallsAt s depth u depth' := by
  obtain ⟨scope', scope'', ht, hu, hr'⟩ := h'
  obtain ⟨hlt, rfl⟩ := List.getElem?_eq_some_iff.1 ht
  have hlt' : depth < s.scopes.length := h.length_eq ▸ hlt
  exact ⟨s.scopes[depth], scope'', List.getElem?_eq_getElem hlt', hu, (h.get hlt' hlt).trans hr'⟩

/-- A join along an association is noted where later paths find it. -/
theorem joinAlong_notes {place : Place} {association : Mapping.ToOne} {target : Mapping.Entity}
    {aliasName : String} (h : joinAlong c place association target s = .ok (aliasName, t)) :
    ∃ scope, t.scopes[place.depth]? = some scope ∧ scope.allowsPathJoins = true ∧
      scope.pathJoins.lookup (pathKey place association) = some aliasName := by
  obtain ⟨scope, hd, hopen, ⟨hl, rfl⟩ | ⟨-, -, rfl, rfl⟩⟩ := joinAlong_ok_iff.1 h
  · exact ⟨scope, hd, hopen, hl⟩
  · exact ⟨_, LoweringState.get_modifyScope (s := s.allot) hd _, hopen, List.lookup_cons_self⟩

theorem joinAlong_again {place : Place} {association : Mapping.ToOne} {target : Mapping.Entity}
    {aliasName : String} {depth : Nat}
    (h : joinAlong c place association target s = .ok (aliasName, t))
    (hr : RecallsAt t place.depth u depth) :
    joinAlong c' { place with depth } association target u = .ok (aliasName, u) := by
  obtain ⟨scope', scope'', ht, hu, hscope⟩ := hr
  obtain ⟨scope, ht', hopen, hl⟩ := joinAlong_notes h
  obtain rfl : scope = scope' := by simpa [ht'] using ht
  exact joinAlong_ok_iff.2 ⟨scope'', hu, hscope.allows.trans hopen,
    .inl ⟨hscope.pathJoins _ _ hl, rfl⟩⟩

theorem walk_depth {path : Path} : ∀ {names : List String} {place place' : Place}
    {s : LoweringState}, walk c path place names s = .ok (place', t) → place'.depth = place.depth
  | [], _, _, _, h => congrArg Place.depth (Prod.mk.inj (Lower.pure_ok_iff.1 h)).1
  | name :: rest, _, _, _, h => by
    simp only [walk, Lower.bind_ok_iff] at h
    obtain ⟨next, _, hstep, h⟩ := h
    obtain ⟨_, _, _, -, -, -, rfl⟩ := step_ok_iff.1 hstep
    have hd := walk_depth h
    exact hd

theorem walk_again (hm : c'.model = c.model) {path path' : Path} {names names' : List String}
    {place place' : Place} {depth : Nat} (hn : names.map Text.foldAscii = names'.map Text.foldAscii)
    (h : walk c path place names s = .ok (place', t)) (hr : RecallsAt t place.depth u depth) :
    walk c' path' { place with depth } names' u = .ok ({ place' with depth }, u) := by
  induction names generalizing names' place s with
  | nil =>
    obtain rfl : names' = [] := by simpa using hn.symm
    obtain ⟨rfl, rfl⟩ := Prod.mk.inj (Lower.pure_ok_iff.1 h)
    rfl
  | cons name rest ih =>
    cases names' with
    | nil => simp at hn
    | cons name' rest' =>
      obtain ⟨hname, hrest⟩ := List.cons.inj hn
      simp only [walk, Lower.bind_ok_iff] at h ⊢
      obtain ⟨next, v, hstep, h⟩ := h
      obtain ⟨association, target, aliasName, hp, ht, hj, rfl⟩ := step_ok_iff.1 hstep
      have hp' : place.entity.property name' = .ok (.toOne association) := by
        obtain ⟨hp, -, -⟩ := Mapping.Entity.toOne_of_property hp
        rw [place.entity.property_congr hname] at hp
        simp only [Mapping.Entity.property, hp]
      have hj' : joinAlong c' { place with depth } association target u = .ok (aliasName, u) :=
        joinAlong_again hj ((walk_recalls h).at hr)
      exact ⟨_, u, step_ok_iff.2 ⟨association, target, aliasName, hp', hm ▸ ht, hj', rfl⟩,
        ih hrest h hr⟩

/-- A path comes to the same place again, as long as its variable means the same, and leaves the
state as it is. -/
theorem navigate_again (hm : c'.model = c.model) {path path' : Path} {steps depth : Nat}
    {place : Place} {binding : Binding} (hstart : path.start = path'.start)
    (hnames : path.properties.map Text.foldAscii = path'.properties.map Text.foldAscii)
    (h : navigate c path steps s = .ok (place, t))
    (hp : Passage model (t.scopes.length - place.depth) t u)
    (hf : Lower.findBinding path'.start u.scopes = some (depth, binding))
    (hd : depth + t.scopes.length = place.depth + u.scopes.length) :
    navigate c' path' steps u = .ok ({ place with depth }, u) := by
  obtain ⟨d, b, hfs, hw⟩ := navigate_ok_iff.1 h
  obtain rfl : place.depth = d := walk_depth hw
  obtain ⟨scope, hs, hb⟩ := lookup_of_findBinding hfs
  obtain ⟨scope', ht, hr⟩ := forall₂_getElem? (walk_recalls hw) hs
  -- The scope of the variable is the innermost one of those that stay open.
  obtain ⟨inner, outer, hu, hout⟩ := hp.recalls (List.take_append_drop place.depth _).symm
    List.length_drop
  have hlt : place.depth < t.scopes.length := (List.getElem?_eq_some_iff.1 ht).1
  obtain ⟨scope'', hfirst, hr'⟩ := forall₂_getElem? (i := 0) hout (by simpa using ht)
  have hinner : inner.length = depth := by
    have hlen := congrArg List.length hu
    have hlen' := hout.length_eq
    simp only [List.length_append, List.length_drop] at hlen hlen'
    omega
  have hscope : u.scopes[depth]? = some scope'' := by
    rw [hu, ← hinner, List.getElem?_append_right (Nat.le_refl _), Nat.sub_self, hfirst]
  obtain rfl : binding = b := by
    obtain ⟨_, hd', hb'⟩ := lookup_of_findBinding hf
    obtain rfl := Option.some.inj (hscope.symm.trans hd')
    rw [hr'.bindings, hr.bindings, ← hstart, hb] at hb'
    exact (Option.some.inj hb').symm
  refine navigate_ok_iff.2 ⟨depth, binding, hf, ?_⟩
  refine walk_again hm ?_ hw ⟨scope', scope'', ht, hscope, hr'⟩
  simp only [List.map_take, hnames]

end SqlDialects.Entity
