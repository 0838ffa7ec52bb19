import SqlDialects.Proofs.Counting.Twins

/-!
# Steps of both runs

Where a step of the first run goes well, so does that of the second run, and their results agree.
The rules of this judgement follow the way in which the lowering is put together.
-/

namespace SqlDialects.Entity

open Sql (Count)

variable {σ : Type} [DecidableEq σ] (db : Sql.Database σ) (model : Mapping.Model)

/-- The second step follows the first one. Their results agree under all names that are open then,
and the innermost query counts more collections in the first run if these are select items. -/
def Mirrors {α : Type} (isInSelect : Bool) (x x' : Lower α)
    (agrees : List String → List Count → α → α → Prop) : Prop :=
  ∀ ⦃all s s' r t⦄, Twin db model all s s' → x s = .ok (r, t) →
    ∃ r' t' counts, x' s' = .ok (r', t') ∧ Paired db model (gain counts all) t t' ∧
      Keeps s t ∧ Keeps s' t' ∧ (isInSelect = false → counts = []) ∧
      ∀ names, t'.names ⊆ names → agrees names counts r r'

/-- A check that goes well in the first run does so in the second one, whatever the state. -/
def Follows (check check' : Lower Unit) : Prop :=
  ∀ s r, check s = .ok r → s = r.2 ∧ ∀ s', check' s' = .ok ((), s')

namespace Mirrors

variable {db model} {α β γ : Type} {isInSelect : Bool} {x x' : Lower α} {y y' : Lower β}
  {f f' : α → Lower β} {P Q : List String → List Count → α → α → Prop}
  {R : List String → List Count → β → β → Prop}

theorem pure {a a' : α} (h : ∀ names, P names [] a a') :
    Mirrors db model isInSelect (Pure.pure a) (Pure.pure a') P := by
  intro all s s' r t htwin hx
  obtain ⟨rfl, rfl⟩ := Prod.mk.inj (Lower.pure_ok_iff.1 hx)
  refine ⟨a', s', [], rfl, ?_, .refl htwin.sound, .refl htwin.sound', fun _ => rfl,
    fun names _ => h names⟩
  rw [gain_nil]
  exact htwin.toPaired

theorem fails (h : ∀ s r, x s ≠ .ok r) : Mirrors db model isInSelect x x' P :=
  fun _ _ _ _ _ _ hx => absurd hx (h _ _)

theorem imp (h : Mirrors db model isInSelect x x' P)
    (himp : ∀ names counts a a', P names counts a a' → Q names counts a a') :
    Mirrors db model isInSelect x x' Q := by
  intro all s s' r t htwin hx
  obtain ⟨r', t', counts, hx', hpaired, hk, hk', hc, hp⟩ := h htwin hx
  exact ⟨r', t', counts, hx', hpaired, hk, hk', hc,
    fun names hnames => himp _ _ _ _ (hp names hnames)⟩

/-- The results of the first step still agree when the second one has been made. -/
theorem bind (hx : Mirrors db model isInSelect x x' P)
    (hf : ∀ a a' counts names, P names counts a a' → Mirrors db model isInSelect (f a) (f' a')
      fun names counts' b b' => P names counts a a' → R names (counts ++ counts') b b') :
    Mirrors db model isInSelect (x >>= f) (x' >>= f') R := by
  intro all s s' r t htwin hxf
  simp only [Lower.bind_ok_iff] at hxf ⊢
  obtain ⟨a, u, hxa, hfa⟩ := hxf
  obtain ⟨a', u', counts, hxa', hpaired, hk, hk', hc, hp⟩ := hx htwin hxa
  obtain ⟨b', t', counts', hfa', hpaired', hk₂, hk₂', hc', hr⟩ :=
    hf a a' counts _ (hp _ (List.Subset.refl _)) (.of_keeps hpaired hk hk') hfa
  refine ⟨b', t', counts ++ counts', ⟨a', u', hxa', hfa'⟩, ?_, hk.trans hk₂, hk'.trans hk₂',
    fun h => ?_, fun names hnames => ?_⟩
  · rwa [gain_append]
  · rw [hc h, hc' h, List.append_nil]
  · exact hr names hnames (hp names (List.Subset.trans hk₂'.grows.names_subset hnames))

theorem map {g g' : α → β} (hx : Mirrors db model isInSelect x x' P)
    (h : ∀ {names counts a a'}, P names counts a a' → R names counts (g a) (g' a')) :
    Mirrors db model isInSelect (x >>= fun a => Pure.pure (g a))
      (x' >>= fun a => Pure.pure (g' a)) R := by
  refine hx.bind fun a a' counts _ _ => .pure fun names hp => ?_
  rw [List.append_nil]
  exact h hp

theorem both {g g' : α → β → γ} {S : List String → List Count → γ → γ → Prop}
    (hx : Mirrors db model isInSelect x x' P) (hy : Mirrors db model isInSelect y y' R)
    (h : ∀ {names counts counts' a a' b b'}, P names counts a a' → R names counts' b b' →
      S names (counts ++ counts') (g a b) (g' a' b')) :
    Mirrors db model isInSelect (x >>= fun a => y >>= fun b => Pure.pure (g a b))
      (x' >>= fun a => y' >>= fun b => Pure.pure (g' a b)) S :=
  hx.bind fun _ _ _ _ _ => hy.map fun hr hp => h hp hr

theorem check {check check' : Lower Unit} {y y' : Lower α} (h : Follows check check')
    (hy : Mirrors db model isInSelect y y' P) :
    Mirrors db model isInSelect (check >>= fun _ => y) (check' >>= fun _ => y') P := by
  intro all s s' r t htwin hxy
  simp only [Lower.bind_ok_iff] at hxy ⊢
  obtain ⟨_, u, hcheck, hy₁⟩ := hxy
  obtain ⟨rfl, hcheck'⟩ := h _ _ hcheck
  obtain ⟨r', t', counts, hy', hrest⟩ := hy htwin hy₁
  exact ⟨r', t', counts, ⟨(), s', hcheck' s', hy'⟩, hrest⟩

theorem lift {e : Except DialectError α}
    (hf : ∀ a, e = .ok a → Mirrors db model isInSelect (f a) (f' a) R) :
    Mirrors db model isInSelect (liftM e >>= f) (liftM e >>= f') R := by
  intro all s s' r t htwin hxf
  simp only [Lower.bind_ok_iff, Lower.lift_ok_iff] at hxf ⊢
  obtain ⟨a, _, ⟨he, rfl⟩, hfa⟩ := hxf
  obtain ⟨b', t', counts, hfa', hrest⟩ := hf a he htwin hfa
  exact ⟨b', t', counts, ⟨a, s', ⟨he, rfl⟩, hfa'⟩, hrest⟩

/-- What is no select item counts nothing. -/
theorem outside (h : Mirrors db model false x x' P) :
    Mirrors db model isInSelect x x' fun names counts a a' => counts = [] ∧ P names [] a a' := by
  intro all s s' r t htwin hx
  obtain ⟨r', t', counts, hx', hpaired, hk, hk', hc, hp⟩ := h htwin hx
  obtain rfl := hc rfl
  exact ⟨r', t', [], hx', hpaired, hk, hk', fun _ => rfl,
    fun names hnames => ⟨rfl, hp names hnames⟩⟩

/-- A step that is no select item, in both runs. -/
theorem run (h : Mirrors db model false x x' P) {all : List (List Count)} {s s' t : LoweringState}
    {r : α} (htwin : Twin db model all s s') (hx : x s = .ok (r, t)) :
    ∃ r' t', x' s' = .ok (r', t') ∧ Twin db model all t t' ∧ Keeps s t ∧ Keeps s' t' ∧
      ∀ names, t'.names ⊆ names → P names [] r r' := by
  obtain ⟨r', t', counts, hx', hpaired, hk, hk', hc, hp⟩ := h htwin hx
  obtain rfl := hc rfl
  rw [gain_nil] at hpaired
  exact ⟨r', t', hx', .of_keeps hpaired hk hk', hk, hk', hp⟩

end Mirrors

variable {db} {c : LoweringContext} {isInSelect : Bool}

/-! ## Paths -/

/-- Both runs come to the same place, whose table is open in both. -/
theorem navigate_mirrors {β : Type} {f f' : Place → Lower β}
    {R : List String → List Count → β → β → Prop} (path : Path) (steps : Nat)
    (hf : ∀ place, Mirrors db c.model isInSelect (f place) (f' place) fun names counts b b' =>
      place.aliasName ∈ names → R names counts b b') :
    Mirrors db c.model isInSelect (navigate c path steps >>= f)
      (navigate c.withSubqueries path steps >>= f') R := by
  intro all s s' r t htwin hx
  simp only [Lower.bind_ok_iff] at hx ⊢
  obtain ⟨place, u, hn, hfp⟩ := hx
  obtain ⟨u', hn', htwin', -⟩ := navigate_twin htwin hn
  obtain ⟨hk, -⟩ := navigate_keeps htwin.sound hn
  obtain ⟨hk', hp⟩ := navigate_keeps htwin.sound' hn'
  obtain ⟨b', t', counts, hfp', hpaired, hk₂, hk₂', hc, hr⟩ := hf place htwin' hfp
  exact ⟨b', t', counts, ⟨place, u', hn', hfp'⟩, hpaired, hk.trans hk₂, hk'.trans hk₂', hc,
    fun names hsub => hr names hsub (hsub (hk₂'.grows.names_subset hp.mem_names))⟩

/-- A column of one of these tables. -/
def IsColumnOf (names : List String) (e : Sql.Expression) : Prop :=
  ∃ aliasName ∈ names, ∃ column, e = .of aliasName column

theorem propertyColumn_mirrors (path : Path) (name : String) (steps : Nat) :
    Mirrors db c.model isInSelect (propertyColumn c path name steps)
      (propertyColumn c.withSubqueries path name steps) fun names counts e e' =>
        counts = [] ∧ e' = e ∧ IsColumnOf names e := by
  refine navigate_mirrors path steps fun place => Mirrors.lift fun property _ => ?_
  cases property with
  | basic a => exact .pure fun names hp => ⟨rfl, rfl, _, hp, _, rfl⟩
  | toOne association => exact .pure fun names hp => ⟨rfl, rfl, _, hp, _, rfl⟩
  | toMany collection => exact .fails fun _ _ => by simp

theorem foreignKey?_mirrors (path : Path) (owner name : String) (steps : Nat) :
    Mirrors db c.model isInSelect (foreignKey? c path owner name steps)
      (foreignKey? c.withSubqueries path owner name steps) fun names counts found found' =>
        counts = [] ∧ found' = found ∧ ∀ e ∈ found, IsColumnOf names e := by
  refine navigate_mirrors path steps fun place => Mirrors.lift fun property _ => ?_
  cases property with
  | basic a => exact .pure fun names _ => ⟨rfl, rfl, by simp⟩
  | toOne association =>
    refine Mirrors.lift fun target _ => ?_
    split
    · exact .pure fun names hp => ⟨rfl, rfl, fun e he => ⟨_, hp, _, (Option.some.inj he).symm⟩⟩
    · exact .pure fun names _ => ⟨rfl, rfl, by simp⟩
  | toMany collection => exact .pure fun names _ => ⟨rfl, rfl, by simp⟩

theorem resolve_mirrors (path : Path) :
    Mirrors db c.model isInSelect (resolve c path) (resolve c.withSubqueries path)
      fun names counts e e' => counts = [] ∧ e' = e ∧ IsColumnOf names e := by
  rcases hr : path.properties.reverse with _ | ⟨name, _ | ⟨owner, rest⟩⟩
  all_goals simp only [resolve, hr]
  · exact navigate_mirrors path 0 fun place => .pure fun names hp => ⟨rfl, rfl, _, hp, _, rfl⟩
  · exact propertyColumn_mirrors path name 0
  · refine (foreignKey?_mirrors path owner name rest.length).bind ?_
    rintro _ found _ _ ⟨rfl, rfl, -⟩
    cases found with
    | some column => exact .pure fun names h => ⟨rfl, rfl, h.2.2 column rfl⟩
    | none => exact (propertyColumn_mirrors path name (rest.length + 1)).imp fun _ _ _ _ h _ => h

theorem entityColumns_mirrors (path : Path) :
    Mirrors db c.model isInSelect (entityColumns c path) (entityColumns c.withSubqueries path)
      fun names counts columns columns' =>
        counts = [] ∧ columns' = columns ∧ ∀ e ∈ columns, IsColumnOf names e := by
  refine navigate_mirrors path 0 fun place => .pure fun names hp => ⟨rfl, rfl, ?_⟩
  simp only [List.cons_append, List.mem_cons, List.mem_append, List.mem_map]
  rintro e (rfl | ⟨a, -, rfl⟩ | ⟨a, -, rfl⟩) <;> exact ⟨_, hp, _, rfl⟩

/-! ## Sizes of collections -/

/-- A collection is counted by a join in the first run and in a subquery in the second one. Where
the size is no select item, both have the subquery. -/
theorem lowerSize_mirrors (path : Path) (hd : c.dialect.supports .subqueryInSelect = false)
    (hfits : db.Fits c.model) :
    Mirrors db c.model c.isInSelect (lowerSize c path) (lowerSize c.withSubqueries path)
      (Sql.Expression.Agree db c.isInSelect) := by
  intro all s s' e t htwin hx
  obtain ⟨name, place, u, collection, element, hlast, hn, hproperty, helement, hx⟩ :=
    lowerSize_ok_iff.1 hx
  obtain ⟨u', hn', htwin', hentity⟩ := navigate_twin htwin hn
  obtain ⟨hk, hp⟩ := navigate_keeps htwin.sound hn
  obtain ⟨hk', hp'⟩ := navigate_keeps htwin.sound' hn'
  have hx' : lowerSize c.withSubqueries path s' = .ok (countQuery (memberTable collection element).1
      u'.fresh (memberTable collection element).2.1 place.id, u'.allot) := by
    refine lowerSize_ok_iff.2
      ⟨name, place, u', collection, element, hlast, hn', hproperty, helement, ?_⟩
    rw [if_neg]
    · exact ⟨rfl, rfl⟩
    · simp [LoweringContext.withSubqueries, Dialect.withSubqueries_supports]
  have hallot : Keeps u' u'.allot := Keeps.skip htwin'.sound' (Nat.le_succ _)
  cases hselect : c.isInSelect with
  | true =>
    rw [hselect, hd] at hx
    let k : Count := ⟨(memberTable collection element).1, u.fresh,
      (memberTable collection element).2.1, (memberTable collection element).2.2,
      (place.aliasName, place.entity.id.column)⟩
    have hdistinct : k.Distinct db := hfits.distinct hentity hproperty ⟨_, helement⟩ _ _
    obtain ⟨scope, hscope, hgrouped, hz, -, rfl, rfl⟩ := countJoined_ok hx
    obtain ⟨_, scope', -, hscope', htwins⟩ := htwin'.scopes.get hscope
    obtain ⟨hjoined, -⟩ := countJoined_keeps htwin'.sound ⟨scope, hscope, htwins.opens.1⟩ hp hx
    have hholds : scope'.Holds place.item place.aliasName := by
      obtain ⟨scope₁, hscope₁, hholds⟩ := hp'
      rw [hz, hscope'] at hscope₁
      exact Option.some.inj hscope₁ ▸ hholds
    have hpaired := htwin'.allot.count (k := k) hscope hgrouped hscope' hholds hdistinct
    refine ⟨_, _, [k], hx', hpaired, hk.trans hjoined, hk'.trans hallot, nofun, fun names _ => ?_⟩
    rw [← htwin'.fresh_eq]
    exact k.agrees names
  | false =>
    rw [hselect] at hx
    obtain ⟨rfl, rfl⟩ := hx
    have hskip : Keeps u u.allot := Keeps.skip htwin'.sound (Nat.le_succ _)
    refine ⟨_, _, [], hx', ?_, hk.trans hskip, hk'.trans hallot, fun _ => rfl,
      fun names hsub => ?_⟩
    · rw [gain_nil]
      exact htwin'.allot
    · rw [htwin'.fresh_eq]
      refine Sql.countQuery_agrees db (fun he => ?_) (hsub hp'.mem_names)
      exact (htwin'.sound'.allotted _ hp'.mem_names).ne u'.fresh_allotted he.symm

/-! ## Checks -/

namespace Follows

variable {x x' y y' : Lower Unit}

theorem nothing : Follows (Pure.pure ()) (Pure.pure ()) := fun _ _ h =>
  ⟨(congrArg Prod.snd (Lower.pure_ok_iff.1 h)).symm, fun _ => rfl⟩

theorem seq (h : Follows x x') (h' : Follows y y') :
    Follows (x >>= fun _ => y) (x' >>= fun _ => y') := by
  intro s r hxy
  obtain ⟨_, t, hx, hy⟩ := Lower.bind_ok_iff.1 hxy
  obtain ⟨rfl, hx'⟩ := h _ _ hx
  obtain ⟨rfl, hy'⟩ := h' _ _ hy
  exact ⟨rfl, fun s' => Lower.bind_ok_iff.2 ⟨(), s', hx' s', hy' s'⟩⟩

end Follows

theorem supports_withSubqueries {capability : Capability}
    (h : c.dialect.supports capability = true) :
    c.withSubqueries.dialect.supports capability = true := by
  rw [LoweringContext.withSubqueries, Dialect.withSubqueries_supports, h, Bool.or_true]

theorem require_follows (capability : Capability) (construct : String) :
    Follows (c.require capability construct) (c.withSubqueries.require capability construct) := by
  intro s r h
  obtain ⟨hs, he⟩ := Lower.require_ok_iff.1 h
  exact ⟨he, fun s' => Lower.require_ok_iff.2 ⟨supports_withSubqueries hs, rfl⟩⟩

theorem checkMember_follows (e : Expression) :
    Follows (checkMember c e) (checkMember c.withSubqueries e) := by
  cases e
  case tuple => exact require_follows _ _
  case subquery => exact require_follows _ _
  all_goals exact Follows.nothing

theorem checkCall_follows (name : String) (arguments : Nat) :
    Follows (checkCall c name arguments) (checkCall c.withSubqueries name arguments) := by
  intro s r h
  obtain ⟨template, _, ht, ha⟩ := Lower.bind_ok_iff.1 h
  obtain ⟨ht, rfl⟩ := Lower.lift_ok_iff.1 ht
  obtain ⟨ha, hr⟩ := Lower.lift_ok_iff.1 ha
  exact ⟨hr, fun s' => Lower.bind_ok_iff.2
    ⟨template, s', Lower.lift_ok_iff.2 ⟨ht, rfl⟩, Lower.lift_ok_iff.2 ⟨ha, rfl⟩⟩⟩

theorem checkOrder_follows (isNested : Bool) (query : Query) :
    Follows (checkOrder c isNested query) (checkOrder c.withSubqueries isNested query) := by
  have hsupports : c.withSubqueries.dialect.supports .orderByInSubquery =
      c.dialect.supports .orderByInSubquery := Dialect.withSubqueries_supports _ _
  unfold checkOrder
  rw [hsupports]
  split
  · exact fun _ _ h => (Lower.lacks_ok_iff.1 h).elim
  · exact Follows.nothing

theorem checkGroup_follows (isNested : Bool) (operator : SetOperator) :
    Follows (checkGroup c isNested operator) (checkGroup c.withSubqueries isNested operator) := by
  have hunion : Follows (if isNested then c.require .unionInSubquery "set operation in a subquery"
      else Pure.pure ()) (if isNested then
        c.withSubqueries.require .unionInSubquery "set operation in a subquery"
      else Pure.pure ()) := by
    split
    · exact require_follows _ _
    · exact Follows.nothing
  by_cases ho : operator = .unionAll
  · simp only [checkGroup, ho, if_true]
    exact (require_follows _ _).seq hunion
  · simp only [checkGroup, ho, if_false]
    exact hunion

end SqlDialects.Entity
