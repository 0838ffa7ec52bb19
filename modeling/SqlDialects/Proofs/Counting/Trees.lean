import SqlDialects.Proofs.Counting.Mirrors
import SqlDialects.Proofs.Counting.Rows

/-!
# Trees of both runs

Each tree that the first run makes has the same value as that of the second run. The select list of
a query may count collections in two ways, and everything else is the same but for queries inside.
-/

namespace SqlDialects.Entity

open Sql (Agrees Count Value everyKey plainItems)

variable {σ : Type} [DecidableEq σ] {db : Sql.Database σ}

/-- Select items count collections by joins, in a database of the model. -/
structure CountsByJoins (db : Sql.Database σ) (c : LoweringContext) : Prop where
  lacks : c.dialect.supports .subqueryInSelect = false
  fits : db.Fits c.model

/-! ## Select lists -/

variable (db) in
/-- The items have the same values, and so have those that count no collection. -/
structure SelectAgree (names : List String) (counts : List Count) (r r' : LoweredSelect) :
    Prop where
  agrees : Agrees db true names counts (r.items.flatMap (·.expression.parts))
    (r'.items.flatMap (·.expression.parts)) (Sql.SelectItem.specsAll everyKey r'.items)
    (Sql.SelectItem.valueAll db r.items) (Sql.SelectItem.valueAll db r'.items)
  plain : Agrees db false names [] (Sql.Expression.partsAll r.plain)
    (Sql.Expression.partsAll (plainItems r'.items)) (Sql.SelectItem.specsAll everyKey r'.items)
    (Sql.Expression.valueAll db r.plain) (Sql.Expression.valueAll db (plainItems r'.items))

namespace SelectAgree

variable {names : List String} {counts counts' : List Count} {q q' r r' : LoweredSelect}

theorem selectValueAll_append (items items' : List (SelectItem Sql.Expression)) :
    Sql.SelectItem.valueAll db (items ++ items') = fun view =>
      Sql.SelectItem.valueAll db items view ++ Sql.SelectItem.valueAll db items' view := by
  funext view
  induction items with
  | nil => rfl
  | cons item rest ih => simp only [List.cons_append, Sql.SelectItem.valueAll, ih]

theorem valueAll_append (es es' : List Sql.Expression) :
    Sql.Expression.valueAll db (es ++ es') = fun view =>
      Sql.Expression.valueAll db es view ++ Sql.Expression.valueAll db es' view := by
  funext view
  simp only [Sql.valueAll_eq_map, List.map_append]

theorem partsAll_append (es es' : List Sql.Expression) :
    Sql.Expression.partsAll (es ++ es') =
      Sql.Expression.partsAll es ++ Sql.Expression.partsAll es' := by
  induction es with
  | nil => rfl
  | cons e rest ih => simp only [List.cons_append, Sql.Expression.partsAll, ih, List.append_assoc]

theorem nil : SelectAgree db names [] {} {} := ⟨.const [], .const []⟩

theorem append (h : SelectAgree db names counts r r') (h' : SelectAgree db names counts' q q') :
    SelectAgree db names (counts ++ counts') (r.append q) (r'.append q') where
  agrees := by
    have hboth := h.agrees.both (· ++ ·) h'.agrees
    simp only [LoweredSelect.append, List.flatMap_append, Sql.SelectItem.specsAll_append,
      selectValueAll_append]
    exact hboth
  plain := by
    have hboth := h.plain.both (· ++ ·) h'.plain
    simp only [LoweredSelect.append, plainItems, List.map_append, List.filter_append,
      partsAll_append, Sql.SelectItem.specsAll_append, valueAll_append]
    exact hboth

/-- One item, which is plain if nothing is counted in it. -/
theorem item {e e' : Sql.Expression} (h : Sql.Expression.Agree db true names counts e e')
    (aliasName : Option String) (plain' : List Sql.Expression) :
    SelectAgree db names counts ⟨[⟨e, aliasName⟩], if counts = [] then [e] else []⟩
      ⟨[⟨e', aliasName⟩], plain'⟩ where
  agrees := by
    have hsingle := h.map fun value => [value]
    simp only [List.flatMap_singleton, Sql.SelectItem.specsAll, List.append_nil]
    exact hsingle
  plain := by
    have howners := h.owners rfl
    by_cases hc : counts = []
    · subst hc
      have hsingle := h.outside.map fun value => [value]
      simp only [plainItems, List.map_cons, List.map_nil, List.filter_cons, List.filter_nil,
        howners, List.isEmpty_nil, if_true, Sql.Expression.partsAll, Sql.SelectItem.specsAll,
        List.append_nil]
      exact hsingle
    · have hcounted : (Sql.countedOwners e'.parts).isEmpty = false := by
        rw [howners, List.isEmpty_eq_false_iff]
        simpa using hc
      simp only [plainItems, List.map_cons, List.map_nil, List.filter_cons, List.filter_nil,
        hcounted, hc, if_false]
      exact (Agrees.const []).subset (List.nil_subset _)

theorem ofColumns : ∀ {columns : List Sql.Expression}, (∀ e ∈ columns, IsColumnOf names e) →
    SelectAgree db names [] (.ofColumns columns) (.ofColumns columns)
  | [], _ => .nil
  | e :: rest, h => by
    obtain ⟨⟨a, ha, column, rfl⟩, hrest⟩ := List.forall_mem_cons.1 h
    exact (item (Agrees.column ha) none [.of a column]).append (ofColumns hrest)

end SelectAgree

/-! ## Queries -/

theorem Scope.groupKeys_of_uncounted {scope : Scope} (h : scope.countedCollections = 0)
    (groupBy plain : List Sql.Expression) : scope.groupKeys groupBy plain = groupBy :=
  if_pos h

theorem Scope.groupKeys_of_counted {scope : Scope} (h : scope.countedCollections ≠ 0)
    (groupBy plain : List Sql.Expression) :
    scope.groupKeys groupBy plain = groupByOwners scope.owners plain :=
  if_neg h

/-- A query without groups of its own has neither keys nor a condition on groups. -/
theorem clauses_of_not_grouped {c : LoweringContext} {select : List (SelectItem Expression)}
    {groupBy : List Expression} {having : Option Condition} {groupBy' : List Sql.Expression}
    {having' : Option Sql.Condition} {s t u v : LoweringState}
    (hg : isGrouped select groupBy having = false)
    (hkeys : Expression.lowerAll c groupBy s = .ok (groupBy', t))
    (hhaving : Condition.lowerOption c having u = .ok (having', v)) :
    groupBy' = [] ∧ having' = none := by
  simp only [isGrouped, Bool.or_eq_false_iff, Bool.not_eq_false', List.isEmpty_iff,
    Option.isSome_eq_false_iff, Option.isNone_iff_eq_none] at hg
  obtain ⟨⟨rfl, rfl⟩, -⟩ := hg
  simp only [Expression.lowerAll, Condition.lowerOption, Lower.pure_ok_iff,
    Prod.mk.injEq] at hkeys hhaving
  exact ⟨hkeys.1, hhaving.1⟩

/-- A query is left in both runs. Its clauses agree under the names that were open before. -/
theorem Twin.forms {model : Mapping.Model} {counts : List Count} {all : List (List Count)}
    {scope scope' : Scope} {t t' : LoweringState} {select select' : LoweredSelect}
    {condition condition' having having' : Option Sql.Condition}
    {groupBy groupBy' : List Sql.Expression} {orderBy orderBy' : List (SortKey Sql.Expression)}
    {limit limit' offset offset' : Option Sql.Expression} (isDistinct : Bool)
    (h : Twin db model (counts :: all) { t with scopes := scope :: t.scopes }
      { t' with scopes := scope' :: t'.scopes })
    (hselect : SelectAgree db (scope'.names ++ t'.names) counts select select')
    (hcondition : Sql.Condition.OptionAgree db false (scope'.names ++ t'.names) [] condition
      condition')
    (hgroupBy : Sql.Expression.AllAgree db false (scope'.names ++ t'.names) [] groupBy groupBy')
    (hhaving : Sql.Condition.OptionAgree db false (scope'.names ++ t'.names) [] having having')
    (horderBy : Sql.SortKey.AllAgree db false (scope'.names ++ t'.names) [] orderBy orderBy')
    (hlimit : Sql.Expression.OptionAgree db false (scope'.names ++ t'.names) [] limit limit')
    (hoffset : Sql.Expression.OptionAgree db false (scope'.names ++ t'.names) [] offset offset')
    (hcounted : counts ≠ [] → groupBy' = [] ∧ having' = none) :
    Sql.QuerySpec.Forms db t'.names counts
      ⟨isDistinct, select.items, scope.tables, condition, scope.groupKeys groupBy select.plain,
        having, orderBy, limit, offset⟩
      ⟨isDistinct, select'.items, scope'.tables, condition',
        scope'.groupKeys groupBy' select'.plain, having', orderBy', limit', offset'⟩ := by
  obtain ⟨-, hscopes⟩ := h.toPaired
  cases hscopes with
  | cons hscope hrest =>
    have hkeys' : scope'.groupKeys groupBy' select'.plain = groupBy' :=
      scope'.groupKeys_of_uncounted hscope.counted.2 _ _
    have hnodup := List.nodup_append'.1 h.sound.nodup
    have hnodup' := List.nodup_append'.1 h.sound'.nodup
    refine
      { isDistinct := rfl
        tables := hscope.tables
        nodup := ?_
        hangs := h.sound'.scopes.1.joins
        distinct := hscope.distinct
        select := hselect.agrees
        condition := hcondition
        having := hhaving
        orderBy := horderBy
        limit := hlimit
        offset := hoffset
        uncounted := fun hc => ?_
        counted := fun hc => ?_ }
    · exact List.nodup_append'.2
        ⟨hnodup.1, hnodup'.2.1, fun a ha ha' => hnodup.2.2 ha (hrest.names_subset ha')⟩
    · subst hc
      show Sql.Expression.AllAgree db false _ [] (scope.groupKeys _ _) (scope'.groupKeys _ _)
      rw [hkeys', scope.groupKeys_of_uncounted hscope.counted.1]
      exact hgroupBy
    · obtain ⟨hgroup, hnone⟩ := hcounted hc
      refine ⟨hkeys'.trans hgroup, hnone, scope.owners, select.plain,
        scope.groupKeys_of_counted ?_ _ _, hscope.owners, hselect.plain⟩
      rw [hscope.counted.1]
      simpa using hc

/-! ## Trees -/

mutual

theorem Expression.lower_mirrors : ∀ (e : Expression) {c : LoweringContext}, CountsByJoins db c →
    Mirrors db c.model c.isInSelect (e.lower c) (e.lower c.withSubqueries)
      (Sql.Expression.Agree db c.isInSelect)
  | .path path, c, hc => by
    simp only [Expression.lower]
    refine (resolve_mirrors path).imp ?_
    rintro names _ _ _ ⟨rfl, rfl, a, ha, column, rfl⟩
    exact Agrees.column ha
  | .literal value, c, hc => by
    simp only [Expression.lower]
    exact .pure fun _ => (Agrees.const [db.literal value]).node rfl rfl rfl
  | .parameter parameter, c, hc => by
    simp only [Expression.lower]
    exact .pure fun _ => (Agrees.const [db.parameter parameter]).node rfl rfl rfl
  | .call name arguments, c, hc => by
    simp only [Expression.lower]
    refine Mirrors.check (checkCall_follows name arguments.length) ?_
    exact (Expression.lowerAll_mirrors arguments hc).map fun h =>
      (h.agrees.map fun values => [db.compute (.call name) values]).node rfl rfl rfl
  | .aggregate function isDistinct argument, c, hc => by
    simp only [Expression.lower]
    exact (Expression.lowerOption_mirrors argument hc).map fun h =>
      Agrees.aggregate function isDistinct h
  | .extract unit source, c, hc => by
    simp only [Expression.lower]
    exact (source.lower_mirrors hc).map fun h =>
      (h.map fun value => [db.compute (.extract unit) [value]]).node rfl rfl rfl
  | .timestampAdd unit magnitude timestamp, c, hc => by
    simp only [Expression.lower]
    exact (magnitude.lower_mirrors hc).both (timestamp.lower_mirrors hc) fun h h' =>
      (h.both (fun x y => [db.compute (.timestampAdd unit) [x, y]]) h').node rfl rfl rfl
  | .timestampDiff unit start finish, c, hc => by
    simp only [Expression.lower]
    exact (start.lower_mirrors hc).both (finish.lower_mirrors hc) fun h h' =>
      (h.both (fun x y => [db.compute (.timestampDiff unit) [x, y]]) h').node rfl rfl rfl
  | .format source pattern, c, hc => by
    simp only [Expression.lower]
    exact (source.lower_mirrors hc).map fun h =>
      (h.map fun value => [db.compute (.format pattern) [value]]).node rfl rfl rfl
  | .binary left operator right, c, hc => by
    simp only [Expression.lower]
    exact (left.lower_mirrors hc).both (right.lower_mirrors hc) fun h h' =>
      (h.both (fun x y => [db.compute (.arithmetic operator) [x, y]]) h').node rfl rfl rfl
  | .negate operand, c, hc => by
    simp only [Expression.lower]
    exact (operand.lower_mirrors hc).map fun h =>
      (h.map fun value => [db.compute .negate [value]]).node rfl rfl rfl
  | .case branches otherwise, c, hc => by
    simp only [Expression.lower]
    exact (CaseBranch.lowerAll_mirrors branches hc).both
      (Expression.lowerOption_mirrors otherwise hc) fun h h' =>
        (h.both (fun x y : Option (Value σ) => (x.or y).getD [none]) h'.agrees).node rfl rfl rfl
  | .cast source target, c, hc => by
    simp only [Expression.lower]
    exact (source.lower_mirrors hc).map fun h =>
      (h.map fun value => [db.compute (.cast target) [value]]).node rfl rfl rfl
  | .subquery query, c, hc => by
    simp only [Expression.lower]
    cases hs : c.isInSelect with
    | true =>
      refine .fails fun s r h => ?_
      obtain ⟨_, _, h, -⟩ := Lower.bind_ok_iff.1 h
      have := (checkSubquery_ok h).1
      rw [hs, hc.lacks] at this
      cases this
    | false =>
      have hcheck : Follows (checkSubquery c) (checkSubquery c.withSubqueries) := by
        unfold checkSubquery
        have hs' : c.withSubqueries.isInSelect = false := hs
        rw [hs, hs']
        exact Follows.nothing
      refine Mirrors.check hcheck ((query.lower_mirrors true hc).outside.map ?_)
      rintro _ _ _ _ ⟨rfl, h⟩
      exact h.agrees.subquery
  | .tuple items, c, hc => by
    simp only [Expression.lower]
    exact (Expression.lowerAll_mirrors items hc).map fun h =>
      (h.agrees.map List.flatten).node rfl rfl rfl
  | .size path, c, hc => by
    simp only [Expression.lower]
    exact lowerSize_mirrors path hc.lacks hc.fits

theorem Expression.lowerAll_mirrors : ∀ (es : List Expression) {c : LoweringContext},
    CountsByJoins db c → Mirrors db c.model c.isInSelect (Expression.lowerAll c es)
      (Expression.lowerAll c.withSubqueries es) (Sql.Expression.AllAgree db c.isInSelect)
  | [], c, hc => by
    simp only [Expression.lowerAll]
    exact .pure fun _ => ⟨.const [], rfl⟩
  | e :: rest, c, hc => by
    simp only [Expression.lowerAll]
    exact (e.lower_mirrors hc).both (Expression.lowerAll_mirrors rest hc) fun h h' =>
      ⟨h.both List.cons h'.agrees, congrArg (· + 1) h'.length_eq⟩

theorem Expression.lowerOption_mirrors : ∀ (e : Option Expression) {c : LoweringContext},
    CountsByJoins db c → Mirrors db c.model c.isInSelect (Expression.lowerOption c e)
      (Expression.lowerOption c.withSubqueries e) (Sql.Expression.OptionAgree db c.isInSelect)
  | none, c, hc => by
    simp only [Expression.lowerOption]
    exact .pure fun _ => ⟨.const none, rfl⟩
  | some e, c, hc => by
    simp only [Expression.lowerOption]
    exact (e.lower_mirrors hc).map fun h => ⟨h.map some, rfl⟩

theorem CaseBranch.lowerAll_mirrors : ∀ (branches : List (CaseBranch Condition Expression))
    {c : LoweringContext}, CountsByJoins db c →
      Mirrors db c.model c.isInSelect (CaseBranch.lowerAll c branches)
        (CaseBranch.lowerAll c.withSubqueries branches)
        (Sql.CaseBranch.AllAgree db c.isInSelect)
  | [], c, hc => by
    simp only [CaseBranch.lowerAll]
    exact .pure fun _ => .const none
  | ⟨condition, result⟩ :: rest, c, hc => by
    simp only [CaseBranch.lowerAll]
    refine (condition.lower_mirrors hc).bind fun _ _ _ _ _ => ?_
    refine (result.lower_mirrors hc).both (CaseBranch.lowerAll_mirrors rest hc) fun h₂ h₃ h₁ => ?_
    rw [← List.append_assoc]
    exact (h₁.both Prod.mk h₂).both (fun x rest => if x.1 = some true then some x.2 else rest) h₃

theorem Condition.lower_mirrors : ∀ (p : Condition) {c : LoweringContext}, CountsByJoins db c →
    Mirrors db c.model c.isInSelect (p.lower c) (p.lower c.withSubqueries)
      (Sql.Condition.Agree db c.isInSelect)
  | .compare left operator right, c, hc => by
    simp only [Condition.lower]
    exact (left.lower_mirrors hc).both (right.lower_mirrors hc) fun h h' =>
      h.both (db.compareValues operator) h'
  | .all items, c, hc => by
    simp only [Condition.lower]
    exact (Condition.lowerAll_mirrors items hc).map fun h => h.map Sql.Truth.all
  | .any items, c, hc => by
    simp only [Condition.lower]
    exact (Condition.lowerAll_mirrors items hc).map fun h => h.map Sql.Truth.any
  | .not operand, c, hc => by
    simp only [Condition.lower]
    exact (operand.lower_mirrors hc).map fun h => h.map fun truth : Option Bool => truth.map not
  | .isNull operand isNegated, c, hc => by
    simp only [Condition.lower]
    exact (operand.lower_mirrors hc).map fun h => h.map fun value : Value σ =>
      some (if isNegated then value.all (·.isSome) else value.all (·.isNone))
  | .inList operand items isNegated, c, hc => by
    simp only [Condition.lower]
    refine Mirrors.check (checkMember_follows operand) ?_
    exact (operand.lower_mirrors hc).both (Expression.lowerAll_mirrors items hc) fun h h' =>
      h.both (fun (value : Value σ) (values : List (Value σ)) =>
        Sql.Truth.negated isNegated (Sql.Truth.any (values.map (Sql.equalValues value)))) h'.agrees
  | .inQuery operand query isNegated, c, hc => by
    simp only [Condition.lower]
    refine Mirrors.check (checkMember_follows operand) ?_
    refine (operand.lower_mirrors hc).both (query.lower_mirrors true hc).outside ?_
    rintro _ _ _ _ _ _ _ h ⟨rfl, h'⟩
    have hboth := h.both (fun value rows =>
      Sql.Truth.negated isNegated (Sql.Truth.any (rows.map (Sql.equalValues value)))) h'.agrees.rows
    simp only [List.append_nil] at hboth ⊢
    exact hboth
  | .exists query isNegated, c, hc => by
    simp only [Condition.lower]
    refine (query.lower_mirrors true hc).outside.map ?_
    rintro _ _ _ _ ⟨rfl, h⟩
    exact h.agrees.rows.map fun rows => Sql.Truth.negated isNegated (some !rows.isEmpty)
  | .like operand pattern escape ignoresCase isNegated, c, hc => by
    simp only [Condition.lower]
    exact (operand.lower_mirrors hc).both (pattern.lower_mirrors hc) fun h h' =>
      h.both (fun x y => Sql.Truth.negated isNegated (db.like ignoresCase escape x y)) h'
  | .between operand low high isNegated, c, hc => by
    simp only [Condition.lower]
    refine (operand.lower_mirrors hc).bind fun _ _ _ _ _ => ?_
    exact (low.lower_mirrors hc).both (high.lower_mirrors hc) fun h₂ h₃ h₁ =>
      h₁.both (fun (x : Value σ) (bounds : Value σ × Value σ) =>
        Sql.Truth.negated isNegated (Sql.Truth.all
          [db.compare .lessOrEqual bounds.1 x, db.compare .lessOrEqual x bounds.2]))
        (h₂.both Prod.mk h₃)
  | .holds operand, c, hc => by
    simp only [Condition.lower]
    exact (operand.lower_mirrors hc).map fun h => h.map db.truth

theorem Condition.lowerAll_mirrors : ∀ (ps : List Condition) {c : LoweringContext},
    CountsByJoins db c → Mirrors db c.model c.isInSelect (Condition.lowerAll c ps)
      (Condition.lowerAll c.withSubqueries ps) (Sql.Condition.AllAgree db c.isInSelect)
  | [], c, hc => by
    simp only [Condition.lowerAll]
    exact .pure fun _ => .const []
  | p :: rest, c, hc => by
    simp only [Condition.lowerAll]
    exact (p.lower_mirrors hc).both (Condition.lowerAll_mirrors rest hc) fun h h' =>
      h.both List.cons h'

theorem Condition.lowerOption_mirrors : ∀ (p : Option Condition) {c : LoweringContext},
    CountsByJoins db c → Mirrors db c.model c.isInSelect (Condition.lowerOption c p)
      (Condition.lowerOption c.withSubqueries p) (Sql.Condition.OptionAgree db c.isInSelect)
  | none, c, hc => by
    simp only [Condition.lowerOption]
    exact .pure fun _ => ⟨.const true, rfl⟩
  | some p, c, hc => by
    simp only [Condition.lowerOption]
    exact (p.lower_mirrors hc).map fun h =>
      ⟨h.map fun truth : Option Bool => decide (truth = some true), rfl⟩

theorem Query.lower_mirrors : ∀ (q : Query) (isNested : Bool) {c : LoweringContext},
    CountsByJoins db c → Mirrors db c.model false (q.lower c.outsideSelect isNested)
      (q.lower c.withSubqueries.outsideSelect isNested)
      fun names _ q q' => Sql.Query.Forms db names q q'
  | .spec spec, isNested, c, hc => by
    simp only [Query.lower]
    refine Mirrors.check (checkOrder_follows isNested (.spec spec)) ((spec.lower_mirrors hc).map ?_)
    rintro names _ r r' ⟨outer, counts, hsub, h⟩
    refine ⟨h.agrees.mono hsub, fun spec' he => ⟨r, outer, counts, rfl, hsub, ?_⟩⟩
    exact Sql.Query.spec.inj he ▸ h
  | .group operator parts orderBy limit offset, isNested, c, hc => by
    have hc' : CountsByJoins db c.outsideSelect := ⟨hc.lacks, hc.fits⟩
    simp only [Query.lower]
    refine Mirrors.check (checkOrder_follows isNested (.group operator parts orderBy limit offset))
      (Mirrors.check (checkGroup_follows isNested operator) ?_)
    refine (Query.lowerAll_mirrors parts isNested hc).bind fun _ _ _ _ _ => ?_
    refine (SortKey.lowerAll_mirrors orderBy hc').outside.bind fun _ _ _ _ _ => ?_
    exact (Expression.lowerOption_mirrors limit hc').outside.both
      (Expression.lowerOption_mirrors offset hc').outside fun h₃ h₄ h₂ h₁ =>
        ⟨h₁.group h₂.2 h₃.2 h₄.2, nofun⟩

theorem Query.lowerAll_mirrors : ∀ (qs : List Query) (isNested : Bool) {c : LoweringContext},
    CountsByJoins db c → Mirrors db c.model false (Query.lowerAll c.outsideSelect isNested qs)
      (Query.lowerAll c.withSubqueries.outsideSelect isNested qs)
      fun names _ qs qs' => Sql.Query.AllAgree db names qs qs'
  | [], isNested, c, hc => by
    simp only [Query.lowerAll]
    exact .pure fun _ => .nil
  | q :: rest, isNested, c, hc => by
    simp only [Query.lowerAll]
    exact (q.lower_mirrors isNested hc).both (Query.lowerAll_mirrors rest isNested hc) fun h h' =>
      h'.cons h.agrees

theorem QuerySpec.lower_mirrors : ∀ (spec : QuerySpec) {c : LoweringContext}, CountsByJoins db c →
    Mirrors db c.model false (spec.lower c.outsideSelect)
      (spec.lower c.withSubqueries.outsideSelect) fun names _ spec spec' =>
        ∃ outer counts, outer ⊆ names ∧ Sql.QuerySpec.Forms db outer counts spec spec'
  | ⟨isDistinct, select, roots, condition, groupBy, having, orderBy, limit, offset⟩, c, hc => by
    have hc' : CountsByJoins db c.outsideSelect := ⟨hc.lacks, hc.fits⟩
    intro all s s' r t htwin h
    obtain ⟨s₀, select₁, s₁, condition₁, s₂, groupBy₁, s₃, having₁, s₄, orderBy₁, s₅, limit₁, s₆,
      offset₁, s₇, scope, hroots, h₀, h₁, h₂, h₃, h₄, h₅, h₆, h₇, rfl, rfl⟩ :=
        QuerySpec.lower_ok_iff.1 h
    obtain ⟨s₀', h₀', hpaired₀⟩ := lowerRoots_paired (c := c.outsideSelect) (htwin.enter _) h₀
    have hk₀ := lowerRoots_keeps (htwin.sound.enter _) ⟨_, rfl, rfl⟩ rfl h₀
    have hk₀' := lowerRoots_keeps (htwin.sound'.enter _) ⟨_, rfl, rfl⟩ rfl h₀'
    obtain ⟨select₁', s₁', counts, h₁', hpaired₁, hk₁, hk₁', -, hselect⟩ :=
      SelectItem.lowerAll_mirrors select hc (.of_keeps hpaired₀ hk₀ hk₀') h₁
    obtain ⟨condition₁', s₂', h₂', ht₂, hk₂, hk₂', hcondition⟩ :=
      (Condition.lowerOption_mirrors condition hc').run (.of_keeps hpaired₁ hk₁ hk₁') h₂
    obtain ⟨groupBy₁', s₃', h₃', ht₃, hk₃, hk₃', hgroupBy⟩ :=
      (Expression.lowerAll_mirrors groupBy hc').run ht₂ h₃
    obtain ⟨having₁', s₄', h₄', ht₄, hk₄, hk₄', hhaving⟩ :=
      (Condition.lowerOption_mirrors having hc').run ht₃ h₄
    obtain ⟨orderBy₁', s₅', h₅', ht₅, hk₅, hk₅', horderBy⟩ :=
      (SortKey.lowerAll_mirrors orderBy hc').run ht₄ h₅
    obtain ⟨limit₁', s₆', h₆', ht₆, hk₆, hk₆', hlimit⟩ :=
      (Expression.lowerOption_mirrors limit hc').run ht₅ h₆
    obtain ⟨offset₁', s₇', h₇', ht₇, hk₇, hk₇', hoffset⟩ :=
      (Expression.lowerOption_mirrors offset hc').run ht₆ h₇
    obtain ⟨t', scope', rfl⟩ : ∃ (t' : LoweringState) (scope' : Scope),
        s₇' = { t' with scopes := scope' :: t'.scopes } := by
      obtain ⟨n', scopes'⟩ := s₇'
      cases ht₇.scopes
      exact ⟨⟨n', _⟩, _, rfl⟩
    -- What is open at the end was open, or has been added, after each clause.
    have hk₆₇' := hk₆'.trans hk₇'
    have hk₅₇' := hk₅'.trans hk₆₇'
    have hk₄₇' := hk₄'.trans hk₅₇'
    have hk₃₇' := hk₃'.trans hk₄₇'
    have hk₂₇' := hk₂'.trans hk₃₇'
    have hk := hk₀.trans (hk₁.trans (hk₂.trans (hk₃.trans (hk₄.trans (hk₅.trans (hk₆.trans hk₇))))))
    have hk' := hk₀'.trans (hk₁'.trans hk₂₇')
    have hforms := Twin.forms isDistinct ht₇ (hselect _ hk₂₇'.grows.names_subset)
      (hcondition _ hk₃₇'.grows.names_subset) (hgroupBy _ hk₄₇'.grows.names_subset)
      (hhaving _ hk₅₇'.grows.names_subset) (horderBy _ hk₆₇'.grows.names_subset)
      (hlimit _ hk₇'.grows.names_subset) (hoffset _ (List.Subset.refl _)) ?_
    · refine ⟨_, t', [], QuerySpec.lower_ok_iff.2 ⟨s₀', select₁', s₁', condition₁', s₂',
        groupBy₁', s₃', having₁', s₄', orderBy₁', s₅', limit₁', s₆', offset₁', _, scope', hroots,
        h₀', h₁', h₂', h₃', h₄', h₅', h₆', h₇', rfl, rfl⟩, ?_, hk.leave, hk'.leave, fun _ => rfl,
        fun names hn => ⟨_, _, hn, hforms⟩⟩
      rw [gain_nil]
      cases ht₇.scopes with
      | cons _ hrest => exact ⟨ht₇.nextAlias, hrest⟩
    · intro hcounts
      cases ht₇.scopes with
      | cons hscope _ =>
        have hg : isGrouped select groupBy having = false :=
          hk.grows_head.grouped.symm.trans (hscope.ungrouped hcounts)
        exact clauses_of_not_grouped hg h₃' h₄'

theorem SelectItem.lowerAll_mirrors : ∀ (items : List (SelectItem Expression))
    {c : LoweringContext}, CountsByJoins db c →
      Mirrors db c.model true (SelectItem.lowerAll c.inSelect items)
        (SelectItem.lowerAll c.withSubqueries.inSelect items) (SelectAgree db)
  | [], c, hc => by
    simp only [SelectItem.lowerAll]
    exact .pure fun _ => .nil
  | ⟨e, aliasName⟩ :: rest, c, hc => by
    by_cases he : ∃ start, e = .path ⟨start, []⟩
    · obtain ⟨start, rfl⟩ := he
      simp only [SelectItem.lowerAll]
      refine (entityColumns_mirrors ⟨start, []⟩).both (SelectItem.lowerAll_mirrors rest hc) ?_
      rintro _ _ _ _ _ _ _ ⟨rfl, rfl, hcolumns⟩ h
      exact (SelectAgree.ofColumns hcolumns).append h
    · have hne : ∀ start, e ≠ .path ⟨start, []⟩ := fun start h => he ⟨start, h⟩
      have hc' : CountsByJoins db c.inSelect := ⟨hc.lacks, hc.fits⟩
      intro all s s' r t htwin h
      rcases SelectItem.lowerAll_cons_ok_iff.1 h with ⟨start, _, _, _, rfl, -⟩ |
        ⟨lowered, u, before, after, r₁, -, h₁, hb, ha, h₂, rfl⟩
      · exact absurd rfl (hne start)
      obtain ⟨lowered', u', counts, h₁', hpaired, hk, hk', -, hitem⟩ :=
        e.lower_mirrors hc' htwin h₁
      obtain ⟨r₁', t', counts', h₂', hpaired', hk₂, hk₂', -, hrest⟩ :=
        SelectItem.lowerAll_mirrors rest hc (.of_keeps hpaired hk hk') h₂
      obtain ⟨first, before', hfirst, hb', htwins⟩ := htwin.scopes.get hb
      obtain ⟨first', after', hfirst', ha', htwins'⟩ := hpaired.scopes.get ha
      obtain rfl : first ++ counts = first' := by simpa [gain_head hfirst] using hfirst'
      have hplain : after.countedCollections = before.countedCollections ↔ counts = [] := by
        rw [htwins.counted.1, htwins'.counted.1, List.length_append, ← List.length_eq_zero_iff]
        omega
      refine ⟨_, t', counts ++ counts', SelectItem.lowerAll_cons_ok_iff.2
        (.inr ⟨lowered', u', before', after', r₁', hne, h₁', hb', ha', h₂', rfl⟩), ?_,
        hk.trans hk₂, hk'.trans hk₂', nofun, fun names hn => ?_⟩
      · rwa [gain_append]
      · simp only [hplain]
        refine (SelectAgree.item (hitem names ?_) aliasName _).append (hrest names hn)
        exact List.Subset.trans hk₂'.grows.names_subset hn

theorem SortKey.lowerAll_mirrors : ∀ (keys : List (SortKey Expression)) {c : LoweringContext},
    CountsByJoins db c → Mirrors db c.model c.isInSelect (SortKey.lowerAll c keys)
      (SortKey.lowerAll c.withSubqueries keys) (Sql.SortKey.AllAgree db c.isInSelect)
  | [], c, hc => by
    simp only [SortKey.lowerAll]
    exact .pure fun _ => ⟨.const [], rfl⟩
  | ⟨e, isDescending, nulls⟩ :: rest, c, hc => by
    simp only [SortKey.lowerAll]
    refine (e.lower_mirrors hc).both (SortKey.lowerAll_mirrors rest hc) fun h h' =>
      ⟨h.both List.cons h'.agrees, ?_⟩
    rw [List.map_cons, List.map_cons, h'.orders]

end

end SqlDialects.Entity
