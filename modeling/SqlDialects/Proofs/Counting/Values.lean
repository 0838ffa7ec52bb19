import SqlDialects.Proofs.Counting.Tables
import SqlDialects.Proofs.Sameness

/-!
# Values of both forms

An expression over counted collections has the same value as the one with a subquery for each of
them, in views that see the same and count the same.
-/

namespace SqlDialects.Sql

open Entity (countQuery)

variable {σ : Type} [DecidableEq σ] (db : Database σ)

/-! ## Rows that are told apart -/

/-- The owners whose collections are counted by subqueries in an expression with these parts. -/
def countedOwners (parts : List Expression) : List Expression :=
  parts.flatMap fun
    | .subquery (.spec ⟨_, _, _, some (.compare _ .equal owner), _, _, _, _, _⟩) => [owner]
    | _ => []

@[simp]
theorem countedOwners_append (parts parts' : List Expression) :
    countedOwners (parts ++ parts') = countedOwners parts ++ countedOwners parts' :=
  List.flatMap_append

/-- The select items that count no collection. -/
def plainItems (select : List (SelectItem Expression)) : List Expression :=
  (select.map (·.expression)).filter fun e => (countedOwners e.parts).isEmpty

namespace QuerySpec

/-- The owners of all collections that the select list counts by subqueries. -/
def countedOwners (spec : QuerySpec) : List Expression :=
  Sql.countedOwners (spec.select.flatMap (·.expression.parts))

/-- The owners whose collections are counted in a row, and the values beside them. -/
def rowKey (spec : QuerySpec) (outer frame : Frame σ) : List (Value σ) :=
  Expression.valueAll db (spec.countedOwners ++ plainItems spec.select) (.single outer frame)

/-- No two rows have the same owners of counted collections and the same values beside them. -/
def Apart (spec : QuerySpec) (outer : Frame σ) : Prop :=
  ((spec.kept db outer).map (spec.rowKey db outer)).Nodup

/-- A select list that counts collections is that of a query without groups, and tells its rows
apart. -/
def CountsApart (spec : QuerySpec) : Prop :=
  spec.countedOwners ≠ [] → spec.isGrouped = false ∧ ∀ outer, spec.Apart db outer

/-- The query returns a row for each of its frames. -/
structure IsPlain (spec : QuerySpec) : Prop where
  isGrouped : spec.isGrouped = false
  isDistinct : spec.isDistinct = false
  limit : spec.limit = none
  offset : spec.offset = none

instance (spec : QuerySpec) : Decidable spec.IsPlain :=
  decidable_of_iff (spec.isGrouped = false ∧ spec.isDistinct = false ∧ spec.limit.isNone ∧
    spec.offset.isNone)
    ⟨fun ⟨hg, hd, hl, ho⟩ =>
        ⟨hg, hd, Option.isNone_iff_eq_none.1 hl, Option.isNone_iff_eq_none.1 ho⟩,
      fun h => ⟨h.isGrouped, h.isDistinct, by rw [h.limit]; rfl, by rw [h.offset]; rfl⟩⟩

instance (spec : QuerySpec) (outer : Frame σ) : Decidable (spec.Apart db outer) :=
  inferInstanceAs (Decidable (List.Nodup _))

end QuerySpec

/-! ## Views that can be compared -/

/-- Both views see the same under these names and have the same counts. Their groups matter only to
aggregates, beside which nothing is counted. -/
structure Comparable (names : List String) (counts : List Count) (aggregates : Bool)
    (view view' : View σ) : Prop where
  seen : Frame.Agree names view.seen view'.seen
  groups : aggregates = true → counts = [] ∧
    List.Forall₂ (fun f f' => Frame.Agree names (f ++ view.outer) (f' ++ view'.outer))
      view.group view'.group
  counted : ∀ k ∈ counts, k.aggregate.value db view = k.subquery.value db view'

namespace Comparable

variable {db} {names names' : List String} {counts counts' : List Count}
  {aggregates aggregates' : Bool} {view view' : View σ}

theorem mono (h : Comparable db names counts aggregates view view') (hn : names' ⊆ names)
    (hc : counts' ⊆ counts) (ha : aggregates' = true → aggregates = true) :
    Comparable db names' counts' aggregates' view view' where
  seen := h.seen.mono hn
  groups hagg := by
    obtain ⟨rfl, hg⟩ := h.groups (ha hagg)
    exact ⟨List.subset_nil.1 hc, hg.imp fun _ _ hf => hf.mono hn⟩
  counted k hk := h.counted k (hc hk)

/-- Single frames are groups of their own. -/
theorem single {outer outer' frame frame' : Frame σ} (aggregates : Bool)
    (h : Frame.Agree names (frame ++ outer) (frame' ++ outer')) :
    Comparable db names [] aggregates (.single outer frame) (.single outer' frame') :=
  ⟨h, fun _ => ⟨rfl, .cons h .nil⟩, by simp⟩

end Comparable

/-! ## Trees that agree -/

/-- A value is the same in views that can be compared, if the subqueries of the second form tell
their rows apart. -/
structure Agrees {α : Type} (isInSelect : Bool) (names : List String) (counts : List Count)
    (parts parts' : List Expression) (specs' : List QuerySpec) (value value' : View σ → α) :
    Prop where
  aggregates : counts = [] → anyAggregate parts = anyAggregate parts'
  owners : isInSelect = true → countedOwners parts' = counts.map Count.ownerId
  value : (∀ spec ∈ specs', spec.CountsApart db) → ∀ view view',
    Comparable db names counts (anyAggregate parts') view view' → value view = value' view'

namespace Agrees

variable {db} {α β γ : Type} {isInSelect : Bool} {names names' : List String}
  {counts counts₁ counts₂ : List Count}
  {parts parts' parts₁ parts₁' parts₂ parts₂' : List Expression}
  {specs' specs₁ specs₂ : List QuerySpec} {x x' : View σ → α} {y y' : View σ → β}

theorem mono (h : Agrees db isInSelect names counts parts parts' specs' x x')
    (hn : names ⊆ names') : Agrees db isInSelect names' counts parts parts' specs' x x' :=
  ⟨h.aggregates, h.owners, fun hspecs view view' hv =>
    h.value hspecs view view' (hv.mono hn (List.Subset.refl _) id)⟩

/-- What looks at nothing. -/
theorem const (a : α) : Agrees db isInSelect names [] [] [] [] (fun _ => a) fun _ => a :=
  ⟨fun _ => rfl, fun _ => rfl, fun _ _ _ _ => rfl⟩

theorem map (f : α → β) (h : Agrees db isInSelect names counts parts parts' specs' x x') :
    Agrees db isInSelect names counts parts parts' specs' (fun view => f (x view))
      fun view => f (x' view) :=
  ⟨h.aggregates, h.owners, fun hspecs view view' hv => by rw [h.value hspecs view view' hv]⟩

/-- Subqueries may be looked at that do not matter. -/
theorem subset (h : Agrees db isInSelect names counts parts parts' specs₁ x x')
    (hs : specs₁ ⊆ specs₂) : Agrees db isInSelect names counts parts parts' specs₂ x x' :=
  ⟨h.aggregates, h.owners, fun hspecs => h.value fun spec hspec => hspecs spec (hs hspec)⟩

theorem outside (h : Agrees db isInSelect names counts parts parts' specs' x x') :
    Agrees db false names counts parts parts' specs' x x' :=
  ⟨h.aggregates, nofun, h.value⟩

theorem both (f : α → β → γ) (h : Agrees db isInSelect names counts₁ parts₁ parts₁' specs₁ x x')
    (h' : Agrees db isInSelect names counts₂ parts₂ parts₂' specs₂ y y') :
    Agrees db isInSelect names (counts₁ ++ counts₂) (parts₁ ++ parts₂) (parts₁' ++ parts₂')
      (specs₁ ++ specs₂) (fun view => f (x view) (y view)) fun view => f (x' view) (y' view) where
  aggregates hc := by
    obtain ⟨h₁, h₂⟩ := List.append_eq_nil_iff.1 hc
    rw [anyAggregate_append, anyAggregate_append, h.aggregates h₁, h'.aggregates h₂]
  owners hs := by rw [countedOwners_append, h.owners hs, h'.owners hs, List.map_append]
  value hspecs view view' hv := by
    obtain ⟨hspecs₁, hspecs₂⟩ := List.forall_mem_append.1 hspecs
    rw [h.value hspecs₁ view view' (hv.mono (List.Subset.refl _) (List.subset_append_left _ _)
        fun ha => by rw [anyAggregate_append, ha, Bool.true_or]),
      h'.value hspecs₂ view view' (hv.mono (List.Subset.refl _) (List.subset_append_right _ _)
        fun ha => by rw [anyAggregate_append, ha, Bool.or_true])]

/-- A node that is no aggregate and counts nothing by itself. -/
theorem node {e e' : Expression} (h : Agrees db isInSelect names counts parts parts' specs' x x')
    (he : e.isAggregate = false) (he' : e'.isAggregate = false)
    (ho : countedOwners [e'] = []) :
    Agrees db isInSelect names counts (e :: parts) (e' :: parts') specs' x x' where
  aggregates hc := by rw [anyAggregate_cons, anyAggregate_cons, he, he', h.aggregates hc]
  owners hs := by
    rw [← List.singleton_append, countedOwners_append, ho, List.nil_append, h.owners hs]
  value hspecs view view' hv := by
    refine h.value hspecs view view' (hv.mono (List.Subset.refl _) (List.Subset.refl _) ?_)
    intro ha
    rw [anyAggregate_cons, ha, Bool.or_true]

end Agrees

/-! ## Clauses that agree -/

section

variable (isInSelect : Bool) (names : List String) (counts : List Count)

abbrev Expression.Agree (e e' : Expression) : Prop :=
  Agrees db isInSelect names counts e.parts e'.parts (e'.specs everyKey) (e.value db) (e'.value db)

structure Expression.AllAgree (es es' : List Expression) : Prop where
  agrees : Agrees db isInSelect names counts (Expression.partsAll es) (Expression.partsAll es')
    (Expression.specsAll everyKey es') (Expression.valueAll db es) (Expression.valueAll db es')
  length_eq : es.length = es'.length

structure Expression.OptionAgree (e e' : Option Expression) : Prop where
  agrees : Agrees db isInSelect names counts (Expression.partsOption e) (Expression.partsOption e')
    (Expression.specsOption everyKey e') (Expression.valueOption db e)
    (Expression.valueOption db e')
  isSome_eq : e.isSome = e'.isSome

abbrev CaseBranch.AllAgree (branches branches' : List (CaseBranch Condition Expression)) : Prop :=
  Agrees db isInSelect names counts (CaseBranch.partsAll branches) (CaseBranch.partsAll branches')
    (CaseBranch.specsAll everyKey branches') (CaseBranch.valueAll db branches)
    (CaseBranch.valueAll db branches')

abbrev Condition.Agree (p p' : Condition) : Prop :=
  Agrees db isInSelect names counts p.parts p'.parts (p'.specs everyKey) (p.truth db) (p'.truth db)

abbrev Condition.AllAgree (ps ps' : List Condition) : Prop :=
  Agrees db isInSelect names counts (Condition.partsAll ps) (Condition.partsAll ps')
    (Condition.specsAll everyKey ps') (Condition.truthAll db ps) (Condition.truthAll db ps')

structure Condition.OptionAgree (p p' : Option Condition) : Prop where
  agrees : Agrees db isInSelect names counts (p.elim [] Condition.parts)
    (p'.elim [] Condition.parts) (Condition.specsOption everyKey p') (Condition.holdsOption db p)
    (Condition.holdsOption db p')
  isSome_eq : p.isSome = p'.isSome

/-- The order goes in the same directions. -/
structure SortKey.AllAgree (keys keys' : List (SortKey Expression)) : Prop where
  agrees : Agrees db isInSelect names counts (keys.flatMap (·.expression.parts))
    (keys'.flatMap (·.expression.parts)) (SortKey.specsAll everyKey keys')
    (SortKey.valueAll db keys) (SortKey.valueAll db keys')
  orders : keys.map (fun key => (key.isDescending, key.nulls)) =
    keys'.map fun key => (key.isDescending, key.nulls)

end

namespace Agrees

variable {db} {isInSelect : Bool} {names : List String} {counts : List Count}

theorem column {a column : String} (ha : a ∈ names) :
    Expression.Agree db isInSelect names [] (.of a column) (.of a column) where
  aggregates _ := rfl
  owners _ := rfl
  value _ view view' hv := by
    simp only [Expression.of, Expression.value, View.cell, hv.seen a ha]

theorem aggregate (function : AggregateFunction) (isDistinct : Bool)
    {argument argument' : Option Expression}
    (h : Expression.OptionAgree db isInSelect names counts argument argument') :
    Expression.Agree db isInSelect names counts (.aggregate function isDistinct argument)
      (.aggregate function isDistinct argument') where
  aggregates _ := rfl
  owners hin := h.agrees.owners hin
  value hspecs view view' hv := by
    obtain ⟨rfl, hg⟩ := hv.groups rfl
    have hvalues : view.group.map (fun frame =>
          (Expression.valueOption db argument (.single view.outer frame)).getD []) =
        view'.group.map fun frame =>
          (Expression.valueOption db argument' (.single view'.outer frame)).getD [] := by
      refine List.forall₂_eq_eq_eq ▸ List.forall₂_map_left_iff.2 (List.forall₂_map_right_iff.2 ?_)
      refine hg.imp fun f f' hf => ?_
      rw [h.agrees.value hspecs _ _ (.single _ hf)]
    simp only [Expression.value, hvalues, h.isSome_eq]

end Agrees

/-! ## Queries that agree -/

/-- A query has the same rows where the same is seen around it, if the queries in its second form
tell their rows apart. -/
def Query.Agrees (names : List String) (query query' : Query) : Prop :=
  (∀ spec ∈ query'.specs everyKey, spec.CountsApart db) →
    ∀ outer outer', Frame.Agree names outer outer' → query.rows db outer = query'.rows db outer'

namespace Query.Agrees

variable {db} {names names' : List String} {query query' : Query} {isInSelect : Bool}

theorem mono (h : query.Agrees db names query') (hn : names ⊆ names') :
    query.Agrees db names' query' :=
  fun hspecs outer outer' ho => h hspecs outer outer' (ho.mono hn)

theorem rows (h : query.Agrees db names query') :
    Sql.Agrees db isInSelect names [] [] [] (query'.specs everyKey)
      (fun view => query.rows db view.seen) fun view => query'.rows db view.seen :=
  ⟨fun _ => rfl, fun _ => rfl, fun hspecs _ _ hv => h hspecs _ _ hv.seen⟩

theorem subquery (h : query.Agrees db names query') :
    Expression.Agree db false names [] (.subquery query) (.subquery query') where
  aggregates _ := rfl
  owners := nofun
  value hspecs view view' hv := by
    simp only [Expression.value, h hspecs _ _ hv.seen]

end Query.Agrees

/-! ## Counts -/

/-- The query inside the count of a collection. -/
def memberQuery (table a ownerColumn : String) (owner : Expression) : QuerySpec :=
  { select := [{ expression := .aggregate .count false none }]
    tables := [{ root := ⟨table, a⟩ }]
    condition := some (.equal (.of a ownerColumn) owner) }

theorem kept_memberQuery {table a ownerColumn owner idColumn : String} (ha : a ≠ owner)
    (outer : Frame σ) :
    (memberQuery table a ownerColumn (.of owner idColumn)).kept db outer =
      ((db.table table).matching ownerColumn
        ((outer.lookup owner).bind (·.cell idColumn))).map fun record => [(a, record)] := by
  have hframes : FromItem.frames db [{ root := ⟨table, a⟩ }] outer =
      (db.table table).records.map fun record => [(a, record)] := by
    simp [FromItem.frames, Join.frames]
  have hne : (owner == a) = false := by simpa using ha.symm
  simp only [QuerySpec.kept, memberQuery, hframes, List.filter_map, Table.matching]
  refine congrArg _ (List.filter_congr fun record _ => ?_)
  simp only [Function.comp_apply, Condition.holdsOption, truth_equal, seen_single,
    List.singleton_append, List.lookup_cons_self, List.lookup_cons, hne, Option.bind_some]
  exact (beq_eq_decide _ _).symm

theorem countQuery_value {table a ownerColumn owner idColumn : String} (ha : a ≠ owner)
    (view : View σ) :
    (countQuery table a ownerColumn (.of owner idColumn)).value db view =
      [some (db.number ((db.table table).matching ownerColumn
        ((view.seen.lookup owner).bind (·.cell idColumn))).length)] := by
  have hrows : (memberQuery table a ownerColumn (.of owner idColumn)).rows db view.seen =
      [[db.aggregate .count false (((memberQuery table a ownerColumn
        (.of owner idColumn)).kept db view.seen).map fun _ => [])]] := rfl
  show ((memberQuery table a ownerColumn (.of owner idColumn)).rows db view.seen).headD _ = _
  rw [hrows, kept_memberQuery db ha]
  simp [Database.aggregate, Function.comp_def, List.filter_replicate]

theorem countQuery_agrees {table a ownerColumn owner idColumn : String} {names : List String}
    (ha : a ≠ owner) (ho : owner ∈ names) :
    Expression.Agree db false names [] (countQuery table a ownerColumn (.of owner idColumn))
      (countQuery table a ownerColumn (.of owner idColumn)) where
  aggregates _ := rfl
  owners := nofun
  value _ view view' hv := by rw [countQuery_value db ha, countQuery_value db ha, hv.seen owner ho]

namespace Count

/-- The members of an owner are not null and differ from one another. -/
def Distinct (k : Count) : Prop :=
  ∀ owner, ((k.members db owner).map (·.cell k.memberColumn)).Nodup ∧
    ∀ r ∈ k.members db owner, (r.cell k.memberColumn).isSome

variable {db}

theorem agrees (k : Count) (names : List String) :
    Expression.Agree db true names [k] k.aggregate k.subquery where
  aggregates := nofun
  owners _ := rfl
  value _ _ _ hv := hv.counted k (List.mem_singleton.2 rfl)

theorem subquery_value {k : Count} (ha : k.aliasName ≠ k.owner.1) (view : View σ) :
    k.subquery.value db view =
      [some (db.number (k.members db (k.ownerValue view.seen)).length)] :=
  countQuery_value db ha view

omit [DecidableEq σ] in
theorem cell_nullRecord (table : Table σ) (column : String) :
    table.nullRecord.cell column = none := by
  unfold Table.nullRecord Record.cell
  induction table.columns with
  | nil => rfl
  | cons c columns ih =>
    rw [List.map_cons, List.lookup_cons]
    split
    · rfl
    · exact ih

/-- If a group has all records that are joined for an owner, and no others, each member is counted
once. -/
theorem aggregate_value {k : Count} (hd : k.Distinct db) {outer nulls : Frame σ}
    {group : List (Frame σ)} {owner : Option σ}
    (hchosen : ∀ f ∈ group, ∃ r ∈ k.choices db owner, f.lookup k.aliasName = some r)
    (hreached : ∀ r ∈ k.choices db owner, ∃ f ∈ group, f.lookup k.aliasName = some r) :
    k.aggregate.value db (.ofGroup outer nulls group) =
      [some (db.number (k.members db owner).length)] := by
  let value (f : Frame σ) : Value σ := [(f.lookup k.aliasName).bind (·.cell k.memberColumn)]
  have hvalues : (group.map fun f => (Expression.valueOption db
      (some (.of k.aliasName k.memberColumn)) (.single outer f)).getD []) = group.map value := by
    refine List.map_congr_left fun f hf => ?_
    obtain ⟨r, -, hl⟩ := hchosen f hf
    have hseen : (f ++ outer).lookup k.aliasName = some r := by
      rw [List.lookup_append, hl, Option.some_or]
    simp only [Expression.valueOption, Option.getD_some, Expression.of, Expression.value, View.cell,
      seen_single, hseen, value, hl]
  have hperm : (((group.map value).filter fun v => v.all (·.isSome)).eraseDups).Perm
      ((k.members db owner).map fun r => [r.cell k.memberColumn]) := by
    have hmembers : ((k.members db owner).map fun r => [r.cell k.memberColumn]).Nodup := by
      refine .of_map (fun v : Value σ => v.headD none) ?_
      rw [List.map_map]
      exact (hd owner).1
    refine (List.perm_ext_iff_of_nodup (nodup_eraseDups _) hmembers).2 fun v => ?_
    rw [List.mem_eraseDups, List.mem_filter, List.mem_map, List.mem_map]
    constructor
    · rintro ⟨⟨f, hf, rfl⟩, hv⟩
      obtain ⟨r, hr, hl⟩ := hchosen f hf
      simp only [value, hl, Option.bind_some, List.all_cons, List.all_nil, Bool.and_true] at hv ⊢
      unfold choices at hr
      split at hr
      · obtain rfl := List.mem_singleton.1 hr
        simp [cell_nullRecord] at hv
      · exact ⟨r, hr, rfl⟩
    · rintro ⟨r, hr, rfl⟩
      have hchoice : r ∈ k.choices db owner := by
        unfold choices
        rwa [if_neg]
        simpa using List.ne_nil_of_mem hr
      obtain ⟨f, hf, hl⟩ := hreached r hchoice
      exact ⟨⟨f, hf, by simp only [value, hl, Option.bind_some]⟩,
        by simpa using (hd owner).2 r hr⟩
  show [db.aggregate .count true (group.map fun f => (Expression.valueOption db
      (some (.of k.aliasName k.memberColumn)) (.single outer f)).getD [])] = _
  rw [hvalues]
  simp only [Database.aggregate, if_true, hperm.length_eq, List.length_map]

end Count

end SqlDialects.Sql
