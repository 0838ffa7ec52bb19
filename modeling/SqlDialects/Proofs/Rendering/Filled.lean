import SqlDialects.Proofs.Rendering.Layout

/-!
# Renderings are filled layouts

What is written for a node is its layout with the rendering of each part in its slot. A node that
fails does so at the first slot that fails.
-/

namespace SqlDialects.Sql

/-! ## Expressions -/

theorem Expression.renderAll_eq (c : Context) (es : List Expression) :
    Expression.renderAll c es = es.map (Expression.render c) := by
  induction es with
  | nil => rfl
  | cons e rest ih => simp [Expression.renderAll, ih]

theorem Expression.renderOption_eq (c : Context) (e : Option Expression) :
    Expression.renderOption c e = e.map (Expression.render c) := by
  cases e <;> rfl

theorem Condition.renderAll_eq (c : Context) (ps : List Condition) :
    Condition.renderAll c ps = ps.map (Condition.render c) := by
  induction ps with
  | nil => rfl
  | cons p rest ih => simp [Condition.renderAll, ih]

theorem Condition.renderOption_eq (c : Context) (p : Option Condition) :
    Condition.renderOption c p = p.map (Condition.render c) := by
  cases p <;> rfl

namespace Context

open Slot (fill)

variable (c : Context)

theorem fill_requiringLayout (capability : Capability) (construct : String) (slots : List Slot) :
    fill c (c.requiringLayout capability construct slots) =
      c.requiring capability construct (fill c slots) := by
  unfold requiringLayout requiring
  split <;> rfl

theorem fill_templateLayout (template : FunctionTemplate) (arguments : List Slot) :
    fill c (templateLayout template arguments) =
      call template (arguments.map (Slot.render c)) := by
  unfold templateLayout call
  rw [List.length_map]
  cases template.expand arguments.length with
  | error e => rfl
  | ok segments =>
    have hsegment : ∀ segment, (argumentSlot template arguments segment).render c =
        Segment.fill Fragment.ofText
          (fun index => .malformedTree (template.name ++ " has no argument "
            ++ toString (index + 1))) (arguments.map (Slot.render c)) segment := by
      intro segment
      cases segment with
      | text t => rfl
      | argument index =>
        simp only [argumentSlot, Segment.fill, List.getElem?_map]
        cases arguments[index]? <;> rfl
    show Rendered.concat _ = Rendered.concat _
    rw [List.map_map]
    exact congrArg _ (List.map_congr_left fun segment _ => hsegment segment)

theorem fill_functionLayout (name : String) (arguments : List Slot) :
    fill c (c.functionLayout name arguments) =
      c.functionCall name (arguments.map (Slot.render c)) := by
  unfold functionLayout functionCall
  cases c.dialect.function name with
  | error e => rfl
  | ok template => exact fill_templateLayout c template arguments

theorem fill_extractLayout (unit : TemporalUnit) (source : Expression) :
    fill c (c.extractLayout unit (.expression source)) = c.extract unit (source.render c) := by
  unfold extractLayout extract
  cases c.dialect.rules.extractPatterns unit with
  | some pattern => exact fill_templateLayout c _ _
  | none =>
    cases c.dialect.functions.get? "extract" with
    | some template => exact fill_templateLayout c _ _
    | none => rfl

theorem fill_timestampLayout (name : String) (pattern : Except DialectError String)
    (arguments : List Slot) : fill c (timestampLayout name pattern arguments) =
      (do call (.pattern name (← pattern)) (arguments.map (Slot.render c))) := by
  cases pattern with
  | error e => rfl
  | ok pattern => exact fill_templateLayout c _ _

theorem fill_aggregateLayout (function : AggregateFunction) (isDistinct : Bool)
    (argument : Option Expression) : fill c (c.aggregateLayout function isDistinct argument) =
      c.aggregate function isDistinct (Expression.isTuple argument)
        (Expression.renderOption c argument) := by
  cases argument with
  | none =>
    simp only [aggregateLayout, Slot.fill_cons, Slot.fill_nil, Slot.render_own,
      Rendered.andThen_empty]
    rfl
  | some argument =>
    unfold aggregateLayout aggregate
    simp only [Expression.renderOption]
    split
    · rw [fill_requiringLayout]
      rfl
    · rfl

theorem fill_branches (branches : List (CaseBranch Condition Expression)) :
    fill c (branches.flatMap branchLayout) = .concat (CaseBranch.renderAll c branches) := by
  induction branches with
  | nil => rfl
  | cons branch rest ih =>
    obtain ⟨condition, result⟩ := branch
    rw [List.flatMap_cons, Slot.fill_append, ih]
    simp [branchLayout, CaseBranch.renderAll, CaseBranch.render]

theorem fill_caseLayout (branches : List (CaseBranch Condition Expression))
    (otherwise : Option Expression) : fill c (caseLayout branches otherwise) =
      Context.case (CaseBranch.renderAll c branches) (Expression.renderOption c otherwise) := by
  have hempty : (CaseBranch.renderAll c branches).isEmpty = branches.isEmpty := by
    cases branches <;> rfl
  unfold caseLayout Context.case
  rw [hempty]
  split
  · rfl
  · cases otherwise <;> simp [fill_branches, Expression.renderOption, Rendered.clause]

theorem fill_castLayout (source : Expression) (target : CastTarget) :
    fill c (c.castLayout source target) = c.cast (source.render c) target := by
  unfold castLayout cast
  cases c.dialect.columnType target.code target.length target.precision target.scale <;> rfl

theorem fill_items (es : List Expression) :
    (es.map fun e => [Slot.expression e]).map (fill c) = es.map (Expression.render c) := by
  simp

theorem fill_tupleLayout (items : List Expression) :
    fill c (tupleLayout items) = tuple (Expression.renderAll c items) := by
  unfold tupleLayout tuple
  rw [Expression.renderAll_eq, List.isEmpty_map]
  split
  · rfl
  · rw [Slot.fill_parenthesized, Slot.fill_separated, fill_items]

end Context

theorem Expression.render_eq_fill (c : Context) (e : Expression) :
    e.render c = Slot.fill c (e.layout c) := by
  cases e with
  | column | literal | parameter | star =>
    simp only [Expression.layout, Slot.fill_cons, Slot.fill_nil, Slot.render_own,
      Rendered.andThen_empty]
    rfl
  | call name arguments =>
    rw [Expression.layout, Context.fill_functionLayout, Expression.render,
      Expression.renderAll_eq, List.map_map]
    rfl
  | aggregate function isDistinct argument =>
    rw [Expression.layout, Context.fill_aggregateLayout, Expression.render]
  | extract unit source => rw [Expression.layout, Context.fill_extractLayout, Expression.render]
  | timestampAdd unit magnitude timestamp =>
    rw [Expression.layout, Context.fill_timestampLayout, Expression.render]
    rfl
  | timestampDiff unit start finish =>
    rw [Expression.layout, Context.fill_timestampLayout, Expression.render]
    rfl
  | format source pattern =>
    rw [Expression.layout, Context.fill_functionLayout, Expression.render]
    rfl
  | binary left operator right =>
    rw [Expression.layout, Slot.fill_parenthesized]
    rfl
  | negate operand => rfl
  | case branches otherwise =>
    rw [Expression.layout, Context.fill_caseLayout, Expression.render]
  | cast source target => rw [Expression.layout, Context.fill_castLayout, Expression.render]
  | subquery query => rfl
  | tuple items => rw [Expression.layout, Context.fill_tupleLayout, Expression.render]

namespace Context

open Slot (fill)

variable (c : Context)

theorem fill_alternativeLayout (operator : Comparison) (equal : List (Expression × Expression))
    (pair : Expression × Expression) : fill c (alternativeLayout operator equal pair) =
      orderAlternative operator (equal.map fun p => (p.1.render c, p.2.render c))
        (pair.1.render c, pair.2.render c) := by
  unfold alternativeLayout orderAlternative
  rw [List.isEmpty_map]
  split
  · rfl
  · rw [Slot.fill_parenthesized, Slot.fill_separated, List.map_append, List.map_map, List.map_map]
    rfl

theorem fill_alternativeLayouts (operator : Comparison)
    (equal pairs : List (Expression × Expression)) :
    (alternativeLayouts operator equal pairs).map (fill c) =
      orderAlternatives operator (equal.map fun p => (p.1.render c, p.2.render c))
        (pairs.map fun p => (p.1.render c, p.2.render c)) := by
  induction pairs generalizing equal with
  | nil => rfl
  | cons pair rest ih =>
    cases rest with
    | nil => simp [alternativeLayouts, orderAlternatives, fill_alternativeLayout]
    | cons next rest =>
      rw [alternativeLayouts, List.map_cons, ih, fill_alternativeLayout]
      simp [orderAlternatives]

theorem fill_expandedLayout (operator : Comparison) (pairs : List (Expression × Expression)) :
    fill c (expandedLayout operator pairs) =
      expandedComparison operator (pairs.map fun p => (p.1.render c, p.2.render c)) := by
  cases operator with
  | equal | notEqual =>
    simp only [expandedLayout, expandedComparison, expandedEquality, Slot.fill_parenthesized,
      Slot.fill_separated, List.map_map]
    rfl
  | less | lessOrEqual | greater | greaterOrEqual =>
    simp only [expandedLayout, expandedComparison, Slot.fill_parenthesized, Slot.fill_separated,
      fill_alternativeLayouts]
    rfl

theorem fill_rowLayout (operator : Comparison) (left right : List Expression) :
    fill c (c.rowLayout operator left right) = c.rowComparison operator
      (Expression.renderAll c left) (Expression.renderAll c right) := by
  unfold rowLayout rowComparison
  rw [Expression.renderAll_eq, Expression.renderAll_eq, List.length_map, List.length_map]
  split
  · rfl
  · split
    · simp only [comparisonLayout, comparison, ← Expression.renderAll_eq]
      rfl
    · rw [fill_expandedLayout, List.zip_map]
      rfl

theorem fill_mixedLayout (elements : Nat) (operator : Comparison) (left right : Expression) :
    fill c (c.mixedLayout elements operator left right) =
      c.mixedComparison elements operator (left.render c) (right.render c) := by
  unfold mixedLayout mixedComparison
  split
  · rfl
  · rw [fill_requiringLayout]
    rfl

theorem fill_memberLayout (operand : Expression) (slots : List Slot) :
    fill c (c.memberLayout operand slots) = c.memberOf operand (fill c slots) := by
  cases operand <;> simp only [memberLayout, memberOf, fill_requiringLayout]

theorem fill_inListLayout (operand : Expression) (items : List Expression) (isNegated : Bool) :
    fill c (c.inListLayout operand items isNegated) =
      c.inList operand (operand.render c) (Expression.renderAll c items) isNegated := by
  unfold inListLayout inList
  rw [Expression.renderAll_eq, List.isEmpty_map]
  split
  · rfl
  · rw [fill_memberLayout]
    simp [List.map_map, Function.comp_def]

theorem fill_sideLayout (isLowered : Bool) (e : Expression) :
    fill c (c.sideLayout isLowered e) =
      if isLowered then c.lowered (e.render c) else e.render c := by
  unfold sideLayout
  split
  · rfl
  · simp

theorem fill_likeLayout (operand pattern : Expression) (escape : Option Char)
    (ignoresCase isNegated : Bool) :
    fill c (c.likeLayout operand pattern escape ignoresCase isNegated) =
      c.like (operand.render c) (pattern.render c) escape ignoresCase isNegated := by
  unfold likeLayout like
  cases escape <;>
    simp only [Slot.fill_append, Slot.fill_cons, Slot.fill_clause, fill_sideLayout,
      Slot.render_own, Option.map, Slot.fill_nil, Rendered.andThen_empty, Rendered.concat_cons,
      Rendered.concat_nil, Rendered.andThen_assoc]

theorem fill_operandLayout (p : Condition) : fill c (operandLayout p) =
    if isLooser p then .parenthesized (p.render c) else p.render c := by
  unfold operandLayout
  split <;> simp

theorem renderOperands_eq (ps : List Condition) : Condition.renderOperands c ps =
    ps.map fun p => if isLooser p then .parenthesized (p.render c) else p.render c := by
  induction ps with
  | nil => rfl
  | cons p rest ih => simp [Condition.renderOperands, ih]

end Context

theorem Condition.render_eq_fill (c : Context) (p : Condition) :
    p.render c = Slot.fill c (p.layout c) := by
  cases p with
  | compare left operator right =>
    rw [Condition.layout]
    unfold Condition.render
    split
    · rw [Context.compareLayout, Context.fill_rowLayout]
    · rw [Context.compareLayout, Context.fill_mixedLayout, Expression.render]
      assumption
    · rw [Context.compareLayout, Context.fill_mixedLayout, Expression.render]
      assumption
    · rw [Context.compareLayout]
      · rfl
      all_goals assumption
  | all items =>
    rw [Condition.render, Condition.layout, Context.conjunction, Context.renderOperands_eq,
      List.isEmpty_map]
    split
    · rfl
    · simp [Function.comp_def, Context.fill_operandLayout]
  | any items =>
    rw [Condition.render, Condition.layout, Context.disjunction, Condition.renderAll_eq,
      List.isEmpty_map]
    split
    · rfl
    · simp [Function.comp_def]
  | not operand => rfl
  | isNull operand isNegated => rfl
  | inList operand items isNegated =>
    rw [Condition.layout, Context.fill_inListLayout, Condition.render]
  | inQuery operand query isNegated =>
    rw [Condition.layout, Context.fill_memberLayout, Condition.render]
    simp
  | «exists» query isNegated =>
    rw [Condition.layout, Condition.render]
    simp
  | like operand pattern escape ignoresCase isNegated =>
    rw [Condition.layout, Context.fill_likeLayout, Condition.render]
  | between operand low high isNegated => rfl
  | holds operand => rfl

namespace Context

open Slot (fill)

variable (c : Context)

theorem fill_itemLayouts (items : List (SelectItem Expression)) :
    (items.map itemLayout).map (fill c) = SelectItem.renderAll c items := by
  induction items with
  | nil => rfl
  | cons item rest ih =>
    obtain ⟨e, aliasName⟩ := item
    rw [List.map_cons, List.map_cons, ih, SelectItem.renderAll]
    cases aliasName <;> simp [itemLayout, Rendered.clause]

theorem fill_joinLayout (join : Join) : fill c (joinLayout join) =
    Context.join join.kind join.table (Condition.renderOption c join.on) := by
  obtain ⟨kind, t, on⟩ := join
  cases on with
  | some condition => simp [joinLayout, Context.join, Condition.renderOption]
  | none =>
    simp only [joinLayout, Context.join, Condition.renderOption]
    split <;> simp

theorem fill_joinLayouts (joins : List Join) :
    fill c (joins.flatMap joinLayout) = .concat (Join.renderAll c joins) := by
  induction joins with
  | nil => rfl
  | cons join rest ih =>
    obtain ⟨kind, t, on⟩ := join
    rw [List.flatMap_cons, Slot.fill_append, ih, fill_joinLayout]
    rfl

theorem fill_tableLayouts (hint : String) (items : List FromItem) :
    (tableLayouts hint items).map (fill c) = FromItem.renderAll c hint items := by
  induction items generalizing hint with
  | nil => rfl
  | cons item rest ih =>
    obtain ⟨root, joins⟩ := item
    rw [tableLayouts, List.map_cons, ih, FromItem.renderAll, FromItem.render]
    simp [tableLayout, fill_joinLayouts]

theorem fill_keyLayout (key : SortKey Expression) : fill c (c.keyLayout key) =
    c.sortKey (key.expression.render c) key.isDescending key.nulls := by
  unfold keyLayout sortKey
  cases key.nulls with
  | none => simp
  | some nulls => cases nulls <;> split <;> simp_all

theorem fill_keyLayouts (keys : List (SortKey Expression)) :
    (keys.map c.keyLayout).map (fill c) = SortKey.renderAll c keys := by
  induction keys with
  | nil => rfl
  | cons key rest ih =>
    rw [List.map_cons, List.map_cons, ih, fill_keyLayout]
    rfl

theorem fill_prefixLayout (isDistinct : Bool) (limit : Option Expression) :
    fill c (c.prefixLayout isDistinct limit) =
      c.selectPrefix isDistinct (Expression.renderOption c limit) := by
  unfold prefixLayout selectPrefix
  cases limit <;> cases c.dialect.rowLimit <;> simp [Expression.renderOption]

theorem fill_paginationLayout (hasOrder : Bool) (limit offset : Option Expression) :
    fill c (c.paginationLayout hasOrder limit offset) = c.pagination hasOrder
      (Expression.renderOption c limit) (Expression.renderOption c offset) := by
  unfold paginationLayout pagination
  simp only [Expression.renderOption_eq, Option.isNone_map, Option.isSome_map]
  split
  · rfl
  · cases c.dialect.rowLimit with
    | unsupported => simp
    | first since => rfl
    | top since => rfl
    | limitOffset allRows =>
      cases limit <;> cases offset <;> cases allRows <;> simp [Rendered.clause]
    | offsetFetch rowsKeyword requiresOrderBy =>
      cases limit <;> cases offset <;> simp [Rendered.clause]

theorem fill_endLayout (keys : List (SortKey Expression)) (limit offset : Option Expression) :
    fill c (c.endLayout keys limit offset) = c.queryEnd (SortKey.renderAll c keys)
      (Expression.renderOption c limit) (Expression.renderOption c offset) := by
  have hempty : (SortKey.renderAll c keys).isEmpty = keys.isEmpty := by cases keys <;> rfl
  unfold endLayout queryEnd
  rw [hempty, Expression.renderOption_eq, Expression.renderOption_eq, Option.isSome_map,
    Option.isSome_map, ← Expression.renderOption_eq, ← Expression.renderOption_eq]
  split <;> simp [fill_paginationLayout, ← fill_keyLayouts, *]

theorem fill_groupByLayout (keys : List Expression) :
    (groupByLayout keys).map (fill c) = listed (Expression.renderAll c keys) := by
  unfold groupByLayout listed
  rw [Expression.renderAll_eq, List.isEmpty_map]
  split
  · rfl
  · rw [Option.map_some, Slot.fill_separated, fill_items]

theorem fill_specLayout (hint : String) (spec : QuerySpec) : fill c (c.specLayout hint spec) =
    Rendered.concat
      [.text "select ", c.selectPrefix spec.isDistinct (Expression.renderOption c spec.limit),
        .separated ", " (SelectItem.renderAll c spec.select),
        .text " from ", .separated ", " (FromItem.renderAll c hint spec.tables),
        .clause " where " (Condition.renderOption c spec.condition),
        .clause " group by " (listed (Expression.renderAll c spec.groupBy)),
        .clause " having " (Condition.renderOption c spec.having),
        c.queryEnd (SortKey.renderAll c spec.orderBy) (Expression.renderOption c spec.limit)
          (Expression.renderOption c spec.offset)] := by
  have hcondition (p : Option Condition) : (p.map fun p => [Slot.condition p]).map (fill c) =
      Condition.renderOption c p := by
    cases p <;> simp [Condition.renderOption]
  simp only [specLayout, Slot.fill_cons, Slot.fill_append, Slot.fill_separated, Slot.fill_clause,
    fill_prefixLayout, fill_itemLayouts, fill_tableLayouts, fill_groupByLayout, fill_endLayout,
    hcondition, Slot.render_text, Rendered.concat_cons, Rendered.concat_nil,
    Rendered.andThen_assoc, Rendered.andThen_empty]

end Context

theorem QuerySpec.render_eq_fill (c : Context) (hint : String) (spec : QuerySpec) :
    spec.render c hint = Slot.fill c (spec.layout c hint) := by
  unfold QuerySpec.layout
  obtain ⟨isDistinct, select, tables, condition, groupBy, having, orderBy, limit, offset⟩ := spec
  rw [QuerySpec.render]
  dsimp only
  split
  · rfl
  · split
    · rfl
    · cases c.checkPagination limit offset with
      | error e => rfl
      | ok _ => exact (Context.fill_specLayout c hint
          ⟨isDistinct, select, tables, condition, groupBy, having, orderBy, limit, offset⟩).symm

theorem Query.render_eq_fill (c : Context) (hint : String) (q : Query) :
    q.render c hint = Slot.fill c (q.layout c hint) := by
  cases q with
  | spec body =>
    rw [Query.render, Query.layout]
    exact body.render_eq_fill c hint
  | group operator parts orderBy limit offset =>
    have hparts : ∀ qs : List Query, (qs.map Context.operandQueryLayout).map (Slot.fill c) =
        Query.renderOperands c qs := by
      intro qs
      induction qs with
      | nil => rfl
      | cons q rest ih =>
        rw [List.map_cons, List.map_cons, ih, Query.renderOperands, Context.operandQueryLayout]
        split <;> simp
    rw [Query.render, Query.layout]
    cases c.checkGroup operator parts.length (limit.isSome || offset.isSome) with
    | error e => rfl
    | ok _ =>
      show Rendered.concat _ = _
      simp only [Slot.fill_append, Slot.fill_separated, hparts, Context.fill_endLayout,
        Rendered.concat_cons, Rendered.concat_nil, Rendered.andThen_empty]

theorem Node.render_eq_fill (c : Context) (n : Node) :
    n.render c = Slot.fill c (n.layout c) := by
  cases n with
  | expression e => exact e.render_eq_fill c
  | condition p => exact p.render_eq_fill c
  | query q => exact q.render_eq_fill c ""

/-! ## Statements -/

namespace Statement

theorem fill_lockedLayout (c : Context) (query : Query) (lock : LockOptions) :
    Slot.fill c (lockedLayout c query lock) = lockedQuery c query lock := by
  unfold lockedLayout lockedQuery
  dsimp only
  split
  · simp
  · cases c.dialect.rules.lockSyntax <;> simp [Query.render_eq_fill]

theorem fill_insertSource (d : Dialect) (columns : Nat) (source : InsertSource) :
    Slot.fill { dialect := d } (source.layout columns) =
      source.render { dialect := d } columns := by
  cases source with
  | rows values =>
    have hrow : ∀ index row, Slot.fill { dialect := d } (insertRowLayout columns index row) =
        insertRow { dialect := d } columns index row := by
      intro index row
      unfold insertRowLayout insertRow
      split
      · simp [Function.comp_def, Expression.renderAll_eq]
      · rfl
    rw [InsertSource.layout, InsertSource.render]
    split
    · rfl
    · have hrows : (values.mapIdx fun index row => insertRowLayout columns index row).map
          (Slot.fill { dialect := d }) =
            values.mapIdx fun index row => insertRow { dialect := d } columns index row :=
        List.ext_getElem? fun i => by simp [Function.comp_def, hrow]
      rw [Slot.fill_cons, Slot.fill_separated, hrows]
      simp
  | query source => simp [InsertSource.layout, InsertSource.render]

theorem fill_where (c : Context) (condition : Option Condition) :
    Slot.fill c (Slot.clause " where " (condition.map fun p => [.condition p])) =
      Rendered.clause " where " (Condition.renderOption c condition) := by
  cases condition <;> simp [Condition.renderOption]

theorem render_eq_fill (d : Dialect) (statement : Statement) :
    statement.render d = Slot.fill (statement.context d) (statement.layout d) := by
  cases statement with
  | select query lock =>
    cases lock with
    | none => exact query.render_eq_fill { dialect := d } ""
    | some lock => exact (fill_lockedLayout { dialect := d } query lock).symm
  | insert table columns source =>
    rw [Statement.render, layout, context]
    split
    · rfl
    · simp [Function.comp_def, fill_insertSource]
  | update target assignments condition =>
    have hassignments : (assignments.map Assignment.layout).map
        (Slot.fill { dialect := d, bareAlias := some target.aliasName }) =
          assignments.map
            (Assignment.render { dialect := d, bareAlias := some target.aliasName }) := by
      rw [List.map_map]
      rfl
    rw [Statement.render, layout, context]
    split
    · rfl
    · simp only [Slot.fill_cons, Slot.fill_append, Slot.fill_separated, hassignments, fill_where]
      simp
  | delete target condition =>
    rw [Statement.render, layout, context]
    simp only [Slot.fill_cons, fill_where]
    simp

end Statement

end SqlDialects.Sql
