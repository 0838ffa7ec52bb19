import SqlDialects.Proofs.Literals.Blank
import SqlDialects.Proofs.Rendering.Nodes

/-!
# Blanked statements

The layout of a blanked query or statement is the blanked layout, and so is its rendering.
-/

namespace SqlDialects.Sql

variable {c : Context}

/-! ## Queries -/

namespace Query

variable (q : Query)

theorem isGroup_blank : q.blank.isGroup = q.isGroup := by cases q <;> rfl

theorem orderBy_blank : q.blank.orderBy = q.orderBy.map SortKey.blank := by
  cases q with
  | spec body =>
    obtain ⟨isDistinct, select, tables, condition, groupBy, having, keys, limit, offset⟩ := body
    exact SortKey.blankAll_eq keys
  | group operator parts keys limit offset => exact SortKey.blankAll_eq keys

theorem isPaginated_blank : q.blank.isPaginated = q.isPaginated := by
  cases q with
  | spec body =>
    obtain ⟨isDistinct, select, tables, condition, groupBy, having, keys, limit, offset⟩ := body
    simp only [blank, QuerySpec.blank, isPaginated, QuerySpec.isPaginated,
      Expression.blankOption_eq, Option.isSome_map]
  | group operator parts keys limit offset =>
    simp only [blank, isPaginated, Expression.blankOption_eq, Option.isSome_map]

end Query

namespace Context

theorem itemLayout_blank (item : SelectItem Expression) :
    (itemLayout item).map Slot.blank = itemLayout (SelectItem.blank item) := by
  obtain ⟨e, aliasName⟩ := item
  cases aliasName <;> rfl

theorem table_blank (t : TableReference) : (table t).blank = table t := by
  simp only [table, Rendered.concat_cons, Rendered.concat_nil, Rendered.blank_andThen,
    Rendered.blank_textIf]
  rfl

theorem joinLayout_blank (join : Join) :
    (joinLayout join).map Slot.blank = joinLayout join.blank := by
  obtain ⟨kind, t, on⟩ := join
  cases on with
  | some p =>
    simp only [joinLayout, Join.blank, Option.map_some, List.map_cons, List.map_nil,
      Slot.blank_text, Slot.blank_own, table_blank, Slot.blank_condition]
  | none =>
    by_cases hcross : kind = .cross
    · simp only [joinLayout, Join.blank, Option.map_none, hcross, if_true, List.map_cons,
        List.map_nil, Slot.blank_text, Slot.blank_own, table_blank]
    · simp only [joinLayout, Join.blank, Option.map_none, hcross, if_false,
        Slot.map_blank_malformed]

theorem tableLayout_blank (hint : String) (item : FromItem) :
    (tableLayout hint item).map Slot.blank = tableLayout hint item.blank := by
  simp only [tableLayout, FromItem.blank, List.map_cons, Slot.blank_own, table_blank,
    Rendered.blank_textIf, List.map_flatMap, List.flatMap_map, joinLayout_blank]

theorem tableLayouts_blank (hint : String) (items : List FromItem) :
    (tableLayouts hint items).map (List.map Slot.blank) =
      tableLayouts hint (items.map FromItem.blank) := by
  induction items generalizing hint with
  | nil => rfl
  | cons item rest ih => rw [tableLayouts, List.map_cons, tableLayout_blank, ih]; rfl

theorem keyLayout_blank (key : SortKey Expression) :
    (c.keyLayout key).map Slot.blank = c.keyLayout (SortKey.blank key) := by
  obtain ⟨e, isDescending, nulls⟩ := key
  unfold keyLayout
  dsimp only [SortKey.blank]
  cases c.dialect.supports .nullsOrdering <;> rcases nulls with _ | _ | _ <;> simp

theorem prefixLayout_blank {isDistinct : Bool} {limit : Option Expression} :
    (c.prefixLayout isDistinct limit).map Slot.blank =
      c.prefixLayout isDistinct (limit.map Expression.blank) := by
  unfold prefixLayout
  cases c.dialect.rowLimit <;> cases limit <;> simp

theorem isIntegerLiteral_blank (e : Option Expression) :
    isIntegerLiteral (e.map Expression.blank) = isIntegerLiteral e := by
  rcases e with _ | e
  · rfl
  · cases e with
    | literal value => cases value <;> rfl
    | _ => rfl

theorem checkPagination_blank {limit offset : Option Expression} :
    c.checkPagination (limit.map Expression.blank) (offset.map Expression.blank) =
      c.checkPagination limit offset := by
  simp only [checkPagination, Option.isNone_map, Option.isSome_map, isIntegerLiteral_blank]

theorem paginationLayout_blank {hasOrder : Bool} {limit offset : Option Expression} :
    (c.paginationLayout hasOrder limit offset).map Slot.blank =
      c.paginationLayout hasOrder (limit.map Expression.blank) (offset.map Expression.blank) := by
  unfold paginationLayout
  simp only [Option.isNone_map, Option.isSome_map]
  split
  · rfl
  · cases c.dialect.rowLimit with
    | limitOffset rows => cases limit <;> cases offset <;> cases rows <;> rfl
    | offsetFetch rowsKeyword requiresOrderBy => cases limit <;> cases offset <;> simp
    | _ => rfl

theorem endLayout_blank {keys : List (SortKey Expression)} {limit offset : Option Expression} :
    (c.endLayout keys limit offset).map Slot.blank =
      c.endLayout (keys.map SortKey.blank) (limit.map Expression.blank)
        (offset.map Expression.blank) := by
  unfold endLayout
  simp only [List.isEmpty_map, Option.isSome_map]
  split <;> simp [paginationLayout_blank, keyLayout_blank, Function.comp_def]

theorem operandQueryLayout_blank (q : Query) :
    (operandQueryLayout q).map Slot.blank = operandQueryLayout q.blank := by
  have hneeds : needsParentheses q.blank = needsParentheses q := by
    simp only [needsParentheses, q.isGroup_blank, q.orderBy_blank, q.isPaginated_blank,
      List.isEmpty_map]
  unfold operandQueryLayout
  rw [hneeds]
  split <;> rfl

theorem groupByLayout_blank (keys : List Expression) :
    (Slot.clause " group by " (groupByLayout keys)).map Slot.blank =
      Slot.clause " group by " (groupByLayout (keys.map Expression.blank)) := by
  unfold groupByLayout
  rw [List.isEmpty_map]
  split
  · rfl
  · rw [Slot.map_blank_clause, Option.map_some, items_blank]

theorem specLayout_blank {hint : String} {spec : QuerySpec} :
    (c.specLayout hint spec).map Slot.blank = c.specLayout hint spec.blank := by
  obtain ⟨isDistinct, select, tables, condition, groupBy, having, keys, limit, offset⟩ := spec
  have hitems : List.map Slot.blank ∘ itemLayout = itemLayout ∘ SelectItem.blank :=
    funext itemLayout_blank
  simp only [specLayout, QuerySpec.blank, SelectItem.blankAll_eq, FromItem.blankAll_eq,
    Condition.blankOption_eq, Expression.blankAll_eq, SortKey.blankAll_eq,
    Expression.blankOption_eq, List.map_append, List.map_cons, List.map_map, Slot.blank_text,
    prefixLayout_blank, Slot.map_blank_separated, hitems, tableLayouts_blank,
    conditionClause_blank, groupByLayout_blank, endLayout_blank]

end Context

theorem QuerySpec.layout_blank {hint : String} (spec : QuerySpec) :
    spec.blank.layout c hint = (spec.layout c hint).map Slot.blank := by
  have hspec : (c.specLayout hint spec).map Slot.blank = c.specLayout hint spec.blank :=
    Context.specLayout_blank
  obtain ⟨isDistinct, select, tables, condition, groupBy, having, keys, limit, offset⟩ := spec
  unfold layout
  rw [← hspec]
  simp only [blank, SelectItem.blankAll_eq, FromItem.blankAll_eq, Expression.blankOption_eq,
    List.isEmpty_map, Context.checkPagination_blank]
  split
  · rfl
  · split
    · rfl
    · split <;> rfl

theorem Query.layout_blank {hint : String} (q : Query) :
    q.blank.layout c hint = (q.layout c hint).map Slot.blank := by
  cases q with
  | spec body => exact body.layout_blank
  | group operator parts keys limit offset =>
    simp only [blank, layout, blankAll_eq, SortKey.blankAll_eq, Expression.blankOption_eq,
      List.length_map, Option.isSome_map]
    split
    · rfl
    · rw [List.map_append, Slot.map_blank_separated, Context.endLayout_blank, List.map_map,
        List.map_map]
      simp only [Function.comp_def, Context.operandQueryLayout_blank]

theorem Node.layout_blank (n : Node) : n.blank.layout c = (n.layout c).map Slot.blank := by
  cases n with
  | expression e => exact e.layout_blank
  | condition p => exact p.layout_blank
  | query q => exact q.layout_blank

theorem Node.render_blank (c : Context) (n : Node) : n.blank.render c = (n.render c).blank := by
  induction c, n using layout_induction with
  | step c n ih => rw [render_eq_fill, render_eq_fill, layout_blank, Slot.fill_map_blank ih]

/-! ## Statements -/

def InsertSource.blank : InsertSource → InsertSource
  | rows values => rows (values.map (List.map Expression.blank))
  | query q => query q.blank

def Assignment.blank (assignment : Assignment) : Assignment :=
  { assignment with value := assignment.value.blank }

namespace Statement

def blank : Statement → Statement
  | select query lock => select query.blank lock
  | insert table columns source => insert table columns source.blank
  | update target assignments condition =>
    update target (assignments.map Assignment.blank) (condition.map Condition.blank)
  | delete target condition => delete target (condition.map Condition.blank)

variable {d : Dialect}

theorem context_blank (s : Statement) : s.blank.context d = s.context d := by cases s <;> rfl

theorem lockedLayout_blank {query : Query} {lock : LockOptions} :
    (lockedLayout c query lock).map Slot.blank = lockedLayout c query.blank lock := by
  have hwarning : (LockOptions.optionWarning c.dialect lock).blank =
      LockOptions.optionWarning c.dialect lock := by
    unfold LockOptions.optionWarning
    split
    · split <;> rfl
    · rfl
  unfold lockedLayout
  simp only [query.isGroup_blank]
  split
  · rfl
  · split <;> simp [Query.layout_blank, hwarning]

theorem insertRowLayout_blank {columns index : Nat} {values : List Expression} :
    (insertRowLayout columns index values).map Slot.blank =
      insertRowLayout columns index (values.map Expression.blank) := by
  unfold insertRowLayout
  rw [List.length_map]
  split
  · rw [Slot.map_blank_parenthesized, Context.items_blank]
  · rfl

theorem rowLayouts_blank {columns : Nat} (values : List (List Expression)) :
    (values.mapIdx fun index row => insertRowLayout columns index row).map (List.map Slot.blank) =
      (values.map (List.map Expression.blank)).mapIdx fun index row =>
        insertRowLayout columns index row := by
  refine List.ext_getElem (by simp) fun index _ _ => ?_
  simp only [List.getElem_map, List.getElem_mapIdx, insertRowLayout_blank]

theorem source_blank {columns : Nat} (source : InsertSource) :
    source.blank.layout columns = (source.layout columns).map Slot.blank := by
  cases source with
  | rows values =>
    simp only [InsertSource.blank, InsertSource.layout, List.isEmpty_map]
    split
    · rfl
    · rw [List.map_cons, Slot.map_blank_separated, rowLayouts_blank, Slot.blank_text]
  | query q => rfl

theorem names_blank (names : List String) :
    (Slot.separated ", " (names.map fun name => [.own (.name name)])).map Slot.blank =
      Slot.separated ", " (names.map fun name => [.own (.name name)]) := by
  rw [Slot.map_blank_separated, List.map_map]
  rfl

theorem assignments_blank (assignments : List Assignment) :
    (Slot.separated ", " (assignments.map Assignment.layout)).map Slot.blank =
      Slot.separated ", " ((assignments.map Assignment.blank).map Assignment.layout) := by
  rw [Slot.map_blank_separated, List.map_map, List.map_map]
  rfl

theorem layout_blank (s : Statement) : s.blank.layout d = (s.layout d).map Slot.blank := by
  cases s with
  | select query lock =>
    cases lock with
    | none => exact query.layout_blank
    | some lock => exact lockedLayout_blank.symm
  | insert table columns source =>
    simp only [blank, layout, source_blank]
    split
    · rfl
    · simp only [List.map_cons, List.map_append, names_blank]
      rfl
  | update target assignments condition =>
    simp only [blank, layout, List.isEmpty_map]
    split
    · rfl
    · simp only [List.map_cons, List.map_append, assignments_blank,
        Context.conditionClause_blank]
      rfl
  | delete target condition =>
    simp only [blank, layout, List.map_cons, Context.conditionClause_blank]
    rfl

/-- A statement without the contents of its strings is rendered without them. -/
theorem render_blank (s : Statement) : s.blank.render d = (s.render d).blank := by
  rw [render_eq_fill, render_eq_fill, context_blank, layout_blank,
    Slot.fill_map_blank fun b n _ => n.render_blank _]

end Statement

end SqlDialects.Sql
