import Mathlib.Data.List.Basic
import SqlDialects.Sql.Translation

/-!
# The layout of a rendering

What is written for a node is a row of slots. A slot holds text of the node itself or stands for a
node below it. The layout of a node is not recursive, and the rendering of a node is its layout
with all slots filled.
-/

/-! ## Calls -/

namespace SqlDialects.FunctionTemplate

/-- What a call is expanded to, by the way it is written. -/
theorem expand_ok_cases {template : FunctionTemplate} {count : Nat} {segments : List Segment}
    (h : template.expand count = .ok segments) :
    (∃ byCount pattern, template.rendering = .patterns byCount ∧
      byCount.get? count = some pattern ∧ segments = pattern.segments) ∨
    (∃ sqlName, template.rendering = .named sqlName ∧
      segments = .text (sqlName ++ "(") :: Segment.separated ", " count ++ [.text ")"]) ∨
    (∃ operator, template.rendering = .joined operator ∧
      segments = .text "(" :: Segment.separated operator count ++ [.text ")"]) := by
  unfold expand at h
  cases hc : template.checkArity count with
  | error e => simp [hc, bind, Except.bind] at h
  | ok u =>
    simp only [hc, bind, Except.bind] at h
    split at h
    · next byCount hr =>
      split at h
      · next pattern hp => exact .inl ⟨byCount, pattern, hr, hp, (Except.ok.inj h).symm⟩
      · cases h
    · next sqlName hr => exact .inr (.inl ⟨sqlName, hr, (Except.ok.inj h).symm⟩)
    · next operator hr => exact .inr (.inr ⟨operator, hr, (Except.ok.inj h).symm⟩)

end SqlDialects.FunctionTemplate

namespace SqlDialects.Sql

/-! ## Fragments one after the other -/

namespace Fragment

variable (f g h : Fragment)

theorem append_def : f ++ g =
    ⟨f.pieces ++ g.pieces, f.tables ++ g.tables, f.warnings ++ g.warnings⟩ := rfl

@[simp]
theorem append_pieces : (f ++ g).pieces = f.pieces ++ g.pieces := rfl

@[simp]
theorem append_tables : (f ++ g).tables = f.tables ++ g.tables := rfl

@[simp]
theorem append_warnings : (f ++ g).warnings = f.warnings ++ g.warnings := rfl

theorem append_assoc : f ++ g ++ h = f ++ (g ++ h) := by
  simp [append_def, List.append_assoc]

theorem append_empty : f ++ ({} : Fragment) = f := by simp [append_def]

theorem empty_append : ({} : Fragment) ++ f = f := by simp [append_def]

end Fragment

namespace Rendered

def andThen (r s : Rendered) : Rendered := do
  let f ← r
  let g ← s
  return f ++ g

variable {r s t : Rendered}

@[simp]
theorem andThen_error {e : DialectError} : andThen (.error e) s = .error e := rfl

theorem andThen_ok {f g : Fragment} : andThen (.ok f) (.ok g) = .ok (f ++ g) := rfl

theorem andThen_ok_iff {f : Fragment} :
    r.andThen s = .ok f ↔ ∃ g h, r = .ok g ∧ s = .ok h ∧ f = g ++ h := by
  cases r with
  | error e => simp
  | ok g =>
    cases s with
    | error e => exact ⟨nofun, nofun⟩
    | ok h => simp [andThen_ok, eq_comm]

@[simp]
theorem empty_andThen : empty.andThen r = r := by
  cases r with
  | error e => rfl
  | ok f => rw [empty, andThen_ok, Fragment.empty_append]

@[simp]
theorem andThen_empty : r.andThen empty = r := by
  cases r with
  | error e => rfl
  | ok f => rw [empty, andThen_ok, Fragment.append_empty]

@[simp]
theorem andThen_assoc : (r.andThen s).andThen t = r.andThen (s.andThen t) := by
  cases r with
  | error e => rfl
  | ok f =>
    cases s with
    | error e => rfl
    | ok g =>
      cases t with
      | error e => rfl
      | ok h => rw [andThen_ok, andThen_ok, andThen_ok, andThen_ok, Fragment.append_assoc]

@[simp]
theorem concat_nil : concat [] = empty := rfl

@[simp]
theorem concat_cons (rs : List Rendered) : concat (r :: rs) = r.andThen (concat rs) := rfl

@[simp]
theorem concat_append (rs ss : List Rendered) :
    concat (rs ++ ss) = (concat rs).andThen (concat ss) := by
  induction rs with
  | nil => simp
  | cons r rs ih => simp [ih]

end Rendered

/-! ## Nodes -/

/-- A node of a statement that has a rendering of its own. -/
inductive Node where
  | expression (e : Expression)
  | condition (p : Condition)
  | query (q : Query)

namespace Node

def render (c : Context) : Node → Rendered
  | expression e => e.render c
  | condition p => p.render c
  | query q => q.render c ""

end Node

inductive Slot where
  /-- What a node writes itself, or why it fails. -/
  | own (r : Rendered)
  /-- The rendering of a node. `isInner` is for queries in a query around them. -/
  | part (isInner : Bool) (n : Node)

namespace Slot

def render (c : Context) : Slot → Rendered
  | own r => r
  | part isInner n => n.render (if isInner then c.nested else c)

def text (t : String) : Slot := own (.text t)

def expression (e : Expression) : Slot := part false (.expression e)

def condition (p : Condition) : Slot := part false (.condition p)

def subquery (q : Query) : List Slot := [text "(", part true (.query q), text ")"]

def malformed (reason : String) : List Slot := [own (.malformed reason)]

def fail (e : DialectError) : List Slot := [own (.error e)]

def parenthesized (slots : List Slot) : List Slot := text "(" :: slots ++ [text ")"]

/-- Rows of slots with a text between neighbours. -/
def separated (separator : String) : List (List Slot) → List Slot
  | [] => []
  | [slots] => slots
  | slots :: next :: rest => slots ++ text separator :: separated separator (next :: rest)

/-- Text in front of some slots, where there are any. -/
def clause (keyword : String) : Option (List Slot) → List Slot
  | some slots => text keyword :: slots
  | none => []

def fill (c : Context) (slots : List Slot) : Rendered := .concat (slots.map (render c))

variable (c : Context)

@[simp]
theorem render_own (r : Rendered) : (own r).render c = r := rfl

@[simp]
theorem render_text (t : String) : (text t).render c = .text t := rfl

@[simp]
theorem render_expression (e : Expression) : (expression e).render c = e.render c := rfl

@[simp]
theorem render_condition (p : Condition) : (condition p).render c = p.render c := rfl

@[simp]
theorem render_query (q : Query) : (part false (.query q)).render c = q.render c "" := rfl

@[simp]
theorem render_inner (q : Query) : (part true (.query q)).render c = q.render c.nested "" := rfl

@[simp]
theorem fill_nil : fill c [] = .empty := rfl

@[simp]
theorem fill_cons (slot : Slot) (slots : List Slot) :
    fill c (slot :: slots) = (slot.render c).andThen (fill c slots) := rfl

@[simp]
theorem fill_append (slots slots' : List Slot) :
    fill c (slots ++ slots') = (fill c slots).andThen (fill c slots') := by
  simp [fill]

@[simp]
theorem fill_subquery (q : Query) :
    fill c (subquery q) = .parenthesized (q.render c.nested "") := rfl

@[simp]
theorem fill_malformed (reason : String) : fill c (malformed reason) = .malformed reason := rfl

@[simp]
theorem fill_fail (e : DialectError) : fill c (fail e) = .error e := rfl

@[simp]
theorem fill_parenthesized (slots : List Slot) :
    fill c (parenthesized slots) = .parenthesized (fill c slots) := by
  simp [parenthesized, Rendered.parenthesized]

@[simp]
theorem fill_separated (separator : String) (rows : List (List Slot)) :
    fill c (separated separator rows) = .separated separator (rows.map (fill c)) := by
  induction rows with
  | nil => rfl
  | cons slots rest ih =>
    cases rest with
    | nil => rfl
    | cons next rest => simp [separated, Rendered.separated, ih]

@[simp]
theorem fill_clause (keyword : String) (slots : Option (List Slot)) :
    fill c (clause keyword slots) = .clause keyword (slots.map (fill c)) := by
  cases slots with
  | none => rfl
  | some slots => simp [clause, Rendered.clause]

end Slot

/-! ## Layouts of expressions -/

namespace Context

/-- The layout, if the dialect has the capability. -/
def requiringLayout (c : Context) (capability : Capability) (construct : String)
    (slots : List Slot) : List Slot :=
  if c.dialect.supports capability then slots
  else Slot.fail (c.dialect.lacks capability construct)

/-- The slot at the place of a template; a place without an argument fails. -/
def argumentSlot (template : FunctionTemplate) (arguments : List Slot) : Segment → Slot
  | .text t => .text t
  | .argument index =>
    match arguments[index]? with
    | some slot => slot
    | none => .own (.malformed (template.name ++ " has no argument " ++ toString (index + 1)))

def templateLayout (template : FunctionTemplate) (arguments : List Slot) : List Slot :=
  match template.expand arguments.length with
  | .ok segments => segments.map (argumentSlot template arguments)
  | .error e => Slot.fail e

def functionLayout (c : Context) (name : String) (arguments : List Slot) : List Slot :=
  match c.dialect.function name with
  | .ok template => templateLayout template arguments
  | .error e => Slot.fail e

def extractLayout (c : Context) (unit : TemporalUnit) (source : Slot) : List Slot :=
  let field := c.dialect.extractField unit
  match c.dialect.rules.extractPatterns unit, c.dialect.functions.get? "extract" with
  | some pattern, _ =>
    templateLayout (.pattern "extract" pattern (some .integer)) [.text field, source]
  | none, some template => templateLayout template [.text field, source]
  | none, none => [.text ("extract(" ++ field ++ " from "), source, .text ")"]

/-- A call of a pattern for timestamps, where the dialect has one. -/
def timestampLayout (name : String) (pattern : Except DialectError String)
    (arguments : List Slot) : List Slot :=
  match pattern with
  | .ok pattern => templateLayout (.pattern name pattern) arguments
  | .error e => Slot.fail e

def aggregateLayout (c : Context) (function : AggregateFunction) (isDistinct : Bool) :
    Option Expression → List Slot
  | none => [.own (c.aggregate function isDistinct false none)]
  | some argument =>
    let slots := [.text (function.sql ++ "("), .own (.textIf isDistinct "distinct "),
      .expression argument, .text ")"]
    if isDistinct && Expression.isTuple (some argument) then
      c.requiringLayout .tupleDistinctCounts "count(distinct) over a tuple" slots
    else slots

def branchLayout (branch : CaseBranch Condition Expression) : List Slot :=
  [.text " when ", .condition branch.condition, .text " then ", .expression branch.result]

def caseLayout (branches : List (CaseBranch Condition Expression))
    (otherwise : Option Expression) : List Slot :=
  if branches.isEmpty then Slot.malformed "case expression without branches"
  else .text "case" :: branches.flatMap branchLayout ++
    Slot.clause " else " (otherwise.map fun e => [.expression e]) ++ [.text " end"]

def castLayout (c : Context) (source : Expression) (target : CastTarget) : List Slot :=
  match c.dialect.columnType target.code target.length target.precision target.scale with
  | .ok type => [.text "cast(", .expression source, .text (" as " ++ type ++ ")")]
  | .error e => Slot.fail e

def tupleLayout (items : List Expression) : List Slot :=
  if items.isEmpty then Slot.malformed "empty tuple"
  else Slot.parenthesized (Slot.separated ", " (items.map fun e => [.expression e]))

end Context

def Expression.layout (c : Context) : Expression → List Slot
  | .column qualifier name => [.own (c.column qualifier name)]
  | .literal value => [.own (c.literal value)]
  | .parameter bound => [.own (.parameter bound)]
  | .call name arguments => c.functionLayout name (arguments.map .expression)
  | .aggregate function isDistinct argument => c.aggregateLayout function isDistinct argument
  | .extract unit source => c.extractLayout unit (.expression source)
  | .timestampAdd unit magnitude timestamp =>
    Context.timestampLayout "timestampadd" (c.dialect.timestampAdd unit)
      [.text unit.durationField, .expression magnitude, .expression timestamp]
  | .timestampDiff unit start finish =>
    Context.timestampLayout "timestampdiff" (c.dialect.timestampDiff unit)
      [.text unit.durationField, .expression start, .expression finish]
  | .format source pattern =>
    c.functionLayout "format"
      [.expression source, .own (.string (c.dialect.rules.datetimeFormat.write pattern))]
  | .binary left operator right =>
    Slot.parenthesized
      [.expression left, .text (" " ++ operator.sql ++ " "), .expression right]
  | .negate operand => [.text "-(", .expression operand, .text ")"]
  | .case branches otherwise => Context.caseLayout branches otherwise
  | .cast source target => c.castLayout source target
  | .subquery query => Slot.subquery query
  | .tuple items => Context.tupleLayout items
  | .star qualifier => [.own (Context.star qualifier)]

/-! ## Layouts of conditions -/

namespace Context

def comparisonLayout (operator : Comparison) (left right : List Slot) : List Slot :=
  left ++ .text (" " ++ operator.sql ++ " ") :: right

def pairLayout (operator : Comparison) (pair : Expression × Expression) : List Slot :=
  comparisonLayout operator [.expression pair.1] [.expression pair.2]

def alternativeLayout (operator : Comparison) (equal : List (Expression × Expression))
    (pair : Expression × Expression) : List Slot :=
  if equal.isEmpty then pairLayout operator pair
  else Slot.parenthesized (Slot.separated " and "
    (equal.map (pairLayout .equal) ++ [pairLayout operator pair]))

def alternativeLayouts (operator : Comparison) (equal : List (Expression × Expression)) :
    List (Expression × Expression) → List (List Slot)
  | [] => []
  | [pair] => [alternativeLayout operator equal pair]
  | pair :: next :: rest =>
    alternativeLayout operator.strict equal pair ::
      alternativeLayouts operator (equal ++ [pair]) (next :: rest)

def expandedLayout (operator : Comparison) (pairs : List (Expression × Expression)) :
    List Slot :=
  match operator with
  | .equal => Slot.parenthesized (Slot.separated " and " (pairs.map (pairLayout .equal)))
  | .notEqual => Slot.parenthesized (Slot.separated " or " (pairs.map (pairLayout .notEqual)))
  | _ => Slot.parenthesized (Slot.separated " or " (alternativeLayouts operator [] pairs))

/-- A comparison of two tuples. -/
def rowLayout (c : Context) (operator : Comparison) (left right : List Expression) : List Slot :=
  if left.length < 2 || left.length != right.length then
    Slot.malformed ("tuple comparison between " ++ toString left.length ++ " and "
      ++ toString right.length ++ " elements")
  else if c.dialect.supports .rowValueConstructorSyntax then
    comparisonLayout operator [.expression (.tuple left)] [.expression (.tuple right)]
  else expandedLayout operator (left.zip right)

/-- A comparison of a tuple of so many elements and something else. -/
def mixedLayout (c : Context) (elements : Nat) (operator : Comparison)
    (left right : Expression) : List Slot :=
  if elements < 2 then Slot.malformed "tuple with fewer than two elements"
  else c.requiringLayout .rowValueConstructorSyntax "row value comparison"
    (comparisonLayout operator [.expression left] [.expression right])

def compareLayout (c : Context) (operator : Comparison) : Expression → Expression → List Slot
  | .tuple lefts, .tuple rights => c.rowLayout operator lefts rights
  | .tuple lefts, right => c.mixedLayout lefts.length operator (.tuple lefts) right
  | left, .tuple rights => c.mixedLayout rights.length operator left (.tuple rights)
  | left, right => comparisonLayout operator [.expression left] [.expression right]

def memberLayout (c : Context) (operand : Expression) (slots : List Slot) : List Slot :=
  match operand with
  | .tuple _ => c.requiringLayout .subselectAsInPredicateLhs "tuple on the left of in" slots
  | .subquery _ =>
    c.requiringLayout .subselectAsInPredicateLhs "subquery on the left of in" slots
  | _ => slots

def inListLayout (c : Context) (operand : Expression) (items : List Expression)
    (isNegated : Bool) : List Slot :=
  if items.isEmpty then [.text (if isNegated then "1=1" else "1=0")]
  else c.memberLayout operand
    (.expression operand :: .own (negatable isNegated "in (") ::
      Slot.separated ", " (items.map fun e => [.expression e]) ++ [.text ")"])

def sideLayout (c : Context) (isLowered : Bool) (e : Expression) : List Slot :=
  if isLowered then [.text (c.dialect.rules.lowercaseFunction ++ "("), .expression e, .text ")"]
  else [.expression e]

def likeLayout (c : Context) (operand pattern : Expression) (escape : Option Char)
    (ignoresCase isNegated : Bool) : List Slot :=
  let isNative := ignoresCase && c.dialect.supports .caseInsensitiveLike
  let isLowered := ignoresCase && !isNative
  c.sideLayout isLowered operand ++
    .own (negatable isNegated (if isNative then "ilike " else "like ")) ::
    c.sideLayout isLowered pattern ++
    Slot.clause " escape " (escape.map fun e => [.own (.string (toString e))])

def operandLayout (p : Condition) : List Slot :=
  if isLooser p then Slot.parenthesized [.condition p] else [.condition p]

end Context

def Condition.layout (c : Context) : Condition → List Slot
  | .compare left operator right => c.compareLayout operator left right
  | .all items =>
    if items.isEmpty then [.text "1=1"]
    else Slot.separated " and " (items.map Context.operandLayout)
  | .any items =>
    if items.isEmpty then [.text "1=0"]
    else Slot.separated " or " (items.map fun p => [.condition p])
  | .not operand => [.text "not (", .condition operand, .text ")"]
  | .isNull operand isNegated =>
    [.expression operand, .text (if isNegated then " is not null" else " is null")]
  | .inList operand items isNegated => c.inListLayout operand items isNegated
  | .inQuery operand query isNegated =>
    c.memberLayout operand (.expression operand :: .own (Context.negatable isNegated "in ") ::
      Slot.subquery query)
  | .exists query isNegated =>
    .text (if isNegated then "not exists " else "exists ") :: Slot.subquery query
  | .like operand pattern escape ignoresCase isNegated =>
    c.likeLayout operand pattern escape ignoresCase isNegated
  | .between operand low high isNegated =>
    [.expression operand, .own (Context.negatable isNegated "between "), .expression low,
      .text " and ", .expression high]
  | .holds operand => [.expression operand, .text (" = " ++ c.dialect.booleanLiteral true)]

/-! ## Layouts of queries -/

namespace Context

def itemLayout (item : SelectItem Expression) : List Slot :=
  .expression item.expression :: Slot.clause " as " (item.aliasName.map fun a => [.text a])

def joinLayout (join : Join) : List Slot :=
  match join.on with
  | some condition =>
    [.text (" " ++ join.kind.sql ++ " "), .own (table join.table), .text " on ",
      .condition condition]
  | none =>
    if join.kind = .cross then [.text (" " ++ join.kind.sql ++ " "), .own (table join.table)]
    else Slot.malformed ("join to " ++ join.table.table ++ " without a condition")

def tableLayout (hint : String) (item : FromItem) : List Slot :=
  .own (table item.root) :: .own (.textIf (hint != "") hint) :: item.joins.flatMap joinLayout

def tableLayouts (hint : String) : List FromItem → List (List Slot)
  | [] => []
  | item :: rest => tableLayout hint item :: tableLayouts "" rest

def keyLayout (c : Context) (key : SortKey Expression) : List Slot :=
  let directed := [.expression key.expression, .own (.textIf key.isDescending " desc")]
  let nullKey (ifNull otherwise : String) :=
    [.text "case when ", .expression key.expression,
      .text (" is null then " ++ ifNull ++ " else " ++ otherwise), .text " end, "] ++ directed
  match key.nulls, c.dialect.supports .nullsOrdering with
  | none, _ => directed
  | some .first, true => directed ++ [.text " nulls first"]
  | some .last, true => directed ++ [.text " nulls last"]
  | some .first, false => nullKey "0" "1"
  | some .last, false => nullKey "1" "0"

def prefixLayout (c : Context) (isDistinct : Bool) (limit : Option Expression) : List Slot :=
  let distinct := Slot.own (.textIf isDistinct "distinct ")
  match c.dialect.rowLimit, limit with
  | .first _, some n => [.text "first ", .expression n, .text " ", distinct]
  | .top _, some n => [distinct, .text "top (", .expression n, .text ") "]
  | _, _ => [distinct]

def paginationLayout (c : Context) (hasOrder : Bool) (limit offset : Option Expression) :
    List Slot :=
  if limit.isNone && offset.isNone then []
  else
    match c.dialect.rowLimit with
    | .unsupported => [.own (c.refuse "row limiting")]
    | .first _ | .top _ => []
    | .limitOffset allRows =>
      Slot.clause " limit " ((limit.map fun n => [Slot.expression n]) <|>
          allRows.map fun rows => [Slot.text rows]) ++
        Slot.clause " offset " (offset.map fun n => [.expression n])
    | .offsetFetch rowsKeyword requiresOrderBy =>
      .own (.textIf (requiresOrderBy && !hasOrder) " order by @@version") ::
        Slot.clause " offset "
          (offset.map fun n => [.expression n, .own (.textIf rowsKeyword " rows")]) ++
        Slot.clause (if offset.isSome then " fetch next " else " fetch first ")
          (limit.map fun n => [.expression n, .text " rows only"])

def endLayout (c : Context) (keys : List (SortKey Expression)) (limit offset : Option Expression) :
    List Slot :=
  match c.orderFate (!keys.isEmpty) (limit.isSome || offset.isSome) with
  | .absent => c.paginationLayout false limit offset
  | .kept =>
    .text " order by " :: Slot.separated ", " (keys.map c.keyLayout) ++
      c.paginationLayout true limit offset
  | .removed =>
    .own (.warning .subqueryOrderByRemoved) :: c.paginationLayout false limit offset
  | .refused => Slot.fail (c.dialect.lacks .orderByInSubquery "order by in a paginated subquery")

def operandQueryLayout (q : Query) : List Slot :=
  if needsParentheses q then Slot.parenthesized [.part false (.query q)]
  else [.part false (.query q)]

def groupByLayout (keys : List Expression) : Option (List Slot) :=
  if keys.isEmpty then none
  else some (Slot.separated ", " (keys.map fun e => [.expression e]))

/-- The parts of a query from `select` on. -/
def specLayout (c : Context) (hint : String) (spec : QuerySpec) : List Slot :=
  .text "select " :: c.prefixLayout spec.isDistinct spec.limit ++
    Slot.separated ", " (spec.select.map itemLayout) ++
    .text " from " :: Slot.separated ", " (tableLayouts hint spec.tables) ++
    Slot.clause " where " (spec.condition.map fun p => [.condition p]) ++
    Slot.clause " group by " (groupByLayout spec.groupBy) ++
    Slot.clause " having " (spec.having.map fun p => [.condition p]) ++
    c.endLayout spec.orderBy spec.limit spec.offset

end Context

def QuerySpec.layout (c : Context) (hint : String) (spec : QuerySpec) : List Slot :=
  if spec.select.isEmpty then Slot.malformed "query spec with an empty select list"
  else if spec.tables.isEmpty then Slot.malformed "query spec without a from clause"
  else
    match c.checkPagination spec.limit spec.offset with
    | .error e => Slot.fail e
    | .ok () => c.specLayout hint spec

/-- `hint` follows the first table. -/
def Query.layout (c : Context) (hint : String) : Query → List Slot
  | .spec body => body.layout c hint
  | .group operator parts orderBy limit offset =>
    match c.checkGroup operator parts.length (limit.isSome || offset.isSome) with
    | .error e => Slot.fail e
    | .ok () =>
      Slot.separated (" " ++ operator.sql ++ " ") (parts.map Context.operandQueryLayout) ++
        c.endLayout orderBy limit offset

def Node.layout (c : Context) : Node → List Slot
  | .expression e => e.layout c
  | .condition p => p.layout c
  | .query q => q.layout c ""

/-! ## Statements -/

/-- The query is the outermost one, so it can have a hint. -/
def lockedLayout (c : Context) (query : Query) (lock : LockOptions) : List Slot :=
  let d := c.dialect
  let option := LockOptions.optionText d lock
  if query.isGroup then [.own (c.refuse "locking a set operation")]
  else
    match d.rules.lockSyntax with
    | .clause => .own (LockOptions.optionWarning d lock) :: query.layout c "" ++
      [.text (LockOptions.modeText d.rules.forShare d.rules.forUpdate lock ++ option)]
    | .tableHint update share => .own (LockOptions.optionWarning d lock) ::
      query.layout c (" with (" ++ LockOptions.modeText share update lock ++ option ++ ")")
    | .omitted => .own (.warning (.lockClauseOmitted d.name)) :: query.layout c ""

def insertRowLayout (columns index : Nat) (values : List Expression) : List Slot :=
  if values.length = columns then
    Slot.parenthesized (Slot.separated ", " (values.map fun e => [.expression e]))
  else
    Slot.malformed ("insert row " ++ toString index ++ " has " ++ toString values.length
      ++ " values for " ++ toString columns ++ " columns")

def InsertSource.layout (columns : Nat) : InsertSource → List Slot
  | .rows values =>
    if values.isEmpty then Slot.malformed "insert without rows"
    else .text "values " ::
      Slot.separated ", " (values.mapIdx fun index row => insertRowLayout columns index row)
  | .query source => [.part true (.query source)]

def Assignment.layout (assignment : Assignment) : List Slot :=
  [.own (.name assignment.column), .text " = ", .expression assignment.value]

namespace Statement

/-- Where the parts of a statement stand that are in no query. -/
def context (d : Dialect) : Statement → Context
  | select _ _ | insert _ _ _ => { dialect := d }
  | update target _ _ | delete target _ =>
    { dialect := d, bareAlias := some target.aliasName }

def layout (d : Dialect) : Statement → List Slot
  | select query none => query.layout { dialect := d } ""
  | select query (some lock) => lockedLayout { dialect := d } query lock
  | insert table columns source =>
    if columns.isEmpty then Slot.malformed "insert without columns"
    else .text "insert into " :: .own (.table table) :: .text " (" ::
      Slot.separated ", " (columns.map fun name => [.own (.name name)]) ++ .text ") " ::
      source.layout columns.length
  | update target assignments condition =>
    if assignments.isEmpty then Slot.malformed "update without assignments"
    else .text "update " :: .own (.table target.table) :: .text " set " ::
      Slot.separated ", " (assignments.map Assignment.layout) ++
      Slot.clause " where " (condition.map fun p => [.condition p])
  | delete target condition =>
    .text "delete from " :: .own (.table target.table) ::
      Slot.clause " where " (condition.map fun p => [.condition p])

end Statement

end SqlDialects.Sql
