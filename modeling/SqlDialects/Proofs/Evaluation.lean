import Mathlib.Data.List.Sort
import SqlDialects.Sql.Statement

/-!
# What a query returns

The rows of a query over the records of a database. Conditions have three truth values, with `none`
for unknown. What this does not fix, such as the order of values, is left to the database.
-/

namespace SqlDialects.Sql

/-! ## Parts of a tree -/

mutual

/-- The expression and all that it is made of, but nothing inside its subqueries. -/
def Expression.parts : Expression → List Expression
  | .column qualifier name => [.column qualifier name]
  | .literal value => [.literal value]
  | .parameter parameter => [.parameter parameter]
  | .call name arguments => .call name arguments :: Expression.partsAll arguments
  | .aggregate function isDistinct argument =>
    .aggregate function isDistinct argument :: Expression.partsOption argument
  | .extract unit source => .extract unit source :: source.parts
  | .timestampAdd unit magnitude timestamp =>
    .timestampAdd unit magnitude timestamp :: (magnitude.parts ++ timestamp.parts)
  | .timestampDiff unit start finish =>
    .timestampDiff unit start finish :: (start.parts ++ finish.parts)
  | .format source pattern => .format source pattern :: source.parts
  | .binary left operator right => .binary left operator right :: (left.parts ++ right.parts)
  | .negate operand => .negate operand :: operand.parts
  | .case branches otherwise =>
    .case branches otherwise :: (CaseBranch.partsAll branches ++ Expression.partsOption otherwise)
  | .cast source target => .cast source target :: source.parts
  | .subquery query => [.subquery query]
  | .tuple items => .tuple items :: Expression.partsAll items
  | .star qualifier => [.star qualifier]

def Expression.partsAll : List Expression → List Expression
  | [] => []
  | e :: rest => e.parts ++ Expression.partsAll rest

def Expression.partsOption : Option Expression → List Expression
  | none => []
  | some e => e.parts

def CaseBranch.partsAll : List (CaseBranch Condition Expression) → List Expression
  | [] => []
  | ⟨condition, result⟩ :: rest =>
    (condition.parts ++ result.parts) ++ CaseBranch.partsAll rest

def Condition.parts : Condition → List Expression
  | .compare left _ right => left.parts ++ right.parts
  | .all items | .any items => Condition.partsAll items
  | .not operand => operand.parts
  | .isNull operand _ => operand.parts
  | .inList operand items _ => operand.parts ++ Expression.partsAll items
  | .inQuery operand _ _ => operand.parts
  | .exists _ _ => []
  | .like operand pattern _ _ _ => operand.parts ++ pattern.parts
  | .between operand low high _ => operand.parts ++ (low.parts ++ high.parts)
  | .holds operand => operand.parts

def Condition.partsAll : List Condition → List Expression
  | [] => []
  | p :: rest => p.parts ++ Condition.partsAll rest

end

def anyAggregate (parts : List Expression) : Bool := parts.any (·.isAggregate)

@[simp]
theorem anyAggregate_cons (e : Expression) (parts : List Expression) :
    anyAggregate (e :: parts) = (e.isAggregate || anyAggregate parts) :=
  List.any_cons

@[simp]
theorem anyAggregate_append (parts parts' : List Expression) :
    anyAggregate (parts ++ parts') = (anyAggregate parts || anyAggregate parts') :=
  List.any_append

/-- The query returns a row for each group of records, or one for all of them. -/
def QuerySpec.isGrouped (spec : QuerySpec) : Bool :=
  !spec.groupBy.isEmpty || spec.having.isSome ||
    anyAggregate (spec.select.flatMap (·.expression.parts)) ||
    anyAggregate (spec.orderBy.flatMap (·.expression.parts))

/-! ## Databases -/

/-- The cells of a tuple. A single value is a tuple of one cell. -/
abbrev Value (σ : Type) := List (Option σ)

/-- The cells of a row of a table, by its columns. -/
abbrev Record (σ : Type) := List (String × Option σ)

/-- Records by the aliases of their tables. -/
abbrev Frame (σ : Type) := List (String × Record σ)

structure Table (σ : Type) where
  columns : List String
  records : List (Record σ)

/-- What is computed from values, apart from what the evaluation looks into. -/
inductive Operation where
  | call (name : String)
  | extract (unit : TemporalUnit)
  | timestampAdd (unit : TemporalUnit)
  | timestampDiff (unit : TemporalUnit)
  | format (pattern : String)
  | arithmetic (operator : ArithmeticOperator)
  | negate
  | cast (target : CastTarget)

/-- The tables and the ways in which a product treats values. -/
structure Database (σ : Type) where
  table : String → Table σ
  literal : Literal → Option σ
  literal_same : ∀ x y : Literal, x.sameValue y = true → literal x = literal y
  parameter : BindParameter → Option σ
  /-- A count as a value. -/
  number : Nat → σ
  compute : Operation → List (Value σ) → Option σ
  /-- Of the values that are not null. -/
  summary : AggregateFunction → List (Value σ) → Option σ
  /-- For the comparisons other than equality. -/
  compare : Comparison → Value σ → Value σ → Option Bool
  like : Bool → Option Char → Value σ → Value σ → Option Bool
  truth : Value σ → Option Bool
  order : Bool → Option NullPrecedence → Value σ → Value σ → Ordering
  /-- A limit or offset. -/
  rowCount : Value σ → Option Nat

/-! ## Truth -/

namespace Truth

def all (values : List (Option Bool)) : Option Bool :=
  if values.any (· == some false) then some false
  else if values.all (· == some true) then some true
  else none

def any (values : List (Option Bool)) : Option Bool :=
  (all (values.map (·.map not))).map not

def negated (isNegated : Bool) (value : Option Bool) : Option Bool :=
  if isNegated then value.map not else value

@[simp]
theorem all_singleton (value : Option Bool) : all [value] = value := by
  rcases value with _ | _ | _ <;> rfl

end Truth

variable {σ : Type} [DecidableEq σ]

def equalCells : Option σ → Option σ → Option Bool
  | some x, some y => some (x == y)
  | _, _ => none

def equalValues (x y : Value σ) : Option Bool := Truth.all (List.zipWith equalCells x y)

/-! ## Records -/

def Record.cell {σ : Type} (record : Record σ) (column : String) : Option σ :=
  (record.lookup column).join

/-- The record that an outer join puts where it finds none. -/
def Table.nullRecord {σ : Type} (table : Table σ) : Record σ :=
  table.columns.map fun column => (column, none)

/-- What an expression is evaluated in: a record of each table of its query, the group that these
records are of, and the records of the queries around. -/
structure View (σ : Type) where
  row : Frame σ := []
  group : List (Frame σ) := []
  outer : Frame σ := []

namespace View

variable {σ : Type}

/-- A group of its own. -/
def single (outer row : Frame σ) : View σ := { row, group := [row], outer }

/-- An empty group has nulls for its records. -/
def ofGroup (outer nulls : Frame σ) (group : List (Frame σ)) : View σ :=
  { row := group.headD nulls, group, outer }

/-- What is seen from the inside, the records of inner queries first. -/
def seen (view : View σ) : Frame σ := view.row ++ view.outer

def cell (view : View σ) (qualifier : Option String) (column : String) : Option σ :=
  match qualifier with
  | some aliasName => (view.seen.lookup aliasName).bind (·.cell column)
  | none => (view.seen.findSome? fun named => named.2.lookup column).join

def star (view : View σ) (qualifier : Option String) : Value σ :=
  match qualifier with
  | some aliasName => ((view.seen.lookup aliasName).getD []).map (·.2)
  | none => view.row.flatMap fun named => named.2.map (·.2)

end View

/-! ## Steps of a query -/

/-- Each frame with each of its records. -/
def extendFrames {σ : Type} (aliasName : String) (records : Frame σ → List (Record σ))
    (frames : List (Frame σ)) : List (Frame σ) :=
  frames.flatMap fun frame => (records frame).map fun record => frame ++ [(aliasName, record)]

/-- Adds the records of a table to each frame that they hold with. `nulls` stands for the tables
that are there already. -/
def joinFrames {σ : Type} (kind : JoinKind) (aliasName : String) (table : Table σ)
    (nulls : Frame σ) (holds : Frame σ → Record σ → Bool) (frames : List (Frame σ)) :
    List (Frame σ) :=
  let found (frame : Frame σ) := table.records.filter (holds frame)
  let foundOrNull (frame : Frame σ) :=
    if (found frame).isEmpty then [table.nullRecord] else found frame
  let unmatched := table.records.filter fun record => !frames.any fun frame => holds frame record
  let unmatchedFrames := unmatched.map fun record => nulls ++ [(aliasName, record)]
  match kind with
  | .inner | .cross => extendFrames aliasName found frames
  | .left => extendFrames aliasName foundOrNull frames
  | .right => extendFrames aliasName found frames ++ unmatchedFrames
  | .full => extendFrames aliasName foundOrNull frames ++ unmatchedFrames

/-- The members with each key, in the order in which the keys come first. -/
def groupsBy {α κ : Type} [BEq κ] (key : α → κ) (l : List α) : List (List α) :=
  (l.map key).eraseDups.map fun k => l.filter fun a => key a == k

/-- What the rows of a query are made of: a view for each group, or one for each frame. -/
def viewsOf (isGrouped hasKeys : Bool) (key : Frame σ → List (Value σ)) (outer nulls : Frame σ)
    (frames : List (Frame σ)) : List (View σ) :=
  if isGrouped then
    (if hasKeys then groupsBy key frames else [frames]).map (View.ofGroup outer nulls)
  else frames.map (View.single outer)

namespace Database

variable (db : Database σ)

/-- Nulls are left out of an aggregate. -/
def aggregate (function : AggregateFunction) (isDistinct : Bool) (values : List (Value σ)) :
    Option σ :=
  let present := values.filter fun value => value.all (·.isSome)
  let chosen := if isDistinct then present.eraseDups else present
  match function with
  | .count => some (db.number chosen.length)
  | f => db.summary f chosen

def compareValues (operator : Comparison) (x y : Value σ) : Option Bool :=
  match operator with
  | .equal => equalValues x y
  | .notEqual => (equalValues x y).map not
  | c => db.compare c x y

/-- The first row does not come after the second one. -/
def comesFirst : List (SortKey Expression) → List (Value σ) → List (Value σ) → Bool
  | key :: keys, x :: xs, y :: ys =>
    match db.order key.isDescending key.nulls x y with
    | .lt => true
    | .gt => false
    | .eq => comesFirst keys xs ys
  | _, _, _ => true

/-- Rows in the order of the values that come with them, which are left out then. -/
def sort (keys : List (SortKey Expression)) (rows : List (Value σ × List (Value σ))) :
    List (Value σ) :=
  (rows.insertionSort fun x y => db.comesFirst keys x.2 y.2 = true).map (·.1)

omit [DecidableEq σ] in
theorem comesFirst_congr : ∀ {keys keys' : List (SortKey Expression)},
    keys.map (fun key => (key.isDescending, key.nulls)) =
      keys'.map (fun key => (key.isDescending, key.nulls)) →
        db.comesFirst keys = db.comesFirst keys'
  | [], [], _ => rfl
  | [], _ :: _, h => by simp at h
  | _ :: _, [], h => by simp at h
  | key :: keys, key' :: keys', h => by
    simp only [List.map_cons, List.cons.injEq, Prod.mk.injEq] at h
    obtain ⟨⟨hd, hn⟩, h⟩ := h
    funext xs ys
    cases xs <;> cases ys <;> simp only [comesFirst, hd, hn, comesFirst_congr h]

omit [DecidableEq σ] in
/-- Only the directions and the places of nulls matter for an order. -/
theorem sort_congr {keys keys' : List (SortKey Expression)}
    (h : keys.map (fun key => (key.isDescending, key.nulls)) =
      keys'.map (fun key => (key.isDescending, key.nulls))) : db.sort keys = db.sort keys' := by
  funext rows
  simp only [sort, db.comesFirst_congr h]

def page (limit offset : Option (Value σ)) (rows : List (Value σ)) : List (Value σ) :=
  let rest := rows.drop ((offset.bind db.rowCount).getD 0)
  match limit.bind db.rowCount with
  | some n => rest.take n
  | none => rest

/-- What is left to do when each row has been made, with the values that it is sorted by. -/
def finish (isDistinct : Bool) (keys : List (SortKey Expression)) (limit offset : Option (Value σ))
    (rows : List (Value σ × List (Value σ))) : List (Value σ) :=
  db.page limit offset (db.sort keys (if isDistinct then rows.eraseDups else rows))

/-- The tables of a query with a record of nulls for each. -/
def nullFrame (tables : List FromItem) : Frame σ :=
  tables.flatMap fun item => (item.root :: item.joins.map (·.table)).map fun table =>
    (table.aliasName, (db.table table.table).nullRecord)

def combine (operator : SetOperator) (rows rows' : List (Value σ)) : List (Value σ) :=
  match operator with
  | .unionAll => rows ++ rows'
  | .union => (rows ++ rows').eraseDups
  | .intersect => rows.eraseDups.filter rows'.contains
  | .except => rows.eraseDups.filter fun row => !rows'.contains row

end Database

/-! ## Evaluation -/

mutual

def Expression.value (db : Database σ) : Expression → View σ → Value σ
  | .column qualifier name, view => [view.cell qualifier name]
  | .literal value, _ => [db.literal value]
  | .parameter parameter, _ => [db.parameter parameter]
  | .call name arguments, view =>
    [db.compute (.call name) (Expression.valueAll db arguments view)]
  | .aggregate function isDistinct argument, view =>
    [db.aggregate function (isDistinct && argument.isSome) (view.group.map fun frame =>
      (Expression.valueOption db argument (.single view.outer frame)).getD [])]
  | .extract unit source, view => [db.compute (.extract unit) [source.value db view]]
  | .timestampAdd unit magnitude timestamp, view =>
    [db.compute (.timestampAdd unit) [magnitude.value db view, timestamp.value db view]]
  | .timestampDiff unit start finish, view =>
    [db.compute (.timestampDiff unit) [start.value db view, finish.value db view]]
  | .format source pattern, view => [db.compute (.format pattern) [source.value db view]]
  | .binary left operator right, view =>
    [db.compute (.arithmetic operator) [left.value db view, right.value db view]]
  | .negate operand, view => [db.compute .negate [operand.value db view]]
  | .case branches otherwise, view =>
    ((CaseBranch.valueAll db branches view).or
      (Expression.valueOption db otherwise view)).getD [none]
  | .cast source target, view => [db.compute (.cast target) [source.value db view]]
  -- A subquery without a row is null.
  | .subquery query, view => (query.rows db view.seen).headD [none]
  | .tuple items, view => (Expression.valueAll db items view).flatten
  | .star qualifier, view => view.star qualifier

def Expression.valueAll (db : Database σ) : List Expression → View σ → List (Value σ)
  | [], _ => []
  | e :: rest, view => e.value db view :: Expression.valueAll db rest view

def Expression.valueOption (db : Database σ) : Option Expression → View σ → Option (Value σ)
  | none, _ => none
  | some e, view => some (e.value db view)

/-- The result of the first branch whose condition holds. -/
def CaseBranch.valueAll (db : Database σ) :
    List (CaseBranch Condition Expression) → View σ → Option (Value σ)
  | [], _ => none
  | ⟨condition, result⟩ :: rest, view =>
    if condition.truth db view = some true then some (result.value db view)
    else CaseBranch.valueAll db rest view

def Condition.truth (db : Database σ) : Condition → View σ → Option Bool
  | .compare left operator right, view =>
    db.compareValues operator (left.value db view) (right.value db view)
  | .all items, view => Truth.all (Condition.truthAll db items view)
  | .any items, view => Truth.any (Condition.truthAll db items view)
  | .not operand, view => (operand.truth db view).map not
  | .isNull operand isNegated, view =>
    let value := operand.value db view
    some (if isNegated then value.all (·.isSome) else value.all (·.isNone))
  | .inList operand items isNegated, view =>
    Truth.negated isNegated (Truth.any
      ((Expression.valueAll db items view).map (equalValues (operand.value db view))))
  | .inQuery operand query isNegated, view =>
    Truth.negated isNegated (Truth.any
      ((query.rows db view.seen).map (equalValues (operand.value db view))))
  | .exists query isNegated, view =>
    Truth.negated isNegated (some !(query.rows db view.seen).isEmpty)
  | .like operand pattern escape ignoresCase isNegated, view =>
    Truth.negated isNegated
      (db.like ignoresCase escape (operand.value db view) (pattern.value db view))
  | .between operand low high isNegated, view =>
    Truth.negated isNegated (Truth.all
      [db.compare .lessOrEqual (low.value db view) (operand.value db view),
        db.compare .lessOrEqual (operand.value db view) (high.value db view)])
  | .holds operand, view => db.truth (operand.value db view)

def Condition.truthAll (db : Database σ) : List Condition → View σ → List (Option Bool)
  | [], _ => []
  | p :: rest, view => p.truth db view :: Condition.truthAll db rest view

/-- No condition always holds. -/
def Condition.holdsOption (db : Database σ) : Option Condition → View σ → Bool
  | none, _ => true
  | some p, view => p.truth db view = some true

/-- The rows of a query that is evaluated where the records in `outer` are seen. -/
def Query.rows (db : Database σ) : Query → Frame σ → List (Value σ)
  | .spec spec, outer => spec.rows db outer
  | .group operator parts orderBy limit offset, outer =>
    let combined := match Query.rowsAll db parts outer with
      | [] => []
      | first :: rest => rest.foldl (Database.combine operator) first
    let keys := SortKey.valueAll db orderBy { outer }
    db.finish false orderBy (Expression.valueOption db limit {})
      (Expression.valueOption db offset {}) (combined.map fun row => (row, keys))

def Query.rowsAll (db : Database σ) : List Query → Frame σ → List (List (Value σ))
  | [], _ => []
  | q :: rest, outer => q.rows db outer :: Query.rowsAll db rest outer

def QuerySpec.rows (db : Database σ) : QuerySpec → Frame σ → List (Value σ)
  | ⟨isDistinct, select, tables, condition, groupBy, having, orderBy, limit, offset⟩, outer =>
    let kept := (FromItem.frames db tables outer).filter fun frame =>
      Condition.holdsOption db condition (.single outer frame)
    let key (frame : Frame σ) := Expression.valueAll db groupBy (.single outer frame)
    let spec : QuerySpec :=
      ⟨isDistinct, select, tables, condition, groupBy, having, orderBy, limit, offset⟩
    let views :=
      viewsOf spec.isGrouped (!groupBy.isEmpty) key outer (db.nullFrame tables) kept
    -- A limit does not look at records.
    db.finish isDistinct orderBy (Expression.valueOption db limit {})
      (Expression.valueOption db offset {})
      ((views.filter (Condition.holdsOption db having)).map fun view =>
        ((SelectItem.valueAll db select view).flatten, SortKey.valueAll db orderBy view))

def SelectItem.valueAll (db : Database σ) :
    List (SelectItem Expression) → View σ → List (Value σ)
  | [], _ => []
  | ⟨e, _⟩ :: rest, view => e.value db view :: SelectItem.valueAll db rest view

/-- One record of each table, for all tables of a query. -/
def FromItem.frames (db : Database σ) : List FromItem → Frame σ → List (Frame σ)
  | [], _ => [[]]
  | ⟨root, joins⟩ :: rest, outer =>
    let first := (db.table root.table).records.map fun record => [(root.aliasName, record)]
    (Join.frames db joins outer [(root.aliasName, (db.table root.table).nullRecord)] first).flatMap
      fun frame => (FromItem.frames db rest outer).map (frame ++ ·)

/-- The frames that joins make of others. `nulls` stands for the tables that are there already. -/
def Join.frames (db : Database σ) :
    List Join → Frame σ → Frame σ → List (Frame σ) → List (Frame σ)
  | [], _, _, frames => frames
  | ⟨kind, table, on⟩ :: rest, outer, nulls, frames =>
    let joined := joinFrames kind table.aliasName (db.table table.table) nulls
      (fun frame record =>
        Condition.holdsOption db on (.single outer (frame ++ [(table.aliasName, record)]))) frames
    Join.frames db rest outer (nulls ++ [(table.aliasName, (db.table table.table).nullRecord)])
      joined

def SortKey.valueAll (db : Database σ) :
    List (SortKey Expression) → View σ → List (Value σ)
  | [], _ => []
  | ⟨e, _, _⟩ :: rest, view => e.value db view :: SortKey.valueAll db rest view

end

section

variable (db : Database σ)

theorem Join.frames_cons (join : Join) (joins : List Join) (outer nulls : Frame σ)
    (frames : List (Frame σ)) :
    Join.frames db (join :: joins) outer nulls frames =
      Join.frames db joins outer
        (nulls ++ [(join.table.aliasName, (db.table join.table.table).nullRecord)])
        (joinFrames join.kind join.table.aliasName (db.table join.table.table) nulls
          (fun frame record => Condition.holdsOption db join.on
            (.single outer (frame ++ [(join.table.aliasName, record)]))) frames) := by
  cases join
  rfl

theorem Join.frames_append : ∀ (joins joins' : List Join) (outer nulls : Frame σ)
    (frames : List (Frame σ)),
    Join.frames db (joins ++ joins') outer nulls frames =
      Join.frames db joins' outer
        (nulls ++ joins.map fun join =>
          (join.table.aliasName, (db.table join.table.table).nullRecord))
        (Join.frames db joins outer nulls frames)
  | [], _, _, _, _ => by
    rw [List.nil_append, List.map_nil, List.append_nil]
    rfl
  | join :: joins, joins', outer, nulls, frames => by
    rw [List.cons_append, Join.frames_cons, Join.frames_append joins, Join.frames_cons,
      List.map_cons, List.append_assoc, List.singleton_append]

theorem FromItem.frames_cons (item : FromItem) (tables : List FromItem) (outer : Frame σ) :
    FromItem.frames db (item :: tables) outer =
      (Join.frames db item.joins outer
        [(item.root.aliasName, (db.table item.root.table).nullRecord)]
        ((db.table item.root.table).records.map fun record =>
          [(item.root.aliasName, record)])).flatMap
        fun frame => (FromItem.frames db tables outer).map (frame ++ ·) := by
  cases item
  rfl

end

/-- The frames of the tables that the condition of the query lets through. -/
def QuerySpec.kept (db : Database σ) (spec : QuerySpec) (outer : Frame σ) : List (Frame σ) :=
  (FromItem.frames db spec.tables outer).filter fun frame =>
    Condition.holdsOption db spec.condition (.single outer frame)

/-- What the rows of the query are made of. -/
def QuerySpec.views (db : Database σ) (spec : QuerySpec) (outer : Frame σ) : List (View σ) :=
  (viewsOf spec.isGrouped (!spec.groupBy.isEmpty)
    (fun frame => Expression.valueAll db spec.groupBy (.single outer frame)) outer
    (db.nullFrame spec.tables) (spec.kept db outer)).filter
      (Condition.holdsOption db spec.having)

theorem QuerySpec.rows_eq (db : Database σ) (spec : QuerySpec) (outer : Frame σ) :
    spec.rows db outer =
      db.finish spec.isDistinct spec.orderBy (Expression.valueOption db spec.limit {})
        (Expression.valueOption db spec.offset {})
        ((spec.views db outer).map fun view =>
          ((SelectItem.valueAll db spec.select view).flatten,
            SortKey.valueAll db spec.orderBy view)) := by
  cases spec
  rfl

end SqlDialects.Sql
