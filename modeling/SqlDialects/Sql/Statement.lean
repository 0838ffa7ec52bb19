import SqlDialects.Sql.Atom
import SqlDialects.Temporal.Unit

/-!
# SQL statements

Trees over tables and columns, which every dialect can write in its own way.
-/

namespace SqlDialects.Sql

mutual

inductive Expression where
  | column (qualifier : Option String) (name : String)
  | literal (value : Literal)
  | parameter (parameter : BindParameter)
  /-- A portable function. -/
  | call (name : String) (arguments : List Expression)
  /-- Without an argument, `count(*)`. -/
  | aggregate (function : AggregateFunction) (isDistinct : Bool) (argument : Option Expression)
  | extract (unit : TemporalUnit) (source : Expression)
  | timestampAdd (unit : TemporalUnit) (magnitude timestamp : Expression)
  | timestampDiff (unit : TemporalUnit) (start finish : Expression)
  /-- A timestamp as text, by a portable pattern such as `yyyy-MM-dd`. -/
  | format (source : Expression) (pattern : String)
  | binary (left : Expression) (operator : ArithmeticOperator) (right : Expression)
  | negate (operand : Expression)
  | case (branches : List (CaseBranch Condition Expression)) (otherwise : Option Expression)
  | cast (source : Expression) (target : CastTarget)
  | subquery (query : Query)
  | tuple (items : List Expression)
  /-- `*`, or `a.*` with a qualifier. -/
  | star (qualifier : Option String)

inductive Condition where
  | compare (left : Expression) (operator : Comparison) (right : Expression)
  | all (items : List Condition)
  | any (items : List Condition)
  | not (operand : Condition)
  | isNull (operand : Expression) (isNegated : Bool)
  | inList (operand : Expression) (items : List Expression) (isNegated : Bool)
  | inQuery (operand : Expression) (query : Query) (isNegated : Bool)
  | exists (query : Query) (isNegated : Bool)
  | like (operand pattern : Expression) (escape : Option Char) (ignoresCase isNegated : Bool)
  | between (operand low high : Expression) (isNegated : Bool)
  /-- An expression with a boolean value. -/
  | holds (operand : Expression)

inductive Query where
  | spec (spec : QuerySpec)
  | group (operator : SetOperator) (parts : List Query) (orderBy : List (SortKey Expression))
      (limit offset : Option Expression)

structure QuerySpec where
  isDistinct : Bool := false
  select : List (SelectItem Expression) := []
  tables : List FromItem := []
  condition : Option Condition := none
  groupBy : List Expression := []
  having : Option Condition := none
  orderBy : List (SortKey Expression) := []
  limit : Option Expression := none
  offset : Option Expression := none

/-- A table with the joins that hang on it. -/
structure FromItem where
  root : TableReference
  joins : List Join := []

structure Join where
  kind : JoinKind
  table : TableReference
  on : Option Condition

end

/-! ## Making trees -/

namespace Expression

/-- A column of a table that is known by its alias. -/
def of (aliasName column : String) : Expression := .column (some aliasName) column

def isAggregate : Expression → Bool
  | aggregate _ _ _ => true
  | _ => false

def isTuple : Option Expression → Bool
  | some (tuple _) => true
  | _ => false

def isLiteral : Expression → Bool
  | literal _ => true
  | _ => false

end Expression

namespace Condition

def equal (left right : Expression) : Condition := .compare left .equal right

/-- Joins a condition to the one that is there. -/
def joined (existing : Option Condition) (added : Condition) : Condition :=
  match existing with
  | some condition => .all [condition, added]
  | none => added

end Condition

namespace QuerySpec

def filter (spec : QuerySpec) (condition : Condition) : QuerySpec :=
  { spec with condition := some (.joined spec.condition condition) }

/-- Hangs a join on the last table. Without a table there is nothing to join to. -/
def join (spec : QuerySpec) (join : Join) : QuerySpec :=
  match spec.tables.getLast? with
  | some item =>
    { spec with tables := spec.tables.dropLast ++ [{ item with joins := item.joins ++ [join] }] }
  | none => spec

def isPaginated (spec : QuerySpec) : Bool := spec.limit.isSome || spec.offset.isSome

end QuerySpec

namespace Query

def isGroup : Query → Bool
  | group _ _ _ _ _ => true
  | spec _ => false

def orderBy : Query → List (SortKey Expression)
  | spec s => s.orderBy
  | group _ _ keys _ _ => keys

def isPaginated : Query → Bool
  | spec s => s.isPaginated
  | group _ _ _ limit offset => limit.isSome || offset.isSome

end Query

/-! ## Statements -/

structure Assignment where
  column : String
  value : Expression

inductive InsertSource where
  | rows (rows : List (List Expression))
  | query (query : Query)

inductive Statement where
  | select (query : Query) (lock : Option LockOptions)
  | insert (table : String) (columns : List String) (source : InsertSource)
  | update (target : TableReference) (assignments : List Assignment) (condition : Option Condition)
  | delete (target : TableReference) (condition : Option Condition)

end SqlDialects.Sql
