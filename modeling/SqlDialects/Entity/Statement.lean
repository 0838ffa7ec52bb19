import SqlDialects.Entity.Path
import SqlDialects.Sql.Atom
import SqlDialects.Temporal.Unit

/-!
# Statements over entities

Trees that speak of entities and attribute paths instead of tables and columns.
-/

namespace SqlDialects.Entity

/-- A join along a path, such as `join p.address a`. -/
structure PathJoin where
  kind : JoinKind
  path : Path
  aliasName : String
  deriving DecidableEq, Repr

/-- An entity that a query ranges over. -/
structure Root where
  entity : String
  aliasName : String
  joins : List PathJoin := []
  deriving DecidableEq, Repr

mutual

inductive Expression where
  | path (path : Path)
  | literal (value : Literal)
  | parameter (parameter : BindParameter)
  | call (name : String) (arguments : List Expression)
  | aggregate (function : AggregateFunction) (isDistinct : Bool) (argument : Option Expression)
  | extract (unit : TemporalUnit) (source : Expression)
  | timestampAdd (unit : TemporalUnit) (magnitude timestamp : Expression)
  | timestampDiff (unit : TemporalUnit) (start finish : Expression)
  | format (source : Expression) (pattern : String)
  | binary (left : Expression) (operator : ArithmeticOperator) (right : Expression)
  | negate (operand : Expression)
  | case (branches : List (CaseBranch Condition Expression)) (otherwise : Option Expression)
  | cast (source : Expression) (target : CastTarget)
  | subquery (query : Query)
  | tuple (items : List Expression)
  /-- The number of members of a collection, `size(p.nicknames)`. -/
  | size (path : Path)

inductive Condition where
  | compare (left : Expression) (operator : Comparison) (right : Expression)
  | all (items : List Condition)
  | any (items : List Condition)
  | not (operand : Condition)
  | isNull (operand : Expression) (isNegated : Bool)
  | inList (operand : Expression) (items : List Expression) (isNegated : Bool)
  | inQuery (operand : Expression) (query : Query) (isNegated : Bool)
  | exists (query : Query) (isNegated : Bool)
  | like (operand pattern : Expression) (escape : Option Char) (ignoresCase isNegated : Bool)
  | between (operand low high : Expression) (isNegated : Bool)
  | holds (operand : Expression)

inductive Query where
  | spec (spec : QuerySpec)
  | group (operator : SetOperator) (parts : List Query) (orderBy : List (SortKey Expression))
      (limit offset : Option Expression)

structure QuerySpec where
  isDistinct : Bool := false
  select : List (SelectItem Expression) := []
  roots : List Root := []
  condition : Option Condition := none
  groupBy : List Expression := []
  having : Option Condition := none
  orderBy : List (SortKey Expression) := []
  limit : Option Expression := none
  offset : Option Expression := none

end

namespace QuerySpec

def filter (spec : QuerySpec) (condition : Condition) : QuerySpec :=
  match spec.condition with
  | some existing => { spec with condition := some (.all [existing, condition]) }
  | none => { spec with condition := some condition }

/-- Hangs a join on the first root. -/
def join (spec : QuerySpec) (join : PathJoin) : QuerySpec :=
  match spec.roots with
  | root :: rest => { spec with roots := { root with joins := root.joins ++ [join] } :: rest }
  | [] => spec

end QuerySpec

namespace Query

def orderBy : Query → List (SortKey Expression)
  | spec s => s.orderBy
  | group _ _ keys _ _ => keys

def isPaginated : Query → Bool
  | spec s => s.limit.isSome || s.offset.isSome
  | group _ _ _ limit offset => limit.isSome || offset.isSome

end Query

/-! ## Aggregates -/

mutual

/-- An aggregate stands in the expression. Subqueries and the conditions of branches are not
looked at. -/
def Expression.containsAggregate : Expression → Bool
  | .aggregate _ _ _ => true
  | .call _ arguments => Expression.anyContainsAggregate arguments
  | .tuple items => Expression.anyContainsAggregate items
  | .extract _ source => source.containsAggregate
  | .format source _ => source.containsAggregate
  | .timestampAdd _ magnitude timestamp =>
    magnitude.containsAggregate || timestamp.containsAggregate
  | .timestampDiff _ start finish => start.containsAggregate || finish.containsAggregate
  | .binary left _ right => left.containsAggregate || right.containsAggregate
  | .negate operand => operand.containsAggregate
  | .cast source _ => source.containsAggregate
  | .case branches otherwise =>
    CaseBranch.anyContainsAggregate branches || Expression.optionContainsAggregate otherwise
  | .path _ | .literal _ | .parameter _ | .subquery _ | .size _ => false

def Expression.anyContainsAggregate : List Expression → Bool
  | [] => false
  | e :: rest => e.containsAggregate || Expression.anyContainsAggregate rest

def Expression.optionContainsAggregate : Option Expression → Bool
  | none => false
  | some e => e.containsAggregate

def CaseBranch.anyContainsAggregate : List (CaseBranch Condition Expression) → Bool
  | [] => false
  | ⟨_, result⟩ :: rest => result.containsAggregate || CaseBranch.anyContainsAggregate rest

end

/-! ## Statements -/

structure Assignment where
  property : String
  value : Expression

inductive Statement where
  | select (query : Query) (lock : Option LockOptions)
  | update (entity aliasName : String) (assignments : List Assignment)
      (condition : Option Condition)
  | delete (entity aliasName : String) (condition : Option Condition)

end SqlDialects.Entity
