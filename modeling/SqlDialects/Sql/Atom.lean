import SqlDialects.Number.Shortest
import SqlDialects.SqlType

/-! # Leaves of statement trees -/

namespace SqlDialects

inductive Literal where
  | null
  | boolean (value : Bool)
  | integer (value : Int)
  | float (value : Number.Binary64)
  | string (value : String)
  deriving DecidableEq, Repr

/-- Equal as values, so that floats are compared as numbers. -/
def Literal.sameValue : Literal → Literal → Bool
  | float x, float y => x.sameValue y
  | x, y => x == y

/-- Where the value of a bind parameter comes from. -/
inductive ParameterSource where
  | named (name : String)
  | positional (position : Nat)
  deriving DecidableEq, Repr

namespace ParameterSource

def text : ParameterSource → String
  | named name => ":" ++ name
  | positional position => "?" ++ toString position

/-- The marker that takes the place of a placeholder in logs. -/
def marker : ParameterSource → String
  | named name => ":" ++ name
  | positional position => ":" ++ toString position

end ParameterSource

structure BindParameter where
  source : ParameterSource
  sqlType : Option SqlType := none
  deriving DecidableEq, Repr

structure CastTarget where
  code : SqlType
  length : Option Nat := none
  precision : Option Nat := none
  scale : Option Nat := none
  deriving DecidableEq, Repr

/-! ## Operators -/

inductive ArithmeticOperator where
  | add
  | subtract
  | multiply
  | divide
  deriving DecidableEq, Repr

def ArithmeticOperator.all : List ArithmeticOperator := [.add, .subtract, .multiply, .divide]

def ArithmeticOperator.sql : ArithmeticOperator → String
  | add => "+"
  | subtract => "-"
  | multiply => "*"
  | divide => "/"

inductive AggregateFunction where
  | count
  | sum
  | avg
  | min
  | max
  deriving DecidableEq, Repr

def AggregateFunction.all : List AggregateFunction := [.count, .sum, .avg, .min, .max]

def AggregateFunction.sql : AggregateFunction → String
  | count => "count"
  | sum => "sum"
  | avg => "avg"
  | min => "min"
  | max => "max"

inductive Comparison where
  | equal
  | notEqual
  | less
  | lessOrEqual
  | greater
  | greaterOrEqual
  deriving DecidableEq, Repr

namespace Comparison

def all : List Comparison := [equal, notEqual, less, lessOrEqual, greater, greaterOrEqual]

def sql : Comparison → String
  | equal => "="
  | notEqual => "<>"
  | less => "<"
  | lessOrEqual => "<="
  | greater => ">"
  | greaterOrEqual => ">="

/-- An order without its equality. -/
def strict : Comparison → Comparison
  | lessOrEqual => less
  | greaterOrEqual => greater
  | c => c

end Comparison

inductive SetOperator where
  | union
  | unionAll
  | intersect
  | except
  deriving DecidableEq, Repr

def SetOperator.all : List SetOperator := [.union, .unionAll, .intersect, .except]

def SetOperator.sql : SetOperator → String
  | union => "union"
  | unionAll => "union all"
  | intersect => "intersect"
  | except => "except"

inductive JoinKind where
  | inner
  | left
  | right
  | full
  | cross
  deriving DecidableEq, Repr

namespace JoinKind

def all : List JoinKind := [inner, left, right, full, cross]

def name : JoinKind → String
  | inner => "inner"
  | left => "left"
  | right => "right"
  | full => "full"
  | cross => "cross"

def ofName? (name : String) : Option JoinKind := all.find? (·.name == name)

def sql : JoinKind → String
  | inner => "join"
  | left => "left join"
  | right => "right join"
  | full => "full join"
  | cross => "cross join"

end JoinKind

/-! ## Parts of queries -/

inductive NullPrecedence where
  | first
  | last
  deriving DecidableEq, Repr

/-- One key of an order, by an expression of type `ε`. -/
structure SortKey (ε : Type) where
  expression : ε
  isDescending : Bool := false
  nulls : Option NullPrecedence := none

structure SelectItem (ε : Type) where
  expression : ε
  aliasName : Option String := none

/-- A branch of a `case`, with a condition of type `κ`. -/
structure CaseBranch (κ ε : Type) where
  condition : κ
  result : ε

structure TableReference where
  table : String
  /-- Empty for no alias. -/
  aliasName : String
  deriving DecidableEq, Repr

/-! ## Locks -/

inductive LockMode where
  /-- `for share`. -/
  | read
  /-- `for update`. -/
  | write
  deriving DecidableEq, Repr

inductive LockWait where
  | wait
  | noWait
  | skipLocked
  deriving DecidableEq, Repr

structure LockOptions where
  mode : LockMode
  wait : LockWait := .wait
  deriving DecidableEq, Repr

end SqlDialects
