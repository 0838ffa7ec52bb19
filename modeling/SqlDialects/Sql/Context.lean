import SqlDialects.Dialect.Basic
import SqlDialects.Sql.Fragment.Basic
import SqlDialects.Sql.Statement

/-!
# How a dialect writes one node

Each function here gets the parts of a node rendered already and puts them together as the dialect
wants them, or refuses.
-/

namespace SqlDialects.Sql

/-- Where in a statement a node stands. -/
structure Context where
  dialect : Dialect
  /-- Inside of a subquery. -/
  isNested : Bool := false
  /-- The alias of the target of an update or delete. Its columns have no qualifier. -/
  bareAlias : Option String := none

namespace Context

/-- Inside of a subquery the target is referred to like any other table. -/
def nested (c : Context) : Context := { dialect := c.dialect, isNested := true }

def refuse (c : Context) (construct : String) (minimum : Option Version := none) : Rendered :=
  .error (c.dialect.unsupported construct minimum)

/-- The rendering, if the dialect has the capability. -/
def requiring (c : Context) (capability : Capability) (construct : String)
    (rendered : Rendered) : Rendered :=
  if c.dialect.supports capability then rendered
  else .error (c.dialect.lacks capability construct)

/-! ## Expressions -/

def column (c : Context) (qualifier : Option String) (name : String) : Rendered :=
  match qualifier with
  | some aliasName =>
    if c.bareAlias = some aliasName then .name name
    else .concat [.text (aliasName ++ "."), .name name]
  | none => .name name

def literal (c : Context) : Literal → Rendered
  | .null => .text "null"
  | .boolean value => .text (c.dialect.booleanLiteral value)
  | .integer value => .text (toString value)
  | .float value =>
    match value.literal? with
    | some text => .text text
    | none => .malformed ("non-finite literal " ++ value.text)
  | .string value => .string value

def star : Option String → Rendered
  | some qualifier => .text (qualifier ++ ".*")
  | none => .text "*"

/-- A call of a template. Each mention of an argument renders it once more. -/
def call (template : FunctionTemplate) (arguments : List Rendered) : Rendered := do
  let segments ← template.expand arguments.length
  let missing index := DialectError.malformedTree
    (template.name ++ " has no argument " ++ toString (index + 1))
  Rendered.concat (segments.map (Segment.fill Fragment.ofText missing arguments))

def functionCall (c : Context) (name : String) (arguments : List Rendered) : Rendered := do
  call (← c.dialect.function name) arguments

/-- The pattern of the unit, else the dialect's function, else the standard form. -/
def extract (c : Context) (unit : TemporalUnit) (source : Rendered) : Rendered :=
  let field := c.dialect.extractField unit
  match c.dialect.rules.extractPatterns unit, c.dialect.functions.get? "extract" with
  | some pattern, _ => call (.pattern "extract" pattern (some .integer)) [.text field, source]
  | none, some template => call template [.text field, source]
  | none, none => .concat [.text ("extract(" ++ field ++ " from "), source, .text ")"]

def timestampAdd (c : Context) (unit : TemporalUnit) (magnitude timestamp : Rendered) :
    Rendered := do
  let pattern ← c.dialect.timestampAdd unit
  call (.pattern "timestampadd" pattern) [.text unit.durationField, magnitude, timestamp]

def timestampDiff (c : Context) (unit : TemporalUnit) (start finish : Rendered) : Rendered := do
  let pattern ← c.dialect.timestampDiff unit
  call (.pattern "timestampdiff" pattern) [.text unit.durationField, start, finish]

def format (c : Context) (source : Rendered) (pattern : String) : Rendered :=
  c.functionCall "format" [source, .string (c.dialect.rules.datetimeFormat.write pattern)]

def cast (c : Context) (source : Rendered) (target : CastTarget) : Rendered := do
  let type ← c.dialect.columnType target.code target.length target.precision target.scale
  Rendered.concat [.text "cast(", source, .text (" as " ++ type ++ ")")]

/-- Only a count can do without an argument. -/
def aggregate (c : Context) (function : AggregateFunction) (isDistinct isTuple : Bool)
    (argument : Option Rendered) : Rendered :=
  match argument with
  | none =>
    if function = .count then .text (function.sql ++ "(*)")
    else .malformed (function.sql ++ " without an argument")
  | some argument =>
    let rendered := Rendered.concat
      [.text (function.sql ++ "("), .textIf isDistinct "distinct ", argument, .text ")"]
    if isDistinct && isTuple then
      c.requiring .tupleDistinctCounts "count(distinct) over a tuple" rendered
    else rendered

def case (branches : List Rendered) (otherwise : Option Rendered) : Rendered :=
  if branches.isEmpty then .malformed "case expression without branches"
  else .concat [.text "case", .concat branches, .clause " else " otherwise, .text " end"]

/-- The parts of a list with commas between them, unless it is empty. -/
def listed (items : List Rendered) : Option Rendered :=
  if items.isEmpty then none else some (.separated ", " items)

def tuple (items : List Rendered) : Rendered :=
  if items.isEmpty then .malformed "empty tuple" else .parenthesized (.separated ", " items)

/-! ## Conditions -/

def comparison (operator : Comparison) (left right : Rendered) : Rendered :=
  .concat [left, .text (" " ++ operator.sql ++ " "), right]

/-- Equality of each element, and every element counts. -/
def expandedEquality (operator : Comparison) (separator : String)
    (pairs : List (Rendered × Rendered)) : Rendered :=
  .parenthesized (.separated separator (pairs.map fun p => comparison operator p.1 p.2))

/-- `equal` are the pairs in front, which this alternative takes to be equal. -/
def orderAlternative (operator : Comparison) (equal : List (Rendered × Rendered))
    (pair : Rendered × Rendered) : Rendered :=
  let decisive := comparison operator pair.1 pair.2
  if equal.isEmpty then decisive
  else .parenthesized (.separated " and "
    (equal.map (fun p => comparison .equal p.1 p.2) ++ [decisive]))

/-- One alternative for each pair that may decide; only the last may be an equality. -/
def orderAlternatives (operator : Comparison) (equal : List (Rendered × Rendered)) :
    List (Rendered × Rendered) → List Rendered
  | [] => []
  | [pair] => [orderAlternative operator equal pair]
  | pair :: next :: rest =>
    orderAlternative operator.strict equal pair ::
      orderAlternatives operator (equal ++ [pair]) (next :: rest)

/-- `(a, b) < (x, y)` as `(a < x or (a = x and b < y))`. -/
def expandedComparison (operator : Comparison) (pairs : List (Rendered × Rendered)) : Rendered :=
  match operator with
  | .equal => expandedEquality operator " and " pairs
  | .notEqual => expandedEquality operator " or " pairs
  | _ => .parenthesized (.separated " or " (orderAlternatives operator [] pairs))

/-- Two rows of one length. -/
def rowComparison (c : Context) (operator : Comparison) (left right : List Rendered) : Rendered :=
  if left.length < 2 || left.length != right.length then
    .malformed ("tuple comparison between " ++ toString left.length ++ " and "
      ++ toString right.length ++ " elements")
  else if c.dialect.supports .rowValueConstructorSyntax then
    comparison operator (tuple left) (tuple right)
  else expandedComparison operator (left.zip right)

/-- A row of so many elements and something that is no tuple. -/
def mixedComparison (c : Context) (elements : Nat) (operator : Comparison)
    (left right : Rendered) : Rendered :=
  if elements < 2 then .malformed "tuple with fewer than two elements"
  else c.requiring .rowValueConstructorSyntax "row value comparison"
    (comparison operator left right)

/-- What may stand to the left of `in`. -/
def memberOf (c : Context) (operand : Expression) (rendered : Rendered) : Rendered :=
  match operand with
  | .tuple _ => c.requiring .subselectAsInPredicateLhs "tuple on the left of in" rendered
  | .subquery _ => c.requiring .subselectAsInPredicateLhs "subquery on the left of in" rendered
  | _ => rendered

def negatable (isNegated : Bool) (keyword : String) : Rendered :=
  .text (if isNegated then " not " ++ keyword else " " ++ keyword)

/-- Nothing is in an empty list. -/
def inList (c : Context) (operand : Expression) (rendered : Rendered) (items : List Rendered)
    (isNegated : Bool) : Rendered :=
  if items.isEmpty then .text (if isNegated then "1=1" else "1=0")
  else c.memberOf operand (.concat
    [rendered, negatable isNegated "in (", .separated ", " items, .text ")"])

def lowered (c : Context) (rendered : Rendered) : Rendered :=
  .concat [.text (c.dialect.rules.lowercaseFunction ++ "("), rendered, .text ")"]

/-- Without an operator that ignores case, both sides are put in small letters. -/
def like (c : Context) (operand pattern : Rendered) (escape : Option Char)
    (ignoresCase isNegated : Bool) : Rendered :=
  let isNative := ignoresCase && c.dialect.supports .caseInsensitiveLike
  let side (r : Rendered) := if ignoresCase && !isNative then c.lowered r else r
  .concat [side operand, negatable isNegated (if isNative then "ilike " else "like "),
    side pattern, .clause " escape " (escape.map fun e => .string (toString e))]

/-- An empty conjunction is true. -/
def conjunction (items : List Rendered) : Rendered :=
  if items.isEmpty then .text "1=1" else .separated " and " items

/-- An empty disjunction is false. -/
def disjunction (items : List Rendered) : Rendered :=
  if items.isEmpty then .text "1=0" else .separated " or " items

/-- A disjunction of several conditions binds less than a conjunction. -/
def isLooser : Condition → Bool
  | .any (_ :: _ :: _) => true
  | _ => false

/-! ## Queries -/

def table (t : TableReference) : Rendered :=
  .concat [.table t.table, .textIf (t.aliasName != "") (" " ++ t.aliasName)]

def join (kind : JoinKind) (t : TableReference) (on : Option Rendered) : Rendered :=
  let head := Rendered.concat [.text (" " ++ kind.sql ++ " "), table t]
  match on with
  | some condition => .concat [head, .text " on ", condition]
  | none =>
    if kind = .cross then head
    else .malformed ("join to " ++ t.table ++ " without a condition")

/-- Where the dialect has no order for nulls, a key of its own comes in front of the key. -/
def sortKey (c : Context) (key : Rendered) (isDescending : Bool)
    (nulls : Option NullPrecedence) : Rendered :=
  let directed := Rendered.concat [key, .textIf isDescending " desc"]
  let nullKey (ifNull otherwise : String) := Rendered.concat
    [.text "case when ", key, .text (" is null then " ++ ifNull ++ " else " ++ otherwise),
      .text " end, ", directed]
  match nulls, c.dialect.supports .nullsOrdering with
  | none, _ => directed
  | some .first, true => .concat [directed, .text " nulls first"]
  | some .last, true => .concat [directed, .text " nulls last"]
  | some .first, false => nullKey "0" "1"
  | some .last, false => nullKey "1" "0"

def isIntegerLiteral : Option Expression → Bool
  | some (.literal (.integer _)) => true
  | _ => false

/-- Limits that are refused before anything of the query is looked at. -/
def checkPagination (c : Context) (limit offset : Option Expression) : Except DialectError Unit :=
  if limit.isNone && offset.isNone then .ok ()
  else
    match c.dialect.rowLimit with
    | .unsupported => .error (c.dialect.unsupported "row limiting")
    | .first since =>
      if offset.isSome then .error (c.dialect.unsupported "offset" since)
      else if isIntegerLiteral limit then .ok ()
      else .error (c.dialect.unsupported "a non-literal row limit" since)
    | .top since =>
      if offset.isSome then .error (c.dialect.unsupported "offset" since) else .ok ()
    | .limitOffset _ | .offsetFetch _ _ => .ok ()

/-- What stands between `select` and the select list. -/
def selectPrefix (c : Context) (isDistinct : Bool) (limit : Option Rendered) : Rendered :=
  let distinct := Rendered.textIf isDistinct "distinct "
  match c.dialect.rowLimit, limit with
  | .first _, some n => .concat [.text "first ", n, .text " ", distinct]
  | .top _, some n => .concat [distinct, .text "top (", n, .text ") "]
  | _, _ => distinct

/-- What becomes of the order of a query. -/
inductive OrderFate where
  | absent
  | kept
  | removed
  | refused
  deriving DecidableEq, Repr

/-- A subquery may need to lose its order, which does no harm unless it also has a limit. -/
def orderFate (c : Context) (hasKeys isPaginated : Bool) : OrderFate :=
  if !hasKeys then .absent
  else if !c.isNested || c.dialect.supports .orderByInSubquery then .kept
  else if isPaginated then .refused
  else .removed

/-- The limit and the offset at the end of a query. -/
def pagination (c : Context) (hasOrder : Bool) (limit offset : Option Rendered) : Rendered :=
  if limit.isNone && offset.isNone then .empty
  else
    match c.dialect.rowLimit with
    | .unsupported => c.refuse "row limiting"
    | .first _ | .top _ => .empty
    | .limitOffset allRows =>
      .concat [.clause " limit " (limit <|> allRows.map Rendered.text),
        .clause " offset " offset]
    | .offsetFetch rowsKeyword requiresOrderBy =>
      .concat [.textIf (requiresOrderBy && !hasOrder) " order by @@version",
        .clause " offset " (offset.map fun n => .concat [n, .textIf rowsKeyword " rows"]),
        .clause (if offset.isSome then " fetch next " else " fetch first ")
          (limit.map fun n => .concat [n, .text " rows only"])]

/-- The order and the limits at the end of a query. -/
def queryEnd (c : Context) (keys : List Rendered) (limit offset : Option Rendered) : Rendered :=
  match c.orderFate (!keys.isEmpty) (limit.isSome || offset.isSome) with
  | .absent => c.pagination false limit offset
  | .kept =>
    .concat [.text " order by ", .separated ", " keys, c.pagination true limit offset]
  | .removed => .concat [.warning .subqueryOrderByRemoved, c.pagination false limit offset]
  | .refused => .error (c.dialect.lacks .orderByInSubquery "order by in a paginated subquery")

/-- What a set operation needs before its operands are looked at. -/
def checkGroup (c : Context) (operator : SetOperator) (operands : Nat) (isPaginated : Bool) :
    Except DialectError Unit := do
  if operands < 2 then
    throw (.malformedTree (operator.sql ++ " with " ++ toString operands ++ " operand(s)"))
  if operator = .unionAll then c.dialect.require .unionAll "union all"
  if c.isNested then c.dialect.require .unionInSubquery "set operation in a subquery"
  if isPaginated && c.dialect.rowLimit.leads then
    throw (c.dialect.unsupported "row limiting over a set operation"
      c.dialect.rowLimit.offsetSince)

/-- An operand that ends in an order or a limit of its own needs parentheses. -/
def needsParentheses (part : Query) : Bool :=
  part.isGroup || !part.orderBy.isEmpty || part.isPaginated

end Context

end SqlDialects.Sql
