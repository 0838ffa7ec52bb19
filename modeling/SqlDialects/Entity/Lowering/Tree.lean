import SqlDialects.Entity.Lowering.Navigation
import SqlDialects.Sql.Same

/-!
# From entities to tables

Each sort of node is lowered to the same sort of node over tables. The parts of a query are taken
in the order roots and joins, select list, condition, groups, order, limits, because that is the
order in which aliases are numbered.
-/

namespace SqlDialects.Entity

/-- What the dialect needs for the left operand of `in`. -/
def checkMember (c : LoweringContext) : Expression → Lower Unit
  | .tuple _ => c.require .subselectAsInPredicateLhs "tuple on the left of in"
  | .subquery _ => c.require .subselectAsInPredicateLhs "subquery on the left of in"
  | _ => return

/-- What the dialect needs to call a function. -/
def checkCall (c : LoweringContext) (name : String) (arguments : Nat) : Lower Unit := do
  let template ← liftM (c.dialect.function name)
  liftM (template.checkArity arguments)

def checkSubquery (c : LoweringContext) : Lower Unit :=
  if c.isInSelect && !c.dialect.supports .subqueryInSelect then
    c.lacks .subqueryInSelect "subquery in the select list"
  else return

/-- A nested query cannot lose an order that its limit depends on. -/
def checkOrder (c : LoweringContext) (isNested : Bool) (query : Query) : Lower Unit :=
  if isNested && !query.orderBy.isEmpty && query.isPaginated &&
      !c.dialect.supports .orderByInSubquery then
    c.lacks .orderByInSubquery "order by in a paginated subquery"
  else return

def checkGroup (c : LoweringContext) (isNested : Bool) (operator : SetOperator) : Lower Unit := do
  if operator = .unionAll then c.require .unionAll "union all"
  if isNested then c.require .unionInSubquery "set operation in a subquery"

/-- A select list, and those of its expressions that no collection is counted in. -/
structure LoweredSelect where
  items : List (SelectItem Sql.Expression) := []
  plain : List Sql.Expression := []

namespace LoweredSelect

def ofColumns (columns : List Sql.Expression) : LoweredSelect :=
  ⟨columns.map fun column => { expression := column }, columns⟩

def append (s t : LoweredSelect) : LoweredSelect := ⟨s.items ++ t.items, s.plain ++ t.plain⟩

end LoweredSelect

/-- Owners of counted collections stay apart, and so do the other selected values. -/
def groupByOwners (owners : List (String × String)) (plain : List Sql.Expression) :
    List Sql.Expression :=
  plain.foldl (fun keys e => if keys.any (·.same e) then keys else keys ++ [e])
    (owners.map fun owner => .of owner.1 owner.2)

/-- The query has groups of its own. -/
def isGrouped (select : List (SelectItem Expression)) (groupBy : List Expression)
    (having : Option Condition) : Bool :=
  !groupBy.isEmpty || having.isSome || select.any fun item => item.expression.containsAggregate

mutual

def Expression.lower (c : LoweringContext) : Expression → Lower Sql.Expression
  | .path path => resolve c path
  | .literal value => return .literal value
  | .parameter parameter => return .parameter parameter
  | .call name arguments => do
    checkCall c name arguments.length
    return .call name (← Expression.lowerAll c arguments)
  | .aggregate function isDistinct argument =>
    return .aggregate function isDistinct (← Expression.lowerOption c argument)
  | .extract unit source => return .extract unit (← source.lower c)
  | .timestampAdd unit magnitude timestamp =>
    return .timestampAdd unit (← magnitude.lower c) (← timestamp.lower c)
  | .timestampDiff unit start finish =>
    return .timestampDiff unit (← start.lower c) (← finish.lower c)
  | .format source pattern => return .format (← source.lower c) pattern
  | .binary left operator right => return .binary (← left.lower c) operator (← right.lower c)
  | .negate operand => return .negate (← operand.lower c)
  | .case branches otherwise =>
    return .case (← CaseBranch.lowerAll c branches) (← Expression.lowerOption c otherwise)
  | .cast source target => return .cast (← source.lower c) target
  | .subquery query => do
    checkSubquery c
    return .subquery (← query.lower c.outsideSelect true)
  | .tuple items => return .tuple (← Expression.lowerAll c items)
  | .size path => lowerSize c path

def Expression.lowerAll (c : LoweringContext) : List Expression → Lower (List Sql.Expression)
  | [] => return []
  | e :: rest => return (← e.lower c) :: (← Expression.lowerAll c rest)

def Expression.lowerOption (c : LoweringContext) :
    Option Expression → Lower (Option Sql.Expression)
  | none => return none
  | some e => return some (← e.lower c)

def CaseBranch.lowerAll (c : LoweringContext) : List (CaseBranch Condition Expression) →
    Lower (List (CaseBranch Sql.Condition Sql.Expression))
  | [] => return []
  | ⟨condition, result⟩ :: rest =>
    return ⟨← condition.lower c, ← result.lower c⟩ :: (← CaseBranch.lowerAll c rest)

def Condition.lower (c : LoweringContext) : Condition → Lower Sql.Condition
  | .compare left operator right => return .compare (← left.lower c) operator (← right.lower c)
  | .all items => return .all (← Condition.lowerAll c items)
  | .any items => return .any (← Condition.lowerAll c items)
  | .not operand => return .not (← operand.lower c)
  | .isNull operand isNegated => return .isNull (← operand.lower c) isNegated
  | .inList operand items isNegated => do
    checkMember c operand
    return .inList (← operand.lower c) (← Expression.lowerAll c items) isNegated
  | .inQuery operand query isNegated => do
    checkMember c operand
    return .inQuery (← operand.lower c) (← query.lower c.outsideSelect true) isNegated
  | .exists query isNegated => return .exists (← query.lower c.outsideSelect true) isNegated
  | .like operand pattern escape ignoresCase isNegated =>
    return .like (← operand.lower c) (← pattern.lower c) escape ignoresCase isNegated
  | .between operand low high isNegated =>
    return .between (← operand.lower c) (← low.lower c) (← high.lower c) isNegated
  | .holds operand => return .holds (← operand.lower c)

def Condition.lowerAll (c : LoweringContext) : List Condition → Lower (List Sql.Condition)
  | [] => return []
  | p :: rest => return (← p.lower c) :: (← Condition.lowerAll c rest)

def Condition.lowerOption (c : LoweringContext) :
    Option Condition → Lower (Option Sql.Condition)
  | none => return none
  | some p => return some (← p.lower c)

/-- `isNested` says that the query stands in another statement. -/
def Query.lower (c : LoweringContext) (isNested : Bool) : Query → Lower Sql.Query
  | .spec spec => do
    checkOrder c isNested (.spec spec)
    return .spec (← spec.lower c)
  | .group operator parts orderBy limit offset => do
    checkOrder c isNested (.group operator parts orderBy limit offset)
    checkGroup c isNested operator
    return .group operator (← Query.lowerAll c isNested parts) (← SortKey.lowerAll c orderBy)
      (← Expression.lowerOption c limit) (← Expression.lowerOption c offset)

def Query.lowerAll (c : LoweringContext) (isNested : Bool) : List Query → Lower (List Sql.Query)
  | [] => return []
  | q :: rest => return (← q.lower c isNested) :: (← Query.lowerAll c isNested rest)

def QuerySpec.lower (c : LoweringContext) : QuerySpec → Lower Sql.QuerySpec
  | ⟨isDistinct, select, roots, condition, groupBy, having, orderBy, limit, offset⟩ => do
    if roots.isEmpty then Lower.malformed "query without a root entity"
    Lower.push { isGrouped := isGrouped select groupBy having }
    lowerRoots c 0 roots
    let select ← SelectItem.lowerAll c.inSelect select
    let condition ← Condition.lowerOption c condition
    let groupBy ← Expression.lowerAll c groupBy
    let having ← Condition.lowerOption c having
    let orderBy ← SortKey.lowerAll c orderBy
    let limit ← Expression.lowerOption c limit
    let offset ← Expression.lowerOption c offset
    let scope ← Lower.pop
    let groupBy :=
      if scope.countedCollections = 0 then groupBy else groupByOwners scope.owners select.plain
    return { isDistinct, select := select.items, tables := scope.tables, condition, groupBy,
             having, orderBy, limit, offset }

/-- A select item that is a bare variable stands for all columns of its entity. -/
def SelectItem.lowerAll (c : LoweringContext) :
    List (SelectItem Expression) → Lower LoweredSelect
  | [] => return {}
  | ⟨.path ⟨start, []⟩, _⟩ :: rest => do
    let columns ← entityColumns c ⟨start, []⟩
    return (LoweredSelect.ofColumns columns).append (← SelectItem.lowerAll c rest)
  | ⟨e, aliasName⟩ :: rest => do
    let before := (← Lower.current).countedCollections
    let lowered ← e.lower c
    let isPlain := (← Lower.current).countedCollections = before
    return LoweredSelect.append ⟨[⟨lowered, aliasName⟩], if isPlain then [lowered] else []⟩
      (← SelectItem.lowerAll c rest)

def SortKey.lowerAll (c : LoweringContext) :
    List (SortKey Expression) → Lower (List (SortKey Sql.Expression))
  | [] => return []
  | ⟨e, isDescending, nulls⟩ :: rest =>
    return ⟨← e.lower c, isDescending, nulls⟩ :: (← SortKey.lowerAll c rest)

end

/-! ## Statements -/

/-- The column that an assignment to a property sets. -/
def assignedColumn (c : LoweringContext) (entity : Mapping.Entity) (name : String) :
    Lower String := do
  match ← Lower.property entity name with
  | .basic a => return a.column
  | .toOne association => return association.column
  | .toMany _ => c.unsupported ("assignment to collection " ++ name)

def lowerAssignments (c : LoweringContext) (entity : Mapping.Entity) :
    List Assignment → Lower (List Sql.Assignment)
  | [] => return []
  | a :: rest => do
    let column ← assignedColumn c entity a.property
    let value ← a.value.lower c
    return ⟨column, value⟩ :: (← lowerAssignments c entity rest)

/-- Binds the target of an update or delete. Its paths cannot join other tables. -/
def bindTarget (c : LoweringContext) (name variableName : String) :
    Lower (Mapping.Entity × TableReference) := do
  let entity ← c.entity name
  let aliasName ← Lower.freshAlias
  let target : TableReference := ⟨entity.table, aliasName⟩
  Lower.push
    { allowsPathJoins := false
      tables := [{ root := target }]
      bindings := [(variableName, ⟨entity, aliasName, 0⟩)] }
  return (entity, target)

def Statement.lowerIn (c : LoweringContext) : Statement → Lower Sql.Statement
  | .select query lock => return .select (← query.lower c false) lock
  | .update name aliasName assignments condition => do
    let (entity, target) ← bindTarget c name aliasName
    let assignments ← lowerAssignments c entity assignments
    let condition ← Condition.lowerOption c condition
    return .update target assignments condition
  | .delete name aliasName condition => do
    let (_, target) ← bindTarget c name aliasName
    let condition ← Condition.lowerOption c condition
    return .delete target condition

/-- The statement over the tables that the model maps the entities to. -/
def Statement.lower (statement : Statement) (d : Dialect) (model : Mapping.Model) :
    Except DialectError Sql.Statement := do
  let (lowered, _) ← (statement.lowerIn { dialect := d, model }).run {}
  return lowered

end SqlDialects.Entity
