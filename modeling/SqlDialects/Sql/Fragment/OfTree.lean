import SqlDialects.Sql.Context

/-!
# From trees to fragments

One function for each sort of node, and one for each kind of list of nodes. A list of nodes is
rendered node by node, and what holds the list decides what stands between them.
-/

namespace SqlDialects.Sql

mutual

def Expression.render (c : Context) : Expression → Rendered
  | .column qualifier name => c.column qualifier name
  | .literal value => c.literal value
  | .parameter parameter => .parameter parameter
  | .call name arguments => c.functionCall name (Expression.renderAll c arguments)
  | .aggregate function isDistinct argument =>
    c.aggregate function isDistinct (Expression.isTuple argument)
      (Expression.renderOption c argument)
  | .extract unit source => c.extract unit (source.render c)
  | .timestampAdd unit magnitude timestamp =>
    c.timestampAdd unit (magnitude.render c) (timestamp.render c)
  | .timestampDiff unit start finish => c.timestampDiff unit (start.render c) (finish.render c)
  | .format source pattern => c.format (source.render c) pattern
  | .binary left operator right =>
    .parenthesized (.concat
      [left.render c, .text (" " ++ operator.sql ++ " "), right.render c])
  | .negate operand => .concat [.text "-(", operand.render c, .text ")"]
  | .case branches otherwise =>
    Context.case (CaseBranch.renderAll c branches) (Expression.renderOption c otherwise)
  | .cast source target => c.cast (source.render c) target
  | .subquery query => .parenthesized (query.render c.nested "")
  | .tuple items => Context.tuple (Expression.renderAll c items)
  | .star qualifier => Context.star qualifier

def Expression.renderAll (c : Context) : List Expression → List Rendered
  | [] => []
  | e :: rest => e.render c :: Expression.renderAll c rest

def Expression.renderOption (c : Context) : Option Expression → Option Rendered
  | none => none
  | some e => some (e.render c)

def CaseBranch.render (c : Context) : CaseBranch Condition Expression → Rendered
  | ⟨condition, result⟩ =>
    .concat [.text " when ", condition.render c, .text " then ", result.render c]

def CaseBranch.renderAll (c : Context) : List (CaseBranch Condition Expression) → List Rendered
  | [] => []
  | branch :: rest => CaseBranch.render c branch :: CaseBranch.renderAll c rest

def Condition.render (c : Context) : Condition → Rendered
  | .compare left operator right =>
    match left, right with
    | .tuple lefts, .tuple rights =>
      c.rowComparison operator (Expression.renderAll c lefts) (Expression.renderAll c rights)
    | .tuple lefts, right =>
      c.mixedComparison lefts.length operator (Context.tuple (Expression.renderAll c lefts))
        (right.render c)
    | left, .tuple rights =>
      c.mixedComparison rights.length operator (left.render c)
        (Context.tuple (Expression.renderAll c rights))
    | left, right => Context.comparison operator (left.render c) (right.render c)
  | .all items => Context.conjunction (Condition.renderOperands c items)
  | .any items => Context.disjunction (Condition.renderAll c items)
  | .not operand => .concat [.text "not (", operand.render c, .text ")"]
  | .isNull operand isNegated =>
    .concat [operand.render c, .text (if isNegated then " is not null" else " is null")]
  | .inList operand items isNegated =>
    c.inList operand (operand.render c) (Expression.renderAll c items) isNegated
  | .inQuery operand query isNegated =>
    c.memberOf operand (.concat
      [operand.render c, Context.negatable isNegated "in ",
        .parenthesized (query.render c.nested "")])
  | .exists query isNegated =>
    .concat [.text (if isNegated then "not exists " else "exists "),
      .parenthesized (query.render c.nested "")]
  | .like operand pattern escape ignoresCase isNegated =>
    c.like (operand.render c) (pattern.render c) escape ignoresCase isNegated
  | .between operand low high isNegated =>
    .concat [operand.render c, Context.negatable isNegated "between ", low.render c,
      .text " and ", high.render c]
  | .holds operand =>
    .concat [operand.render c, .text (" = " ++ c.dialect.booleanLiteral true)]

def Condition.renderAll (c : Context) : List Condition → List Rendered
  | [] => []
  | p :: rest => p.render c :: Condition.renderAll c rest

def Condition.renderOperands (c : Context) : List Condition → List Rendered
  | [] => []
  | p :: rest =>
    (if Context.isLooser p then .parenthesized (p.render c) else p.render c) ::
      Condition.renderOperands c rest

def Condition.renderOption (c : Context) : Option Condition → Option Rendered
  | none => none
  | some p => some (p.render c)

/-- `hint` follows the first table. -/
def Query.render (c : Context) (hint : String) : Query → Rendered
  | .spec spec => spec.render c hint
  | .group operator parts orderBy limit offset => do
    c.checkGroup operator parts.length (limit.isSome || offset.isSome)
    Rendered.concat
      [.separated (" " ++ operator.sql ++ " ") (Query.renderOperands c parts),
        c.queryEnd (SortKey.renderAll c orderBy) (Expression.renderOption c limit)
          (Expression.renderOption c offset)]

def Query.renderOperands (c : Context) : List Query → List Rendered
  | [] => []
  | q :: rest =>
    (if Context.needsParentheses q then .parenthesized (q.render c "") else q.render c "") ::
      Query.renderOperands c rest

def QuerySpec.render (c : Context) (hint : String) : QuerySpec → Rendered
  | ⟨isDistinct, select, tables, condition, groupBy, having, orderBy, limit, offset⟩ => do
    if select.isEmpty then throw (.malformedTree "query spec with an empty select list")
    if tables.isEmpty then throw (.malformedTree "query spec without a from clause")
    c.checkPagination limit offset
    Rendered.concat
      [.text "select ", c.selectPrefix isDistinct (Expression.renderOption c limit),
        .separated ", " (SelectItem.renderAll c select),
        .text " from ", .separated ", " (FromItem.renderAll c hint tables),
        .clause " where " (Condition.renderOption c condition),
        .clause " group by " (Context.listed (Expression.renderAll c groupBy)),
        .clause " having " (Condition.renderOption c having),
        c.queryEnd (SortKey.renderAll c orderBy) (Expression.renderOption c limit)
          (Expression.renderOption c offset)]

def SelectItem.renderAll (c : Context) : List (SelectItem Expression) → List Rendered
  | [] => []
  | ⟨e, aliasName⟩ :: rest =>
    .concat [e.render c, .clause " as " (aliasName.map Rendered.text)] ::
      SelectItem.renderAll c rest

def FromItem.render (c : Context) (hint : String) : FromItem → Rendered
  | ⟨root, joins⟩ =>
    .concat [Context.table root, .textIf (hint != "") hint, .concat (Join.renderAll c joins)]

/-- Only the first table gets the hint. -/
def FromItem.renderAll (c : Context) (hint : String) : List FromItem → List Rendered
  | [] => []
  | item :: rest => FromItem.render c hint item :: FromItem.renderAll c "" rest

def Join.renderAll (c : Context) : List Join → List Rendered
  | [] => []
  | ⟨kind, table, on⟩ :: rest =>
    Context.join kind table (Condition.renderOption c on) :: Join.renderAll c rest

def SortKey.renderAll (c : Context) : List (SortKey Expression) → List Rendered
  | [] => []
  | ⟨e, isDescending, nulls⟩ :: rest =>
    c.sortKey (e.render c) isDescending nulls :: SortKey.renderAll c rest

end

end SqlDialects.Sql
