import SqlDialects.Sql.Statement

/-!
# Aliases and where they are seen

A table is seen under its alias by all parts of its query and by the queries inside it. A join
condition sees less: of its own query, only the tables that stand before it in its group.
-/

namespace SqlDialects.Sql

def FromItem.names (item : FromItem) : List String :=
  item.root.aliasName :: item.joins.map (·.table.aliasName)

/-! ## The queries in a tree -/

/-- Which keys of a group are looked at, by the select list beside them. -/
abbrev KeyChoice := List (SelectItem Expression) → Expression → Bool

/-- All keys are looked at. -/
def everyKey : KeyChoice := fun _ _ => true

open Classical in
/-- A key that repeats a selected expression, to the letter, is no place of its own. -/
noncomputable def newKeys : KeyChoice := fun select key => key ∉ select.map (·.expression)

mutual

/-- All queries in the tree, at any depth. -/
def Expression.specs (keys : KeyChoice) : Expression → List QuerySpec
  | .column _ _ | .literal _ | .parameter _ | .star _ => []
  | .call _ arguments => Expression.specsAll keys arguments
  | .aggregate _ _ argument => Expression.specsOption keys argument
  | .extract _ source => source.specs keys
  | .timestampAdd _ magnitude timestamp => magnitude.specs keys ++ timestamp.specs keys
  | .timestampDiff _ start finish => start.specs keys ++ finish.specs keys
  | .format source _ => source.specs keys
  | .binary left _ right => left.specs keys ++ right.specs keys
  | .negate operand => operand.specs keys
  | .case branches otherwise =>
    CaseBranch.specsAll keys branches ++ Expression.specsOption keys otherwise
  | .cast source _ => source.specs keys
  | .subquery query => query.specs keys
  | .tuple items => Expression.specsAll keys items

def Expression.specsAll (keys : KeyChoice) : List Expression → List QuerySpec
  | [] => []
  | e :: rest => e.specs keys ++ Expression.specsAll keys rest

def Expression.specsOption (keys : KeyChoice) : Option Expression → List QuerySpec
  | none => []
  | some e => e.specs keys

def CaseBranch.specsAll (keys : KeyChoice) :
    List (CaseBranch Condition Expression) → List QuerySpec
  | [] => []
  | ⟨condition, result⟩ :: rest =>
    (condition.specs keys ++ result.specs keys) ++ CaseBranch.specsAll keys rest

def Condition.specs (keys : KeyChoice) : Condition → List QuerySpec
  | .compare left _ right => left.specs keys ++ right.specs keys
  | .all items | .any items => Condition.specsAll keys items
  | .not operand => operand.specs keys
  | .isNull operand _ => operand.specs keys
  | .inList operand items _ => operand.specs keys ++ Expression.specsAll keys items
  | .inQuery operand query _ => operand.specs keys ++ query.specs keys
  | .exists query _ => query.specs keys
  | .like operand pattern _ _ _ => operand.specs keys ++ pattern.specs keys
  | .between operand low high _ =>
    operand.specs keys ++ (low.specs keys ++ high.specs keys)
  | .holds operand => operand.specs keys

def Condition.specsAll (keys : KeyChoice) : List Condition → List QuerySpec
  | [] => []
  | p :: rest => p.specs keys ++ Condition.specsAll keys rest

def Condition.specsOption (keys : KeyChoice) : Option Condition → List QuerySpec
  | none => []
  | some p => p.specs keys

def Query.specs (keys : KeyChoice) : Query → List QuerySpec
  | .spec spec => spec.specs keys
  | .group _ parts orderBy limit offset =>
    Query.specsAll keys parts ++ (SortKey.specsAll keys orderBy ++
      (Expression.specsOption keys limit ++ Expression.specsOption keys offset))

def Query.specsAll (keys : KeyChoice) : List Query → List QuerySpec
  | [] => []
  | q :: rest => q.specs keys ++ Query.specsAll keys rest

def QuerySpec.specs (keys : KeyChoice) : QuerySpec → List QuerySpec
  | ⟨isDistinct, select, tables, condition, groupBy, having, orderBy, limit, offset⟩ =>
    ⟨isDistinct, select, tables, condition, groupBy, having, orderBy, limit, offset⟩ ::
      (FromItem.specsAll keys tables ++ (SelectItem.specsAll keys select ++
        (Condition.specsOption keys condition ++ (Expression.specsChosen keys select groupBy ++
          (Condition.specsOption keys having ++ (SortKey.specsAll keys orderBy ++
            (Expression.specsOption keys limit ++ Expression.specsOption keys offset)))))))

/-- The queries in those keys of a group that are looked at. -/
def Expression.specsChosen (keys : KeyChoice) (select : List (SelectItem Expression)) :
    List Expression → List QuerySpec
  | [] => []
  | key :: rest =>
    (if keys select key then key.specs keys else []) ++
      Expression.specsChosen keys select rest

def SelectItem.specsAll (keys : KeyChoice) : List (SelectItem Expression) → List QuerySpec
  | [] => []
  | ⟨e, _⟩ :: rest => e.specs keys ++ SelectItem.specsAll keys rest

def FromItem.specsAll (keys : KeyChoice) : List FromItem → List QuerySpec
  | [] => []
  | ⟨_, joins⟩ :: rest => Join.specsAll keys joins ++ FromItem.specsAll keys rest

def Join.specsAll (keys : KeyChoice) : List Join → List QuerySpec
  | [] => []
  | ⟨_, _, on⟩ :: rest => Condition.specsOption keys on ++ Join.specsAll keys rest

def SortKey.specsAll (keys : KeyChoice) : List (SortKey Expression) → List QuerySpec
  | [] => []
  | ⟨e, _, _⟩ :: rest => e.specs keys ++ SortKey.specsAll keys rest

end

theorem SelectItem.specsAll_append {keys : KeyChoice}
    (items items' : List (SelectItem Expression)) : SelectItem.specsAll keys (items ++ items') =
      SelectItem.specsAll keys items ++ SelectItem.specsAll keys items' := by
  induction items with
  | nil => rfl
  | cons item rest ih => simp [SelectItem.specsAll, ih]

/-- The aliases of the tables of some queries. -/
def tableNames (specs : List QuerySpec) : List String :=
  specs.flatMap fun spec => spec.tables.flatMap FromItem.names

/-! ## Columns of tables that are seen -/

/-- A column says which table it is of, by an alias that is seen. -/
def IsSeen (visible : List String) (qualifier : Option String) : Prop :=
  ∃ aliasName ∈ visible, qualifier = some aliasName

mutual

/-- Every column stands where its table is seen, if these aliases are seen around the tree. -/
def Expression.Scoped (visible : List String) : Expression → Prop
  | .column qualifier _ => IsSeen visible qualifier
  | .star qualifier => IsSeen visible qualifier
  | .literal _ | .parameter _ => True
  | .call _ arguments => Expression.ScopedAll visible arguments
  | .aggregate _ _ argument => Expression.ScopedOption visible argument
  | .extract _ source => source.Scoped visible
  | .timestampAdd _ magnitude timestamp => magnitude.Scoped visible ∧ timestamp.Scoped visible
  | .timestampDiff _ start finish => start.Scoped visible ∧ finish.Scoped visible
  | .format source _ => source.Scoped visible
  | .binary left _ right => left.Scoped visible ∧ right.Scoped visible
  | .negate operand => operand.Scoped visible
  | .case branches otherwise =>
    CaseBranch.ScopedAll visible branches ∧ Expression.ScopedOption visible otherwise
  | .cast source _ => source.Scoped visible
  | .subquery query => query.Scoped visible
  | .tuple items => Expression.ScopedAll visible items

def Expression.ScopedAll (visible : List String) : List Expression → Prop
  | [] => True
  | e :: rest => e.Scoped visible ∧ Expression.ScopedAll visible rest

def Expression.ScopedOption (visible : List String) : Option Expression → Prop
  | none => True
  | some e => e.Scoped visible

def CaseBranch.ScopedAll (visible : List String) :
    List (CaseBranch Condition Expression) → Prop
  | [] => True
  | ⟨condition, result⟩ :: rest =>
    (condition.Scoped visible ∧ result.Scoped visible) ∧ CaseBranch.ScopedAll visible rest

def Condition.Scoped (visible : List String) : Condition → Prop
  | .compare left _ right => left.Scoped visible ∧ right.Scoped visible
  | .all items | .any items => Condition.ScopedAll visible items
  | .not operand => operand.Scoped visible
  | .isNull operand _ => operand.Scoped visible
  | .inList operand items _ => operand.Scoped visible ∧ Expression.ScopedAll visible items
  | .inQuery operand query _ => operand.Scoped visible ∧ query.Scoped visible
  | .exists query _ => query.Scoped visible
  | .like operand pattern _ _ _ => operand.Scoped visible ∧ pattern.Scoped visible
  | .between operand low high _ =>
    operand.Scoped visible ∧ (low.Scoped visible ∧ high.Scoped visible)
  | .holds operand => operand.Scoped visible

def Condition.ScopedAll (visible : List String) : List Condition → Prop
  | [] => True
  | p :: rest => p.Scoped visible ∧ Condition.ScopedAll visible rest

def Condition.ScopedOption (visible : List String) : Option Condition → Prop
  | none => True
  | some p => p.Scoped visible

def Query.Scoped (visible : List String) : Query → Prop
  | .spec spec => spec.Scoped visible
  | .group _ parts orderBy limit offset =>
    Query.ScopedAll visible parts ∧ (SortKey.ScopedAll visible orderBy ∧
      (Expression.ScopedOption visible limit ∧ Expression.ScopedOption visible offset))

def Query.ScopedAll (visible : List String) : List Query → Prop
  | [] => True
  | q :: rest => q.Scoped visible ∧ Query.ScopedAll visible rest

/-- The tables of the query are seen by all its parts except its joins. -/
def QuerySpec.Scoped (visible : List String) : QuerySpec → Prop
  | ⟨_, select, tables, condition, groupBy, having, orderBy, limit, offset⟩ =>
    let seen := tables.flatMap FromItem.names ++ visible
    FromItem.ScopedAll visible tables ∧ (SelectItem.ScopedAll seen select ∧
      (Condition.ScopedOption seen condition ∧ (Expression.ScopedAll seen groupBy ∧
        (Condition.ScopedOption seen having ∧ (SortKey.ScopedAll seen orderBy ∧
          (Expression.ScopedOption seen limit ∧ Expression.ScopedOption seen offset))))))

def SelectItem.ScopedAll (visible : List String) : List (SelectItem Expression) → Prop
  | [] => True
  | ⟨e, _⟩ :: rest => e.Scoped visible ∧ SelectItem.ScopedAll visible rest

def FromItem.ScopedAll (visible : List String) : List FromItem → Prop
  | [] => True
  | ⟨root, joins⟩ :: rest =>
    Join.ScopedAll (root.aliasName :: visible) joins ∧ FromItem.ScopedAll visible rest

/-- A join is seen by its own condition and by the joins after it. -/
def Join.ScopedAll (visible : List String) : List Join → Prop
  | [] => True
  | ⟨_, table, on⟩ :: rest =>
    Condition.ScopedOption (table.aliasName :: visible) on ∧
      Join.ScopedAll (table.aliasName :: visible) rest

def SortKey.ScopedAll (visible : List String) : List (SortKey Expression) → Prop
  | [] => True
  | ⟨e, _, _⟩ :: rest => e.Scoped visible ∧ SortKey.ScopedAll visible rest

end

/-! ## Statements -/

namespace Assignment

def specsAll (keys : KeyChoice) : List Assignment → List QuerySpec
  | [] => []
  | a :: rest => a.value.specs keys ++ specsAll keys rest

def ScopedAll (visible : List String) : List Assignment → Prop
  | [] => True
  | a :: rest => a.value.Scoped visible ∧ ScopedAll visible rest

end Assignment

namespace InsertSource

def specs (keys : KeyChoice) : InsertSource → List QuerySpec
  | .rows values => values.flatMap (Expression.specsAll keys)
  | .query q => q.specs keys

def Scoped : InsertSource → Prop
  | .rows values => ∀ row ∈ values, Expression.ScopedAll [] row
  | .query q => q.Scoped []

end InsertSource

namespace Statement

def specs (keys : KeyChoice) : Statement → List QuerySpec
  | select query _ => query.specs keys
  | insert _ _ source => source.specs keys
  | update _ assignments condition =>
    Assignment.specsAll keys assignments ++ Condition.specsOption keys condition
  | delete _ condition => Condition.specsOption keys condition

/-- The aliases of all tables in the statement, each as often as it is given. -/
def aliases (keys : KeyChoice) (statement : Statement) : List String :=
  match statement with
  | update target _ _ | delete target _ => target.aliasName :: tableNames (statement.specs keys)
  | select _ _ | insert _ _ _ => tableNames (statement.specs keys)

/-- Outside of all queries, only the target of an update or delete is seen. -/
def Scoped : Statement → Prop
  | select query _ => query.Scoped []
  | insert _ _ source => source.Scoped
  | update target assignments condition =>
    Assignment.ScopedAll [target.aliasName] assignments ∧
      Condition.ScopedOption [target.aliasName] condition
  | delete target condition => Condition.ScopedOption [target.aliasName] condition

end Statement

end SqlDialects.Sql
