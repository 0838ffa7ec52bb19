import Mathlib.Logic.Relation
import SqlDialects.Entity.Statement

/-!
# What stands in a statement over entities

The nodes below a node, and what is said of a statement by what stands somewhere in it.
-/

namespace SqlDialects.Entity

/-- A part of a statement that is lowered for itself. -/
inductive Node where
  | expression (e : Expression)
  | condition (p : Condition)
  | query (q : Query)

/-! ## Children -/

def CaseBranch.nodes (branch : CaseBranch Condition Expression) : List Node :=
  [.condition branch.condition, .expression branch.result]

def Expression.children : Expression → List Node
  | .path _ | .literal _ | .parameter _ | .size _ => []
  | .call _ items | .tuple items => items.map .expression
  | .aggregate _ _ argument => argument.toList.map .expression
  | .extract _ e | .format e _ | .cast e _ | .negate e => [.expression e]
  | .timestampAdd _ e e' | .timestampDiff _ e e' | .binary e _ e' =>
    [.expression e, .expression e']
  | .case branches otherwise =>
    branches.flatMap CaseBranch.nodes ++ otherwise.toList.map .expression
  | .subquery query => [.query query]

def Condition.children : Condition → List Node
  | .compare left _ right => [.expression left, .expression right]
  | .all items | .any items => items.map .condition
  | .not operand => [.condition operand]
  | .isNull operand _ | .holds operand => [.expression operand]
  | .inList operand items _ => .expression operand :: items.map .expression
  | .inQuery operand query _ => [.expression operand, .query query]
  | .exists query _ => [.query query]
  | .like operand pattern _ _ _ => [.expression operand, .expression pattern]
  | .between operand low high _ => [.expression operand, .expression low, .expression high]

namespace QuerySpec

def expressions (spec : QuerySpec) : List Expression :=
  spec.select.map (·.expression) ++ spec.groupBy ++ spec.orderBy.map (·.expression) ++
    spec.limit.toList ++ spec.offset.toList

def conditions (spec : QuerySpec) : List Condition := spec.condition.toList ++ spec.having.toList

def children (spec : QuerySpec) : List Node :=
  spec.expressions.map .expression ++ spec.conditions.map .condition

theorem mem_children_iff {spec : QuerySpec} {n : Node} :
    n ∈ spec.children ↔
      (∃ item ∈ spec.select, n = .expression item.expression) ∨
        (∃ e ∈ spec.groupBy, n = .expression e) ∨
          (∃ p, (p ∈ spec.condition ∨ p ∈ spec.having) ∧ n = .condition p) ∨
            (∃ key ∈ spec.orderBy, n = .expression key.expression) ∨
              ∃ e, (e ∈ spec.limit ∨ e ∈ spec.offset) ∧ n = .expression e := by
  simp only [children, expressions, conditions, List.mem_append, List.mem_map, Option.mem_toList,
    Option.mem_def]
  grind

end QuerySpec

def Query.children : Query → List Node
  | .spec body => body.children
  | .group _ parts orderBy limit offset =>
    parts.map .query ++
      (orderBy.map (·.expression) ++ limit.toList ++ offset.toList).map .expression

def Statement.children : Statement → List Node
  | .select query _ => [.query query]
  | .update _ _ assignments condition =>
    assignments.map (.expression ·.value) ++ condition.toList.map .condition
  | .delete _ _ condition => condition.toList.map .condition

namespace Node

def children : Node → List Node
  | expression e => e.children
  | condition p => p.children
  | query q => q.children

/-- A node stands somewhere in a tree. -/
def Within (m n : Node) : Prop := Relation.ReflTransGen (fun m n => m ∈ n.children) m n

end Node

namespace Node

/-- A node of this sort stands in the tree, outside of the queries in it. -/
inductive Holds (P : Node → Prop) : Node → Prop
  | here {n : Node} (h : P n) : Holds P n
  | expression {e : Expression} {m : Node} (hm : m ∈ e.children) (h : m.Holds P) :
    Holds P (.expression e)
  | condition {p : Condition} {m : Node} (hm : m ∈ p.children) (h : m.Holds P) :
    Holds P (.condition p)

variable {P : Node → Prop}

theorem holds_expression_iff {e : Expression} :
    (Node.expression e).Holds P ↔ P (.expression e) ∨ ∃ m ∈ e.children, m.Holds P := by
  constructor
  · rintro (h | ⟨hm, h⟩)
    · exact .inl h
    · exact .inr ⟨_, hm, h⟩
  · rintro (h | ⟨m, hm, h⟩)
    · exact .here h
    · exact .expression hm h

theorem holds_condition_iff {p : Condition} :
    (Node.condition p).Holds P ↔ P (.condition p) ∨ ∃ m ∈ p.children, m.Holds P := by
  constructor
  · rintro (h | _ | ⟨hm, h⟩)
    · exact .inl h
    · exact .inr ⟨_, hm, h⟩
  · rintro (h | ⟨m, hm, h⟩)
    · exact .here h
    · exact .condition hm h

theorem holds_query_iff {q : Query} : (Node.query q).Holds P ↔ P (.query q) := by
  constructor
  · rintro (h | _ | _)
    exact h
  · exact .here

end Node

/-! ## Paths -/

/-- The variables that a root and its joins bind. -/
def Root.variables (root : Root) : List String :=
  root.aliasName :: root.joins.map (·.aliasName)

def QuerySpec.variables (source : QuerySpec) : List String := source.roots.flatMap Root.variables

namespace Node

/-- The path that the node is, or of which it is the size. -/
def path? : Node → Option Path
  | .expression (.path path) | .expression (.size path) => some path
  | _ => none

/-- The path stands in the tree, but in no query there that binds its variable. -/
inductive Uses (path : Path) : Node → Prop
  | here {n : Node} (h : n.path? = some path) : Uses path n
  | child {m n : Node} (hm : m ∈ n.children)
    (hfree : ∀ source, n = .query (.spec source) → path.start ∉ source.variables)
    (h : m.Uses path) : Uses path n

theorem Uses.exists_child {path : Path} {n : Node} (h : n.Uses path) (hn : n.path? = none) :
    ∃ m ∈ n.children, m.Uses path := by
  cases h with
  | here h => cases hn.symm.trans h
  | child hm _ h => exact ⟨_, hm, h⟩

end Node

/-! ## Sizes to the left of `in` -/

/-- What stands to the left of `in`. -/
def Condition.member? : Condition → Option Expression
  | .inList operand _ _ | .inQuery operand _ _ => some operand
  | _ => none

/-- Somewhere in the tree the size of a collection stands to the left of `in`. -/
def Node.AsksSize (n : Node) : Prop :=
  ∃ p path, (Node.condition p).Within n ∧ p.member? = some (.size path)

theorem Node.AsksSize.of_child {m n : Node} (h : m.AsksSize) (hm : m ∈ n.children) :
    n.AsksSize := by
  obtain ⟨p, path, hp, hsize⟩ := h
  exact ⟨p, path, .tail hp hm, hsize⟩

theorem Node.asksSize_of_member {p : Condition} {path : Path}
    (h : p.member? = some (.size path)) : (Node.condition p).AsksSize := ⟨p, path, .refl, h⟩

/-- The statement compares the size of a collection by `in`. -/
def Statement.AsksSize (statement : Statement) : Prop := ∃ n ∈ statement.children, n.AsksSize

end SqlDialects.Entity
