import Mathlib.Logic.Relation
import SqlDialects.Proofs.Rendering.Filled

/-!
# The nodes of a tree

Which nodes stand below a node, and which of them its layout has slots for. All of these are
smaller, so what holds of a node as soon as it holds of the parts of its layout holds of all nodes.
-/

namespace SqlDialects.Sql

/-! ## Children -/

def CaseBranch.nodes (branch : CaseBranch Condition Expression) : List Node :=
  [.condition branch.condition, .expression branch.result]

def Expression.children : Expression → List Node
  | .column _ _ | .literal _ | .parameter _ | .star _ => []
  | .call _ items | .tuple items => items.map .expression
  | .aggregate _ _ argument => argument.toList.map .expression
  | .extract _ e | .format e _ | .cast e _ | .negate e => [.expression e]
  | .timestampAdd _ e e' | .timestampDiff _ e e' | .binary e _ e' =>
    [.expression e, .expression e']
  | .case branches otherwise =>
    branches.flatMap CaseBranch.nodes ++ otherwise.toList.map .expression
  | .subquery query => [.query query]

def Condition.children : Condition → List Node
  | .compare left _ right => [.expression left, .expression right]
  | .all items | .any items => items.map .condition
  | .not operand => [.condition operand]
  | .isNull operand _ | .holds operand => [.expression operand]
  | .inList operand items _ => .expression operand :: items.map .expression
  | .inQuery operand query _ => [.expression operand, .query query]
  | .exists query _ => [.query query]
  | .like operand pattern _ _ _ => [.expression operand, .expression pattern]
  | .between operand low high _ => [.expression operand, .expression low, .expression high]

namespace QuerySpec

def joins (spec : QuerySpec) : List Join := spec.tables.flatMap FromItem.joins

/-- The conditions of the query, those of its joins included. -/
def conditions (spec : QuerySpec) : List Condition :=
  spec.joins.flatMap (fun join => join.on.toList) ++ spec.condition.toList ++ spec.having.toList

/-- The expressions of the query outside of its conditions. -/
def expressions (spec : QuerySpec) : List Expression :=
  spec.select.map (·.expression) ++ spec.groupBy ++ spec.orderBy.map (·.expression) ++
    spec.limit.toList ++ spec.offset.toList

def children (spec : QuerySpec) : List Node :=
  spec.expressions.map .expression ++ spec.conditions.map .condition

end QuerySpec

def Query.children : Query → List Node
  | .spec body => body.children
  | .group _ parts orderBy limit offset =>
    parts.map .query ++
      (orderBy.map (·.expression) ++ limit.toList ++ offset.toList).map .expression

def Node.isQuery : Node → Bool
  | .query _ => true
  | _ => false

def Node.children : Node → List Node
  | .expression e => e.children
  | .condition p => p.children
  | .query q => q.children

theorem Expression.sizeOf_children {e : Expression} {n : Node} (h : n ∈ e.children) :
    sizeOf n < sizeOf (Node.expression e) := by
  cases e with
  | column | literal | parameter | star => simp [children] at h
  | call _ items | tuple items =>
    obtain ⟨e, he, rfl⟩ := List.mem_map.1 h
    have := List.sizeOf_lt_of_mem he
    simp
    omega
  | aggregate _ _ argument =>
    cases argument with
    | none => simp [children] at h
    | some e =>
      obtain rfl : n = .expression e := by simpa [children] using h
      simp
      omega
  | extract | format | cast | negate =>
    obtain rfl := List.mem_singleton.1 h
    simp <;> omega
  | timestampAdd | timestampDiff | binary =>
    simp only [children, List.mem_cons, List.not_mem_nil, or_false] at h
    rcases h with rfl | rfl <;> simp <;> omega
  | case branches otherwise =>
    simp only [children, List.mem_append, List.mem_flatMap, List.mem_map, Option.mem_toList] at h
    rcases h with ⟨branch, hb, h⟩ | ⟨e, he, rfl⟩
    · have := List.sizeOf_lt_of_mem hb
      obtain ⟨p, e⟩ := branch
      simp only [CaseBranch.nodes, List.mem_cons, List.not_mem_nil, or_false] at h
      rcases h with rfl | rfl <;> simp at this ⊢ <;> omega
    · cases he
      simp
      omega
  | subquery query =>
    obtain rfl := List.mem_singleton.1 h
    simp

theorem Condition.sizeOf_children {p : Condition} {n : Node} (h : n ∈ p.children) :
    sizeOf n < sizeOf (Node.condition p) := by
  cases p with
  | compare | like | inQuery | between =>
    simp only [children, List.mem_cons, List.not_mem_nil, or_false] at h
    rcases h with rfl | rfl | rfl <;> simp <;> omega
  | all items | any items =>
    obtain ⟨q, hq, rfl⟩ := List.mem_map.1 h
    have := List.sizeOf_lt_of_mem hq
    simp
    omega
  | not | holds =>
    obtain rfl := List.mem_singleton.1 h
    simp
  | isNull operand =>
    obtain rfl := List.mem_singleton.1 h
    simp only [Node.expression.sizeOf_spec, Node.condition.sizeOf_spec, isNull.sizeOf_spec]
    omega
  | «exists» query =>
    obtain rfl := List.mem_singleton.1 h
    simp only [Node.query.sizeOf_spec, Node.condition.sizeOf_spec, exists.sizeOf_spec]
    omega
  | inList operand items _ =>
    rcases List.mem_cons.1 h with rfl | h
    · simp
      omega
    · obtain ⟨e, he, rfl⟩ := List.mem_map.1 h
      have := List.sizeOf_lt_of_mem he
      simp
      omega

theorem QuerySpec.sizeOf_expression {spec : QuerySpec} {e : Expression}
    (h : e ∈ spec.expressions) : sizeOf e < sizeOf spec := by
  obtain ⟨isDistinct, select, tables, condition, groupBy, having, orderBy, limit, offset⟩ := spec
  simp only [expressions, List.mem_append, List.mem_map, Option.mem_toList] at h
  rcases h with (((⟨item, hi, rfl⟩ | h) | ⟨key, hk, rfl⟩) | rfl) | rfl
  · have := List.sizeOf_lt_of_mem hi
    obtain ⟨e, a⟩ := item
    simp at this ⊢
    omega
  · have := List.sizeOf_lt_of_mem h
    simp
    omega
  · have := List.sizeOf_lt_of_mem hk
    obtain ⟨e, d, n⟩ := key
    simp at this ⊢
    omega
  · simp
    omega
  · simp
    omega

theorem QuerySpec.sizeOf_condition {spec : QuerySpec} {p : Condition}
    (h : p ∈ spec.conditions) : sizeOf p < sizeOf spec := by
  obtain ⟨isDistinct, select, tables, condition, groupBy, having, orderBy, limit, offset⟩ := spec
  simp only [conditions, joins, List.mem_append, List.mem_flatMap, Option.mem_toList] at h
  rcases h with (⟨join, ⟨item, hi, hj⟩, hp⟩ | rfl) | rfl
  · have hitem := List.sizeOf_lt_of_mem hi
    have hjoin := List.sizeOf_lt_of_mem hj
    obtain ⟨root, joins⟩ := item
    obtain ⟨kind, table, on⟩ := join
    obtain rfl : on = some p := hp
    simp at hitem hjoin ⊢
    omega
  · simp
    omega
  · simp
    omega

theorem Query.sizeOf_children {q : Query} {n : Node} (h : n ∈ q.children) :
    sizeOf n < sizeOf (Node.query q) := by
  cases q with
  | spec body =>
    simp only [children, QuerySpec.children, List.mem_append, List.mem_map] at h
    rcases h with ⟨e, he, rfl⟩ | ⟨p, hp, rfl⟩
    · have := QuerySpec.sizeOf_expression he
      simp
      omega
    · have := QuerySpec.sizeOf_condition hp
      simp
      omega
  | group operator parts orderBy limit offset =>
    simp only [children, List.mem_append, List.mem_map, Option.mem_toList] at h
    rcases h with ⟨q, hq, rfl⟩ | ⟨e, (⟨key, hk, rfl⟩ | rfl) | rfl, rfl⟩
    · have := List.sizeOf_lt_of_mem hq
      simp
      omega
    · have := List.sizeOf_lt_of_mem hk
      obtain ⟨e, d, n⟩ := key
      simp at this ⊢
      omega
    · simp
      omega
    · simp
      omega

theorem Node.sizeOf_children {n m : Node} (h : m ∈ n.children) : sizeOf m < sizeOf n := by
  cases n with
  | expression e => exact Expression.sizeOf_children h
  | condition p => exact Condition.sizeOf_children h
  | query q => exact Query.sizeOf_children h

namespace Node

/-- A node stands somewhere in a tree. -/
def Within (m n : Node) : Prop := Relation.ReflTransGen (fun m n => m ∈ n.children) m n

/-- A node stands right below another one, or is an element of a tuple that does. -/
inductive Below : Node → Node → Prop
  | child {m n : Node} (h : m ∈ n.children) : Below m n
  | element {items : List Expression} {e : Expression} {n : Node}
    (h : .expression (.tuple items) ∈ n.children) (he : e ∈ items) : Below (.expression e) n

theorem Within.trans {k m n : Node} (h : k.Within m) (h' : m.Within n) : k.Within n :=
  Relation.ReflTransGen.trans h h'

theorem Below.within {m n : Node} (h : m.Below n) : m.Within n := by
  cases h with
  | child h => exact .single h
  | element h he => exact .head (List.mem_map_of_mem he) (.single h)

theorem Below.sizeOf_lt {m n : Node} (h : m.Below n) : sizeOf m < sizeOf n := by
  cases h with
  | child h => exact sizeOf_children h
  | element h he =>
    exact Nat.lt_trans (Expression.sizeOf_children (List.mem_map_of_mem he)) (sizeOf_children h)

end Node

/-! ## Slots for parts -/

namespace Slot

variable {b : Bool} {n : Node}

@[simp]
theorem part_eq_text_iff {t : String} : part b n = text t ↔ False := by simp [text]

@[simp]
theorem part_eq_expression_iff {e : Expression} :
    part b n = expression e ↔ b = false ∧ n = .expression e := by simp [expression]

@[simp]
theorem part_eq_condition_iff {p : Condition} :
    part b n = condition p ↔ b = false ∧ n = .condition p := by simp [condition]

@[simp]
theorem part_mem_subquery_iff {q : Query} :
    part b n ∈ subquery q ↔ b = true ∧ n = .query q := by simp [subquery]

@[simp]
theorem part_mem_malformed_iff {reason : String} : part b n ∈ malformed reason ↔ False := by
  simp [malformed]

@[simp]
theorem part_mem_fail_iff {e : DialectError} : part b n ∈ fail e ↔ False := by simp [fail]

@[simp]
theorem part_mem_parenthesized_iff {slots : List Slot} :
    part b n ∈ parenthesized slots ↔ part b n ∈ slots := by simp [parenthesized]

@[simp]
theorem part_mem_separated_iff {separator : String} {rows : List (List Slot)} :
    part b n ∈ separated separator rows ↔ ∃ row ∈ rows, part b n ∈ row := by
  induction rows with
  | nil => simp [separated]
  | cons row rest ih =>
    cases rest with
    | nil => simp [separated]
    | cons next rest => simp [separated, ih]

@[simp]
theorem part_mem_clause_iff {keyword : String} {slots : Option (List Slot)} :
    part b n ∈ clause keyword slots ↔ ∃ row, slots = some row ∧ part b n ∈ row := by
  cases slots <;> simp [clause]

end Slot

namespace Context

open Slot (part)

variable {c : Context} {b : Bool} {n : Node}

theorem part_mem_requiringLayout {capability : Capability} {construct : String}
    {slots : List Slot} (h : part b n ∈ c.requiringLayout capability construct slots) :
    part b n ∈ slots := by
  unfold requiringLayout at h
  split at h
  · exact h
  · simp at h

theorem part_mem_templateLayout {template : FunctionTemplate} {arguments : List Slot}
    (h : part b n ∈ templateLayout template arguments) : part b n ∈ arguments := by
  unfold templateLayout at h
  split at h
  · obtain ⟨segment, -, h⟩ := List.mem_map.1 h
    cases segment with
    | text t => exact absurd h.symm (by simp [argumentSlot])
    | argument index =>
      simp only [argumentSlot] at h
      split at h
      · next slot hslot => exact h ▸ List.mem_of_getElem? hslot
      · simp at h
  · simp at h

theorem part_mem_functionLayout {name : String} {arguments : List Slot}
    (h : part b n ∈ c.functionLayout name arguments) : part b n ∈ arguments := by
  unfold functionLayout at h
  split at h
  · exact part_mem_templateLayout h
  · simp at h

theorem part_mem_extractLayout {unit : TemporalUnit} {source : Expression}
    (h : part b n ∈ c.extractLayout unit (.expression source)) :
    b = false ∧ n = .expression source := by
  unfold extractLayout at h
  dsimp only at h
  split at h
  · simpa using part_mem_templateLayout h
  · simpa using part_mem_templateLayout h
  · simpa using h

theorem part_mem_timestampLayout {name : String} {pattern : Except DialectError String}
    {arguments : List Slot} (h : part b n ∈ timestampLayout name pattern arguments) :
    part b n ∈ arguments := by
  unfold timestampLayout at h
  split at h
  · exact part_mem_templateLayout h
  · simp at h

end Context

/-- Of the parts of an expression, the queries are the ones that are nested. -/
theorem Expression.child_of_layout {c : Context} {e : Expression} {b : Bool} {n : Node}
    (h : .part b n ∈ e.layout c) : n ∈ e.children ∧ b = n.isQuery := by
  cases e with
  | column | literal | parameter | star => simp [layout] at h
  | call name arguments =>
    obtain ⟨e, he, h⟩ := List.mem_map.1 (Context.part_mem_functionLayout h)
    obtain ⟨rfl, rfl⟩ := Slot.part_eq_expression_iff.1 h.symm
    exact ⟨List.mem_map_of_mem he, rfl⟩
  | aggregate function isDistinct argument =>
    cases argument with
    | none => simp [layout, Context.aggregateLayout] at h
    | some e =>
      obtain ⟨rfl, rfl⟩ : b = false ∧ n = .expression e := by
        simp only [layout, Context.aggregateLayout] at h
        split at h
        · simpa using Context.part_mem_requiringLayout h
        · simpa using h
      exact ⟨List.mem_singleton.2 rfl, rfl⟩
  | extract unit source =>
    obtain ⟨rfl, rfl⟩ := Context.part_mem_extractLayout h
    exact ⟨List.mem_singleton.2 rfl, rfl⟩
  | timestampAdd unit first second | timestampDiff unit first second =>
    have h := Context.part_mem_timestampLayout h
    simp only [List.mem_cons, Slot.part_eq_text_iff, Slot.part_eq_expression_iff,
      List.not_mem_nil, or_false, false_or] at h
    rcases h with ⟨rfl, rfl⟩ | ⟨rfl, rfl⟩
    · exact ⟨List.mem_cons_self, rfl⟩
    · exact ⟨List.mem_cons_of_mem _ List.mem_cons_self, rfl⟩
  | format source pattern =>
    obtain ⟨rfl, rfl⟩ : b = false ∧ n = .expression source := by
      simpa using Context.part_mem_functionLayout h
    exact ⟨List.mem_singleton.2 rfl, rfl⟩
  | binary left operator right =>
    obtain ⟨rfl, rfl⟩ | ⟨rfl, rfl⟩ :
        (b = false ∧ n = .expression left) ∨ b = false ∧ n = .expression right := by
      simpa [layout] using h
    · exact ⟨List.mem_cons_self, rfl⟩
    · exact ⟨List.mem_cons_of_mem _ List.mem_cons_self, rfl⟩
  | negate operand =>
    obtain ⟨rfl, rfl⟩ : b = false ∧ n = .expression operand := by simpa [layout] using h
    exact ⟨List.mem_singleton.2 rfl, rfl⟩
  | case branches otherwise =>
    simp only [layout, Context.caseLayout] at h
    split at h
    · simp at h
    · simp only [children, CaseBranch.nodes, List.mem_append, List.mem_flatMap, List.mem_map,
        Option.mem_toList, List.mem_cons]
      simp [Context.branchLayout] at h
      grind [Node.isQuery]
  | cast source target =>
    simp only [layout, Context.castLayout] at h
    split at h
    · obtain ⟨rfl, rfl⟩ : b = false ∧ n = .expression source := by simpa using h
      exact ⟨List.mem_singleton.2 rfl, rfl⟩
    · simp at h
  | subquery query =>
    obtain ⟨rfl, rfl⟩ : b = true ∧ n = .query query := by simpa [layout] using h
    exact ⟨List.mem_singleton.2 rfl, rfl⟩
  | tuple items =>
    simp only [layout, Context.tupleLayout] at h
    split at h
    · simp at h
    · obtain ⟨e, he, rfl, rfl⟩ : ∃ e ∈ items, b = false ∧ n = .expression e := by simpa using h
      exact ⟨List.mem_map_of_mem he, rfl⟩

namespace Context

open Slot (part)

variable {c : Context} {b : Bool} {n : Node}

/-- The elements of two tuples. -/
def pairNodes (pairs : List (Expression × Expression)) : List Node :=
  pairs.flatMap fun pair => [.expression pair.1, .expression pair.2]

theorem part_mem_pairLayout_iff {operator : Comparison} {pair : Expression × Expression} :
    part b n ∈ pairLayout operator pair ↔ b = false ∧ n ∈ pairNodes [pair] := by
  simp only [pairLayout, comparisonLayout, pairNodes, List.cons_append, List.nil_append,
    List.mem_cons, Slot.part_eq_expression_iff, Slot.part_eq_text_iff, List.flatMap_cons,
    List.flatMap_nil, List.not_mem_nil]
  tauto

theorem part_mem_pairLayouts_iff {operator : Comparison} {pairs : List (Expression × Expression)} :
    (∃ row ∈ pairs.map (pairLayout operator), part b n ∈ row) ↔
      b = false ∧ n ∈ pairNodes pairs := by
  induction pairs with
  | nil => simp [pairNodes]
  | cons pair rest ih =>
    rw [List.map_cons, List.exists_mem_cons_iff, ih, part_mem_pairLayout_iff]
    simp only [pairNodes, List.flatMap_cons, List.flatMap_nil, List.mem_append]
    tauto

theorem part_mem_alternativeLayout_iff {operator : Comparison}
    {equal : List (Expression × Expression)} {pair : Expression × Expression} :
    part b n ∈ alternativeLayout operator equal pair ↔
      b = false ∧ n ∈ pairNodes (equal ++ [pair]) := by
  unfold alternativeLayout
  split
  · next h =>
    obtain rfl := List.isEmpty_iff.1 h
    rw [part_mem_pairLayout_iff, List.nil_append]
  · rw [Slot.part_mem_parenthesized_iff, Slot.part_mem_separated_iff]
    simp only [List.mem_append, List.mem_singleton, or_and_right, exists_or, exists_eq_left,
      part_mem_pairLayouts_iff, part_mem_pairLayout_iff, pairNodes, List.flatMap_append]
    tauto

theorem part_mem_alternativeLayouts_iff {operator : Comparison}
    {equal pairs : List (Expression × Expression)} (h : pairs ≠ []) :
    (∃ row ∈ alternativeLayouts operator equal pairs, part b n ∈ row) ↔
      b = false ∧ n ∈ pairNodes (equal ++ pairs) := by
  induction pairs generalizing equal with
  | nil => contradiction
  | cons pair rest ih =>
    cases rest with
    | nil => simp [alternativeLayouts, part_mem_alternativeLayout_iff]
    | cons next rest =>
      rw [alternativeLayouts, List.exists_mem_cons_iff, ih (List.cons_ne_nil _ _),
        part_mem_alternativeLayout_iff, List.append_assoc, List.singleton_append]
      simp only [pairNodes, List.flatMap_append, List.flatMap_cons, List.mem_append]
      tauto

/-- The expansion of a comparison has slots for the elements of both tuples. -/
theorem part_mem_expandedLayout_iff {operator : Comparison}
    {pairs : List (Expression × Expression)} (h : pairs ≠ []) :
    part b n ∈ expandedLayout operator pairs ↔ b = false ∧ n ∈ pairNodes pairs := by
  cases operator with
  | equal | notEqual =>
    rw [expandedLayout, Slot.part_mem_parenthesized_iff, Slot.part_mem_separated_iff,
      part_mem_pairLayouts_iff]
  | less | lessOrEqual | greater | greaterOrEqual =>
    rw [expandedLayout, Slot.part_mem_parenthesized_iff, Slot.part_mem_separated_iff,
      part_mem_alternativeLayouts_iff h, List.nil_append]
    all_goals simp

theorem mem_pairNodes_zip {left right : List Expression} (h : left.length = right.length) :
    n ∈ pairNodes (left.zip right) ↔ ∃ e, (e ∈ left ∨ e ∈ right) ∧ n = .expression e := by
  induction left generalizing right with
  | nil =>
    obtain rfl := List.length_eq_zero_iff.1 h.symm
    simp [pairNodes]
  | cons l left ih =>
    cases right with
    | nil => simp at h
    | cons r right =>
      have ih := ih (Nat.succ.inj h)
      simp only [pairNodes] at ih
      simp only [pairNodes, List.zip_cons_cons, List.flatMap_cons, List.mem_append, ih,
        List.mem_cons, List.not_mem_nil]
      grind

theorem part_mem_sideLayout_iff {isLowered : Bool} {e : Expression} :
    part b n ∈ c.sideLayout isLowered e ↔ b = false ∧ n = .expression e := by
  unfold sideLayout
  split <;> simp

theorem part_mem_memberLayout {operand : Expression} {slots : List Slot}
    (h : part b n ∈ c.memberLayout operand slots) : part b n ∈ slots := by
  cases operand with
  | tuple | subquery => exact part_mem_requiringLayout h
  | _ => exact h

theorem part_mem_operandLayout_iff {p : Condition} :
    part b n ∈ operandLayout p ↔ b = false ∧ n = .condition p := by
  unfold operandLayout
  split <;> simp

end Context

/-- The expansion of a comparison of tuples goes down to their elements. -/
theorem Condition.below_of_compareLayout {c : Context} {operator : Comparison}
    {left right : Expression} {b : Bool} {n : Node}
    (h : .part b n ∈ c.compareLayout operator left right) :
    n.Below (.condition (.compare left operator right)) ∧ b = n.isQuery := by
  have hsides {slots : List Slot} (hs : slots = Context.comparisonLayout operator
      [.expression left] [.expression right]) (h : .part b n ∈ slots) :
      n.Below (.condition (.compare left operator right)) ∧ b = n.isQuery := by
    obtain ⟨rfl, rfl⟩ | ⟨rfl, rfl⟩ :
        (b = false ∧ n = .expression left) ∨ b = false ∧ n = .expression right := by
      simpa [hs, Context.comparisonLayout] using h
    · exact ⟨.child List.mem_cons_self, rfl⟩
    · exact ⟨.child (List.mem_cons_of_mem _ List.mem_cons_self), rfl⟩
  have hmixed {elements : Nat} (h : .part b n ∈ c.mixedLayout elements operator left right) :
      n.Below (.condition (.compare left operator right)) ∧ b = n.isQuery := by
    unfold Context.mixedLayout at h
    split at h
    · simp at h
    · exact hsides rfl (Context.part_mem_requiringLayout h)
  unfold Context.compareLayout at h
  split at h
  · next lefts rights =>
    unfold Context.rowLayout at h
    split at h
    · simp at h
    · next hlength =>
      split at h
      · exact hsides rfl h
      · simp only [Bool.or_eq_true, decide_eq_true_eq, bne_iff_ne, not_or, Nat.not_lt,
          not_not] at hlength
        have hne : lefts.zip rights ≠ [] := by
          rw [Ne, List.zip_eq_nil_iff, not_or, ← List.length_eq_zero_iff,
            ← List.length_eq_zero_iff]
          omega
        obtain ⟨rfl, hn⟩ := (Context.part_mem_expandedLayout_iff hne).1 h
        obtain ⟨e, he, rfl⟩ := (Context.mem_pairNodes_zip hlength.2).1 hn
        rcases he with he | he
        · exact ⟨.element List.mem_cons_self he, rfl⟩
        · exact ⟨.element (List.mem_cons_of_mem _ List.mem_cons_self) he, rfl⟩
  · exact hmixed h
  · exact hmixed h
  · exact hsides rfl h

/-- Of the parts of a condition, the queries are the ones that are nested. -/
theorem Condition.below_of_layout {c : Context} {p : Condition} {b : Bool} {n : Node}
    (h : .part b n ∈ p.layout c) : n.Below (.condition p) ∧ b = n.isQuery := by
  cases p with
  | compare left operator right => exact Condition.below_of_compareLayout h
  | all items =>
    simp only [Condition.layout] at h
    split at h
    · simp at h
    · obtain ⟨row, hrow, h⟩ := Slot.part_mem_separated_iff.1 h
      obtain ⟨q, hq, rfl⟩ := List.mem_map.1 hrow
      obtain ⟨rfl, rfl⟩ := Context.part_mem_operandLayout_iff.1 h
      exact ⟨.child (List.mem_map_of_mem hq), rfl⟩
  | any items =>
    simp only [Condition.layout] at h
    split at h
    · simp at h
    · obtain ⟨q, hq, rfl, rfl⟩ : ∃ q ∈ items, b = false ∧ n = .condition q := by simpa using h
      exact ⟨.child (List.mem_map_of_mem hq), rfl⟩
  | not operand =>
    obtain ⟨rfl, rfl⟩ : b = false ∧ n = .condition operand := by
      simpa [Condition.layout] using h
    exact ⟨.child (List.mem_singleton.2 rfl), rfl⟩
  | isNull operand | holds operand =>
    obtain ⟨rfl, rfl⟩ : b = false ∧ n = .expression operand := by
      simpa [Condition.layout] using h
    exact ⟨.child (List.mem_singleton.2 rfl), rfl⟩
  | inList operand items isNegated =>
    simp only [Condition.layout, Context.inListLayout] at h
    split at h
    · simp at h
    · obtain ⟨rfl, rfl⟩ | ⟨e, he, rfl, rfl⟩ : (b = false ∧ n = .expression operand) ∨
          ∃ e ∈ items, b = false ∧ n = .expression e := by
        simpa using Context.part_mem_memberLayout h
      · exact ⟨.child List.mem_cons_self, rfl⟩
      · exact ⟨.child (List.mem_cons_of_mem _ (List.mem_map_of_mem he)), rfl⟩
  | inQuery operand query isNegated =>
    obtain ⟨rfl, rfl⟩ | ⟨rfl, rfl⟩ :
        (b = false ∧ n = .expression operand) ∨ b = true ∧ n = .query query := by
      simpa using Context.part_mem_memberLayout h
    · exact ⟨.child List.mem_cons_self, rfl⟩
    · exact ⟨.child (List.mem_cons_of_mem _ List.mem_cons_self), rfl⟩
  | «exists» query isNegated =>
    obtain ⟨rfl, rfl⟩ : b = true ∧ n = .query query := by simpa [Condition.layout] using h
    exact ⟨.child (List.mem_singleton.2 rfl), rfl⟩
  | like operand pattern escape ignoresCase isNegated =>
    obtain ⟨rfl, rfl⟩ | ⟨rfl, rfl⟩ :
        (b = false ∧ n = .expression operand) ∨ b = false ∧ n = .expression pattern := by
      simpa [Condition.layout, Context.likeLayout, Context.part_mem_sideLayout_iff] using h
    · exact ⟨.child List.mem_cons_self, rfl⟩
    · exact ⟨.child (List.mem_cons_of_mem _ List.mem_cons_self), rfl⟩
  | between operand low high isNegated =>
    obtain ⟨rfl, rfl⟩ | ⟨rfl, rfl⟩ | ⟨rfl, rfl⟩ :
        (b = false ∧ n = .expression operand) ∨ (b = false ∧ n = .expression low) ∨
          b = false ∧ n = .expression high := by
      simpa [Condition.layout] using h
    · exact ⟨.child List.mem_cons_self, rfl⟩
    · exact ⟨.child (List.mem_cons_of_mem _ List.mem_cons_self), rfl⟩
    · exact ⟨.child (List.mem_cons_of_mem _ (List.mem_cons_of_mem _ List.mem_cons_self)), rfl⟩

namespace Context

open Slot (part)

variable {c : Context} {b : Bool} {n : Node}

theorem part_mem_itemLayout_iff {item : SelectItem Expression} :
    part b n ∈ itemLayout item ↔ b = false ∧ n = .expression item.expression := by
  obtain ⟨e, a⟩ := item
  cases a <;> simp [itemLayout]

theorem part_mem_joinLayout_iff {join : Join} :
    part b n ∈ joinLayout join ↔ b = false ∧ ∃ p ∈ join.on, n = .condition p := by
  unfold joinLayout
  split
  · next h => simp [h]
  · next h => split <;> simp [h]

theorem part_mem_tableLayouts_iff {hint : String} {items : List FromItem} :
    (∃ row ∈ tableLayouts hint items, part b n ∈ row) ↔
      ∃ join ∈ items.flatMap FromItem.joins, b = false ∧ ∃ p ∈ join.on, n = .condition p := by
  induction items generalizing hint with
  | nil => simp [tableLayouts]
  | cons item rest ih =>
    rw [tableLayouts, List.exists_mem_cons_iff, ih]
    simp only [tableLayout, List.mem_cons, reduceCtorEq, false_or, List.mem_flatMap,
      part_mem_joinLayout_iff, List.flatMap_cons, List.mem_append, or_and_right, exists_or]

theorem part_mem_keyLayout_iff {key : SortKey Expression} :
    part b n ∈ c.keyLayout key ↔ b = false ∧ n = .expression key.expression := by
  unfold keyLayout
  split <;> simp

theorem part_mem_prefixLayout {isDistinct : Bool} {limit : Option Expression}
    (h : part b n ∈ c.prefixLayout isDistinct limit) :
    b = false ∧ ∃ e ∈ limit, n = .expression e := by
  unfold prefixLayout at h
  dsimp only at h
  split at h
  · simpa using h
  · simpa using h
  · simp at h

theorem part_mem_paginationLayout {hasOrder : Bool} {limit offset : Option Expression}
    (h : part b n ∈ c.paginationLayout hasOrder limit offset) :
    b = false ∧ ∃ e, (e ∈ limit ∨ e ∈ offset) ∧ n = .expression e := by
  unfold paginationLayout at h
  split at h
  · simp at h
  · split at h
    · simp at h
    · simp at h
    · simp at h
    · next rows _ =>
      cases limit <;> cases offset <;> cases rows <;> simp at h ⊢ <;> grind
    · cases limit <;> cases offset <;> simp at h ⊢ <;> grind

theorem part_mem_endLayout {keys : List (SortKey Expression)} {limit offset : Option Expression}
    (h : part b n ∈ c.endLayout keys limit offset) :
    b = false ∧ ∃ e, ((∃ key ∈ keys, e = key.expression) ∨ e ∈ limit ∨ e ∈ offset) ∧
      n = .expression e := by
  have hpage {hasOrder : Bool} (h : part b n ∈ c.paginationLayout hasOrder limit offset) :
      b = false ∧ ∃ e, ((∃ key ∈ keys, e = key.expression) ∨ e ∈ limit ∨ e ∈ offset) ∧
        n = .expression e := by
    obtain ⟨hb, e, he, hn⟩ := part_mem_paginationLayout h
    exact ⟨hb, e, .inr he, hn⟩
  unfold endLayout at h
  split at h
  · exact hpage h
  · simp only [List.cons_append, List.mem_cons, Slot.part_eq_text_iff, false_or, List.mem_append,
      Slot.part_mem_separated_iff] at h
    rcases h with ⟨row, hrow, h⟩ | h
    · obtain ⟨key, hkey, rfl⟩ := List.mem_map.1 hrow
      obtain ⟨hb, hn⟩ := part_mem_keyLayout_iff.1 h
      exact ⟨hb, key.expression, .inl ⟨key, hkey, rfl⟩, hn⟩
    · exact hpage h
  · simp only [List.mem_cons, reduceCtorEq, false_or] at h
    exact hpage h
  · simp at h

theorem part_mem_groupByLayout_iff {keys : List Expression} :
    (∃ row, groupByLayout keys = some row ∧ part b n ∈ row) ↔
      b = false ∧ ∃ e ∈ keys, n = .expression e := by
  cases keys with
  | nil => simp [groupByLayout]
  | cons key rest =>
    simp [groupByLayout]
    grind

theorem part_mem_operandQueryLayout_iff {q : Query} :
    part b n ∈ operandQueryLayout q ↔ b = false ∧ n = .query q := by
  unfold operandQueryLayout
  split <;> simp

theorem part_mem_conditionClause_iff {keyword : String} {p : Option Condition} :
    part b n ∈ Slot.clause keyword (p.map fun p => [.condition p]) ↔
      b = false ∧ ∃ q ∈ p, n = .condition q := by
  cases p <;> simp

theorem part_mem_specLayout_iff {hint : String} {spec : QuerySpec} :
    part b n ∈ c.specLayout hint spec ↔
      part b n ∈ c.prefixLayout spec.isDistinct spec.limit ∨
        part b n ∈ c.endLayout spec.orderBy spec.limit spec.offset ∨
          b = false ∧ ((∃ item ∈ spec.select, n = .expression item.expression) ∨
            (∃ e ∈ spec.groupBy, n = .expression e) ∨ ∃ p ∈ spec.conditions, n = .condition p) := by
  have hselect : (∃ row ∈ spec.select.map itemLayout, part b n ∈ row) ↔
      b = false ∧ ∃ item ∈ spec.select, n = .expression item.expression := by
    simp only [List.mem_map, exists_exists_and_eq_and, part_mem_itemLayout_iff]
    grind
  have hgroup : part b n ∈ Slot.clause " group by " (groupByLayout spec.groupBy) ↔
      b = false ∧ ∃ e ∈ spec.groupBy, n = .expression e := by
    rw [Slot.part_mem_clause_iff, part_mem_groupByLayout_iff]
  have hconditions : (∃ p ∈ spec.conditions, n = .condition p) ↔
      (∃ join ∈ spec.joins, ∃ p ∈ join.on, n = .condition p) ∨
        (∃ p ∈ spec.condition, n = .condition p) ∨ ∃ p ∈ spec.having, n = .condition p := by
    simp only [QuerySpec.conditions, List.mem_append, List.mem_flatMap, Option.mem_toList,
      Option.mem_def, or_and_right, exists_or]
    grind
  have htables : (∃ row ∈ tableLayouts hint spec.tables, part b n ∈ row) ↔
      b = false ∧ ∃ join ∈ spec.joins, ∃ p ∈ join.on, n = .condition p := by
    rw [part_mem_tableLayouts_iff, QuerySpec.joins]
    grind
  simp only [specLayout, List.cons_append, List.mem_cons, List.mem_append, Slot.part_eq_text_iff,
    false_or, Slot.part_mem_separated_iff, hselect, htables, hgroup,
    part_mem_conditionClause_iff, hconditions, and_or_left, or_assoc]
  exact iff_of_eq (by ac_rfl)

end Context

theorem QuerySpec.mem_children_iff {spec : QuerySpec} {n : Node} :
    n ∈ spec.children ↔
      (∃ item ∈ spec.select, n = .expression item.expression) ∨
        (∃ e ∈ spec.groupBy, n = .expression e) ∨ (∃ p ∈ spec.conditions, n = .condition p) ∨
          (∃ key ∈ spec.orderBy, n = .expression key.expression) ∨
            ∃ e, (e ∈ spec.limit ∨ e ∈ spec.offset) ∧ n = .expression e := by
  simp only [children, expressions, List.mem_append, List.mem_map, Option.mem_toList,
    Option.mem_def]
  grind

theorem Context.part_mem_specLayout {c : Context} {hint : String} {spec : QuerySpec} {b : Bool}
    {n : Node} (h : .part b n ∈ c.specLayout hint spec) : b = false ∧ n ∈ spec.children := by
  rw [QuerySpec.mem_children_iff]
  rcases part_mem_specLayout_iff.1 h with h | h | ⟨hb, h⟩
  · obtain ⟨hb, e, he, hn⟩ := part_mem_prefixLayout h
    exact ⟨hb, .inr (.inr (.inr (.inr ⟨e, .inl he, hn⟩)))⟩
  · obtain ⟨hb, e, ⟨key, hkey, rfl⟩ | he, hn⟩ := part_mem_endLayout h
    · exact ⟨hb, .inr (.inr (.inr (.inl ⟨key, hkey, hn⟩)))⟩
    · exact ⟨hb, .inr (.inr (.inr (.inr ⟨e, he, hn⟩)))⟩
  · exact ⟨hb, h.imp_right (Or.imp_right .inl)⟩

/-- None of the parts of a query that stand in its own layout is nested. -/
theorem Query.child_of_layout {c : Context} {hint : String} {q : Query} {b : Bool} {n : Node}
    (h : .part b n ∈ q.layout c hint) : b = false ∧ n ∈ q.children := by
  cases q with
  | spec body =>
    simp only [layout, QuerySpec.layout] at h
    split at h
    · simp at h
    · split at h
      · simp at h
      · split at h
        · simp at h
        · exact Context.part_mem_specLayout h
  | group operator parts orderBy limit offset =>
    simp only [layout] at h
    split at h
    · simp at h
    · rcases List.mem_append.1 h with h | h
      · obtain ⟨row, hrow, h⟩ := Slot.part_mem_separated_iff.1 h
        obtain ⟨q, hq, rfl⟩ := List.mem_map.1 hrow
        obtain ⟨hb, rfl⟩ := Context.part_mem_operandQueryLayout_iff.1 h
        exact ⟨hb, List.mem_append_left _ (List.mem_map_of_mem hq)⟩
      · obtain ⟨hb, e, he, rfl⟩ := Context.part_mem_endLayout h
        refine ⟨hb, List.mem_append_right _ (List.mem_map_of_mem ?_)⟩
        rcases he with ⟨key, hkey, rfl⟩ | he | he
        · simp only [List.append_assoc, List.mem_append]
          exact .inl (List.mem_map_of_mem hkey)
        · simp [Option.mem_def.1 he]
        · simp [Option.mem_def.1 he]

namespace Node

variable {c : Context} {b : Bool} {m n : Node}

theorem below_of_layout (h : .part b m ∈ n.layout c) : m.Below n := by
  cases n with
  | expression e => exact .child (Expression.child_of_layout h).1
  | condition p => exact (Condition.below_of_layout h).1
  | query q => exact .child (Query.child_of_layout h).2

/-- The rendering of a node, by the renderings of the parts of its layout. -/
theorem layout_induction {motive : Context → Node → Prop}
    (step : ∀ c n, (∀ b m, .part b m ∈ n.layout c → motive (if b then c.nested else c) m) →
      motive c n) (c : Context) (n : Node) : motive c n := by
  induction h : sizeOf n using Nat.strongRecOn generalizing c n with
  | ind size ih =>
    subst h
    exact step c n fun b m hm => ih _ (below_of_layout hm).sizeOf_lt _ _ rfl

end Node

/-! ## Statements -/

def InsertSource.children : InsertSource → List Node
  | .rows values => values.flatten.map .expression
  | .query q => [.query q]

namespace Statement

def children : Statement → List Node
  | select query _ => [.query query]
  | insert _ _ source => source.children
  | update _ assignments condition =>
    assignments.map (.expression ·.value) ++ condition.toList.map .condition
  | delete _ condition => condition.toList.map .condition

/-- A node stands somewhere in a statement. -/
def Contains (statement : Statement) (n : Node) : Prop :=
  ∃ m ∈ statement.children, n.Within m

def isSelect : Statement → Bool
  | select _ _ => true
  | _ => false

variable {d : Dialect} {statement : Statement} {b : Bool} {n : Node}

theorem part_mem_insertRow {columns index : Nat} {values : List Expression} :
    .part b n ∈ insertRowLayout columns index values ↔
      values.length = columns ∧ b = false ∧ ∃ e ∈ values, n = .expression e := by
  unfold insertRowLayout
  split
  · next h =>
    simp [h]
    grind
  · next h => simp [h]

theorem child_of_source {columns : Nat} {source : InsertSource}
    (h : .part b n ∈ source.layout columns) : n ∈ source.children ∧ b = n.isQuery := by
  cases source with
  | rows values =>
    simp only [InsertSource.layout] at h
    split at h
    · simp at h
    · obtain ⟨row, hrow, h⟩ : ∃ row ∈ values.mapIdx fun index row =>
          insertRowLayout columns index row, .part b n ∈ row := by simpa using h
      obtain ⟨i, hi, rfl⟩ := List.mem_mapIdx.1 hrow
      obtain ⟨-, rfl, e, he, rfl⟩ := part_mem_insertRow.1 h
      exact ⟨List.mem_map_of_mem (List.mem_flatten.2 ⟨_, List.getElem_mem hi, he⟩), rfl⟩
  | query q =>
    obtain ⟨rfl, rfl⟩ : b = true ∧ n = .query q := by simpa [InsertSource.layout] using h
    exact ⟨List.mem_singleton.2 rfl, rfl⟩

theorem child_of_condition {keyword : String} {p : Option Condition}
    (h : .part b n ∈ Slot.clause keyword (p.map fun p => [.condition p])) :
    n ∈ p.toList.map Node.condition ∧ b = n.isQuery := by
  obtain ⟨rfl, p, hp, rfl⟩ := Context.part_mem_conditionClause_iff.1 h
  exact ⟨List.mem_map_of_mem (Option.mem_toList.2 hp), rfl⟩

/-- The layout of a select is that of its query. Of the parts of other statements, the queries are
the ones that are nested. -/
theorem child_of_layout (hs : statement.isSelect = false) (h : .part b n ∈ statement.layout d) :
    n ∈ statement.children ∧ b = n.isQuery := by
  cases statement with
  | select => simp [isSelect] at hs
  | insert table columns source =>
    simp only [layout] at h
    split at h
    · simp at h
    · have h : .part b n ∈ source.layout columns.length := by simpa using h
      exact child_of_source h
  | update target assignments condition =>
    simp only [layout] at h
    split at h
    · simp at h
    · have h : (∃ row ∈ assignments.map Assignment.layout, .part b n ∈ row) ∨
          .part b n ∈ Slot.clause " where " (condition.map fun p => [.condition p]) := by
        simpa only [List.cons_append, List.mem_cons, List.mem_append, Slot.part_eq_text_iff,
          reduceCtorEq, false_or, Slot.part_mem_separated_iff] using h
      rcases h with ⟨row, hrow, h⟩ | h
      · obtain ⟨a, ha, rfl⟩ := List.mem_map.1 hrow
        obtain ⟨rfl, rfl⟩ : b = false ∧ n = .expression a.value := by
          simpa [Assignment.layout] using h
        exact ⟨List.mem_append_left _ (List.mem_map_of_mem ha), rfl⟩
      · exact (child_of_condition h).imp_left (List.mem_append_right _)
  | delete target condition =>
    simp only [layout, List.mem_cons, Slot.part_eq_text_iff, reduceCtorEq, false_or] at h
    exact child_of_condition h

/-- A lock adds no parts to those of its query. -/
theorem part_of_lockedLayout {c : Context} {query : Query} {lock : LockOptions}
    (h : .part b n ∈ lockedLayout c query lock) : ∃ hint, .part b n ∈ query.layout c hint := by
  unfold lockedLayout at h
  dsimp only at h
  split at h
  · simp at h
  · split at h
    · exact ⟨_, by simpa using h⟩
    · exact ⟨_, by simpa using h⟩
    · exact ⟨_, by simpa using h⟩

theorem part_of_select {query : Query} {lock : Option LockOptions}
    (h : .part b n ∈ (select query lock).layout d) : b = false ∧ n ∈ query.children := by
  cases lock with
  | none => exact Query.child_of_layout h
  | some lock =>
    obtain ⟨hint, h⟩ := part_of_lockedLayout h
    exact Query.child_of_layout h

end Statement

end SqlDialects.Sql
