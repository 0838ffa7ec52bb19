import SqlDialects.Proofs.Rendering.Capabilities

/-!
# Why a statement is refused

A rendering fails in one of the nodes that are written for it. What a node can be refused for is
the shape of the node, a capability that its dialect lacks, or a template that does not fit.
-/

namespace SqlDialects

/-! ## Templates -/

namespace FunctionTemplate

variable {template : FunctionTemplate} {count : Nat} {e : DialectError}

/-- Only the number of arguments can be wrong with a call. -/
theorem expand_error_iff : template.expand count = .error e ↔
    template.takes count = false ∧ e = template.arityError count := by
  unfold expand checkArity
  cases ht : template.takes count with
  | false => simp [bind, Except.bind, eq_comm]
  | true =>
    simp only [if_true, bind, Except.bind, Bool.true_eq_false, false_and, iff_false]
    split
    · next byCount hr =>
      simp only [takes, hr, SortedMap.contains, Option.isSome_iff_exists] at ht
      obtain ⟨pattern, hp⟩ := ht
      simp [hp]
    · simp
    · simp

end FunctionTemplate

namespace RowLimit

/-- What a limit right behind `select` has no room for, as errors name it. -/
def leadingConstructs : List String :=
  ["offset", "a non-literal row limit", "row limiting over a set operation"]

end RowLimit

namespace Sql

/-! ## What a node asks for -/

namespace Expression

/-- The function that an expression calls by its name. -/
def function? : Expression → Option String
  | call name _ => some name
  | format _ _ => some "format"
  | _ => none

end Expression

/-- What stands to the left of `in`. -/
def Condition.member? : Condition → Option Expression
  | .inList operand _ _ | .inQuery operand _ _ => some operand
  | _ => none

namespace Node

/-- What a node needs of its dialect where it stands, and the name that a refusal has for it. -/
inductive Needs (c : Context) : Node → Capability → String → Prop
  | unionAll {parts : List Query} {orderBy : List (SortKey Expression)}
      {limit offset : Option Expression} :
    Needs c (.query (.group .unionAll parts orderBy limit offset)) .unionAll "union all"
  | nestedGroup {operator : SetOperator} {parts : List Query}
      {orderBy : List (SortKey Expression)} {limit offset : Option Expression}
      (h : c.isNested = true) :
    Needs c (.query (.group operator parts orderBy limit offset)) .unionInSubquery
      "set operation in a subquery"
  | nestedOrder {q : Query} (hn : c.isNested = true) (ho : q.orderBy ≠ [])
      (hp : q.isPaginated = true) :
    Needs c (.query q) .orderByInSubquery "order by in a paginated subquery"
  | tupleMember {p : Condition} {items : List Expression} (h : p.member? = some (.tuple items)) :
    Needs c (.condition p) .subselectAsInPredicateLhs "tuple on the left of in"
  | queryMember {p : Condition} {query : Query} (h : p.member? = some (.subquery query)) :
    Needs c (.condition p) .subselectAsInPredicateLhs "subquery on the left of in"
  | distinctTuple {function : AggregateFunction} {items : List Expression} :
    Needs c (.expression (.aggregate function true (some (.tuple items)))) .tupleDistinctCounts
      "count(distinct) over a tuple"
  | rowComparison {left right : Expression} {operator : Comparison} :
    Needs c (.condition (.compare left operator right)) .rowValueConstructorSyntax
      "row value comparison"

/-- What is wrong with the shape of a node. -/
inductive Malformed : Node → String → Prop
  | literal {value : Number.Binary64} (h : value.literal? = none) :
    Malformed (.expression (.literal (.float value))) ("non-finite literal " ++ value.text)
  | aggregate {function : AggregateFunction} {isDistinct : Bool} (h : function ≠ .count) :
    Malformed (.expression (.aggregate function isDistinct none))
      (function.sql ++ " without an argument")
  | case {otherwise : Option Expression} :
    Malformed (.expression (.case [] otherwise)) "case expression without branches"
  | tuple : Malformed (.expression (.tuple [])) "empty tuple"
  | rows {left right : List Expression} {operator : Comparison}
      (h : left.length < 2 ∨ left.length ≠ right.length) :
    Malformed (.condition (.compare (.tuple left) operator (.tuple right)))
      ("tuple comparison between " ++ toString left.length ++ " and " ++ toString right.length
        ++ " elements")
  | row {left right : Expression} {operator : Comparison} {items : List Expression}
      (h : items.length < 2) (hr : left = .tuple items ∨ right = .tuple items) :
    Malformed (.condition (.compare left operator right)) "tuple with fewer than two elements"
  | select {spec : QuerySpec} (h : spec.select = []) :
    Malformed (.query (.spec spec)) "query spec with an empty select list"
  | tables {spec : QuerySpec} (h : spec.tables = []) :
    Malformed (.query (.spec spec)) "query spec without a from clause"
  | join {spec : QuerySpec} {join : Join} (hj : join ∈ spec.joins) (hk : join.kind ≠ .cross)
      (ho : join.on = none) :
    Malformed (.query (.spec spec)) ("join to " ++ join.table.table ++ " without a condition")
  | operands {operator : SetOperator} {parts : List Query} {orderBy : List (SortKey Expression)}
      {limit offset : Option Expression} (h : parts.length < 2) :
    Malformed (.query (.group operator parts orderBy limit offset))
      (operator.sql ++ " with " ++ toString parts.length ++ " operand(s)")

/-- Why a node is refused where it stands. -/
inductive Refused (c : Context) : Node → DialectError → Prop
  | malformed {n : Node} {reason : String} (h : n.Malformed reason) :
    Refused c n (.malformedTree reason)
  | lacks {n : Node} {capability : Capability} {construct : String}
      (h : n.Needs c capability construct) (hs : c.dialect.supports capability = false) :
    Refused c n (c.dialect.lacks capability construct)
  /-- The limit does not fit behind `select`. -/
  | limit {q : Query} {construct : String} (hl : c.dialect.rowLimit.leads = true)
      (hc : construct ∈ RowLimit.leadingConstructs) :
    Refused c (.query q) (c.dialect.unsupported construct c.dialect.rowLimit.offsetSince)
  | unlimited {q : Query} (h : c.dialect.rowLimit = .unsupported) :
    Refused c (.query q) (c.dialect.unsupported "row limiting")
  | unknownFunction {e : Expression} {name : String} (h : e.function? = some name)
      (hd : c.dialect.functions.get? name = none) :
    Refused c (.expression e) (.unknownFunction c.dialect.name name)
  | arity {e : Expression} {template : FunctionTemplate} {arguments : List (Option Expression)}
      (h : e.template? c.dialect = some (template, arguments))
      (ht : template.takes arguments.length = false) :
    Refused c (.expression e) (template.arityError arguments.length)
  | argument {e : Expression} {template : FunctionTemplate} {arguments : List (Option Expression)}
      {segments : List Segment} {index : Nat}
      (h : e.template? c.dialect = some (template, arguments))
      (hs : template.expand arguments.length = .ok segments) (hi : .argument index ∈ segments)
      (hl : arguments.length ≤ index) :
    Refused c (.expression e)
      (.malformedTree (template.name ++ " has no argument " ++ toString (index + 1)))
  | timestampAdd {unit : TemporalUnit} {magnitude timestamp : Expression}
      (h : c.dialect.rules.timestampArithmetic.add? unit = none) :
    Refused c (.expression (.timestampAdd unit magnitude timestamp))
      (c.dialect.unsupported ("timestampadd(" ++ unit.durationField ++ ")"))
  | timestampDiff {unit : TemporalUnit} {start finish : Expression}
      (h : c.dialect.rules.timestampArithmetic.diff? unit = none) :
    Refused c (.expression (.timestampDiff unit start finish))
      (c.dialect.unsupported ("timestampdiff(" ++ unit.durationField ++ ")"))
  | cast {source : Expression} {target : CastTarget} {length : Nat} :
    Refused c (.expression (.cast source target))
      (.unsupportedType c.dialect.name target.code length)

end Node

namespace Statement

/-- What is wrong with the shape of a statement, outside of its nodes. -/
inductive Malformed : Statement → String → Prop
  | columns {table : String} {source : InsertSource} :
    Malformed (.insert table [] source) "insert without columns"
  | noRows {table : String} {columns : List String} :
    Malformed (.insert table columns (.rows [])) "insert without rows"
  | row {table : String} {columns : List String} {rows : List (List Expression)} {index : Nat}
      {row : List Expression} (h : rows[index]? = some row) (hl : row.length ≠ columns.length) :
    Malformed (.insert table columns (.rows rows))
      ("insert row " ++ toString index ++ " has " ++ toString row.length ++ " values for "
        ++ toString columns.length ++ " columns")
  | assignments {target : TableReference} {condition : Option Condition} :
    Malformed (.update target [] condition) "update without assignments"

/-- Why a statement is refused, whatever its nodes are. -/
inductive Refused (d : Dialect) : Statement → DialectError → Prop
  | malformed {statement : Statement} {reason : String} (h : statement.Malformed reason) :
    Refused d statement (.malformedTree reason)
  | lock {query : Query} {lock : LockOptions} (h : query.isGroup = true) :
    Refused d (.select query (some lock)) (d.unsupported "locking a set operation")

end Statement

/-! ## Failures in slots -/

namespace Rendered

variable {e : DialectError}

@[simp]
theorem error_eq_text_iff {t : String} : .error e = text t ↔ False := by simp [text]

@[simp]
theorem error_eq_name_iff {name : String} : .error e = Rendered.name name ↔ False := by
  simp [Rendered.name]

@[simp]
theorem error_eq_string_iff {content : String} : .error e = string content ↔ False := by
  simp [string]

@[simp]
theorem error_eq_parameter_iff {bound : BindParameter} : .error e = parameter bound ↔ False := by
  simp [parameter]

@[simp]
theorem error_eq_warning_iff {w : TranslationWarning} : .error e = warning w ↔ False := by
  simp [warning]

@[simp]
theorem error_eq_textIf_iff {b : Bool} {t : String} : .error e = textIf b t ↔ False := by
  cases b <;> simp [textIf, empty]

@[simp]
theorem error_eq_malformed_iff {reason : String} :
    .error e = malformed reason ↔ e = .malformedTree reason := by simp [malformed]

end Rendered

namespace Slot

variable {c : Context} {e : DialectError} {slots : List Slot}

@[simp]
theorem error_eq_text_iff {t : String} : own (.error e) = text t ↔ False := by simp [text]

@[simp]
theorem error_eq_expression_iff {x : Expression} : own (.error e) = expression x ↔ False := by
  simp [expression]

@[simp]
theorem error_eq_condition_iff {p : Condition} : own (.error e) = condition p ↔ False := by
  simp [condition]

@[simp]
theorem error_mem_malformed_iff {reason : String} :
    own (.error e) ∈ malformed reason ↔ e = .malformedTree reason := by simp [malformed]

@[simp]
theorem error_mem_fail_iff {e' : DialectError} : own (.error e) ∈ fail e' ↔ e = e' := by
  simp [fail]

@[simp]
theorem error_mem_parenthesized_iff :
    own (.error e) ∈ parenthesized slots ↔ own (.error e) ∈ slots := by simp [parenthesized]

@[simp]
theorem error_mem_subquery_iff {q : Query} : own (.error e) ∈ subquery q ↔ False := by
  simp [subquery]

@[simp]
theorem error_mem_separated_iff {separator : String} {rows : List (List Slot)} :
    own (.error e) ∈ separated separator rows ↔ ∃ row ∈ rows, own (.error e) ∈ row := by
  constructor
  · intro h
    exact (mem_separated h).resolve_left (by simp)
  · rintro ⟨row, hrow, h⟩
    exact subset_separated separator hrow h

@[simp]
theorem error_mem_clause_iff {keyword : String} {slots : Option (List Slot)} :
    own (.error e) ∈ clause keyword slots ↔ ∃ row, slots = some row ∧ own (.error e) ∈ row := by
  cases slots <;> simp [clause]

/-- A failure comes from a slot of the node itself or from one of its parts. -/
theorem error_of_fill (h : fill c slots = .error e) : own (.error e) ∈ slots ∨
    ∃ b n, part b n ∈ slots ∧ n.render (if b then c.nested else c) = .error e := by
  induction slots with
  | nil => cases h
  | cons slot rest ih =>
    rw [fill_cons] at h
    cases hs : slot.render c with
    | error e' =>
      obtain rfl : e' = e := by simpa [hs] using h
      cases slot with
      | own r => exact .inl (List.mem_cons.2 (.inl (congrArg own hs.symm)))
      | part b n => exact .inr ⟨b, n, List.mem_cons_self, hs⟩
    | ok f =>
      have hrest : fill c rest = .error e := by
        rw [hs] at h
        cases hr : fill c rest with
        | error e' => simpa [hr, Rendered.andThen, bind, Except.bind] using h
        | ok g => simp [hr, Rendered.andThen_ok] at h
      rcases ih hrest with h | ⟨b, n, hn, h⟩
      · exact .inl (List.mem_cons_of_mem _ h)
      · exact .inr ⟨b, n, List.mem_cons_of_mem _ hn, h⟩

end Slot

/-! ## Refused nodes -/

namespace Context

open Slot (own)

variable {c : Context} {e : DialectError}

theorem error_mem_requiringLayout {capability : Capability} {construct : String}
    {slots : List Slot} (h : own (.error e) ∈ c.requiringLayout capability construct slots) :
    (c.dialect.supports capability = false ∧ e = c.dialect.lacks capability construct) ∨
      own (.error e) ∈ slots := by
  unfold requiringLayout at h
  split at h
  · exact .inr h
  · next hs => exact .inl ⟨by simpa using hs, by simpa using h⟩

/-- A call that is not refused for the number of its arguments has a place without one, or one of
the arguments fails. -/
theorem error_mem_templateLayout {template : FunctionTemplate} {arguments : List Slot}
    (h : own (.error e) ∈ templateLayout template arguments) :
    (template.takes arguments.length = false ∧ e = template.arityError arguments.length) ∨
      (∃ segments index, template.expand arguments.length = .ok segments ∧
        .argument index ∈ segments ∧ arguments.length ≤ index ∧
        e = .malformedTree (template.name ++ " has no argument " ++ toString (index + 1))) ∨
      own (.error e) ∈ arguments := by
  unfold templateLayout at h
  split at h
  · next segments hs =>
    obtain ⟨segment, hsegment, h⟩ := List.mem_map.1 h
    cases segment with
    | text t => exact absurd h.symm (by simp [argumentSlot])
    | argument index =>
      simp only [argumentSlot] at h
      split at h
      · next slot hslot => exact .inr (.inr (h ▸ List.mem_of_getElem? hslot))
      · next hslot =>
        refine .inr (.inl ⟨segments, index, hs, hsegment, List.getElem?_eq_none_iff.1 hslot, ?_⟩)
        simpa [eq_comm] using h
  · next e' hs =>
    obtain rfl := Slot.error_mem_fail_iff.1 h
    exact .inl (FunctionTemplate.expand_error_iff.1 hs)

/-- A template that an expression is written with is refused as one of the expression. -/
theorem refused_of_templateLayout {x : Expression} {template : FunctionTemplate}
    (arguments : List (Option Expression)) {slots : List Slot}
    (hx : x.template? c.dialect = some (template, arguments))
    (hlength : slots.length = arguments.length) (hslots : own (.error e) ∉ slots)
    (h : own (.error e) ∈ templateLayout template slots) :
    Node.Refused c (.expression x) e := by
  rcases error_mem_templateLayout h with ⟨ht, rfl⟩ | ⟨segments, index, hs, hi, hl, rfl⟩ | h
  · rw [hlength] at ht ⊢
    exact .arity hx ht
  · rw [hlength] at hs hl
    exact .argument hx hs hi hl
  · exact absurd h hslots

theorem refused_of_functionLayout {x : Expression} {name : String}
    {arguments : List (Option Expression)} {slots : List Slot} (hname : x.function? = some name)
    (hx : x.template? c.dialect = (c.dialect.functions.get? name).map (·, arguments))
    (hlength : slots.length = arguments.length) (hslots : own (.error e) ∉ slots)
    (h : own (.error e) ∈ c.functionLayout name slots) : Node.Refused c (.expression x) e := by
  unfold functionLayout Dialect.function at h
  cases hget : c.dialect.functions.get? name with
  | none =>
    obtain rfl : e = .unknownFunction c.dialect.name name := by simpa [hget] using h
    exact .unknownFunction hname hget
  | some template =>
    rw [hget] at hx h
    exact refused_of_templateLayout arguments hx hlength hslots h

end Context

open Slot (own)

variable {c : Context} {e : DialectError}

theorem Expression.refused_of_layout {x : Expression} (h : own (.error e) ∈ x.layout c) :
    Node.Refused c (.expression x) e := by
  cases x with
  | column qualifier name =>
    cases qualifier with
    | none => simp [layout, Context.column] at h
    | some aliasName =>
      simp only [layout, Context.column, List.mem_singleton, Slot.own.injEq] at h
      split at h
      · simp at h
      · simp [Rendered.text, Rendered.name, Rendered.andThen_ok, Rendered.empty] at h
  | literal value =>
    cases value with
    | float value =>
      simp only [layout, Context.literal, List.mem_singleton, Slot.own.injEq] at h
      split at h
      · simp at h
      · next hv =>
        obtain rfl := Rendered.error_eq_malformed_iff.1 h
        exact .malformed (.literal hv)
    | _ => simp [layout, Context.literal] at h
  | parameter bound => simp [layout] at h
  | star qualifier => cases qualifier <;> simp [layout, Context.star] at h
  | call name arguments =>
    exact Context.refused_of_functionLayout rfl rfl (by simp) (by simp [Slot.expression]) h
  | format source pattern =>
    exact Context.refused_of_functionLayout rfl rfl rfl (by simp) h
  | extract unit source =>
    simp only [layout, Context.extractLayout] at h
    split at h
    · next pattern hp =>
      refine Context.refused_of_templateLayout [none, some source] ?_ rfl (by simp) h
      rw [template?, extractTemplate?, hp]
      rfl
    · next template hp ht =>
      refine Context.refused_of_templateLayout [none, some source] ?_ rfl (by simp) h
      rw [template?, extractTemplate?, hp]
      simp [ht]
    · simp at h
  | timestampAdd unit magnitude timestamp =>
    simp only [layout, Context.timestampLayout, Dialect.timestampAdd] at h
    cases hp : c.dialect.rules.timestampArithmetic.add? unit with
    | none =>
      obtain rfl : e = c.dialect.unsupported ("timestampadd(" ++ unit.durationField ++ ")") := by
        simpa [hp] using h
      exact .timestampAdd hp
    | some pattern =>
      rw [hp] at h
      exact Context.refused_of_templateLayout [none, some magnitude, some timestamp]
        (by simp [template?, hp]) rfl (by simp) h
  | timestampDiff unit start finish =>
    simp only [layout, Context.timestampLayout, Dialect.timestampDiff] at h
    cases hp : c.dialect.rules.timestampArithmetic.diff? unit with
    | none =>
      obtain rfl : e = c.dialect.unsupported ("timestampdiff(" ++ unit.durationField ++ ")") := by
        simpa [hp] using h
      exact .timestampDiff hp
    | some pattern =>
      rw [hp] at h
      exact Context.refused_of_templateLayout [none, some start, some finish]
        (by simp [template?, hp]) rfl (by simp) h
  | aggregate function isDistinct argument =>
    cases argument with
    | none =>
      simp only [layout, Context.aggregateLayout, Context.aggregate, List.mem_singleton,
        Slot.own.injEq] at h
      split at h
      · simp at h
      · next hf =>
        obtain rfl := Rendered.error_eq_malformed_iff.1 h
        exact .malformed (.aggregate hf)
    | some argument =>
      simp only [layout, Context.aggregateLayout] at h
      split at h
      · next ht =>
        obtain ⟨rfl, ht⟩ := Bool.and_eq_true_iff.1 ht
        rcases Context.error_mem_requiringLayout h with ⟨hs, rfl⟩ | h
        · cases argument with
          | tuple items => exact .lacks .distinctTuple hs
          | _ => simp [isTuple] at ht
        · simp at h
      · simp at h
  | binary left operator right => simp [layout] at h
  | negate operand => simp [layout] at h
  | case branches otherwise =>
    simp only [layout, Context.caseLayout] at h
    split at h
    · next hb =>
      obtain rfl := List.isEmpty_iff.1 hb
      obtain rfl := Slot.error_mem_malformed_iff.1 h
      exact .malformed .case
    · cases otherwise <;> simp [Context.branchLayout] at h
  | cast source target =>
    simp only [layout, Context.castLayout, Dialect.columnType] at h
    split at h
    · simp at h
    · next e' ht =>
      obtain rfl := Slot.error_mem_fail_iff.1 h
      split at ht
      · simp at ht
      · obtain rfl := Except.error.inj ht
        exact .cast
  | subquery query => simp [layout] at h
  | tuple items =>
    simp only [layout, Context.tupleLayout] at h
    split at h
    · next hi =>
      obtain rfl := List.isEmpty_iff.1 hi
      obtain rfl := Slot.error_mem_malformed_iff.1 h
      exact .malformed .tuple
    · simp at h

namespace Context

theorem not_error_mem_pairLayout {operator : Comparison} {pair : Expression × Expression} :
    own (.error e) ∉ pairLayout operator pair := by simp [pairLayout, comparisonLayout]

theorem not_error_mem_alternativeLayout {operator : Comparison}
    {equal : List (Expression × Expression)} {pair : Expression × Expression} :
    own (.error e) ∉ alternativeLayout operator equal pair := by
  unfold alternativeLayout
  split <;> simp [not_error_mem_pairLayout]

theorem not_error_mem_alternativeLayouts {operator : Comparison} :
    ∀ {equal pairs : List (Expression × Expression)},
      ∀ row ∈ alternativeLayouts operator equal pairs, own (.error e) ∉ row
  | _, [] => nofun
  | _, [_] => List.forall_mem_singleton.2 not_error_mem_alternativeLayout
  | _, _ :: _ :: _ =>
    List.forall_mem_cons.2 ⟨not_error_mem_alternativeLayout, not_error_mem_alternativeLayouts⟩

theorem not_error_mem_expandedLayout {operator : Comparison}
    {pairs : List (Expression × Expression)} : own (.error e) ∉ expandedLayout operator pairs := by
  unfold expandedLayout
  split
  · simp [not_error_mem_pairLayout]
  · simp [not_error_mem_pairLayout]
  · rw [Slot.error_mem_parenthesized_iff, Slot.error_mem_separated_iff]
    rintro ⟨row, hrow, h⟩
    exact not_error_mem_alternativeLayouts row hrow h

theorem refused_of_mixedLayout {left right : Expression} {operator : Comparison}
    {items : List Expression} (hr : left = .tuple items ∨ right = .tuple items)
    (h : own (.error e) ∈ c.mixedLayout items.length operator left right) :
    Node.Refused c (.condition (.compare left operator right)) e := by
  unfold mixedLayout at h
  split at h
  · next hi =>
    obtain rfl := Slot.error_mem_malformed_iff.1 h
    exact .malformed (.row hi hr)
  · rcases error_mem_requiringLayout h with ⟨hs, rfl⟩ | h
    · exact .lacks .rowComparison hs
    · simp [comparisonLayout] at h

theorem refused_of_compareLayout {left right : Expression} {operator : Comparison}
    (h : own (.error e) ∈ c.compareLayout operator left right) :
    Node.Refused c (.condition (.compare left operator right)) e := by
  unfold compareLayout at h
  split at h
  · next lefts rights =>
    unfold rowLayout at h
    split at h
    · next hl =>
      obtain rfl := Slot.error_mem_malformed_iff.1 h
      exact .malformed (.rows (by simpa using hl))
    · split at h
      · simp [comparisonLayout] at h
      · exact absurd h not_error_mem_expandedLayout
  · exact refused_of_mixedLayout (.inl rfl) h
  · exact refused_of_mixedLayout (.inr rfl) h
  · simp [comparisonLayout] at h

theorem refused_of_memberLayout {p : Condition} {operand : Expression} {slots : List Slot}
    (hp : p.member? = some operand) (hslots : own (.error e) ∉ slots)
    (h : own (.error e) ∈ c.memberLayout operand slots) :
    Node.Refused c (.condition p) e := by
  unfold memberLayout at h
  split at h
  · obtain ⟨hs, rfl⟩ := (error_mem_requiringLayout h).resolve_right hslots
    exact .lacks (.tupleMember hp) hs
  · obtain ⟨hs, rfl⟩ := (error_mem_requiringLayout h).resolve_right hslots
    exact .lacks (.queryMember hp) hs
  · exact absurd h hslots

end Context

theorem Condition.refused_of_layout {p : Condition} (h : own (.error e) ∈ p.layout c) :
    Node.Refused c (.condition p) e := by
  cases p with
  | compare left operator right => exact Context.refused_of_compareLayout h
  | all items =>
    simp only [layout] at h
    split at h
    · simp at h
    · simp [Context.operandLayout] at h
      obtain ⟨p, -, h⟩ := h
      split at h <;> simp at h
  | any items =>
    simp only [layout] at h
    split at h <;> simp at h
  | not operand => simp [layout] at h
  | isNull operand isNegated => simp [layout] at h
  | inList operand items isNegated =>
    simp only [layout, Context.inListLayout] at h
    split at h
    · simp at h
    · exact Context.refused_of_memberLayout (p := .inList operand items isNegated) rfl
        (by simp [Context.negatable]) h
  | inQuery operand query isNegated =>
    exact Context.refused_of_memberLayout (p := .inQuery operand query isNegated) rfl
      (by simp [Context.negatable]) h
  | «exists» query isNegated => simp [layout] at h
  | like operand pattern escape ignoresCase isNegated =>
    simp only [layout, Context.likeLayout, Context.sideLayout] at h
    split at h <;> cases escape <;> simp [Context.negatable] at h
  | between operand low high isNegated => simp [layout, Context.negatable] at h
  | holds operand => simp [layout] at h

namespace Context

@[simp]
theorem error_eq_table_iff {t : TableReference} : .error e = table t ↔ False := by
  cases ha : t.aliasName != "" <;>
    simp [table, ha, Rendered.textIf, Rendered.table, Rendered.text, Rendered.empty,
      Rendered.andThen_ok]

theorem error_mem_joinLayout {join : Join} (h : own (.error e) ∈ joinLayout join) :
    join.kind ≠ .cross ∧ join.on = none ∧
      e = .malformedTree ("join to " ++ join.table.table ++ " without a condition") := by
  unfold joinLayout at h
  split at h
  · simp at h
  · next ho =>
    split at h
    · simp at h
    · next hk => exact ⟨hk, ho, by simpa using h⟩

theorem error_mem_tableLayouts {hint : String} {items : List FromItem} {row : List Slot}
    (hrow : row ∈ tableLayouts hint items) (h : own (.error e) ∈ row) :
    ∃ join ∈ items.flatMap FromItem.joins, own (.error e) ∈ joinLayout join := by
  induction items generalizing hint with
  | nil => simp [tableLayouts] at hrow
  | cons item rest ih =>
    rw [List.flatMap_cons]
    rcases List.mem_cons.1 hrow with rfl | hrow
    · obtain ⟨join, hj, h⟩ : ∃ join ∈ item.joins, own (.error e) ∈ joinLayout join := by
        simpa [tableLayout] using h
      exact ⟨join, List.mem_append_left _ hj, h⟩
    · obtain ⟨join, hj, h⟩ := ih hrow
      exact ⟨join, List.mem_append_right _ hj, h⟩

theorem not_error_mem_keyLayout {key : SortKey Expression} : own (.error e) ∉ c.keyLayout key := by
  unfold keyLayout
  split <;> simp

theorem not_error_mem_prefixLayout {isDistinct : Bool} {limit : Option Expression} :
    own (.error e) ∉ c.prefixLayout isDistinct limit := by
  unfold prefixLayout
  dsimp only
  split <;> simp

theorem error_mem_paginationLayout {hasOrder : Bool} {limit offset : Option Expression}
    (h : own (.error e) ∈ c.paginationLayout hasOrder limit offset) :
    c.dialect.rowLimit = .unsupported ∧ e = c.dialect.unsupported "row limiting" := by
  unfold paginationLayout at h
  split at h
  · simp at h
  · split at h
    · next hl => exact ⟨hl, by simpa [refuse] using h⟩
    · simp at h
    · simp at h
    · next rows _ => cases limit <;> cases offset <;> cases rows <;> simp at h
    · cases limit <;> cases offset <;> simp at h

/-- The end of a query is refused for its limits, or for an order that it cannot lose. -/
theorem refused_of_endLayout {q : Query}
    (h : own (.error e) ∈ c.endLayout q.orderBy q.limits.1 q.limits.2) :
    Node.Refused c (.query q) e := by
  have hpage {hasOrder : Bool}
      (h : own (.error e) ∈ c.paginationLayout hasOrder q.limits.1 q.limits.2) :
      Node.Refused c (.query q) e := by
    obtain ⟨hl, rfl⟩ := error_mem_paginationLayout h
    exact .unlimited hl
  unfold endLayout at h
  split at h
  · exact hpage h
  · simp only [List.cons_append, List.mem_cons, Slot.error_eq_text_iff, false_or,
      List.mem_append, Slot.error_mem_separated_iff] at h
    rcases h with ⟨row, hrow, h⟩ | h
    · obtain ⟨key, -, rfl⟩ := List.mem_map.1 hrow
      exact absurd h not_error_mem_keyLayout
    · exact hpage h
  · simp only [List.mem_cons, Slot.own.injEq, Rendered.error_eq_warning_iff, false_or] at h
    exact hpage h
  · next hfate =>
    obtain rfl := Slot.error_mem_fail_iff.1 h
    unfold orderFate at hfate
    split at hfate
    · simp at hfate
    · next hk =>
      split at hfate
      · simp at hfate
      · next hn =>
        split at hfate
        · next hp =>
          simp only [Bool.or_eq_true, Bool.not_eq_true', not_or, Bool.not_eq_false,
            Bool.not_eq_true] at hn
          refine .lacks (.nestedOrder hn.1 (by simpa using hk) ?_) hn.2
          cases q <;> exact hp
        · simp at hfate

theorem refused_of_checkPagination {spec : QuerySpec}
    (h : c.checkPagination spec.limit spec.offset = .error e) :
    Node.Refused c (.query (.spec spec)) e := by
  unfold checkPagination at h
  split at h
  · simp at h
  · split at h
    · next hl =>
      obtain rfl := Except.error.inj h
      exact .unlimited hl
    · next since hl =>
      have hsince : since = c.dialect.rowLimit.offsetSince := by rw [hl]; rfl
      have hleads : c.dialect.rowLimit.leads = true := by rw [hl]; rfl
      split at h
      · obtain rfl := Except.error.inj h
        rw [hsince]
        exact .limit hleads (by decide)
      · split at h
        · simp at h
        · obtain rfl := Except.error.inj h
          rw [hsince]
          exact .limit hleads (by decide)
    · next since hl =>
      have hsince : since = c.dialect.rowLimit.offsetSince := by rw [hl]; rfl
      have hleads : c.dialect.rowLimit.leads = true := by rw [hl]; rfl
      split at h
      · obtain rfl := Except.error.inj h
        rw [hsince]
        exact .limit hleads (by decide)
      · simp at h
    · simp at h
    · simp at h

theorem refused_of_specLayout {hint : String} {spec : QuerySpec}
    (h : own (.error e) ∈ c.specLayout hint spec) : Node.Refused c (.query (.spec spec)) e := by
  have hconditions {p : Option Condition}
      (h : ∃ row, p.map (fun p => [Slot.condition p]) = some row ∧ own (.error e) ∈ row) :
      False := by
    cases p <;> simp at h
  simp only [specLayout, List.cons_append, List.mem_cons, List.mem_append,
    Slot.error_eq_text_iff, false_or, Slot.error_mem_separated_iff, Slot.error_mem_clause_iff,
    not_error_mem_prefixLayout] at h
  rcases h with ((((⟨row, hrow, h⟩ | ⟨row, hrow, h⟩) | h) | ⟨row, hrow, h⟩) | h) | h
  · obtain ⟨item, -, rfl⟩ := List.mem_map.1 hrow
    obtain ⟨x, aliasName⟩ := item
    cases aliasName <;> simp [itemLayout] at h
  · obtain ⟨join, hj, h⟩ := error_mem_tableLayouts hrow h
    obtain ⟨hk, ho, rfl⟩ := error_mem_joinLayout h
    exact .malformed (.join hj hk ho)
  · exact (hconditions h).elim
  · unfold groupByLayout at hrow
    split at hrow
    · simp at hrow
    · obtain rfl := Option.some.inj hrow
      simp at h
  · exact (hconditions h).elim
  · exact refused_of_endLayout (q := .spec spec) h

theorem require_bind_error {d : Dialect} {capability : Capability} {construct : String}
    {rest : Unit → Except DialectError Unit}
    (h : (d.require capability construct >>= rest) = .error e) :
    (d.supports capability = false ∧ e = d.lacks capability construct) ∨ rest () = .error e := by
  unfold Dialect.require at h
  split at h
  · exact .inr h
  · next hs => exact .inl ⟨by simpa using hs, (Except.error.inj h).symm⟩

theorem refused_of_checkGroup {operator : SetOperator} {parts : List Query}
    {orderBy : List (SortKey Expression)} {limit offset : Option Expression} {isPaginated : Bool}
    (h : c.checkGroup operator parts.length isPaginated = .error e) :
    Node.Refused c (.query (.group operator parts orderBy limit offset)) e := by
  unfold checkGroup at h
  by_cases hparts : parts.length < 2
  · rw [if_pos hparts] at h
    obtain rfl := Except.error.inj h
    exact .malformed (.operands hparts)
  rw [if_neg hparts] at h
  have hlimit (h : (if isPaginated && c.dialect.rowLimit.leads then
      throw (c.dialect.unsupported "row limiting over a set operation"
        c.dialect.rowLimit.offsetSince) else pure () : Except DialectError Unit) = .error e) :
      Node.Refused c (.query (.group operator parts orderBy limit offset)) e := by
    split at h
    · next hl =>
      obtain rfl := Except.error.inj h
      exact .limit (Bool.and_eq_true_iff.1 hl).2 (by decide)
    · cases h
  have hnested {rest : Unit → Except DialectError Unit}
      (h : (if c.isNested then
        c.dialect.require .unionInSubquery "set operation in a subquery" >>= rest else rest ()) =
          .error e)
      (hrest : rest () = .error e →
        Node.Refused c (.query (.group operator parts orderBy limit offset)) e) :
      Node.Refused c (.query (.group operator parts orderBy limit offset)) e := by
    split at h
    · next hn =>
      rcases require_bind_error h with ⟨hs, rfl⟩ | h
      · exact .lacks (.nestedGroup hn) hs
      · exact hrest h
    · exact hrest h
  dsimp only at h
  split at h
  · next ho =>
    subst ho
    rcases require_bind_error h with ⟨hs, rfl⟩ | h
    · exact .lacks .unionAll hs
    · exact hnested h hlimit
  · exact hnested h hlimit

end Context

/-- A query has the same failures of its own whatever follows its first table. -/
theorem Query.refused_of_layout {hint : String} {q : Query}
    (h : own (.error e) ∈ q.layout c hint) : Node.Refused c (.query q) e := by
  cases q with
  | spec body =>
    simp only [layout, QuerySpec.layout] at h
    split at h
    · next hs =>
      obtain rfl := Slot.error_mem_malformed_iff.1 h
      exact .malformed (.select (List.isEmpty_iff.1 hs))
    · split at h
      · next ht =>
        obtain rfl := Slot.error_mem_malformed_iff.1 h
        exact .malformed (.tables (List.isEmpty_iff.1 ht))
      · split at h
        · next hc =>
          obtain rfl := Slot.error_mem_fail_iff.1 h
          exact Context.refused_of_checkPagination hc
        · exact Context.refused_of_specLayout h
  | group operator parts orderBy limit offset =>
    simp only [layout] at h
    split at h
    · next hc =>
      obtain rfl := Slot.error_mem_fail_iff.1 h
      exact Context.refused_of_checkGroup hc
    · rcases List.mem_append.1 h with h | h
      · simp [Context.operandQueryLayout] at h
        obtain ⟨q, -, h⟩ := h
        split at h <;> simp at h
      · exact Context.refused_of_endLayout (q := .group operator parts orderBy limit offset) h

theorem Node.refused_of_layout {n : Node} (h : own (.error e) ∈ n.layout c) : n.Refused c e := by
  cases n with
  | expression x => exact Expression.refused_of_layout h
  | condition p => exact Condition.refused_of_layout h
  | query q => exact Query.refused_of_layout h

/-! ## Refused statements -/

/-- What follows the first table of a query is no part of it. -/
theorem Query.part_mem_layout_of_hint {hint hint' : String} {q : Query} {b : Bool} {n : Node}
    (h : .part b n ∈ q.layout c hint) : .part b n ∈ q.layout c hint' := by
  cases q with
  | group operator parts orderBy limit offset => exact h
  | spec body =>
    simp only [layout, QuerySpec.layout] at h ⊢
    split at h
    · simp at h
    · split at h
      · simp at h
      · next hs ht =>
        rw [if_neg hs, if_neg ht]
        split at h
        · simp at h
        · exact Context.part_mem_specLayout_iff.2 (Context.part_mem_specLayout_iff.1 h)

namespace Statement

variable {d : Dialect} {config : TranslationConfig} {statement : Statement} {isInner : Bool}
  {n : Node}

/-- A node that is shown is refused for itself, or for a node that is shown below it. -/
theorem refused_of_shows (hs : statement.Shows d isInner n)
    (h : n.render (statement.contextAt d isInner) = .error e) :
    ∃ isInner n, statement.Shows d isInner n ∧ n.Refused (statement.contextAt d isInner) e := by
  generalize hc : statement.contextAt d isInner = c at h
  induction c, n using Node.layout_induction generalizing isInner with
  | step c n ih =>
    subst hc
    rw [Node.render_eq_fill] at h
    rcases Slot.error_of_fill h with h | ⟨b, m, hm, h⟩
    · exact ⟨isInner, n, hs, Node.refused_of_layout h⟩
    · refine ih b m hm (.inside hs hm) ?_ h
      rw [contextAt_part, ← Node.isInner_of_layout hm]

theorem refused_of_lockedLayout {query : Query} {lock : LockOptions}
    (h : own (.error e) ∈ lockedLayout { dialect := d } query lock) :
    (select query (some lock)).Refused d e ∨
      (Node.query query).Refused { dialect := d } e := by
  have hwarning : (.error e : Rendered) ≠ LockOptions.optionWarning d lock := by
    unfold LockOptions.optionWarning
    split
    · split <;> simp [Rendered.empty]
    · simp [Rendered.empty]
  unfold lockedLayout at h
  dsimp only at h
  split at h
  · next hg =>
    obtain rfl : e = d.unsupported "locking a set operation" := by simpa [Context.refuse] using h
    exact .inl (.lock hg)
  · split at h
    · have h : own (.error e) ∈ query.layout { dialect := d } "" := by simpa [hwarning] using h
      exact .inr (Query.refused_of_layout h)
    · next update share _ =>
      simp only [List.mem_cons, Slot.own.injEq, hwarning, false_or] at h
      exact .inr (Query.refused_of_layout h)
    · have h : own (.error e) ∈ query.layout { dialect := d } "" := by simpa using h
      exact .inr (Query.refused_of_layout h)

theorem refused_of_source {table : String} {columns : List String} {source : InsertSource}
    (h : own (.error e) ∈ source.layout columns.length) :
    (insert table columns source).Refused d e := by
  cases source with
  | query q => simp [InsertSource.layout] at h
  | rows values =>
    simp only [InsertSource.layout] at h
    split at h
    · next hv =>
      obtain rfl := List.isEmpty_iff.1 hv
      obtain rfl := Slot.error_mem_malformed_iff.1 h
      exact .malformed .noRows
    · obtain ⟨row, hrow, h⟩ : ∃ row ∈ values.mapIdx fun index row =>
          insertRowLayout columns.length index row, own (.error e) ∈ row := by simpa using h
      obtain ⟨i, hi, rfl⟩ := List.mem_mapIdx.1 hrow
      unfold insertRowLayout at h
      split at h
      · simp at h
      · next hl =>
        obtain rfl := Slot.error_mem_malformed_iff.1 h
        exact .malformed (.row (List.getElem?_eq_getElem hi) hl)

/-- No other statement than a select has a query of its own. -/
theorem refused_of_layout (hs : statement.isSelect = false)
    (h : own (.error e) ∈ statement.layout d) : statement.Refused d e := by
  have hcondition {p : Option Condition} :
      own (.error e) ∉ Slot.clause " where " (p.map fun p => [.condition p]) := by
    cases p <;> simp
  cases statement with
  | select => simp [isSelect] at hs
  | insert table columns source =>
    simp only [layout] at h
    split at h
    · next hc =>
      obtain rfl := List.isEmpty_iff.1 hc
      obtain rfl := Slot.error_mem_malformed_iff.1 h
      exact .malformed .columns
    · have h : own (.error e) ∈ source.layout columns.length := by
        simpa [Rendered.table, Rendered.name] using h
      exact refused_of_source h
  | update target assignments condition =>
    simp only [layout] at h
    split at h
    · next ha =>
      obtain rfl := List.isEmpty_iff.1 ha
      obtain rfl := Slot.error_mem_malformed_iff.1 h
      exact .malformed .assignments
    · simp [Rendered.table, Assignment.layout, hcondition] at h
  | delete target condition => simp [layout, Rendered.table, hcondition] at h

/-- A statement is refused as a whole, or for a node that is written in it. -/
theorem refused_of_render (h : statement.render d = .error e) : statement.Refused d e ∨
    ∃ isInner n, statement.Shows d isInner n ∧ n.Refused (statement.contextAt d isInner) e := by
  rw [render_eq_fill] at h
  rcases Slot.error_of_fill h with h | ⟨b, n, hn, h⟩
  · cases hs : statement.isSelect with
    | false => exact .inl (refused_of_layout hs h)
    | true =>
      cases statement with
      | select query lock =>
        cases lock with
        | none => exact .inr ⟨false, .query query, .outermost rfl, Query.refused_of_layout h⟩
        | some lock =>
          rcases refused_of_lockedLayout h with h | h
          · exact .inl h
          · exact .inr ⟨false, .query query, .outermost rfl, h⟩
      | _ => simp [isSelect] at hs
  · refine .inr ?_
    cases hs : statement.isSelect with
    | false =>
      obtain ⟨-, rfl⟩ := child_of_layout hs hn
      exact refused_of_shows (.part hs hn) h
    | true =>
      cases statement with
      | select query lock =>
        obtain ⟨rfl, -⟩ := part_of_select hn
        have hpart : .part false n ∈ query.layout { dialect := d } "" := by
          cases lock with
          | none => exact hn
          | some lock =>
            obtain ⟨hint, hn⟩ := part_of_lockedLayout hn
            exact Query.part_mem_layout_of_hint hn
        refine refused_of_shows (.inside (.outermost rfl) hpart) ?_
        rw [show (false || n.isQuery && !(Node.query query).isQuery) = false by simp [Node.isQuery]]
        exact h
      | _ => simp [isSelect] at hs

theorem refused_of_translate (h : statement.translate d config = .error e) :
    statement.Refused d e ∨
      ∃ isInner n, statement.Shows d isInner n ∧ n.Refused (statement.contextAt d isInner) e := by
  refine refused_of_render ?_
  unfold translate at h
  cases hr : statement.render d with
  | error e' => simpa [hr, bind, Except.bind] using h
  | ok f => simp [hr, bind, Except.bind, pure, Except.pure] at h

end Statement

/-! ## What holds of every node -/

/-- The property holds of a node and of all nodes below it, each with whether it stands in an inner
query. -/
inductive Node.Throughout (P : Bool → Node → Prop) : Node → Bool → Prop
  | node {isInner : Bool} {n : Node} (here : P isInner n)
      (below : ∀ m ∈ n.children, m.Throughout P (isInner || m.isQuery && !n.isQuery)) :
    Throughout P n isInner

namespace Node.Throughout

variable {P : Bool → Node → Prop} {isInner : Bool} {m n : Node}

theorem holds (h : n.Throughout P isInner) : P isInner n := by
  cases h with
  | node here below => exact here

theorem child (h : n.Throughout P isInner) (hm : m ∈ n.children) :
    m.Throughout P (isInner || m.isQuery && !n.isQuery) := by
  cases h with
  | node here below => exact below m hm

theorem of_below (h : n.Throughout P isInner) (hm : m.Below n) :
    m.Throughout P (isInner || m.isQuery && !n.isQuery) := by
  cases hm with
  | child hm => exact h.child hm
  | @element items e _ ht he =>
    have htuple : Throughout P (.expression (.tuple items)) isInner := by
      simpa [isQuery] using h.child ht
    simpa [isQuery] using htuple.child (List.mem_map_of_mem he)

/-- What holds of the outermost nodes of a statement and below them holds of all that it shows. -/
theorem of_shows {d : Dialect} {statement : Statement}
    (h : ∀ n ∈ statement.children, n.Throughout P (n.isQuery && !statement.isSelect))
    (hs : statement.Shows d isInner n) : n.Throughout P isInner := by
  induction hs with
  | outermost hselect =>
    subst hselect
    simpa [Statement.isSelect] using h _ (List.mem_singleton.2 rfl)
  | part hs hpart =>
    simpa [hs] using h _ (Statement.child_of_layout hs hpart).1
  | inside _ hpart ih => exact ih.of_below (Node.below_of_layout hpart)

end Node.Throughout

end Sql

end SqlDialects
