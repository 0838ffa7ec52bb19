import SqlDialects.Proofs.Literals.Scan
import SqlDialects.Proofs.Rendering.Filled

/-!
# Trees without the contents of their strings

Two trees that differ in nothing but the contents of string literals are the same once the contents
are blanked. A blanked tree is rendered to the blanked fragment of the tree, or fails like it.
-/

namespace SqlDialects

/-- A string of one blank stands for every string. -/
def Literal.blank : Literal → Literal
  | string _ => string " "
  | value => value

namespace Sql

/-! ## Blanked trees -/

mutual

def Expression.blank : Expression → Expression
  | .column qualifier name => .column qualifier name
  | .literal value => .literal value.blank
  | .parameter bound => .parameter bound
  | .call name arguments => .call name (Expression.blankAll arguments)
  | .aggregate function isDistinct argument =>
    .aggregate function isDistinct (Expression.blankOption argument)
  | .extract unit source => .extract unit source.blank
  | .timestampAdd unit magnitude timestamp => .timestampAdd unit magnitude.blank timestamp.blank
  | .timestampDiff unit start finish => .timestampDiff unit start.blank finish.blank
  | .format source _ => .format source.blank " "
  | .binary left operator right => .binary left.blank operator right.blank
  | .negate operand => .negate operand.blank
  | .case branches otherwise =>
    .case (CaseBranch.blankAll branches) (Expression.blankOption otherwise)
  | .cast source target => .cast source.blank target
  | .subquery query => .subquery query.blank
  | .tuple items => .tuple (Expression.blankAll items)
  | .star qualifier => .star qualifier

def Expression.blankAll : List Expression → List Expression
  | [] => []
  | e :: rest => e.blank :: Expression.blankAll rest

def Expression.blankOption : Option Expression → Option Expression
  | none => none
  | some e => some e.blank

def CaseBranch.blankAll :
    List (CaseBranch Condition Expression) → List (CaseBranch Condition Expression)
  | [] => []
  | ⟨condition, result⟩ :: rest => ⟨condition.blank, result.blank⟩ :: CaseBranch.blankAll rest

def Condition.blank : Condition → Condition
  | .compare left operator right => .compare left.blank operator right.blank
  | .all items => .all (Condition.blankAll items)
  | .any items => .any (Condition.blankAll items)
  | .not operand => .not operand.blank
  | .isNull operand isNegated => .isNull operand.blank isNegated
  | .inList operand items isNegated =>
    .inList operand.blank (Expression.blankAll items) isNegated
  | .inQuery operand query isNegated => .inQuery operand.blank query.blank isNegated
  | .exists query isNegated => .exists query.blank isNegated
  | .like operand pattern escape ignoresCase isNegated =>
    .like operand.blank pattern.blank (escape.map fun _ => ' ') ignoresCase isNegated
  | .between operand low high isNegated =>
    .between operand.blank low.blank high.blank isNegated
  | .holds operand => .holds operand.blank

def Condition.blankAll : List Condition → List Condition
  | [] => []
  | p :: rest => p.blank :: Condition.blankAll rest

def Condition.blankOption : Option Condition → Option Condition
  | none => none
  | some p => some p.blank

def Query.blank : Query → Query
  | .spec body => .spec body.blank
  | .group operator parts orderBy limit offset =>
    .group operator (Query.blankAll parts) (SortKey.blankAll orderBy)
      (Expression.blankOption limit) (Expression.blankOption offset)

def Query.blankAll : List Query → List Query
  | [] => []
  | q :: rest => q.blank :: Query.blankAll rest

def QuerySpec.blank : QuerySpec → QuerySpec
  | ⟨isDistinct, select, tables, condition, groupBy, having, orderBy, limit, offset⟩ =>
    ⟨isDistinct, SelectItem.blankAll select, FromItem.blankAll tables,
      Condition.blankOption condition, Expression.blankAll groupBy, Condition.blankOption having,
      SortKey.blankAll orderBy, Expression.blankOption limit, Expression.blankOption offset⟩

def SelectItem.blankAll : List (SelectItem Expression) → List (SelectItem Expression)
  | [] => []
  | ⟨e, aliasName⟩ :: rest => ⟨e.blank, aliasName⟩ :: SelectItem.blankAll rest

def FromItem.blankAll : List FromItem → List FromItem
  | [] => []
  | ⟨root, joins⟩ :: rest => ⟨root, Join.blankAll joins⟩ :: FromItem.blankAll rest

def Join.blankAll : List Join → List Join
  | [] => []
  | ⟨kind, table, on⟩ :: rest => ⟨kind, table, Condition.blankOption on⟩ :: Join.blankAll rest

def SortKey.blankAll : List (SortKey Expression) → List (SortKey Expression)
  | [] => []
  | ⟨e, isDescending, nulls⟩ :: rest => ⟨e.blank, isDescending, nulls⟩ :: SortKey.blankAll rest

end

def Node.blank : Node → Node
  | .expression e => .expression e.blank
  | .condition p => .condition p.blank
  | .query q => .query q.blank

def CaseBranch.blank (branch : CaseBranch Condition Expression) :
    CaseBranch Condition Expression := ⟨branch.condition.blank, branch.result.blank⟩

def SelectItem.blank (item : SelectItem Expression) : SelectItem Expression :=
  { item with expression := item.expression.blank }

def Join.blank (join : Join) : Join := { join with on := join.on.map Condition.blank }

def FromItem.blank (item : FromItem) : FromItem := { item with joins := item.joins.map Join.blank }

def SortKey.blank (key : SortKey Expression) : SortKey Expression :=
  { key with expression := key.expression.blank }

theorem Expression.blankAll_eq (items : List Expression) : blankAll items = items.map blank := by
  induction items <;> simp_all [blankAll]

theorem Condition.blankAll_eq (items : List Condition) : blankAll items = items.map blank := by
  induction items <;> simp_all [blankAll]

theorem Query.blankAll_eq (parts : List Query) : blankAll parts = parts.map blank := by
  induction parts <;> simp_all [blankAll]

theorem CaseBranch.blankAll_eq (branches : List (CaseBranch Condition Expression)) :
    blankAll branches = branches.map blank := by
  induction branches <;> simp_all [blankAll, blank]

theorem SelectItem.blankAll_eq (items : List (SelectItem Expression)) :
    blankAll items = items.map blank := by
  induction items <;> simp_all [blankAll, blank]

theorem SortKey.blankAll_eq (keys : List (SortKey Expression)) :
    blankAll keys = keys.map blank := by
  induction keys <;> simp_all [blankAll, blank]

theorem Expression.blankOption_eq (e : Option Expression) : blankOption e = e.map blank := by
  cases e <;> rfl

theorem Condition.blankOption_eq (p : Option Condition) : blankOption p = p.map blank := by
  cases p <;> rfl

theorem Join.blankAll_eq (joins : List Join) : blankAll joins = joins.map blank := by
  induction joins with
  | nil => simp [blankAll]
  | cons join rest ih =>
    obtain ⟨kind, table, on⟩ := join
    simp [blankAll, blank, Condition.blankOption_eq, ih]

theorem FromItem.blankAll_eq (items : List FromItem) : blankAll items = items.map blank := by
  induction items with
  | nil => simp [blankAll]
  | cons item rest ih =>
    obtain ⟨root, joins⟩ := item
    simp [blankAll, blank, Join.blankAll_eq, ih]

/-! ## Blanked renderings -/

namespace Rendered

def blank (r : Rendered) : Rendered := r.map Fragment.blank

@[simp]
theorem blank_error (e : DialectError) : blank (.error e) = .error e := rfl

@[simp]
theorem blank_malformed (reason : String) : blank (malformed reason) = malformed reason := rfl

@[simp]
theorem blank_text (t : String) : blank (.text t) = .text t := rfl

@[simp]
theorem blank_warning (w : TranslationWarning) : blank (.warning w) = .warning w := rfl

@[simp]
theorem blank_string (content : String) : blank (.string content) = .string " " := rfl

@[simp]
theorem blank_textIf (isWritten : Bool) (t : String) :
    blank (.textIf isWritten t) = .textIf isWritten t := by
  cases isWritten <;> rfl

@[simp]
theorem blank_andThen (r s : Rendered) : (r.andThen s).blank = r.blank.andThen s.blank := by
  cases r with
  | error e => rfl
  | ok f =>
    cases s with
    | error e => rfl
    | ok g => simp [andThen_ok, blank, Except.map, Fragment.blank, Fragment.append_def]

end Rendered

namespace Slot

def blank : Slot → Slot
  | own r => own r.blank
  | part isInner n => part isInner n.blank

variable {slots slots' : List Slot}

@[simp]
theorem blank_own (r : Rendered) : (own r).blank = own r.blank := rfl

@[simp]
theorem blank_text (t : String) : (text t).blank = text t := rfl

@[simp]
theorem blank_expression (e : Expression) : (expression e).blank = expression e.blank := rfl

@[simp]
theorem blank_condition (p : Condition) : (condition p).blank = condition p.blank := rfl

@[simp]
theorem blank_part (b : Bool) (n : Node) : (part b n).blank = part b n.blank := rfl

@[simp]
theorem map_blank_malformed (reason : String) :
    (malformed reason).map blank = malformed reason := rfl

@[simp]
theorem map_blank_fail (e : DialectError) : (fail e).map blank = fail e := rfl

@[simp]
theorem map_blank_subquery (q : Query) : (subquery q).map blank = subquery q.blank := rfl

@[simp]
theorem map_blank_parenthesized :
    (parenthesized slots).map blank = parenthesized (slots.map blank) := by
  simp [parenthesized]

@[simp]
theorem map_blank_separated (separator : String) (rows : List (List Slot)) :
    (separated separator rows).map blank = separated separator (rows.map (List.map blank)) := by
  induction rows with
  | nil => rfl
  | cons row rest ih =>
    cases rest with
    | nil => rfl
    | cons next rest => simpa [separated] using ih

@[simp]
theorem map_blank_clause (keyword : String) (row : Option (List Slot)) :
    (clause keyword row).map blank = clause keyword (row.map (List.map blank)) := by
  cases row <;> rfl

/-- Blanked slots are filled to the blanked fragment, if each part is. -/
theorem fill_map_blank {c : Context}
    (h : ∀ b n, part b n ∈ slots →
      n.blank.render (if b then c.nested else c) = (n.render (if b then c.nested else c)).blank) :
    fill c (slots.map blank) = (fill c slots).blank := by
  induction slots with
  | nil => rfl
  | cons slot rest ih =>
    have hrest := ih fun b n hn => h b n (List.mem_cons_of_mem _ hn)
    rw [List.map_cons, fill_cons, fill_cons, Rendered.blank_andThen, hrest]
    cases slot with
    | own r => rfl
    | part b n => rw [blank_part, render, render, h b n List.mem_cons_self]

end Slot

/-! ## Layouts of blanked expressions -/

namespace Context

variable {c : Context}

theorem requiringLayout_blank {capability : Capability} {construct : String} {slots : List Slot} :
    (c.requiringLayout capability construct slots).map Slot.blank =
      c.requiringLayout capability construct (slots.map Slot.blank) := by
  unfold requiringLayout
  split <;> simp

theorem templateLayout_blank {template : FunctionTemplate} {arguments : List Slot} :
    (templateLayout template arguments).map Slot.blank =
      templateLayout template (arguments.map Slot.blank) := by
  unfold templateLayout
  rw [List.length_map]
  split
  · rw [List.map_map]
    refine List.map_congr_left fun segment _ => ?_
    cases segment with
    | text t => rfl
    | argument index =>
      simp only [Function.comp_apply, argumentSlot, List.getElem?_map]
      cases arguments[index]? <;> rfl
  · rfl

theorem functionLayout_blank {name : String} {arguments : List Slot} :
    (c.functionLayout name arguments).map Slot.blank =
      c.functionLayout name (arguments.map Slot.blank) := by
  unfold functionLayout
  split
  · exact templateLayout_blank
  · rfl

theorem extractLayout_blank {unit : TemporalUnit} {source : Slot} :
    (c.extractLayout unit source).map Slot.blank = c.extractLayout unit source.blank := by
  unfold extractLayout
  dsimp only
  split
  · exact templateLayout_blank
  · exact templateLayout_blank
  · rfl

theorem timestampLayout_blank {name : String} {pattern : Except DialectError String}
    {arguments : List Slot} :
    (timestampLayout name pattern arguments).map Slot.blank =
      timestampLayout name pattern (arguments.map Slot.blank) := by
  unfold timestampLayout
  split
  · exact templateLayout_blank
  · rfl

theorem isTuple_blank (e : Expression) :
    Expression.isTuple (some e.blank) = Expression.isTuple (some e) := by cases e <;> rfl

theorem aggregateLayout_blank {function : AggregateFunction} {isDistinct : Bool}
    {argument : Option Expression} :
    (c.aggregateLayout function isDistinct argument).map Slot.blank =
      c.aggregateLayout function isDistinct (argument.map Expression.blank) := by
  cases argument with
  | none =>
    simp only [aggregateLayout, aggregate, Option.map_none]
    split <;> rfl
  | some e =>
    simp only [aggregateLayout, Option.map_some, isTuple_blank]
    split
    · rw [requiringLayout_blank]
      simp
    · simp

theorem column_blank {qualifier : Option String} {name : String} :
    (c.column qualifier name).blank = c.column qualifier name := by
  unfold column
  split
  · split <;> rfl
  · rfl

theorem literal_blank {value : Literal} : (c.literal value).blank = c.literal value.blank := by
  cases value with
  | float x =>
    simp only [literal, Literal.blank]
    split <;> rfl
  | _ => rfl

theorem optionClause_blank (keyword : String) (e : Option Expression) :
    (Slot.clause keyword (e.map fun x => [.expression x])).map Slot.blank =
      Slot.clause keyword ((e.map Expression.blank).map fun x => [.expression x]) := by
  cases e <;> rfl

theorem conditionClause_blank (keyword : String) (p : Option Condition) :
    (Slot.clause keyword (p.map fun q => [.condition q])).map Slot.blank =
      Slot.clause keyword ((p.map Condition.blank).map fun q => [.condition q]) := by
  cases p <;> rfl

theorem items_blank (separator : String) (items : List Expression) :
    (Slot.separated separator (items.map fun e => [.expression e])).map Slot.blank =
      Slot.separated separator ((items.map Expression.blank).map fun e => [.expression e]) := by
  simp [Function.comp_def]

theorem caseLayout_blank {branches : List (CaseBranch Condition Expression)}
    {otherwise : Option Expression} :
    (caseLayout branches otherwise).map Slot.blank =
      caseLayout (branches.map CaseBranch.blank) (otherwise.map Expression.blank) := by
  unfold caseLayout
  rw [List.isEmpty_map]
  split
  · rfl
  · simp only [List.map_append, List.map_cons, List.map_nil, optionClause_blank,
      List.map_flatMap, List.flatMap_map, Slot.blank_text]
    rfl

theorem castLayout_blank {source : Expression} {target : CastTarget} :
    (c.castLayout source target).map Slot.blank = c.castLayout source.blank target := by
  unfold castLayout
  split <;> rfl

theorem tupleLayout_blank {items : List Expression} :
    (tupleLayout items).map Slot.blank = tupleLayout (items.map Expression.blank) := by
  unfold tupleLayout
  rw [List.isEmpty_map]
  split
  · rfl
  · rw [Slot.map_blank_parenthesized, items_blank]

theorem star_blank {qualifier : Option String} : (star qualifier).blank = star qualifier := by
  cases qualifier <;> rfl

theorem write_blank (style : DatetimeFormat) : style.write " " = " " := by
  cases style <;> decide

end Context

theorem Expression.layout_blank {c : Context} (e : Expression) :
    e.blank.layout c = (e.layout c).map Slot.blank := by
  cases e with
  | column qualifier name =>
    simp only [blank, layout, List.map_cons, List.map_nil, Slot.blank_own, Context.column_blank]
  | literal value =>
    simp only [blank, layout, List.map_cons, List.map_nil, Slot.blank_own, Context.literal_blank]
  | star qualifier =>
    simp only [blank, layout, List.map_cons, List.map_nil, Slot.blank_own, Context.star_blank]
  | parameter | subquery | negate | binary => simp [blank, layout] <;> rfl
  | call name arguments =>
    simp only [blank, layout, blankAll_eq, Context.functionLayout_blank, List.map_map]
    rfl
  | aggregate function isDistinct argument =>
    rw [blank, layout, layout, blankOption_eq, Context.aggregateLayout_blank]
  | extract unit source =>
    rw [blank, layout, layout, Context.extractLayout_blank, Slot.blank_expression]
  | timestampAdd | timestampDiff =>
    simp only [blank, layout, Context.timestampLayout_blank, List.map_cons, List.map_nil,
      Slot.blank_text, Slot.blank_expression]
  | format source pattern =>
    simp only [blank, layout, Context.functionLayout_blank, List.map_cons, List.map_nil,
      Slot.blank_expression, Slot.blank_own, Rendered.blank_string, Context.write_blank]
  | case branches otherwise =>
    rw [blank, layout, layout, CaseBranch.blankAll_eq, blankOption_eq, Context.caseLayout_blank]
  | cast source target => rw [blank, layout, layout, Context.castLayout_blank]
  | tuple items => rw [blank, layout, layout, blankAll_eq, Context.tupleLayout_blank]

/-! ## Layouts of blanked conditions -/

namespace Context

variable {c : Context}

/-- A pair of elements without the contents of their strings. -/
def blankPair (pair : Expression × Expression) : Expression × Expression :=
  (pair.1.blank, pair.2.blank)

theorem comparisonLayout_blank {operator : Comparison} {left right : Expression} :
    (comparisonLayout operator [.expression left] [.expression right]).map Slot.blank =
      comparisonLayout operator [.expression left.blank] [.expression right.blank] := rfl

theorem pairLayouts_blank {operator : Comparison} {pairs : List (Expression × Expression)} :
    (pairs.map (pairLayout operator)).map (List.map Slot.blank) =
      (pairs.map blankPair).map (pairLayout operator) := by
  rw [List.map_map, List.map_map]
  rfl

theorem alternativeLayout_blank {operator : Comparison} {equal : List (Expression × Expression)}
    {pair : Expression × Expression} :
    (alternativeLayout operator equal pair).map Slot.blank =
      alternativeLayout operator (equal.map blankPair) (blankPair pair) := by
  unfold alternativeLayout
  rw [List.isEmpty_map]
  split
  · rfl
  · rw [Slot.map_blank_parenthesized, Slot.map_blank_separated, List.map_append,
      pairLayouts_blank]
    rfl

theorem alternativeLayouts_blank {operator : Comparison}
    {equal pairs : List (Expression × Expression)} :
    (alternativeLayouts operator equal pairs).map (List.map Slot.blank) =
      alternativeLayouts operator (equal.map blankPair) (pairs.map blankPair) := by
  induction pairs generalizing equal with
  | nil => rfl
  | cons pair rest ih =>
    cases rest with
    | nil => simp [alternativeLayouts, alternativeLayout_blank]
    | cons next rest =>
      have htail : (alternativeLayouts operator (equal ++ [pair]) (next :: rest)).map
          (List.map Slot.blank) =
          alternativeLayouts operator (equal.map blankPair ++ [blankPair pair])
            (blankPair next :: rest.map blankPair) := by
        rw [ih, List.map_append, List.map_cons, List.map_nil, List.map_cons]
      simp only [alternativeLayouts, List.map_cons, alternativeLayout_blank, htail]

theorem expandedLayout_blank {operator : Comparison} {pairs : List (Expression × Expression)} :
    (expandedLayout operator pairs).map Slot.blank =
      expandedLayout operator (pairs.map blankPair) := by
  cases operator with
  | equal | notEqual =>
    simp only [expandedLayout, Slot.map_blank_parenthesized, Slot.map_blank_separated,
      pairLayouts_blank]
  | less | lessOrEqual | greater | greaterOrEqual =>
    simp only [expandedLayout, Slot.map_blank_parenthesized, Slot.map_blank_separated,
      alternativeLayouts_blank, List.map_nil]

theorem rowLayout_blank {operator : Comparison} {left right : List Expression} :
    (c.rowLayout operator left right).map Slot.blank =
      c.rowLayout operator (left.map Expression.blank) (right.map Expression.blank) := by
  unfold rowLayout
  rw [List.length_map, List.length_map]
  split
  · rfl
  · split
    · rw [comparisonLayout_blank, Expression.blank, Expression.blank, Expression.blankAll_eq,
        Expression.blankAll_eq]
    · rw [expandedLayout_blank, List.zip_map]
      rfl

theorem mixedLayout_blank {elements : Nat} {operator : Comparison} {left right : Expression} :
    (c.mixedLayout elements operator left right).map Slot.blank =
      c.mixedLayout elements operator left.blank right.blank := by
  unfold mixedLayout
  split
  · rfl
  · rw [requiringLayout_blank, comparisonLayout_blank]

theorem compareLayout_blank {operator : Comparison} {left right : Expression} :
    (c.compareLayout operator left right).map Slot.blank =
      c.compareLayout operator left.blank right.blank := by
  cases left with
  | tuple lefts =>
    have hlefts : (Expression.blankAll lefts).length = lefts.length := by
      rw [Expression.blankAll_eq, List.length_map]
    cases right with
    | tuple rights =>
      simp only [compareLayout, Expression.blank, Expression.blankAll_eq, rowLayout_blank]
    | _ => simp only [compareLayout, mixedLayout_blank, Expression.blank, hlefts]
  | _ =>
    cases right with
    | tuple rights =>
      have hrights : (Expression.blankAll rights).length = rights.length := by
        rw [Expression.blankAll_eq, List.length_map]
      simp only [compareLayout, mixedLayout_blank, Expression.blank, hrights]
    | _ => rfl

theorem memberLayout_blank {operand : Expression} {slots : List Slot} :
    (c.memberLayout operand slots).map Slot.blank =
      c.memberLayout operand.blank (slots.map Slot.blank) := by
  cases operand <;> first | exact requiringLayout_blank | rfl

theorem negatable_blank {isNegated : Bool} {keyword : String} :
    (negatable isNegated keyword).blank = negatable isNegated keyword := rfl

theorem sideLayout_blank {isLowered : Bool} {e : Expression} :
    (c.sideLayout isLowered e).map Slot.blank = c.sideLayout isLowered e.blank := by
  cases isLowered <;> rfl

theorem inListLayout_blank {operand : Expression} {items : List Expression} {isNegated : Bool} :
    (c.inListLayout operand items isNegated).map Slot.blank =
      c.inListLayout operand.blank (items.map Expression.blank) isNegated := by
  unfold inListLayout
  rw [List.isEmpty_map]
  split
  · rfl
  · simp only [memberLayout_blank, List.map_append, List.map_cons, items_blank, Slot.blank_own,
      negatable_blank, Slot.blank_expression]
    rfl

theorem likeLayout_blank {operand pattern : Expression} {escape : Option Char}
    {ignoresCase isNegated : Bool} :
    (c.likeLayout operand pattern escape ignoresCase isNegated).map Slot.blank =
      c.likeLayout operand.blank pattern.blank (escape.map fun _ => ' ') ignoresCase
        isNegated := by
  unfold likeLayout
  simp only [List.map_append, List.map_cons, sideLayout_blank, Slot.blank_own, negatable_blank]
  cases escape <;> rfl

theorem isLooser_blank (p : Condition) : isLooser p.blank = isLooser p := by
  cases p with
  | any items =>
    match items with
    | [] => rfl
    | [_] => rfl
    | _ :: _ :: _ => rfl
  | _ => rfl

theorem operandLayout_blank {p : Condition} :
    (operandLayout p).map Slot.blank = operandLayout p.blank := by
  unfold operandLayout
  rw [isLooser_blank]
  split <;> rfl

end Context

theorem Condition.layout_blank {c : Context} (p : Condition) :
    p.blank.layout c = (p.layout c).map Slot.blank := by
  cases p with
  | compare left operator right => rw [blank, layout, layout, Context.compareLayout_blank]
  | all items =>
    simp only [blank, layout, blankAll_eq, List.isEmpty_map]
    split
    · rfl
    · simp only [Slot.map_blank_separated, List.map_map]
      congr 1
      exact List.map_congr_left fun q _ => Context.operandLayout_blank.symm
  | any items =>
    simp only [blank, layout, blankAll_eq, List.isEmpty_map]
    split
    · rfl
    · simp [Function.comp_def]
  | inList operand items isNegated =>
    rw [blank, layout, layout, Expression.blankAll_eq, Context.inListLayout_blank]
  | inQuery operand query isNegated =>
    simp only [blank, layout, Context.memberLayout_blank, List.map_cons, Slot.blank_expression,
      Slot.blank_own, Context.negatable_blank, Slot.map_blank_subquery]
  | «exists» query isNegated =>
    simp only [blank, layout, List.map_cons, Slot.blank_text, Slot.map_blank_subquery]
  | like operand pattern escape ignoresCase isNegated =>
    rw [blank, layout, layout, Context.likeLayout_blank]
  | between operand low high isNegated =>
    simp only [blank, layout, List.map_cons, List.map_nil, Slot.blank_expression, Slot.blank_own,
      Slot.blank_text, Context.negatable_blank]
  | not | isNull | holds =>
    simp only [blank, layout, List.map_cons, List.map_nil, Slot.blank_expression,
      Slot.blank_condition, Slot.blank_text]

end Sql

end SqlDialects
