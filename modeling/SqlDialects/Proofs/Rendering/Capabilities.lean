import SqlDialects.Dialect.Resolve
import SqlDialects.Proofs.Rendering.Kept
import SqlDialects.Proofs.Rendering.Locks

/-!
# What a rendering asks of its dialect

A statement is written only if its dialect has the capability for each construct in it, whatever
the depth at which the construct stands.
-/

namespace SqlDialects.Sql

/-! ## Constructs that need a capability -/

namespace Query

/-- How many rows a query is limited to, and from which row on. -/
def limits : Query → Option Expression × Option Expression
  | spec body => (body.limit, body.offset)
  | group _ _ _ limit offset => (limit, offset)

/-- The query ends with its sort list, which only its limits follow. -/
def WritesOrder (c : Context) (q : Query) : Prop :=
  q.orderBy ≠ [] ∧ ∃ before, q.layout c "" =
    before ++ (.text " order by " :: Slot.separated ", " (q.orderBy.map c.keyLayout) ++
      c.paginationLayout true q.limits.1 q.limits.2)

end Query

/-- Several values, or what a query results in. -/
def Expression.IsComposite : Expression → Prop
  | .tuple _ | .subquery _ => True
  | _ => False

/-- A node that is written at a place uses a capability there. -/
inductive Node.Uses (c : Context) : Node → Capability → Prop
  | unionAll {parts : List Query} {orderBy : List (SortKey Expression)}
      {limit offset : Option Expression} :
    Uses c (.query (.group .unionAll parts orderBy limit offset)) .unionAll
  | nestedGroup {operator : SetOperator} {parts : List Query}
      {orderBy : List (SortKey Expression)} {limit offset : Option Expression}
      (h : c.isNested = true) :
    Uses c (.query (.group operator parts orderBy limit offset)) .unionInSubquery
  | distinctTuple {function : AggregateFunction} {items : List Expression} :
    Uses c (.expression (.aggregate function true (some (.tuple items)))) .tupleDistinctCounts
  | inQuery {operand : Expression} {query : Query} {isNegated : Bool}
      (h : operand.IsComposite) :
    Uses c (.condition (.inQuery operand query isNegated)) .subselectAsInPredicateLhs
  | inList {operand : Expression} {items : List Expression} {isNegated : Bool}
      (h : operand.IsComposite) (hi : items ≠ []) :
    Uses c (.condition (.inList operand items isNegated)) .subselectAsInPredicateLhs
  | nullsOrdering {q : Query} {key : SortKey Expression} (h : q.WritesOrder c)
      (hk : key ∈ q.orderBy)
      (hn : .text " nulls first" ∈ c.keyLayout key ∨ .text " nulls last" ∈ c.keyLayout key) :
    Uses c (.query q) .nullsOrdering
  | nestedOrder {q : Query} (h : q.WritesOrder c) (hn : c.isNested = true) :
    Uses c (.query q) .orderByInSubquery
  | ilike {operand pattern : Expression} {escape : Option Char} {ignoresCase isNegated : Bool}
      (h : .own (Context.negatable isNegated "ilike ") ∈
        (Condition.like operand pattern escape ignoresCase isNegated).layout c) :
    Uses c (.condition (.like operand pattern escape ignoresCase isNegated)) .caseInsensitiveLike

/-! ## Refusals -/

namespace Slot

variable {c : Context} {f : Fragment} {slots : List Slot}

theorem not_error_mem (h : fill c slots = .ok f) {e : DialectError} : .own (.error e) ∉ slots := by
  intro he
  obtain ⟨g, hg⟩ := fill_renders h he
  simp at hg

@[simp]
theorem text_eq_text_iff {t t' : String} : text t = text t' ↔ t = t' := by
  simp [text, Rendered.text, Fragment.ofText]

@[simp]
theorem text_eq_expression_iff {t : String} {e : Expression} :
    text t = expression e ↔ False := by simp [text, expression]

@[simp]
theorem text_eq_textIf_iff {t t' : String} {b : Bool} :
    text t = own (.textIf b t') ↔ b = true ∧ t = t' := by
  cases b <;> simp [text, Rendered.textIf, Rendered.text, Rendered.empty, Fragment.ofText]

@[simp]
theorem text_eq_string_iff {t content : String} : text t = own (.string content) ↔ False := by
  simp [text, Rendered.text, Rendered.string, Fragment.ofText]

@[simp]
theorem warning_eq_text_iff {w : TranslationWarning} {t : String} :
    own (.warning w) = text t ↔ False := by
  simp [text, Rendered.warning, Rendered.text, Fragment.ofText]

@[simp]
theorem warning_eq_textIf_iff {w : TranslationWarning} {b : Bool} {t : String} :
    Rendered.warning w = .textIf b t ↔ False := by
  cases b <;>
    simp [Rendered.warning, Rendered.textIf, Rendered.text, Rendered.empty, Fragment.ofText]

theorem mem_separated {slot : Slot} {separator : String} {rows : List (List Slot)}
    (h : slot ∈ separated separator rows) :
    slot = text separator ∨ ∃ row ∈ rows, slot ∈ row := by
  induction rows with
  | nil => simp [separated] at h
  | cons row rest ih =>
    cases rest with
    | nil => exact .inr ⟨row, List.mem_singleton.2 rfl, h⟩
    | cons next rest =>
      rw [separated, List.mem_append, List.mem_cons] at h
      rcases h with h | h | h
      · exact .inr ⟨row, List.mem_cons_self, h⟩
      · exact .inl h
      · rcases ih h with h | h
        · exact .inl h
        · obtain ⟨row, hr, hs⟩ := h
          exact .inr ⟨row, List.mem_cons_of_mem _ hr, hs⟩

end Slot

namespace Context

open Slot (fill)

variable {c : Context} {f : Fragment}

theorem supports_of_requiringLayout {capability : Capability} {construct : String}
    {slots : List Slot} (h : fill c (c.requiringLayout capability construct slots) = .ok f) :
    c.dialect.supports capability = true := by
  by_contra hs
  rw [requiringLayout, if_neg hs] at h
  exact Slot.not_error_mem h (List.mem_singleton.2 rfl)

theorem supports_of_memberLayout {operand : Expression} {slots : List Slot}
    (h : fill c (c.memberLayout operand slots) = .ok f) (ho : operand.IsComposite) :
    c.dialect.supports .subselectAsInPredicateLhs = true := by
  cases operand with
  | tuple | subquery => exact supports_of_requiringLayout h
  | _ => exact ho.elim

theorem supports_of_checkGroup {operator : SetOperator} {operands : Nat} {isPaginated : Bool}
    (h : c.checkGroup operator operands isPaginated = .ok ()) :
    (operator = .unionAll → c.dialect.supports .unionAll = true) ∧
      (c.isNested = true → c.dialect.supports .unionInSubquery = true) := by
  unfold checkGroup at h
  simp only [Dialect.require] at h
  constructor
  · intro ho
    by_contra hs
    simp only [if_pos ho, if_neg hs] at h
    split at h <;> cases h
  · intro hn
    by_contra hs
    simp only [if_pos hn, if_neg hs] at h
    split at h
    · cases h
    · split at h
      · split at h <;> cases h
      · cases h

theorem supports_of_keyLayout {key : SortKey Expression}
    (h : .text " nulls first" ∈ c.keyLayout key ∨ .text " nulls last" ∈ c.keyLayout key) :
    c.dialect.supports .nullsOrdering = true := by
  by_contra hs
  rw [Bool.not_eq_true] at hs
  unfold keyLayout at h
  rw [hs] at h
  cases hn : key.nulls with
  | none => simp [hn] at h
  | some nulls => cases nulls <;> simp [hn] at h

/-- A sort list has no warnings. -/
theorem warning_not_mem_keyLayouts {w : TranslationWarning} {keys : List (SortKey Expression)} :
    .own (.warning w) ∉ Slot.separated ", " (keys.map c.keyLayout) := by
  intro h
  rcases Slot.mem_separated h with h | ⟨row, hrow, h⟩
  · simp at h
  · obtain ⟨key, -, rfl⟩ := List.mem_map.1 hrow
    unfold keyLayout at h
    split at h <;> simp [Slot.expression] at h

theorem supports_of_likeLayout {operand pattern : Expression} {escape : Option Char}
    {ignoresCase isNegated : Bool} (h : .own (negatable isNegated "ilike ") ∈
      c.likeLayout operand pattern escape ignoresCase isNegated) :
    c.dialect.supports .caseInsensitiveLike = true := by
  by_contra hs
  rw [Bool.not_eq_true] at hs
  have htext (keyword : String) : Slot.own (negatable isNegated keyword) =
      .text (if isNegated then " not " ++ keyword else " " ++ keyword) := rfl
  -- Every text of a side ends in a parenthesis.
  have hside (isLowered : Bool) (e : Expression) :
      .own (negatable isNegated "ilike ") ∉ c.sideLayout isLowered e := by
    intro h
    rw [htext] at h
    unfold sideLayout at h
    split at h
    · simp only [List.mem_cons, Slot.text_eq_text_iff, Slot.text_eq_expression_iff,
        List.not_mem_nil, or_false, false_or] at h
      have hend (t : String) (ht : t = c.dialect.rules.lowercaseFunction ++ "(" ∨ t = ")") :
          t.toList.getLast? ≠ some ' ' := by
        rcases ht with rfl | rfl <;> simp
      exact hend _ h (by cases isNegated <;> rfl)
    · simp at h
  rw [likeLayout, hs, Bool.and_false] at h
  simp only [Bool.not_false, Bool.and_true, List.mem_append, List.mem_cons, hside,
    false_or, or_false] at h
  rcases h with h | h
  · rw [htext, htext, Slot.text_eq_text_iff] at h
    revert h
    cases isNegated <;> decide
  · rw [htext] at h
    cases escape with
    | none => simp [Slot.clause] at h
    | some e =>
      revert h
      cases isNegated <;> simp [Slot.clause]

/-- Without the capability the order of an inner query is refused, or removed where nothing else
follows it. -/
theorem endLayout_of_nested {keys : List (SortKey Expression)} {limit offset : Option Expression}
    (hk : keys ≠ []) (hn : c.isNested = true)
    (hs : c.dialect.supports .orderByInSubquery = false) :
    (∃ e, c.endLayout keys limit offset = Slot.fail e) ∨
      limit = none ∧ offset = none ∧
        c.endLayout keys limit offset = [.own (.warning .subqueryOrderByRemoved)] := by
  have hkeys : keys.isEmpty = false := List.isEmpty_eq_false_iff.2 hk
  unfold endLayout orderFate
  rw [hkeys, hn, hs]
  cases limit with
  | some n => exact .inl ⟨_, rfl⟩
  | none =>
    cases offset with
    | some n => exact .inl ⟨_, rfl⟩
    | none => exact .inr ⟨rfl, rfl, rfl⟩

end Context

namespace Query

open Slot (fill)

variable {c : Context} {f : Fragment} {q : Query}

/-- A query that is not refused ends with its sort list, if it keeps it, and its limits. -/
theorem layout_of_fill (h : fill c (q.layout c "") = .ok f) : ∃ start,
    q.layout c "" = start ++ c.endLayout q.orderBy q.limits.1 q.limits.2 := by
  cases q with
  | spec body =>
    simp only [layout, QuerySpec.layout] at h ⊢
    split at h
    · exact absurd (List.mem_singleton.2 rfl) (Slot.not_error_mem h)
    · split at h
      · exact absurd (List.mem_singleton.2 rfl) (Slot.not_error_mem h)
      · split at h
        · exact absurd (List.mem_singleton.2 rfl) (Slot.not_error_mem h)
        · next hne ht _ hcheck =>
          rw [if_neg hne, if_neg ht]
          exact ⟨_, rfl⟩
  | group operator parts orderBy limit offset =>
    simp only [layout] at h ⊢
    split at h
    · exact absurd (List.mem_singleton.2 rfl) (Slot.not_error_mem h)
    · exact ⟨_, rfl⟩

theorem supports_of_writesOrder (h : fill c (q.layout c "") = .ok f) (hw : q.WritesOrder c)
    (hn : c.isNested = true) : c.dialect.supports .orderByInSubquery = true := by
  by_contra hs
  rw [Bool.not_eq_true] at hs
  obtain ⟨hne, before, hbefore⟩ := hw
  obtain ⟨start, hstart⟩ := layout_of_fill h
  rcases Context.endLayout_of_nested hne hn hs with ⟨e, he⟩ | ⟨hl, ho, hend⟩
  · refine Slot.not_error_mem h (e := e) ?_
    rw [hstart, he]
    exact List.mem_append_right _ (List.mem_singleton.2 rfl)
  · -- The last slot would be the warning, and one of the sort list as well.
    rw [hend] at hstart
    have hpage : c.paginationLayout true q.limits.1 q.limits.2 = [] := by rw [hl, ho]; rfl
    rw [hpage, List.append_nil] at hbefore
    obtain ⟨init, last, hlast⟩ : ∃ init last, (Slot.text " order by " ::
        Slot.separated ", " (q.orderBy.map c.keyLayout)) = init ++ [last] :=
      ⟨_, _, (List.dropLast_append_getLast (List.cons_ne_nil _ _)).symm⟩
    rw [hlast, hstart, ← List.append_assoc] at hbefore
    obtain ⟨-, hw⟩ := List.append_inj' hbefore rfl
    have hmem : .own (.warning .subqueryOrderByRemoved) ∈ Slot.text " order by " ::
        Slot.separated ", " (q.orderBy.map c.keyLayout) := by
      rw [hlast, ← hw]
      exact List.mem_append_right _ (List.mem_singleton.2 rfl)
    exact Context.warning_not_mem_keyLayouts (by simpa using hmem)

end Query

/-! ## Written nodes -/

namespace Node

variable {c : Context} {f : Fragment} {n : Node} {capability : Capability}

/-- A node is refused if it uses something that the dialect has no capability for. -/
theorem supports_of_uses (h : n.render c = .ok f) (hu : n.Uses c capability) :
    c.dialect.supports capability = true := by
  rw [render_eq_fill] at h
  have hcheck {operator : SetOperator} {parts : List Query} {orderBy : List (SortKey Expression)}
      {limit offset : Option Expression}
      (h : Slot.fill c ((Query.group operator parts orderBy limit offset).layout c "") = .ok f) :
      c.checkGroup operator parts.length (limit.isSome || offset.isSome) = .ok () := by
    simp only [Query.layout] at h
    split at h
    · exact absurd (List.mem_singleton.2 rfl) (Slot.not_error_mem h)
    · assumption
  cases hu with
  | unionAll => exact (Context.supports_of_checkGroup (hcheck h)).1 rfl
  | nestedGroup hn => exact (Context.supports_of_checkGroup (hcheck h)).2 hn
  | distinctTuple => exact Context.supports_of_requiringLayout h
  | inQuery ho => exact Context.supports_of_memberLayout h ho
  | inList ho hi =>
    simp only [layout, Condition.layout, Context.inListLayout] at h
    rw [if_neg (by simpa using hi)] at h
    exact Context.supports_of_memberLayout h ho
  | nullsOrdering _ _ hn => exact Context.supports_of_keyLayout hn
  | nestedOrder hw hn => exact Query.supports_of_writesOrder h hw hn
  | ilike hl => exact Context.supports_of_likeLayout hl

/-- Queries in an expression or a condition are inner queries, those in a query its operands. -/
theorem isInner_of_layout {b : Bool} {m : Node} (h : .part b m ∈ n.layout c) :
    b = (m.isQuery && !n.isQuery) := by
  cases n with
  | expression e =>
    obtain ⟨-, rfl⟩ := Expression.child_of_layout h
    simp [isQuery]
  | condition p =>
    obtain ⟨-, rfl⟩ := Condition.below_of_layout h
    simp [isQuery]
  | query q =>
    obtain ⟨rfl, -⟩ := Query.child_of_layout h
    simp [isQuery]

end Node

namespace Statement

/-- Where a node of a statement stands, in an inner query or not. -/
def contextAt (d : Dialect) (statement : Statement) (isInner : Bool) : Context :=
  if isInner then (statement.context d).nested else statement.context d

/-- A statement shows a node, which stands in an inner query or not. The query of a select is no
inner query, and neither are the operands of a set operation for being operands; any other query is
one. -/
inductive Shows (d : Dialect) (statement : Statement) : Bool → Node → Prop
  | outermost {query : Query} {lock : Option LockOptions} (h : statement = .select query lock) :
    Shows d statement false (.query query)
  | part {b : Bool} {n : Node} (hs : statement.isSelect = false)
      (h : .part b n ∈ statement.layout d) : Shows d statement n.isQuery n
  | inside {isInner b : Bool} {n m : Node} (hn : Shows d statement isInner n)
      (h : .part b m ∈ n.layout (statement.contextAt d isInner)) :
    Shows d statement (isInner || m.isQuery && !n.isQuery) m

/-- What a lock does instead of waiting is written for it: at the end of the statement, or in the
hint behind the first table of the query. -/
def WritesOption (d : Dialect) (statement : Statement) (capability : Capability) : Prop :=
  ∃ body lock name option f, statement = .select (.spec body) (some lock) ∧
    LockOptions.option? d lock = some (capability, name, option) ∧ option ≠ "" ∧ statement.render d = .ok f ∧
    match d.rules.lockSyntax with
    | .clause => ∃ before, f.pieces = before ++
        [.text (LockOptions.modeText d.rules.forShare d.rules.forUpdate lock ++ option)]
    | .tableHint forUpdate forShare => ∃ first joins rest before behind,
        body.tables = ⟨first, joins⟩ :: rest ∧
        body.upToTable { dialect := d } first = .ok before ∧
        f.pieces = before.pieces ++
          .text (" with (" ++ LockOptions.modeText forShare forUpdate lock ++ option ++ ")") ::
            behind
    | .omitted => False

variable {d : Dialect} {config : TranslationConfig} {statement : Statement} {isInner : Bool}
  {n : Node} {f : Fragment}

theorem contextAt_part {b : Bool} : (if b then (statement.contextAt d isInner).nested
    else statement.contextAt d isInner) = statement.contextAt d (isInner || b) := by
  cases b <;> cases isInner <;> rfl

theorem contextAt_dialect : (statement.contextAt d isInner).dialect = d := by
  cases statement <;> cases isInner <;> rfl

theorem renders_of_shows (h : statement.render d = .ok f) (hw : statement.Shows d isInner n) :
    ∃ g, n.render (statement.contextAt d isInner) = .ok g := by
  induction hw with
  | @outermost query lock hs =>
    subst hs
    cases lock with
    | none => exact ⟨f, h⟩
    | some lock =>
      cases query with
      | group => simp [render, lockedQuery, Query.isGroup, Context.refuse] at h
      | spec body =>
        rcases lockedQuery_cases d body lock with ⟨e, -, hl⟩ | ⟨g, g', hg, -, -⟩
        · simp [render, hl] at h
        · exact ⟨g, by rw [Node.render, Query.render]; exact hg⟩
  | part hs hpart =>
    rw [render_eq_fill] at h
    obtain ⟨g, hg, -⟩ := Slot.part_renders h hpart
    obtain ⟨-, rfl⟩ := child_of_layout hs hpart
    exact ⟨g, hg⟩
  | inside _ hpart ih =>
    obtain ⟨g, hg⟩ := ih
    rw [Node.render_eq_fill] at hg
    obtain ⟨g', hg', -⟩ := Slot.part_renders hg hpart
    rw [contextAt_part, Node.isInner_of_layout hpart] at hg'
    exact ⟨g', hg'⟩

/-- Without the capability the text of the lock ends behind the mode. -/
theorem supports_of_writesOption {capability : Capability}
    (h : statement.WritesOption d capability) : d.supports capability = true := by
  obtain ⟨body, lock, name, option, f, rfl, ho, hne, hf, hw⟩ := h
  by_contra hs
  have hempty : LockOptions.optionText d lock = "" := by
    rw [LockOptions.optionText, ho]
    exact if_neg hs
  have hrender : lockedQuery { dialect := d } (.spec body) lock = .ok f := hf
  rcases lockedQuery_cases d body lock with ⟨e, -, hl⟩ | ⟨f', g, -, hg, hl⟩
  · simp [hl] at hrender
  · obtain rfl := Except.ok.inj (hl.symm.trans hrender)
    have hpieces : ({ warnings := LockOptions.warnings d lock } ++ g : Fragment).pieces =
        g.pieces := rfl
    rw [hpieces] at hw
    unfold Fragment.HasLock at hg
    cases hform : d.rules.lockSyntax with
    | omitted => simp [hform] at hw
    | clause =>
      simp only [hform] at hw hg
      obtain ⟨before, hbefore⟩ := hw
      rw [hg, Fragment.append_pieces] at hbefore
      obtain ⟨-, htext⟩ := List.append_inj' hbefore rfl
      have htext := congrArg String.toList (Piece.text.inj (List.singleton_inj.1 htext))
      exact hne (by simpa [LockOptions.text, hform, hempty] using htext)
    | tableHint forUpdate forShare =>
      simp only [hform] at hw hg
      obtain ⟨first, joins, rest, before, behind, ht, hb, hp⟩ := hw
      obtain ⟨first', joins', rest', before', behind', ht', hb', -, rfl⟩ := hg
      obtain ⟨⟨rfl, rfl⟩, rfl⟩ : (first = first' ∧ joins = joins') ∧ rest = rest' := by
        simpa using ht.symm.trans ht'
      obtain rfl := Except.ok.inj (hb.symm.trans hb')
      have htext := List.append_cancel_left hp
      have htext := congrArg String.toList (Piece.text.inj (List.cons.inj htext).1)
      exact hne (by simpa [LockOptions.text, hform, hempty] using htext)

/-- A statement that is translated uses nothing that its dialect has no capability for, neither in
a node, wherever it stands, nor in the lock. -/
theorem translate_supports {t : Translation} (h : statement.translate d config = .ok t) :
    (∀ isInner n capability, statement.Shows d isInner n →
      n.Uses (statement.contextAt d isInner) capability → d.supports capability = true) ∧
    ∀ capability, statement.WritesOption d capability → d.supports capability = true := by
  refine ⟨fun isInner n capability hw hu => ?_, fun capability hw => supports_of_writesOption hw⟩
  obtain ⟨f, hf⟩ : ∃ f, statement.render d = .ok f := by
    unfold translate at h
    cases hr : statement.render d with
    | error e => simp [hr, bind, Except.bind] at h
    | ok f => exact ⟨f, rfl⟩
  obtain ⟨g, hg⟩ := renders_of_shows hf hw
  have hsupports := Node.supports_of_uses hg hu
  rwa [contextAt_dialect] at hsupports

/-- The ids in a table. -/
def idsIn (table aliasName : String) : Query :=
  .spec { select := [⟨.of aliasName "id", none⟩], tables := [⟨⟨table, aliasName⟩, []⟩] }

/-- The ids of the persons that have tags or notes, those without an id last. -/
def mentioned : Query :=
  .group .unionAll [idsIn "tag" "t1", idsIn "note" "t2"] [⟨.column none "id", false, some .last⟩]
    none none

def isMentioned : Condition := .inQuery (.of "t0" "id") mentioned false

/-- Locks the persons that have tags or notes. -/
def lockMentioned : Statement :=
  .select (.spec { select := [⟨.of "t0" "name", none⟩], tables := [⟨⟨"person", "t0"⟩, []⟩],
                   condition := some isMentioned })
    (some ⟨.write, .noWait⟩)

theorem lockMentioned_shows_mentioned :
    lockMentioned.Shows (Dialect.ofProduct .postgreSql ⟨16, 0, 0⟩) true (.query mentioned) := by
  have hcondition : lockMentioned.Shows (Dialect.ofProduct .postgreSql ⟨16, 0, 0⟩) false
      (.condition isMentioned) :=
    .inside (b := false) (m := .condition isMentioned) (.outermost rfl)
      (Context.part_mem_specLayout_iff.2 (.inr (.inr ⟨rfl, ?_⟩)))
  · exact .inside (b := true) (m := .query mentioned) hcondition
      (List.mem_cons_of_mem _ (List.mem_cons_of_mem _ (Slot.part_mem_subquery_iff.2 ⟨rfl, rfl⟩)))
  · simp [QuerySpec.conditions]

theorem lockMentioned_supports :
    ∃ t, lockMentioned.translate (Dialect.ofProduct .postgreSql ⟨16, 0, 0⟩)
      (.ofDialect (Dialect.ofProduct .postgreSql ⟨16, 0, 0⟩)) = .ok t ∧
      ∀ capability ∈ [Capability.unionAll, .unionInSubquery, .orderByInSubquery, .nullsOrdering,
        .lockNoWait], (Dialect.ofProduct .postgreSql ⟨16, 0, 0⟩).supports capability = true := by
  obtain ⟨t, h⟩ : ∃ t, lockMentioned.translate (Dialect.ofProduct .postgreSql ⟨16, 0, 0⟩)
      (.ofDialect (Dialect.ofProduct .postgreSql ⟨16, 0, 0⟩)) = .ok t := ⟨_, rfl⟩
  obtain ⟨hnodes, hlock⟩ := translate_supports h
  have hmentioned {capability : Capability} := hnodes true (.query mentioned) capability
    lockMentioned_shows_mentioned
  have horder : mentioned.WritesOrder
      (lockMentioned.contextAt (Dialect.ofProduct .postgreSql ⟨16, 0, 0⟩) true) := by
    refine ⟨List.cons_ne_nil _ _, _, rfl⟩
  refine ⟨t, h, ?_⟩
  simp only [List.forall_mem_cons, List.not_mem_nil, false_imp_iff, implies_true, and_true]
  refine ⟨hmentioned .unionAll, hmentioned (.nestedGroup rfl), hmentioned (.nestedOrder horder rfl),
    hmentioned (.nullsOrdering horder (List.mem_singleton.2 rfl) (.inr ?_)),
    hlock _ ⟨_, _, _, _, _, rfl, rfl, ?_, rfl, _, rfl⟩⟩
  · exact List.mem_cons_of_mem _ (List.mem_cons_of_mem _ (List.mem_singleton.2 rfl))
  · decide

end Statement

end SqlDialects.Sql
