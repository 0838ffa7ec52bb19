import SqlDialects.Proofs.Rendering.Sites

/-!
# Limits and orders of queries

A query that is written has its limit and its offset once, right behind its `select` or at its end,
and keeps its order unless that decides nothing about its rows.
-/

namespace SqlDialects.Sql

theorem Fragment.append_left_cancel {f g h : Fragment} (heq : f ++ g = f ++ h) : g = h := by
  cases g
  cases h
  simpa [Fragment.append_def] using heq

/-- What a query that has each row once writes in front of its select list. -/
def QuerySpec.distinct (body : QuerySpec) : Fragment :=
  if body.isDistinct then .ofText "distinct " else {}

namespace Query

/-- The query without its order and its limits. -/
def bare : Query → Query
  | spec body => .spec { body with orderBy := [], limit := none, offset := none }
  | group operator parts _ _ _ => .group operator parts [] none none

/-- A query, cut at its limits and its order. -/
structure Parts where
  lead : Fragment := {}
  /-- The limit behind the lead. -/
  top : Fragment := {}
  body : Fragment
  order : Fragment := {}
  /-- The limits at the end. -/
  page : Fragment := {}

namespace Parts

def whole (parts : Parts) : Fragment :=
  parts.lead ++ parts.top ++ parts.body ++ parts.order ++ parts.page

theorem whole_of_body (body order page : Fragment) :
    whole { body := body, order := order, page := page } = body ++ (order ++ page) := by
  simp only [whole, Fragment.empty_append, Fragment.append_assoc]

theorem whole_of_top (lead top body order : Fragment) :
    whole { lead := lead, top := top, body := body, order := order } =
      lead ++ (top ++ (body ++ order)) := by
  simp only [whole, Fragment.append_empty, Fragment.append_assoc]

end Parts

end Query

/-! ## How limits and orders are written -/

namespace Context

/-- An expression between a keyword and an end, or what is written without an expression. -/
inductive Clause (c : Context) (keyword : String) (ending otherwise : Fragment) :
    Option Expression → Fragment → Prop
  | absent : Clause c keyword ending otherwise none otherwise
  | present {e : Expression} {f : Fragment} (h : e.render c = .ok f) :
    Clause c keyword ending otherwise (some e) (.ofText keyword ++ f ++ ending)

/-- The limit and the offset at the end of a query, where the dialect writes them there. -/
inductive Paged (c : Context) (hasOrder : Bool) (limit offset : Option Expression) :
    Fragment → Prop
  | limitOffset {allRows : Option String} {f g : Fragment}
    (hs : c.dialect.rowLimit = .limitOffset allRows)
    (hl : c.Clause " limit " {} (allRows.elim {} fun rows => .ofText " limit " ++ .ofText rows)
      limit f)
    (ho : c.Clause " offset " {} {} offset g) :
    Paged c hasOrder limit offset (f ++ g)
  | offsetFetch {rowsKeyword requiresOrder : Bool} {f g : Fragment}
    (hs : c.dialect.rowLimit = .offsetFetch rowsKeyword requiresOrder)
    (ho : c.Clause " offset " (if rowsKeyword then .ofText " rows" else {}) {} offset f)
    (hl : c.Clause (if offset.isSome then " fetch next " else " fetch first ")
      (.ofText " rows only") {} limit g) :
    Paged c hasOrder limit offset
      ((if requiresOrder && !hasOrder then .ofText " order by @@version" else {}) ++ f ++ g)

/-- An order is kept, or removed with a warning from a subquery without limits whose dialect lacks
the order there. -/
inductive Ordered (c : Context) (keys : List (SortKey Expression)) (isPaginated : Bool) :
    Fragment → Prop
  | absent (hk : keys = []) : Ordered c keys isPaginated {}
  | kept {f : Fragment} (hk : keys ≠ [])
    (hc : c.isNested = false ∨ c.dialect.supports .orderByInSubquery = true)
    (hf : Rendered.separated ", " (SortKey.renderAll c keys) = .ok f) :
    Ordered c keys isPaginated (.ofText " order by " ++ f)
  | removed (hk : keys ≠ []) (hn : c.isNested = true)
    (hs : c.dialect.supports .orderByInSubquery = false) (hp : isPaginated = false) :
    Ordered c keys isPaginated { warnings := [.subqueryOrderByRemoved] }

end Context

namespace Query

/-- The limits of a query stand in its parts once: behind the `select` that it starts with, or at
its end. -/
inductive Limited (c : Context) (q : Query) (parts : Parts) : Prop
  | unlimited (hl : q.isPaginated = false) (ht : parts.top = {}) (hp : parts.page = {})
  | paged (hl : q.isPaginated = true) (ht : parts.top = {})
    (hp : c.Paged (!q.orderBy.isEmpty) q.limits.1 q.limits.2 parts.page)
  | first {body : QuerySpec} {rows : Int} {since : Option Version} (hq : q = .spec body)
    (hs : c.dialect.rowLimit = .first since) (hl : body.limit = some (.literal (.integer rows)))
    (ho : body.offset = none) (hlead : parts.lead = .ofText "select ")
    (ht : parts.top = .ofText "first " ++ .ofText (toString rows) ++ .ofText " ")
    (hp : parts.page = {})
  | top {body : QuerySpec} {rows : Expression} {f : Fragment} {since : Option Version}
    (hq : q = .spec body) (hs : c.dialect.rowLimit = .top since) (hl : body.limit = some rows)
    (ho : body.offset = none) (hf : rows.render c = .ok f)
    (hlead : parts.lead = .ofText "select " ++ body.distinct)
    (ht : parts.top = .ofText "top (" ++ f ++ .ofText ") ") (hp : parts.page = {})

/-- The parts are those of the query: without its order and its limits nothing but the lead and
the body is left. -/
structure Divided (c : Context) (hint : String) (q : Query) (parts : Parts) : Prop where
  bare : q.bare.render c hint = .ok (parts.lead ++ parts.body)
  limits : q.Limited c parts
  order : c.Ordered q.orderBy q.isPaginated parts.order

end Query

/-! ## The parts of a query -/

namespace Context

open Slot (fill)

variable {c : Context} {f : Fragment} {limit offset : Option Expression}

theorem textIf_ok_iff {b : Bool} {t : String} :
    Rendered.textIf b t = .ok f ↔ f = if b then .ofText t else {} := by
  unfold Rendered.textIf
  cases b <;> exact ⟨fun h => (Except.ok.inj h).symm, fun h => h ▸ rfl⟩

theorem fill_textIf_ok_iff {b : Bool} {t : String} :
    fill c [.own (.textIf b t)] = .ok f ↔ f = if b then .ofText t else {} := by
  rw [Slot.fill_cons, Slot.fill_nil, Rendered.andThen_empty, Slot.render_own, textIf_ok_iff]

theorem fill_clause_ok_iff {keyword : String} {e : Expression} {slots : List Slot}
    {ending otherwise : Fragment} (hs : fill c slots = .ok ending) :
    fill c (.text keyword :: .expression e :: slots) = .ok f ↔
      c.Clause keyword ending otherwise (some e) f := by
  constructor
  · intro h
    obtain ⟨_, hf, rfl⟩ := Slot.fill_text_cons_ok_iff.1 h
    obtain ⟨g, ending', hg, he, rfl⟩ := Slot.fill_cons_ok_iff.1 hf
    obtain rfl := Except.ok.inj (hs.symm.trans he)
    rw [← Fragment.append_assoc]
    exact .present hg
  · rintro (_ | hg)
    rw [Fragment.append_assoc]
    exact Slot.fill_text_cons_ok_iff.2 ⟨_, Slot.fill_cons_ok_iff.2 ⟨_, _, hg, hs, rfl⟩, rfl⟩

theorem ok_iff_clause_none {keyword : String} {ending otherwise : Fragment} :
    (.ok otherwise : Rendered) = .ok f ↔ c.Clause keyword ending otherwise none f := by
  constructor
  · intro h
    obtain rfl := Except.ok.inj h
    exact .absent
  · rintro (_ | _)
    rfl

theorem fill_optionalClause_ok_iff {keyword : String} {e : Option Expression} {slots : List Slot}
    {ending : Fragment} (hs : fill c slots = .ok ending) :
    fill c (Slot.clause keyword (e.map fun e => .expression e :: slots)) = .ok f ↔
      c.Clause keyword ending {} e f := by
  cases e with
  | some e => exact fill_clause_ok_iff hs
  | none => exact ok_iff_clause_none

/-- Where there is no limit, a dialect may write one that all rows are within. -/
theorem fill_limitClause_ok_iff {allRows : Option String} :
    fill c (Slot.clause " limit " ((limit.map fun n => [Slot.expression n]) <|>
      allRows.map fun rows => [Slot.text rows])) = .ok f ↔
      c.Clause " limit " {} (allRows.elim {} fun rows => .ofText " limit " ++ .ofText rows)
        limit f := by
  cases limit with
  | some e => exact fill_clause_ok_iff rfl
  | none => cases allRows <;> exact ok_iff_clause_none

theorem Paged.rowLimit_cases {hasOrder : Bool} (h : c.Paged hasOrder limit offset f) :
    (∃ allRows, c.dialect.rowLimit = .limitOffset allRows) ∨
      ∃ rowsKeyword requiresOrder,
        c.dialect.rowLimit = .offsetFetch rowsKeyword requiresOrder := by
  cases h with
  | limitOffset hs => exact .inl ⟨_, hs⟩
  | offsetFetch hs => exact .inr ⟨_, _, hs⟩

theorem Paged.leads_eq_false {hasOrder : Bool} (h : c.Paged hasOrder limit offset f) :
    c.dialect.rowLimit.leads = false := by
  rcases h.rowLimit_cases with ⟨allRows, hs⟩ | ⟨rowsKeyword, requiresOrder, hs⟩
  · simp [hs, RowLimit.leads]
  · simp [hs, RowLimit.leads]

theorem isNone_and_isNone (hp : (limit.isSome || offset.isSome) = true) :
    (limit.isNone && offset.isNone) = false := by
  cases limit with
  | some e => rfl
  | none => simpa using hp

/-- What a dialect writes at the end of a query with limits, unless it writes the limit behind the
`select`. -/
theorem fill_paginationLayout_ok_iff {hasOrder : Bool}
    (hp : (limit.isSome || offset.isSome) = true) (hl : c.dialect.rowLimit.leads = false) :
    fill c (c.paginationLayout hasOrder limit offset) = .ok f ↔
      c.Paged hasOrder limit offset f := by
  unfold paginationLayout
  rw [isNone_and_isNone hp, if_neg Bool.false_ne_true]
  constructor
  · intro h
    cases hs : c.dialect.rowLimit with
    | unsupported =>
      simp only [hs] at h
      exact absurd (List.mem_singleton.2 rfl) (Slot.not_error_mem h)
    | first since => simp [hs, RowLimit.leads] at hl
    | top since => simp [hs, RowLimit.leads] at hl
    | limitOffset allRows =>
      simp only [hs] at h
      obtain ⟨f, g, hlimit, hoffset, rfl⟩ := Slot.fill_append_ok_iff.1 h
      exact .limitOffset hs (fill_limitClause_ok_iff.1 hlimit)
        ((fill_optionalClause_ok_iff rfl).1 hoffset)
    | offsetFetch rowsKeyword requiresOrder =>
      simp only [hs] at h
      obtain ⟨_, g, hfront, hlimit, rfl⟩ := Slot.fill_append_ok_iff.1 h
      obtain ⟨order, f, horder, hoffset, rfl⟩ := Slot.fill_cons_ok_iff.1 hfront
      obtain rfl := textIf_ok_iff.1 horder
      exact .offsetFetch hs ((fill_optionalClause_ok_iff (fill_textIf_ok_iff.2 rfl)).1 hoffset)
        ((fill_optionalClause_ok_iff rfl).1 hlimit)
  · rintro (⟨hs, hlimit, hoffset⟩ | ⟨hs, hoffset, hlimit⟩)
    · simp only [hs]
      exact Slot.fill_append_ok_iff.2 ⟨_, _, fill_limitClause_ok_iff.2 hlimit,
        (fill_optionalClause_ok_iff rfl).2 hoffset, rfl⟩
    · simp only [hs]
      exact Slot.fill_append_ok_iff.2 ⟨_, _, Slot.fill_cons_ok_iff.2 ⟨_, _, textIf_ok_iff.2 rfl,
        (fill_optionalClause_ok_iff (fill_textIf_ok_iff.2 rfl)).2 hoffset, rfl⟩,
        (fill_optionalClause_ok_iff rfl).2 hlimit, rfl⟩

/-- Without limits, or with a limit behind the `select`, nothing is written at the end. -/
theorem paginationLayout_eq_nil {hasOrder : Bool}
    (h : (limit.isSome || offset.isSome) = false ∨ c.dialect.rowLimit.leads = true) :
    c.paginationLayout hasOrder limit offset = [] := by
  unfold paginationLayout
  split
  · rfl
  · next hne =>
    rcases h with hp | hl
    · cases limit <;> cases offset <;> simp_all
    · cases hs : c.dialect.rowLimit with
      | first since => rfl
      | top since => rfl
      | unsupported | limitOffset | offsetFetch => simp [hs, RowLimit.leads] at hl

variable {keys : List (SortKey Expression)}

theorem endLayout_of_kept (hk : keys ≠ [])
    (hc : c.isNested = false ∨ c.dialect.supports .orderByInSubquery = true) :
    c.endLayout keys limit offset = .text " order by " ::
      Slot.separated ", " (keys.map c.keyLayout) ++ c.paginationLayout true limit offset := by
  have hkeys : keys.isEmpty = false := List.isEmpty_eq_false_iff.2 hk
  have hkept : (!c.isNested || c.dialect.supports .orderByInSubquery) = true := by simpa using hc
  unfold endLayout orderFate
  rw [hkeys, hkept]
  rfl

theorem endLayout_of_removed (hk : keys ≠ []) (hn : c.isNested = true)
    (hs : c.dialect.supports .orderByInSubquery = false)
    (hp : (limit.isSome || offset.isSome) = false) :
    c.endLayout keys limit offset = [.own (.warning .subqueryOrderByRemoved)] := by
  have hkeys : keys.isEmpty = false := List.isEmpty_eq_false_iff.2 hk
  unfold endLayout orderFate
  rw [hkeys, hn, hs, hp, paginationLayout_eq_nil (.inl hp)]
  rfl

theorem fill_keys_ok_iff :
    fill c (.text " order by " :: Slot.separated ", " (keys.map c.keyLayout)) = .ok f ↔
      ∃ g, Rendered.separated ", " (SortKey.renderAll c keys) = .ok g ∧
        f = .ofText " order by " ++ g := by
  rw [Slot.fill_text_cons_ok_iff, Slot.fill_separated, fill_keyLayouts]

theorem ordered_of_fill (h : fill c (c.endLayout keys limit offset) = .ok f) :
    ∃ order page, f = order ++ page ∧ c.Ordered keys (limit.isSome || offset.isSome) order ∧
      fill c (c.paginationLayout (!keys.isEmpty) limit offset) = .ok page := by
  by_cases hk : keys = []
  · subst hk
    exact ⟨{}, f, (Fragment.empty_append f).symm, .absent rfl, h⟩
  · have hkeys : keys.isEmpty = false := List.isEmpty_eq_false_iff.2 hk
    by_cases hc : c.isNested = false ∨ c.dialect.supports .orderByInSubquery = true
    · rw [endLayout_of_kept hk hc] at h
      obtain ⟨_, page, horder, hpage, rfl⟩ := Slot.fill_append_ok_iff.1 h
      obtain ⟨order, hfill, rfl⟩ := fill_keys_ok_iff.1 horder
      refine ⟨_, page, rfl, .kept hk hc hfill, ?_⟩
      rw [hkeys]
      exact hpage
    · obtain ⟨hn, hs⟩ : c.isNested = true ∧ c.dialect.supports .orderByInSubquery = false := by
        simpa using hc
      rcases @endLayout_of_nested c keys limit offset hk hn hs with
        ⟨e, he⟩ | ⟨rfl, rfl, hend⟩
      · rw [he] at h
        exact absurd (List.mem_singleton.2 rfl) (Slot.not_error_mem h)
      · rw [hend] at h
        obtain rfl := Except.ok.inj h
        exact ⟨_, {}, (Fragment.append_empty _).symm, .removed hk hn hs rfl, rfl⟩

theorem fill_endLayout_of_ordered {order page : Fragment}
    (horder : c.Ordered keys (limit.isSome || offset.isSome) order)
    (hpage : fill c (c.paginationLayout (!keys.isEmpty) limit offset) = .ok page) :
    fill c (c.endLayout keys limit offset) = .ok (order ++ page) := by
  cases horder with
  | absent hk =>
    subst hk
    rw [Fragment.empty_append]
    exact hpage
  | kept hk hc hkeys =>
    rw [List.isEmpty_eq_false_iff.2 hk] at hpage
    rw [endLayout_of_kept hk hc]
    exact Slot.fill_append_ok_iff.2 ⟨_, page, fill_keys_ok_iff.2 ⟨_, hkeys, rfl⟩, hpage, rfl⟩
  | removed hk hn hs hp =>
    rw [paginationLayout_eq_nil (.inl hp)] at hpage
    obtain rfl := Except.ok.inj hpage
    rw [endLayout_of_removed hk hn hs hp]
    rfl

theorem exists_of_isIntegerLiteral (h : isIntegerLiteral limit = true) :
    ∃ rows, limit = some (.literal (.integer rows)) := by
  unfold isIntegerLiteral at h
  split at h
  · exact ⟨_, rfl⟩
  · simp at h

/-- A dialect that writes the limit behind the `select` has no offset, and may ask for a literal
limit. -/
theorem cases_of_checkPagination (hp : (limit.isSome || offset.isSome) = true)
    (h : c.checkPagination limit offset = .ok ()) :
    (∃ since rows, c.dialect.rowLimit = .first since ∧
      limit = some (.literal (.integer rows)) ∧ offset = none) ∨
    (∃ since rows, c.dialect.rowLimit = .top since ∧ limit = some rows ∧ offset = none) ∨
    c.dialect.rowLimit.leads = false := by
  unfold checkPagination at h
  rw [isNone_and_isNone hp, if_neg Bool.false_ne_true] at h
  cases hs : c.dialect.rowLimit with
  | unsupported | limitOffset | offsetFetch => exact .inr (.inr rfl)
  | first since =>
    simp only [hs] at h
    cases offset with
    | some e => simp at h
    | none =>
      simp only [Option.isSome_none, Bool.false_eq_true, if_false] at h
      split at h
      · next hl =>
        obtain ⟨rows, rfl⟩ := exists_of_isIntegerLiteral hl
        exact .inl ⟨since, rows, rfl, rfl, rfl⟩
      · simp at h
  | top since =>
    simp only [hs] at h
    cases offset with
    | some e => simp at h
    | none =>
      obtain ⟨rows, rfl⟩ := Option.isSome_iff_exists.1 (by simpa using hp)
      exact .inr (.inl ⟨since, rows, rfl, rfl, rfl⟩)

/-- The rules for a set operation without limits are those for one with them, and one more for
the limits. -/
theorem checkGroup_ok_iff {operator : SetOperator} {operands : Nat} {isPaginated : Bool} :
    c.checkGroup operator operands isPaginated = .ok () ↔
      c.checkGroup operator operands false = .ok () ∧
        (isPaginated = true → c.dialect.rowLimit.leads = false) := by
  unfold checkGroup
  cases isPaginated with
  | false => simp
  | true =>
    cases c.dialect.rowLimit.leads with
    | false => simp
    | true =>
      simp only [Dialect.require, Bool.and_self, if_true, Bool.true_eq_false, imp_false,
        not_true, and_false, iff_false]
      intro h
      -- The check of the limits is the last one; each of the others passes to it or fails itself.
      split at h
      · cases h
      · repeat' (first | split at h | cases h)

section Prefix

variable {body : QuerySpec} {since : Option Version}

/-- What stands between `select` and the select list in a query without a limit there. -/
theorem fill_prefixLayout_ok_iff (h : body.limit = none ∨ c.dialect.rowLimit.leads = false) :
    fill c (c.prefixLayout body.isDistinct body.limit) = .ok f ↔ f = body.distinct := by
  have hlayout : c.prefixLayout body.isDistinct body.limit =
      [.own (.textIf body.isDistinct "distinct ")] := by
    unfold prefixLayout
    split
    · simp_all [RowLimit.leads]
    · simp_all [RowLimit.leads]
    · rfl
  rw [hlayout, fill_textIf_ok_iff, QuerySpec.distinct]

theorem fill_prefixLayout_first {rows : Int} (hs : c.dialect.rowLimit = .first since)
    (hl : body.limit = some (.literal (.integer rows))) :
    fill c (c.prefixLayout body.isDistinct body.limit) =
      .ok (.ofText "first " ++ .ofText (toString rows) ++ .ofText " " ++ body.distinct) := by
  unfold prefixLayout QuerySpec.distinct
  rw [hs, hl]
  cases body.isDistinct <;> rfl

theorem fill_prefixLayout_top_ok_iff {rows : Expression} (hs : c.dialect.rowLimit = .top since)
    (hl : body.limit = some rows) :
    fill c (c.prefixLayout body.isDistinct body.limit) = .ok f ↔ ∃ g, rows.render c = .ok g ∧
      f = body.distinct ++ (.ofText "top (" ++ g ++ .ofText ") ") := by
  unfold prefixLayout QuerySpec.distinct
  simp only [hs, hl]
  rw [Slot.fill_cons_ok_iff]
  constructor
  · rintro ⟨distinct, _, hd, hrest, rfl⟩
    obtain rfl := textIf_ok_iff.1 hd
    obtain ⟨_, htop, rfl⟩ := Slot.fill_text_cons_ok_iff.1 hrest
    obtain ⟨g, _, hg, hend, rfl⟩ := Slot.fill_cons_ok_iff.1 htop
    obtain rfl := Except.ok.inj hend
    exact ⟨g, hg, congrArg _ (Fragment.append_assoc _ _ _).symm⟩
  · rintro ⟨g, hg, rfl⟩
    have hrows : fill c [.expression rows, .text ") "] = .ok (g ++ .ofText ") ") :=
      Slot.fill_cons_ok_iff.2 ⟨g, _, hg, rfl, rfl⟩
    exact ⟨_, _, textIf_ok_iff.2 rfl, Slot.fill_text_cons_ok_iff.2 ⟨_, hrows, rfl⟩,
      congrArg _ (Fragment.append_assoc _ _ _)⟩

end Prefix

/-- From the select list up to the order. -/
def bodyLayout (hint : String) (body : QuerySpec) : List Slot :=
  Slot.separated ", " (body.select.map itemLayout) ++
    .text " from " :: Slot.separated ", " (tableLayouts hint body.tables) ++
    Slot.clause " where " (body.condition.map fun p => [.condition p]) ++
    Slot.clause " group by " (groupByLayout body.groupBy) ++
    Slot.clause " having " (body.having.map fun p => [.condition p])

theorem fill_specLayout_ok_iff {hint : String} {body : QuerySpec} :
    fill c (c.specLayout hint body) = .ok f ↔ ∃ front middle back,
      fill c (c.prefixLayout body.isDistinct body.limit) = .ok front ∧
      fill c (bodyLayout hint body) = .ok middle ∧
      fill c (c.endLayout body.orderBy body.limit body.offset) = .ok back ∧
      f = .ofText "select " ++ (front ++ (middle ++ back)) := by
  have hlayout : c.specLayout hint body =
      .text "select " :: (c.prefixLayout body.isDistinct body.limit ++ (bodyLayout hint body ++
        c.endLayout body.orderBy body.limit body.offset)) := by
    simp only [specLayout, bodyLayout, List.cons_append, List.append_assoc]
  rw [hlayout, Slot.fill_text_cons_ok_iff]
  constructor
  · rintro ⟨_, h, rfl⟩
    obtain ⟨front, _, hfront, hrest, rfl⟩ := Slot.fill_append_ok_iff.1 h
    obtain ⟨middle, back, hmiddle, hback, rfl⟩ := Slot.fill_append_ok_iff.1 hrest
    exact ⟨front, middle, back, hfront, hmiddle, hback, rfl⟩
  · rintro ⟨front, middle, back, hfront, hmiddle, hback, rfl⟩
    exact ⟨_, Slot.fill_append_ok_iff.2 ⟨front, _, hfront,
      Slot.fill_append_ok_iff.2 ⟨middle, back, hmiddle, hback, rfl⟩, rfl⟩, rfl⟩

end Context

namespace QuerySpec

open Slot (fill)

variable {c : Context} {hint : String} {body : QuerySpec} {f : Fragment}

theorem fill_layout_ok_iff : fill c (body.layout c hint) = .ok f ↔
    body.select.isEmpty = false ∧ body.tables.isEmpty = false ∧
      c.checkPagination body.limit body.offset = .ok () ∧
      fill c (c.specLayout hint body) = .ok f := by
  unfold layout
  constructor
  · intro h
    split at h
    · exact absurd (List.mem_singleton.2 rfl) (Slot.not_error_mem h)
    · next hselect =>
      split at h
      · exact absurd (List.mem_singleton.2 rfl) (Slot.not_error_mem h)
      · next htables =>
        split at h
        · exact absurd (List.mem_singleton.2 rfl) (Slot.not_error_mem h)
        · next hcheck =>
          exact ⟨Bool.not_eq_true _ ▸ hselect, Bool.not_eq_true _ ▸ htables, hcheck, h⟩
  · rintro ⟨hselect, htables, hcheck, h⟩
    rw [hselect, htables, hcheck]
    exact h

/-- Of a query without its order and its limits the body is left. -/
theorem render_bare_ok_iff : (Query.spec body).bare.render c hint = .ok f ↔
    body.select.isEmpty = false ∧ body.tables.isEmpty = false ∧
      ∃ middle, fill c (Context.bodyLayout hint body) = .ok middle ∧
        f = .ofText "select " ++ (body.distinct ++ middle) := by
  rw [Query.render_eq_fill, Query.bare, Query.layout, fill_layout_ok_iff,
    Context.fill_specLayout_ok_iff]
  have hprefix {front : Fragment} : fill c (c.prefixLayout body.isDistinct none) = .ok front ↔
      front = body.distinct :=
    @Context.fill_prefixLayout_ok_iff c front { body with limit := none } (.inl rfl)
  constructor
  · rintro ⟨hselect, htables, -, front, middle, back, hfront, hmiddle, hback, rfl⟩
    obtain rfl := hprefix.1 hfront
    obtain rfl := Except.ok.inj hback
    exact ⟨hselect, htables, middle, hmiddle, by rw [Fragment.append_empty]⟩
  · rintro ⟨hselect, htables, middle, hmiddle, rfl⟩
    exact ⟨hselect, htables, rfl, _, middle, {}, hprefix.2 rfl, hmiddle, rfl,
      by rw [Fragment.append_empty]⟩

end QuerySpec

namespace Query

open Slot (fill)

variable {c : Context} {hint : String} {f : Fragment}

theorem isPaginated_eq (q : Query) : q.isPaginated = (q.limits.1.isSome || q.limits.2.isSome) := by
  cases q <;> rfl

/-- Without a limit behind the `select`, the limits are those at the end. -/
theorem limited_of_fill {q : Query} {parts : Parts} (ht : parts.top = {})
    (hl : q.isPaginated = true → c.dialect.rowLimit.leads = false)
    (h : fill c (c.paginationLayout (!q.orderBy.isEmpty) q.limits.1 q.limits.2) = .ok parts.page) :
    q.Limited c parts := by
  cases hp : q.isPaginated with
  | true =>
    have hsome := q.isPaginated_eq ▸ hp
    exact .paged hp ht ((Context.fill_paginationLayout_ok_iff hsome (hl hp)).1 h)
  | false =>
    rw [Context.paginationLayout_eq_nil (.inl (q.isPaginated_eq ▸ hp))] at h
    exact .unlimited hp ht (Except.ok.inj h).symm

/-- A limit that passes its check stands behind the `select`, or with the offset at the end. -/
theorem exists_limited {body : QuerySpec} {front page : Fragment} (middle order : Fragment)
    (hcheck : c.checkPagination body.limit body.offset = .ok ())
    (hfront : fill c (c.prefixLayout body.isDistinct body.limit) = .ok front)
    (hpage : fill c (c.paginationLayout (!body.orderBy.isEmpty) body.limit body.offset) =
      .ok page) :
    ∃ parts : Parts, (spec body).Limited c parts ∧ parts.order = order ∧
      parts.lead ++ parts.body = .ofText "select " ++ (body.distinct ++ middle) ∧
      parts.whole = .ofText "select " ++ (front ++ (middle ++ (order ++ page))) := by
  by_cases hl : body.isPaginated = true → c.dialect.rowLimit.leads = false
  · have hlimit : body.limit = none ∨ c.dialect.rowLimit.leads = false := by
      cases hn : body.limit with
      | none => exact .inl rfl
      | some rows => exact .inr (hl (by simp [QuerySpec.isPaginated, hn]))
    obtain rfl := (Context.fill_prefixLayout_ok_iff hlimit).1 hfront
    refine ⟨{ body := .ofText "select " ++ (body.distinct ++ middle)
              order := order
              page := page },
      limited_of_fill rfl hl hpage, rfl, Fragment.empty_append _, ?_⟩
    rw [Parts.whole_of_body, Fragment.append_assoc, Fragment.append_assoc]
  · obtain ⟨hp, hleads⟩ := Classical.not_imp.1 hl
    rw [Context.paginationLayout_eq_nil (.inr (Bool.not_eq_false _ ▸ hleads))] at hpage
    obtain rfl := Except.ok.inj hpage
    rcases Context.cases_of_checkPagination hp hcheck with
      ⟨since, rows, hs, hl, ho⟩ | ⟨since, rows, hs, hl, ho⟩ | hends
    · rw [Context.fill_prefixLayout_first hs hl] at hfront
      obtain rfl := Except.ok.inj hfront
      refine ⟨{ lead := .ofText "select "
                top := .ofText "first " ++ .ofText (toString rows) ++ .ofText " "
                body := body.distinct ++ middle
                order := order }, .first rfl hs hl ho rfl rfl rfl, rfl, rfl, ?_⟩
      rw [Parts.whole_of_top]
      simp only [Fragment.append_assoc, Fragment.append_empty]
    · obtain ⟨f, hf, rfl⟩ := (Context.fill_prefixLayout_top_ok_iff hs hl).1 hfront
      refine ⟨{ lead := .ofText "select " ++ body.distinct
                top := .ofText "top (" ++ f ++ .ofText ") "
                body := middle
                order := order }, .top rfl hs hl ho hf rfl rfl rfl, rfl,
        Fragment.append_assoc _ _ _, ?_⟩
      rw [Parts.whole_of_top]
      simp only [Fragment.append_assoc, Fragment.append_empty]
    · exact absurd hends hleads

/-- A query that is not refused is cut at its limits and its order. -/
theorem divided_of_render {q : Query} (h : q.render c hint = .ok f) :
    ∃ parts : Parts, f = parts.whole ∧ q.Divided c hint parts := by
  rw [render_eq_fill] at h
  cases q with
  | group operator operands orderBy limit offset =>
    simp only [layout] at h
    split at h
    · exact absurd (List.mem_singleton.2 rfl) (Slot.not_error_mem h)
    · next hcheck =>
      obtain ⟨hbare, hl⟩ := Context.checkGroup_ok_iff.1 hcheck
      obtain ⟨body, back, hbody, hback, rfl⟩ := Slot.fill_append_ok_iff.1 h
      obtain ⟨order, page, rfl, horder, hpage⟩ := Context.ordered_of_fill hback
      refine ⟨{ body := body, order := order, page := page },
        (Parts.whole_of_body body order page).symm, ?_, limited_of_fill rfl hl hpage, horder⟩
      rw [render_eq_fill, bare, layout]
      simp only [Option.isSome_none, Bool.or_self, hbare, Fragment.empty_append]
      exact (congrArg (fill c) (List.append_nil _)).trans hbody
  | spec body =>
    obtain ⟨hselect, htables, hcheck, hspec⟩ := QuerySpec.fill_layout_ok_iff.1 h
    obtain ⟨front, middle, back, hfront, hmiddle, hback, rfl⟩ :=
      Context.fill_specLayout_ok_iff.1 hspec
    obtain ⟨order, page, rfl, horder, hpage⟩ := Context.ordered_of_fill hback
    have hbare := QuerySpec.render_bare_ok_iff.2 ⟨hselect, htables, middle, hmiddle, rfl⟩
    obtain ⟨parts, hlimits, rfl, hbody, hwhole⟩ := exists_limited middle order hcheck hfront hpage
    exact ⟨parts, hwhole.symm, hbody ▸ hbare, hlimits, horder⟩

/-! ### From the parts to the query -/

variable {parts : Parts}

namespace Limited

variable {q : Query} {body : QuerySpec}

theorem fill_page (h : q.Limited c parts) :
    fill c (c.paginationLayout (!q.orderBy.isEmpty) q.limits.1 q.limits.2) = .ok parts.page := by
  cases h with
  | unlimited hl _ hp =>
    rw [Context.paginationLayout_eq_nil (.inl (q.isPaginated_eq ▸ hl)), hp]
    rfl
  | paged hl _ hp =>
    exact (Context.fill_paginationLayout_ok_iff (q.isPaginated_eq ▸ hl) hp.leads_eq_false).2 hp
  | first _ hs _ _ _ _ hp | top _ hs _ _ _ _ _ hp =>
    rw [Context.paginationLayout_eq_nil (.inr (by rw [hs]; rfl)), hp]
    rfl

theorem checkPagination (h : (spec body).Limited c parts) :
    c.checkPagination body.limit body.offset = .ok () := by
  unfold Context.checkPagination
  cases h with
  | unlimited hl =>
    obtain ⟨hlimit, hoffset⟩ : body.limit = none ∧ body.offset = none := by
      simpa [isPaginated, QuerySpec.isPaginated] using hl
    rw [hlimit, hoffset]
    rfl
  | paged hl _ hp =>
    rw [Context.isNone_and_isNone hl, if_neg Bool.false_ne_true]
    rcases hp.rowLimit_cases with ⟨allRows, hs⟩ | ⟨rowsKeyword, requiresOrder, hs⟩
    · rw [hs]
    · rw [hs]
  | first hq hs hl ho =>
    obtain rfl := spec.inj hq
    rw [hs, hl, ho]
    rfl
  | top hq hs hl ho =>
    obtain rfl := spec.inj hq
    rw [hs, hl, ho]
    rfl

/-- In front of the order stands the query without its limits, with the limit where the dialect
writes it. -/
theorem fill_prefix (h : (spec body).Limited c parts) {middle : Fragment}
    (hbody : parts.lead ++ parts.body = .ofText "select " ++ (body.distinct ++ middle)) :
    ∃ front, fill c (c.prefixLayout body.isDistinct body.limit) = .ok front ∧
      parts.lead ++ parts.top ++ parts.body = .ofText "select " ++ (front ++ middle) := by
  have hplain (hl : body.limit = none ∨ c.dialect.rowLimit.leads = false)
      (ht : parts.top = {}) : ∃ front,
        fill c (c.prefixLayout body.isDistinct body.limit) = .ok front ∧
          parts.lead ++ parts.top ++ parts.body = .ofText "select " ++ (front ++ middle) := by
    refine ⟨_, (Context.fill_prefixLayout_ok_iff hl).2 rfl, ?_⟩
    rw [ht, Fragment.append_empty, hbody]
  cases h with
  | unlimited hl ht =>
    have hl : body.limit = none ∧ body.offset = none := by
      simpa [isPaginated, QuerySpec.isPaginated] using hl
    exact hplain (.inl hl.1) ht
  | paged _ ht hp => exact hplain (.inr hp.leads_eq_false) ht
  | first hq hs hl _ hlead ht =>
    obtain rfl := spec.inj hq
    rw [hlead] at hbody ⊢
    rw [ht, Fragment.append_left_cancel hbody]
    refine ⟨_, Context.fill_prefixLayout_first hs hl, ?_⟩
    simp only [Fragment.append_assoc]
  | top hq hs hl _ hf hlead ht =>
    obtain rfl := spec.inj hq
    rw [hlead] at hbody ⊢
    rw [Fragment.append_assoc] at hbody
    rw [ht, Fragment.append_left_cancel (Fragment.append_left_cancel hbody)]
    refine ⟨_, (Context.fill_prefixLayout_top_ok_iff hs hl).2 ⟨_, hf, rfl⟩, ?_⟩
    simp only [Fragment.append_assoc]

/-- A set operation has no limit behind a `select` of its own. -/
theorem of_group {operator : SetOperator} {operands : List Query}
    {orderBy : List (SortKey Expression)} {limit offset : Option Expression}
    (h : (group operator operands orderBy limit offset).Limited c parts) :
    parts.top = {} ∧
      ((limit.isSome || offset.isSome) = true → c.dialect.rowLimit.leads = false) := by
  cases h with
  | unlimited hl ht => exact ⟨ht, fun hp => absurd (hl.symm.trans hp) Bool.false_ne_true⟩
  | paged _ ht hp => exact ⟨ht, fun _ => hp.leads_eq_false⟩
  | first hq => cases hq
  | top hq => cases hq

end Limited

theorem render_of_divided {q : Query} (h : q.Divided c hint parts) :
    q.render c hint = .ok parts.whole := by
  obtain ⟨hbare, hlimits, horder⟩ := h
  have hpage := hlimits.fill_page
  cases q with
  | group operator operands orderBy limit offset =>
    obtain ⟨htop, hleads⟩ := hlimits.of_group
    rw [render_eq_fill, bare, layout] at hbare
    rw [render_eq_fill, layout]
    simp only [Option.isSome_none, Bool.or_self] at hbare
    split at hbare
    · exact absurd (List.mem_singleton.2 rfl) (Slot.not_error_mem hbare)
    · next hcheck =>
      rw [Context.checkGroup_ok_iff.2 ⟨hcheck, hleads⟩]
      obtain ⟨front, _, hfront, hend, hwhole⟩ := Slot.fill_append_ok_iff.1 hbare
      obtain rfl := Except.ok.inj hend
      refine Slot.fill_append_ok_iff.2
        ⟨front, _, hfront, Context.fill_endLayout_of_ordered horder hpage, ?_⟩
      rw [Parts.whole, htop, Fragment.append_empty, hwhole, Fragment.append_empty,
        Fragment.append_assoc]
  | spec body =>
    obtain ⟨hselect, htables, middle, hmiddle, hbody⟩ := QuerySpec.render_bare_ok_iff.1 hbare
    obtain ⟨front, hfront, hwhole⟩ := hlimits.fill_prefix hbody
    rw [render_eq_fill, layout]
    refine QuerySpec.fill_layout_ok_iff.2 ⟨hselect, htables, hlimits.checkPagination,
      Context.fill_specLayout_ok_iff.2 ⟨front, middle, _, hfront, hmiddle,
        Context.fill_endLayout_of_ordered horder hpage, ?_⟩⟩
    rw [Parts.whole, hwhole]
    simp only [Fragment.append_assoc]

/-- A query is written exactly if it can be cut at its limits and its order, and then it is written
as its parts. -/
theorem render_ok_iff {q : Query} : q.render c hint = .ok f ↔
    ∃ parts : Parts, f = parts.whole ∧ q.Divided c hint parts := by
  constructor
  · exact divided_of_render
  · rintro ⟨parts, rfl, h⟩
    exact render_of_divided h

end Query

/-! ## Translations -/

namespace Statement

variable {d : Dialect} {config : TranslationConfig} {statement : Statement} {t : Translation}

theorem exists_render_of_translate (h : statement.translate d config = .ok t) :
    ∃ f, statement.render d = .ok f ∧ t = .ofFragment d config f := by
  unfold translate at h
  cases hr : statement.render d with
  | error e => simp [hr, bind, Except.bind] at h
  | ok f =>
    rw [hr] at h
    exact ⟨f, rfl, (Except.ok.inj h).symm⟩

/-- A query is written exactly if it can be cut at its limits and its order. Every query that a
translated statement shows is written somewhere. Wherever a query is written, its limits stand
once, in its own text and apart from the text around it, and its order is kept or its removal is
reported. -/
theorem translate_limits (statement : Statement) (d : Dialect) (config : TranslationConfig) :
    (∀ c hint (q : Query) f, q.render c hint = .ok f ↔
      ∃ parts : Query.Parts, f = parts.whole ∧ q.Divided c hint parts) ∧
    ∀ t, statement.translate d config = .ok t →
      (∀ isInner q, statement.Shows d isInner (.query q) → ∃ site,
        statement.WritesAt d site (.query q) ∧ site.context = statement.contextAt d isInner) ∧
      ∀ site q, statement.WritesAt d site (.query q) → ∃ parts : Query.Parts,
        t = .ofFragment d config (site.around parts.whole) ∧
        q.Divided site.context site.hint parts ∧ statement.SetsApart d site q ∧
        site.context.dialect = d ∧ parts.order.warnings ⊆ t.warnings := by
  refine ⟨fun c hint q f => Query.render_ok_iff, ?_⟩
  intro t h
  obtain ⟨f, hf, rfl⟩ := exists_render_of_translate h
  constructor
  · intro isInner q hs
    exact exists_writesAt hf hs
  · intro site q hw
    obtain ⟨g, hg, rfl⟩ := hw.around hf
    obtain ⟨parts, rfl, hparts⟩ := Query.render_ok_iff.1 hg
    refine ⟨parts, rfl, hparts, hw.setsApart, hw.dialect_eq, ?_⟩
    intro warning hwarning
    simp [Translation.ofFragment, Site.around, Query.Parts.whole, hwarning]

/-- The first five tags, in the order of their names. -/
def firstTags : Query :=
  .spec { select := [⟨.of "t1" "person_id", none⟩], tables := [⟨⟨"tag", "t1"⟩, []⟩]
          orderBy := [⟨.of "t1" "name", false, none⟩], limit := some (.literal (.integer 5)) }

def hasFirstTag : Condition := .inQuery (.of "t0" "id") firstTags false

/-- The persons that have one of the first five tags. -/
def firstTagged : Statement :=
  .select (.spec { select := [⟨.of "t0" "name", none⟩], tables := [⟨⟨"person", "t0"⟩, []⟩]
                   condition := some hasFirstTag })
    none

theorem firstTagged_shows_firstTags :
    firstTagged.Shows (Dialect.ofProduct .postgreSql ⟨16, 0, 0⟩) true (.query firstTags) := by
  have hcondition : firstTagged.Shows (Dialect.ofProduct .postgreSql ⟨16, 0, 0⟩) false
      (.condition hasFirstTag) :=
    .inside (b := false) (m := .condition hasFirstTag) (.outermost rfl)
      (Context.part_mem_specLayout_iff.2 (.inr (.inr ⟨rfl, ?_⟩)))
  · exact .inside (b := true) (m := .query firstTags) hcondition
      (List.mem_cons_of_mem _ (List.mem_cons_of_mem _ (Slot.part_mem_subquery_iff.2 ⟨rfl, rfl⟩)))
  · simp [QuerySpec.conditions]

theorem firstTagged_limits : ∃ (t : Translation) (site : Site) (parts : Query.Parts),
    firstTagged.translate (Dialect.ofProduct .postgreSql ⟨16, 0, 0⟩)
      (.ofDialect (Dialect.ofProduct .postgreSql ⟨16, 0, 0⟩)) = .ok t ∧
    firstTagged.WritesAt (Dialect.ofProduct .postgreSql ⟨16, 0, 0⟩) site (.query firstTags) ∧
    t = .ofFragment (Dialect.ofProduct .postgreSql ⟨16, 0, 0⟩)
      (.ofDialect (Dialect.ofProduct .postgreSql ⟨16, 0, 0⟩)) (site.around parts.whole) ∧
    parts.page.pieces = [.text " limit ", .text "5"] := by
  obtain ⟨t, h⟩ : ∃ t, firstTagged.translate (Dialect.ofProduct .postgreSql ⟨16, 0, 0⟩)
      (.ofDialect (Dialect.ofProduct .postgreSql ⟨16, 0, 0⟩)) = .ok t := ⟨_, rfl⟩
  obtain ⟨hshown, hwritten⟩ := (translate_limits _ _ _).2 t h
  obtain ⟨site, hw, -⟩ := hshown true firstTags firstTagged_shows_firstTags
  obtain ⟨parts, ht, hparts, -, hd, -⟩ := hwritten site firstTags hw
  refine ⟨t, site, parts, h, hw, ht, ?_⟩
  have hs : site.context.dialect.rowLimit = .limitOffset none := by rw [hd]; rfl
  cases hparts.limits with
  | unlimited hl => cases hl
  | first _ hs' => simp [hs] at hs'
  | top _ hs' => simp [hs] at hs'
  | paged _ _ hp =>
    generalize parts.page = page at hp
    cases hp with
    | offsetFetch hs' => simp [hs] at hs'
    | limitOffset _ hlimit hoffset =>
      cases hoffset
      cases hlimit with
      | present hf =>
        obtain rfl := Except.ok.inj hf
        rfl

/-- Ten names, each of them once. -/
def tenNames : Statement :=
  .select (.spec { isDistinct := true, select := [⟨.of "t0" "name", none⟩]
                   tables := [⟨⟨"person", "t0"⟩, []⟩], limit := some (.literal (.integer 10)) })
    none

theorem tenNames_distinct_before_top :
    (Dialect.ofProduct .sqlServer ⟨10, 0, 0⟩).rowLimit = .top (some ⟨11, 0, 0⟩) ∧ ∃ t,
    tenNames.translate (Dialect.ofProduct .sqlServer ⟨10, 0, 0⟩)
      (.ofDialect (Dialect.ofProduct .sqlServer ⟨10, 0, 0⟩)) = .ok t ∧
    t.sql = "select distinct top (10) t0.name from person t0" ∧
    ∀ rest, t.sql ≠ "select top (10) " ++ rest := by
  obtain ⟨t, ht, hsql⟩ : ∃ t, tenNames.translate (Dialect.ofProduct .sqlServer ⟨10, 0, 0⟩)
      (.ofDialect (Dialect.ofProduct .sqlServer ⟨10, 0, 0⟩)) = .ok t ∧
      t.sql = "select distinct top (10) t0.name from person t0" := ⟨_, rfl, rfl⟩
  refine ⟨by decide +kernel, t, ht, hsql, ?_⟩
  intro rest h
  rw [hsql] at h
  -- The texts differ in the first character behind the `select`.
  have hchars := congrArg String.toList h
  rw [String.toList_append] at hchars
  have hchar : some 'd' = some 't' := congrArg (·[7]?) hchars
  simp at hchar

end Statement

end SqlDialects.Sql
