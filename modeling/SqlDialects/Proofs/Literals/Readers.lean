import SqlDialects.Proofs.Literals.Phrases

/-!
# A reader of a statement

Queries are phrases like the other nodes, and so is a whole statement.
-/

namespace SqlDialects.Sql

variable {c : Context}

/-! ## Queries -/

namespace Context

open Phase

theorem leads_ownTable {t : TableReference} (h : ∀ name ∈ t.identifiers, Text.isPlain name = true) :
    (table t).Leads ready ready := by
  have halias : Text.isPlain (" " ++ t.aliasName) = true := by
    rw [Text.isPlain_append, h t.aliasName (by simp [TableReference.identifiers])]
    rfl
  exact (Rendered.leads_table (h t.table (by simp [TableReference.identifiers]))).andThen
    ((Rendered.leads_textIf (Rendered.leads_plain halias)).andThen Rendered.leads_empty)

theorem leads_optionClause {keyword : String} {e : Option Expression}
    (hkey : Text.isLink keyword = true) (h : ∀ x ∈ e, (Node.expression x).IsPhrase c.dialect) :
    Slot.Leads c ended ended (Slot.clause keyword (e.map fun x => [.expression x])) := by
  refine Slot.leads_clause hkey fun slots hslots => ?_
  obtain ⟨x, hx, rfl⟩ := Option.map_eq_some_iff.1 hslots
  exact Slot.leads_single (Slot.leads_expression (h x hx))

theorem leads_conditionClause {keyword : String} {p : Option Condition}
    (hkey : Text.isLink keyword = true) (h : ∀ q ∈ p, (Node.condition q).IsPhrase c.dialect) :
    Slot.Leads c ended ended (Slot.clause keyword (p.map fun q => [.condition q])) := by
  refine Slot.leads_clause hkey fun slots hslots => ?_
  obtain ⟨q, hq, rfl⟩ := Option.map_eq_some_iff.1 hslots
  exact Slot.leads_single (Slot.leads_condition (h q hq))

theorem leads_itemLayout {item : SelectItem Expression}
    (halias : ∀ a ∈ item.aliasName, Text.isPlain a = true)
    (h : (Node.expression item.expression).IsPhrase c.dialect) :
    Slot.Leads c ready ended (itemLayout item) := by
  refine .cons (Slot.leads_expression h) (Slot.leads_clause rfl fun slots hslots => ?_)
  obtain ⟨a, ha, rfl⟩ := Option.map_eq_some_iff.1 hslots
  exact Slot.leads_single (Slot.leads_ownPlain (halias a ha))

theorem isLink_join (kind : JoinKind) : Text.isLink (" " ++ kind.sql ++ " ") = true := by
  cases kind <;> decide

theorem leads_joinLayout {join : Join}
    (hnames : ∀ name ∈ join.table.identifiers, Text.isPlain name = true)
    (h : ∀ p ∈ join.on, (Node.condition p).IsPhrase c.dialect) :
    Slot.Leads c ended ended (joinLayout join) := by
  unfold joinLayout
  split
  · next p hp =>
    exact .cons (Rendered.leads_link (isLink_join _)) (.cons (leads_ownTable hnames)
      (.cons (Rendered.leads_link rfl).ofReady (Slot.leads_single (Slot.leads_condition (h p hp)))))
  · split
    · exact .cons (Rendered.leads_link (isLink_join _))
        (Slot.leads_single (leads_ownTable hnames).toEnded)
    · exact Slot.leads_malformed

theorem leads_tableLayout {hint : String} {item : FromItem} (hhint : Text.isPlain hint = true)
    (hnames : ∀ name ∈ item.root.identifiers ++ item.joins.flatMap (·.table.identifiers),
      Text.isPlain name = true)
    (h : ∀ join ∈ item.joins, ∀ p ∈ join.on, (Node.condition p).IsPhrase c.dialect) :
    Slot.Leads c ready ended (tableLayout hint item) := by
  rw [List.forall_mem_append] at hnames
  refine .cons (leads_ownTable hnames.1) (.cons
    (Rendered.leads_textIf (Rendered.leads_plain hhint)).toEnded (Slot.leads_flatMap ?_))
  intro join hjoin
  exact leads_joinLayout
    (fun name hname => hnames.2 name (List.mem_flatMap.2 ⟨join, hjoin, hname⟩)) (h join hjoin)

theorem leads_tableLayouts {hint : String} {items : List FromItem}
    (hhint : Text.isPlain hint = true)
    (hnames : ∀ item ∈ items,
      ∀ name ∈ item.root.identifiers ++ item.joins.flatMap (·.table.identifiers),
        Text.isPlain name = true)
    (h : ∀ item ∈ items, ∀ join ∈ item.joins, ∀ p ∈ join.on,
      (Node.condition p).IsPhrase c.dialect) :
    ∀ row ∈ tableLayouts hint items, Slot.Leads c ready ended row := by
  induction items generalizing hint with
  | nil => simp [tableLayouts]
  | cons item rest ih =>
    rw [List.forall_mem_cons] at hnames h
    exact List.forall_mem_cons.2 ⟨leads_tableLayout hhint hnames.1 h.1, ih rfl hnames.2 h.2⟩

theorem leads_keyLayout {key : SortKey Expression}
    (h : (Node.expression key.expression).IsPhrase c.dialect) :
    Slot.Leads c ready ended (c.keyLayout key) := by
  have hdirected : Slot.Leads c ready ended
      [.expression key.expression, .own (.textIf key.isDescending " desc")] :=
    .cons (Slot.leads_expression h)
      (Slot.leads_single (Rendered.leads_textIf (Rendered.leads_link rfl).toEnded))
  have hlast {t : String} (ht : Text.isLink t = true) : Slot.Leads c ended ended [.text t] :=
    Slot.leads_single (Rendered.leads_link ht).toEnded
  have hnull {t : String} (ht : Text.isLink t = true) : Slot.Leads c ready ready
      [.text "case when ", .expression key.expression, .text t, .text " end, "] :=
    .cons (Rendered.leads_plain rfl) (.cons (Slot.leads_expression h)
      (.cons (Rendered.leads_link ht) (Slot.leads_single (Rendered.leads_plain rfl))))
  unfold keyLayout
  dsimp only
  split
  · exact hdirected
  · exact hdirected.append (hlast rfl)
  · exact hdirected.append (hlast rfl)
  · exact (hnull (t := " is null then 0 else 1") rfl).append hdirected
  · exact (hnull (t := " is null then 1 else 0") rfl).append hdirected

theorem leads_prefixLayout {isDistinct : Bool} {limit : Option Expression}
    (h : ∀ e ∈ limit, (Node.expression e).IsPhrase c.dialect) :
    Slot.Leads c ready ready (c.prefixLayout isDistinct limit) := by
  have hdistinct : ((Slot.own (.textIf isDistinct "distinct ")).render c).Leads ready ready :=
    Rendered.leads_textIf (Rendered.leads_plain rfl)
  unfold prefixLayout
  dsimp only
  split
  · next e _ =>
    exact .cons (Rendered.leads_plain rfl) (.cons (Slot.leads_expression (h e rfl))
      (.cons (Rendered.leads_link rfl) (Slot.leads_single hdistinct)))
  · next e _ =>
    exact .cons hdistinct (.cons (Rendered.leads_plain rfl)
      (.cons (Slot.leads_expression (h e rfl)) (Slot.leads_single (Rendered.leads_link rfl))))
  · exact Slot.leads_single hdistinct

theorem leads_paginationLayout (hd : c.dialect.IsClean) {hasOrder : Bool}
    {limit offset : Option Expression}
    (hlimit : ∀ e ∈ limit, (Node.expression e).IsPhrase c.dialect)
    (hoffset : ∀ e ∈ offset, (Node.expression e).IsPhrase c.dialect) :
    Slot.Leads c ended ended (c.paginationLayout hasOrder limit offset) := by
  unfold paginationLayout
  split
  · exact Slot.leads_nil
  · split
    · exact Slot.leads_single (Rendered.leads_refuse _ _ _)
    · exact Slot.leads_nil
    · exact Slot.leads_nil
    · next allRows hrows =>
      refine .append (Slot.leads_clause rfl fun slots hslots => ?_)
        (leads_optionClause rfl hoffset)
      cases limit with
      | some e =>
        obtain rfl := Option.some.inj hslots
        exact Slot.leads_single (Slot.leads_expression (hlimit e rfl))
      | none =>
        obtain ⟨rows, rfl, rfl⟩ := Option.map_eq_some_iff.1 hslots
        exact Slot.leads_single (Slot.leads_ownPlain (hd.allRows rows hrows))
    · next rowsKeyword requiresOrderBy _ =>
      have hfetch : Text.isLink (if offset.isSome then " fetch next " else " fetch first ") =
          true := by cases offset.isSome <;> decide
      refine .append (.cons (Rendered.leads_textIf (Rendered.leads_link rfl).toEnded)
        (Slot.leads_clause rfl fun slots hslots => ?_))
          (Slot.leads_clause hfetch fun slots hslots => ?_)
      · obtain ⟨e, he, rfl⟩ := Option.map_eq_some_iff.1 hslots
        exact .cons (Slot.leads_expression (hoffset e he))
          (Slot.leads_single (Rendered.leads_textIf (Rendered.leads_link rfl).toEnded))
      · obtain ⟨e, he, rfl⟩ := Option.map_eq_some_iff.1 hslots
        exact .cons (Slot.leads_expression (hlimit e he))
          (Slot.leads_single (Rendered.leads_link rfl).toEnded)

theorem leads_endLayout (hd : c.dialect.IsClean) {keys : List (SortKey Expression)}
    {limit offset : Option Expression}
    (hkeys : ∀ key ∈ keys, (Node.expression key.expression).IsPhrase c.dialect)
    (hlimit : ∀ e ∈ limit, (Node.expression e).IsPhrase c.dialect)
    (hoffset : ∀ e ∈ offset, (Node.expression e).IsPhrase c.dialect) :
    Slot.Leads c ended ended (c.endLayout keys limit offset) := by
  have hpage (hasOrder : Bool) :
      Slot.Leads c ended ended (c.paginationLayout hasOrder limit offset) :=
    leads_paginationLayout hd hlimit hoffset
  unfold endLayout
  split
  · exact hpage false
  · refine .append (.cons (Rendered.leads_link rfl) (Slot.leads_separated rfl ?_)) (hpage true)
    exact List.forall_mem_map.2 fun key hkey => leads_keyLayout (hkeys key hkey)
  · exact .cons (Rendered.leads_warning _) (hpage false)
  · exact Slot.leads_fail

theorem leads_groupByLayout {keys : List Expression}
    (h : ∀ e ∈ keys, (Node.expression e).IsPhrase c.dialect) :
    Slot.Leads c ended ended (Slot.clause " group by " (groupByLayout keys)) := by
  refine Slot.leads_clause rfl fun slots hslots => ?_
  unfold groupByLayout at hslots
  split at hslots
  · simp at hslots
  · obtain rfl := Option.some.inj hslots
    exact Slot.leads_items rfl h

theorem leads_specLayout (hd : c.dialect.IsClean) {hint : String} {spec : QuerySpec}
    (hhint : Text.isPlain hint = true)
    (hnames : ∀ name ∈ spec.identifiers, Text.isPlain name = true)
    (h : ∀ n ∈ spec.children, n.IsPhrase c.dialect) :
    Slot.Leads c ready ended (c.specLayout hint spec) := by
  simp only [QuerySpec.children, QuerySpec.expressions, QuerySpec.conditions, QuerySpec.joins,
    List.forall_mem_append, List.forall_mem_map, List.mem_flatMap, Option.mem_toList] at h
  obtain ⟨⟨⟨⟨⟨hselect, hgroup⟩, horder⟩, hlimit⟩, hoffset⟩, ⟨hjoins, hcondition⟩, hhaving⟩ := h
  obtain ⟨halias, htables⟩ := List.forall_mem_append.1 hnames
  have hselect : Slot.Leads c ready ended
      (Slot.separated ", " (spec.select.map itemLayout)) := by
    refine Slot.leads_separated rfl (List.forall_mem_map.2 fun item hitem => ?_)
    refine leads_itemLayout (fun a ha => ?_) (hselect item hitem)
    exact halias a (List.mem_flatMap.2 ⟨item, hitem, Option.mem_toList.2 ha⟩)
  have htables : Slot.Leads c ready ended
      (Slot.separated ", " (tableLayouts hint spec.tables)) := by
    refine Slot.leads_separated rfl (leads_tableLayouts hhint (fun item hitem name hname => ?_)
      fun item hitem join hjoin p hp => ?_)
    · exact htables name (List.mem_flatMap.2 ⟨item, hitem, hname⟩)
    · exact hjoins p ⟨join, ⟨item, hitem, hjoin⟩, hp⟩
  have hfront : Slot.Leads c ready ended (.text "select " ::
      c.prefixLayout spec.isDistinct spec.limit ++
      Slot.separated ", " (spec.select.map itemLayout)) :=
    .append (.cons (Rendered.leads_plain rfl) (leads_prefixLayout hlimit)) hselect
  have hfrom : Slot.Leads c ended ended
      (.text " from " :: Slot.separated ", " (tableLayouts hint spec.tables)) :=
    .cons (Rendered.leads_link rfl) htables
  have hwhere : Slot.Leads c ended ended
      (Slot.clause " where " (spec.condition.map fun p => [.condition p])) :=
    leads_conditionClause rfl hcondition
  have hhaving : Slot.Leads c ended ended
      (Slot.clause " having " (spec.having.map fun p => [.condition p])) :=
    leads_conditionClause rfl hhaving
  exact (((((hfront.append hfrom).append hwhere).append (leads_groupByLayout hgroup)).append
    hhaving).append (leads_endLayout hd horder hlimit hoffset))

theorem isLink_setOperator (operator : SetOperator) :
    Text.isLink (" " ++ operator.sql ++ " ") = true := by cases operator <;> decide

end Context

/-- A query is a phrase if its children are. -/
theorem Query.leads_layout (hd : c.dialect.IsClean) {hint : String} {q : Query}
    (hhint : Text.isPlain hint = true)
    (hnames : ∀ name ∈ (Node.query q).identifiers, Text.isPlain name = true)
    (h : ∀ n ∈ q.children, n.IsPhrase c.dialect) :
    Slot.Leads c .ready .ended (q.layout c hint) := by
  cases q with
  | spec body =>
    simp only [layout, QuerySpec.layout]
    split
    · exact Slot.leads_malformed
    · split
      · exact Slot.leads_malformed
      · split
        · exact Slot.leads_fail
        · exact Context.leads_specLayout hd hhint hnames h
  | group operator parts orderBy limit offset =>
    simp only [children, List.forall_mem_append, List.forall_mem_map, Option.mem_toList] at h
    obtain ⟨hparts, ⟨horder, hlimit⟩, hoffset⟩ := h
    simp only [layout]
    split
    · exact Slot.leads_fail
    · refine .append (Slot.leads_separated (Context.isLink_setOperator operator) ?_)
        (Context.leads_endLayout hd horder hlimit hoffset)
      refine List.forall_mem_map.2 fun part hpart => ?_
      have hrow := Slot.leads_single (Slot.leads_part (hparts part hpart) false)
      unfold Context.operandQueryLayout
      split
      · exact hrow.parenthesized
      · exact hrow

/-- The names of the node are plain, and what its patterns quote can stand in a literal. -/
structure Node.IsTame (d : Dialect) (n : Node) : Prop where
  names : ∀ name ∈ n.identifiers, Text.isPlain name = true
  quotes : ∀ e, n = .expression e → e.QuotesQuiet d

theorem Node.isPhrase {d : Dialect} (hd : d.IsClean) {n : Node}
    (h : ∀ m : Node, m.Within n → m.IsTame d) : n.IsPhrase d := by
  -- The elements of a tuple can be written by the node above it, so the induction is on the size.
  induction hsize : sizeOf n using Nat.strongRecOn generalizing n with
  | ind size ih =>
    subst hsize
    have hbelow {m : Node} (hm : m.Below n) : m.IsPhrase d :=
      ih _ hm.sizeOf_lt (fun k hk => h k (hk.trans hm.within)) rfl
    obtain ⟨hnames, hquotes⟩ := h n .refl
    rintro c rfl
    rw [render_eq_fill]
    cases n with
    | expression e =>
      exact Expression.leads_layout hd hnames (hquotes e rfl) fun m hm => hbelow (.child hm)
    | condition p => exact Condition.leads_layout hd fun m hm => hbelow hm
    | query q => exact Query.leads_layout hd rfl hnames fun m hm => hbelow (.child hm)

/-! ## Statements -/

namespace Statement

/-- The names that a statement writes outside of its nodes. -/
def identifiers : Statement → List String
  | select _ _ => []
  | insert table columns _ => table :: columns
  | update target assignments _ => target.table :: assignments.map (·.column)
  | delete target _ => [target.table]

/-- Some node of the statement, or the statement itself, writes the name. -/
def Names (statement : Statement) (name : String) : Prop :=
  name ∈ statement.identifiers ∨ ∃ n, statement.Contains n ∧ name ∈ n.identifiers

variable {d : Dialect}

theorem isPlain_optionText (hd : d.IsClean) (lock : LockOptions) :
    Text.isPlain (LockOptions.optionText d lock) = true := by
  unfold LockOptions.optionText LockOptions.option?
  cases lock.wait with
  | wait => rfl
  | noWait =>
    dsimp only
    split
    · exact hd.rules.noWait
    · rfl
  | skipLocked =>
    dsimp only
    split
    · exact hd.rules.skipLocked
    · rfl

theorem leads_lockedLayout (hd : c.dialect.IsClean) {query : Query} {lock : LockOptions}
    (h : ∀ hint, Text.isPlain hint = true → Slot.Leads c .ready .ended (query.layout c hint)) :
    Slot.Leads c .ready .ended (lockedLayout c query lock) := by
  have hwarning : (LockOptions.optionWarning c.dialect lock).Leads .ready .ready := by
    unfold LockOptions.optionWarning
    split
    · split
      · exact Rendered.leads_empty
      · exact Rendered.leads_warning _
    · exact Rendered.leads_empty
  have hoption := isPlain_optionText hd lock
  unfold lockedLayout
  dsimp only
  split
  · exact Slot.leads_single (Rendered.leads_refuse _ _ _)
  · cases hl : c.dialect.rules.lockSyntax with
    | clause =>
      obtain ⟨hupdate, hshare⟩ := hd.rules.lockClause hl
      have hmode : Text.isLink (LockOptions.modeText c.dialect.rules.forShare
          c.dialect.rules.forUpdate lock ++ LockOptions.optionText c.dialect lock) = true := by
        refine Text.isLink_append ?_ hoption
        unfold LockOptions.modeText
        split
        · exact hshare
        · exact hupdate
      exact .append (.cons hwarning (h "" rfl))
        (Slot.leads_single (Rendered.leads_link hmode).toEnded)
    | tableHint update share =>
      obtain ⟨hupdate, hshare⟩ := hd.rules.lockHint update share hl
      refine .cons hwarning (h _ ?_)
      have hmode : Text.isPlain (LockOptions.modeText share update lock) = true := by
        unfold LockOptions.modeText
        split
        · exact hshare
        · exact hupdate
      simp only [Text.isPlain_append, hmode, hoption]
      rfl
    | omitted => exact .cons (Rendered.leads_warning _) (h "" rfl)

theorem leads_source {columns : Nat} {source : InsertSource}
    (h : ∀ n ∈ source.children, n.IsPhrase c.dialect) :
    Slot.Leads c .ready .ended (source.layout columns) := by
  cases source with
  | rows values =>
    simp only [InsertSource.layout]
    split
    · exact Slot.leads_malformed
    · refine .cons (Rendered.leads_plain rfl) (Slot.leads_separated rfl fun row hrow => ?_)
      obtain ⟨i, hi, rfl⟩ := List.mem_mapIdx.1 hrow
      unfold insertRowLayout
      split
      · refine (Slot.leads_items rfl fun e he => h _ (List.mem_map_of_mem ?_)).parenthesized
        exact List.mem_flatten.2 ⟨_, List.getElem_mem hi, he⟩
      · exact Slot.leads_malformed
  | query q => exact Slot.leads_single (Slot.leads_part (h _ (List.mem_singleton.2 rfl)) true)

theorem leads_names {names : List String} (h : ∀ name ∈ names, Text.isPlain name = true) :
    Slot.Leads c .ready .ended
      (Slot.separated ", " (names.map fun name => [.own (.name name)])) := by
  refine Slot.leads_separated rfl fun row hrow => ?_
  obtain ⟨name, hname, rfl⟩ := List.mem_map.1 hrow
  exact Slot.leads_single (Rendered.leads_name (h name hname)).toEnded

theorem leads_assignments {assignments : List Assignment}
    (hnames : ∀ a ∈ assignments, Text.isPlain a.column = true)
    (h : ∀ a ∈ assignments, (Node.expression a.value).IsPhrase c.dialect) :
    Slot.Leads c .ready .ended
      (Slot.separated ", " (assignments.map Assignment.layout)) := by
  refine Slot.leads_separated rfl (List.forall_mem_map.2 fun a ha => ?_)
  exact .cons (Rendered.leads_name (hnames a ha)) (.cons (Rendered.leads_plain rfl)
    (Slot.leads_single (Slot.leads_expression (h a ha))))

/-- A reader is in no literal at the end of a statement. -/
theorem leads_layout (hd : d.IsClean) {statement : Statement}
    (hnames : ∀ name, statement.Names name → Text.isPlain name = true)
    (hquotes : ∀ e, statement.Contains (.expression e) → e.QuotesQuiet d) :
    Slot.Leads (statement.context d) .ready .ended (statement.layout d) := by
  have htame {n : Node} (hn : statement.Contains n) : n.IsTame d :=
    ⟨fun name hname => hnames name (.inr ⟨n, hn, hname⟩), fun e he => hquotes e (he ▸ hn)⟩
  have hphrase : ∀ n ∈ statement.children, n.IsPhrase d :=
    fun n hn => Node.isPhrase hd fun m hm => htame ⟨n, hn, hm⟩
  have hown : ∀ name ∈ statement.identifiers, Text.isPlain name = true :=
    fun name hname => hnames name (.inl hname)
  cases statement with
  | select query lock =>
    have hquery (hint : String) (hhint : Text.isPlain hint = true) :
        Slot.Leads { dialect := d } .ready .ended (query.layout { dialect := d } hint) :=
      Query.leads_layout hd hhint (htame ⟨.query query, List.mem_singleton.2 rfl, .refl⟩).names
        fun n hn => Node.isPhrase hd fun m hm =>
          htame ⟨.query query, List.mem_singleton.2 rfl, hm.trans (.single hn)⟩
    cases lock with
    | none => exact hquery "" rfl
    | some lock => exact leads_lockedLayout hd hquery
  | insert table columns source =>
    obtain ⟨htable, hcolumns⟩ := List.forall_mem_cons.1 hown
    have hsource : Slot.Leads { dialect := d } .ready .ended (source.layout columns.length) :=
      leads_source hphrase
    simp only [layout]
    split
    · exact Slot.leads_malformed
    · exact .cons (Rendered.leads_plain rfl) (.cons (Rendered.leads_table htable)
        (.cons (Rendered.leads_plain rfl)
          ((leads_names hcolumns).append (.cons (Rendered.leads_link rfl) hsource))))
  | update target assignments condition =>
    obtain ⟨htable, hcolumns⟩ := List.forall_mem_cons.1 hown
    obtain ⟨hvalues, hcondition⟩ := List.forall_mem_append.1 hphrase
    rw [List.forall_mem_map] at hcolumns hvalues hcondition
    simp only [layout]
    split
    · exact Slot.leads_malformed
    · exact .append (.cons (Rendered.leads_plain rfl) (.cons (Rendered.leads_table htable)
        (.cons (Rendered.leads_plain rfl) (leads_assignments hcolumns hvalues))))
          (Context.leads_conditionClause rfl fun p hp => hcondition p (Option.mem_toList.2 hp))
  | delete target condition =>
    have htable := List.forall_mem_singleton.1 hown
    exact .cons (Rendered.leads_plain rfl) (.cons (Rendered.leads_table htable).toEnded
      (Context.leads_conditionClause rfl fun p hp =>
        hphrase _ (List.mem_map_of_mem (Option.mem_toList.2 hp))))

end Statement

end SqlDialects.Sql
