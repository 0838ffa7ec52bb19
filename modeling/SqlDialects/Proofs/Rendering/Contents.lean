import SqlDialects.Proofs.Rendering.Nodes

/-!
# What a rendering is made of

Parameters and tables get into a rendering from single nodes, and a rendering has no other ones.
-/

namespace SqlDialects.Sql

/-! ## Marks -/

/-- What a fragment can carry besides its text. -/
inductive Mark where
  | parameter (bound : BindParameter)
  | table (name : String)
  | warning (w : TranslationWarning)

def Mark.isWarning : Mark → Bool
  | warning _ => true
  | _ => false

def Fragment.Carries (f : Fragment) : Mark → Prop
  | .parameter bound => .parameter bound ∈ f.pieces
  | .table name => name ∈ f.tables
  | .warning w => w ∈ f.warnings

@[simp]
theorem Fragment.carries_append {f g : Fragment} {mark : Mark} :
    (f ++ g).Carries mark ↔ f.Carries mark ∨ g.Carries mark := by
  cases mark <;> simp [Carries]

namespace Slot

variable {c : Context} {f : Fragment} {slots : List Slot} {mark : Mark}

/-- The slots carry no more than the whole, and the whole no more than the slots. -/
theorem fill_carries (h : fill c slots = .ok f) :
    f.Carries mark ↔ ∃ slot ∈ slots, ∃ g, slot.render c = .ok g ∧ g.Carries mark := by
  induction slots generalizing f with
  | nil =>
    obtain rfl : {} = f := Except.ok.inj h
    cases mark <;> simp [Fragment.Carries]
  | cons slot rest ih =>
    obtain ⟨g, g', hg, hg', rfl⟩ := Rendered.andThen_ok_iff.1 h
    simp [ih hg', hg]

theorem fill_renders (h : fill c slots = .ok f) {slot : Slot} (hs : slot ∈ slots) :
    ∃ g, slot.render c = .ok g := by
  induction slots generalizing f with
  | nil => simp at hs
  | cons first rest ih =>
    obtain ⟨g, g', hg, hg', rfl⟩ := Rendered.andThen_ok_iff.1 h
    rcases List.mem_cons.1 hs with rfl | hs
    · exact ⟨g, hg⟩
    · exact ih hg' hs

end Slot

/-! ## What nodes have of their own -/

namespace QuerySpec

/-- The names of the tables of a query, those of its joins included. -/
def tableNames (spec : QuerySpec) : List String :=
  spec.tables.flatMap fun item => item.root.table :: item.joins.map (·.table.table)

end QuerySpec

/-- What a node itself puts into a rendering. -/
def Node.Owns : Node → Mark → Prop
  | .expression (.parameter bound), .parameter bound' => bound = bound'
  | .query (.spec body), .table name => name ∈ body.tableNames
  | _, _ => False

/-- A rendering with no parameter and no table. -/
def Rendered.IsBare (r : Rendered) : Prop :=
  ∀ f, r = .ok f → ∀ mark, f.Carries mark → mark.isWarning = true

namespace Rendered

@[simp]
theorem isBare_error (e : DialectError) : IsBare (.error e) := nofun

@[simp]
theorem isBare_malformed (reason : String) : IsBare (malformed reason) := nofun

@[simp]
theorem isBare_refuse (c : Context) (construct : String) : IsBare (c.refuse construct) := nofun

theorem isBare_ok {f : Fragment} (hp : ∀ bound, .parameter bound ∉ f.pieces)
    (ht : f.tables = []) : IsBare (.ok f) := by
  intro g hg mark h
  obtain rfl := Except.ok.inj hg
  cases mark with
  | parameter bound => exact absurd h (hp bound)
  | table name => simp [Fragment.Carries, ht] at h
  | warning w => rfl

@[simp]
theorem isBare_empty : IsBare empty := isBare_ok (by simp) rfl

@[simp]
theorem isBare_text (t : String) : IsBare (text t) := isBare_ok (by simp [Fragment.ofText]) rfl

@[simp]
theorem isBare_textIf (condition : Bool) (t : String) : IsBare (textIf condition t) := by
  unfold textIf
  split <;> simp

@[simp]
theorem isBare_name (name : String) : IsBare (.name name) := isBare_ok (by simp) rfl

@[simp]
theorem isBare_string (content : String) : IsBare (.string content) := isBare_ok (by simp) rfl

@[simp]
theorem isBare_warning (w : TranslationWarning) : IsBare (.warning w) := isBare_ok (by simp) rfl

theorem IsBare.andThen {r s : Rendered} (hr : r.IsBare) (hs : s.IsBare) :
    (r.andThen s).IsBare := by
  intro f hf mark h
  obtain ⟨g, g', hg, hg', rfl⟩ := andThen_ok_iff.1 hf
  rcases Fragment.carries_append.1 h with h | h
  · exact hr g hg mark h
  · exact hs g' hg' mark h

end Rendered

namespace Slot

/-- The slot is for a node, or the node has put no parameter and no table there. -/
def IsBare : Slot → Prop
  | own r => r.IsBare
  | part _ _ => True

def AllBare (slots : List Slot) : Prop := ∀ slot ∈ slots, slot.IsBare

variable {slots slots' : List Slot}

@[simp]
theorem isBare_own {r : Rendered} : (own r).IsBare ↔ r.IsBare := Iff.rfl

@[simp]
theorem isBare_text {t : String} : (text t).IsBare := Rendered.isBare_text t

@[simp]
theorem isBare_expression {e : Expression} : (expression e).IsBare := trivial

@[simp]
theorem isBare_condition {p : Condition} : (condition p).IsBare := trivial

@[simp]
theorem isBare_part {b : Bool} {n : Node} : (part b n).IsBare := trivial

@[simp]
theorem allBare_nil : AllBare [] := by simp [AllBare]

@[simp]
theorem allBare_cons {slot : Slot} :
    AllBare (slot :: slots) ↔ slot.IsBare ∧ AllBare slots := List.forall_mem_cons

@[simp]
theorem allBare_append : AllBare (slots ++ slots') ↔ AllBare slots ∧ AllBare slots' :=
  List.forall_mem_append

@[simp]
theorem allBare_malformed {reason : String} : AllBare (malformed reason) := by simp [malformed]

@[simp]
theorem allBare_fail {e : DialectError} : AllBare (fail e) := by simp [fail]

@[simp]
theorem allBare_parenthesized : AllBare (parenthesized slots) ↔ AllBare slots := by
  simp [parenthesized]

@[simp]
theorem allBare_subquery {q : Query} : AllBare (subquery q) := by simp [subquery]

@[simp]
theorem allBare_separated {separator : String} {rows : List (List Slot)} :
    AllBare (separated separator rows) ↔ ∀ row ∈ rows, AllBare row := by
  induction rows with
  | nil => simp [separated]
  | cons row rest ih =>
    cases rest with
    | nil => simp [separated]
    | cons next rest => simp [separated, ih]

@[simp]
theorem allBare_clause {keyword : String} {slots : Option (List Slot)} :
    AllBare (clause keyword slots) ↔ ∀ row, slots = some row → AllBare row := by
  cases slots <;> simp [clause]

@[simp]
theorem allBare_flatMap {α : Type} {layout : α → List Slot} {items : List α} :
    AllBare (items.flatMap layout) ↔ ∀ item ∈ items, AllBare (layout item) := by
  induction items <;> simp_all

end Slot

namespace Context

open Slot (AllBare)

variable {c : Context}

@[simp]
theorem isBare_column {qualifier : Option String} {name : String} :
    (c.column qualifier name).IsBare := by
  unfold column
  split
  · split
    · simp
    · exact (Rendered.isBare_text _).andThen ((Rendered.isBare_name _).andThen (by simp))
  · simp

@[simp]
theorem isBare_literal {value : Literal} : (c.literal value).IsBare := by
  unfold literal
  split
  all_goals try split
  all_goals simp

@[simp]
theorem isBare_star {qualifier : Option String} : (star qualifier).IsBare := by
  unfold star
  split <;> simp

@[simp]
theorem isBare_negatable {isNegated : Bool} {keyword : String} :
    (negatable isNegated keyword).IsBare := by simp [negatable]

theorem allBare_requiringLayout {capability : Capability} {construct : String}
    {slots : List Slot} (h : AllBare slots) :
    AllBare (c.requiringLayout capability construct slots) := by
  unfold requiringLayout
  split <;> simp [h]

theorem allBare_templateLayout {template : FunctionTemplate} {arguments : List Slot}
    (h : AllBare arguments) : AllBare (templateLayout template arguments) := by
  unfold templateLayout
  split
  · intro slot hs
    obtain ⟨segment, -, rfl⟩ := List.mem_map.1 hs
    unfold argumentSlot
    split
    · simp
    · split
      · next hslot => exact h _ (List.mem_of_getElem? hslot)
      · simp
  · simp

theorem allBare_functionLayout {name : String} {arguments : List Slot} (h : AllBare arguments) :
    AllBare (c.functionLayout name arguments) := by
  unfold functionLayout
  split
  · exact allBare_templateLayout h
  · simp

theorem allBare_timestampLayout {name : String} {pattern : Except DialectError String}
    {arguments : List Slot} (h : AllBare arguments) :
    AllBare (timestampLayout name pattern arguments) := by
  unfold timestampLayout
  split
  · exact allBare_templateLayout h
  · simp

theorem allBare_extractLayout {unit : TemporalUnit} {source : Slot} (h : source.IsBare) :
    AllBare (c.extractLayout unit source) := by
  unfold extractLayout
  dsimp only
  split
  · exact allBare_templateLayout (by simp [h])
  · exact allBare_templateLayout (by simp [h])
  · simp [h]

@[simp]
theorem allBare_aggregateLayout {function : AggregateFunction} {isDistinct : Bool}
    {argument : Option Expression} : AllBare (c.aggregateLayout function isDistinct argument) := by
  cases argument with
  | none =>
    simp only [aggregateLayout, aggregate]
    split <;> simp
  | some e =>
    simp only [aggregateLayout]
    split
    · exact allBare_requiringLayout (by simp)
    · simp

@[simp]
theorem allBare_pairLayout {operator : Comparison} {pair : Expression × Expression} :
    AllBare (pairLayout operator pair) := by simp [pairLayout, comparisonLayout]

@[simp]
theorem allBare_alternativeLayout {operator : Comparison}
    {equal : List (Expression × Expression)} {pair : Expression × Expression} :
    AllBare (alternativeLayout operator equal pair) := by
  unfold alternativeLayout
  split
  · exact allBare_pairLayout
  · simp only [Slot.allBare_parenthesized, Slot.allBare_separated, List.forall_mem_append,
      List.forall_mem_map, List.forall_mem_singleton, allBare_pairLayout, implies_true, and_self]

theorem allBare_alternativeLayouts {operator : Comparison}
    {equal pairs : List (Expression × Expression)} :
    ∀ row ∈ alternativeLayouts operator equal pairs, AllBare row := by
  induction pairs generalizing equal with
  | nil => simp [alternativeLayouts]
  | cons pair rest ih =>
    cases rest with
    | nil => simp [alternativeLayouts]
    | cons next rest => exact List.forall_mem_cons.2 ⟨allBare_alternativeLayout, ih⟩

@[simp]
theorem allBare_expandedLayout {operator : Comparison} {pairs : List (Expression × Expression)} :
    AllBare (expandedLayout operator pairs) := by
  cases operator with
  | equal | notEqual =>
    simp only [expandedLayout, Slot.allBare_parenthesized, Slot.allBare_separated,
      List.forall_mem_map, allBare_pairLayout, implies_true]
  | less | lessOrEqual | greater | greaterOrEqual =>
    simpa [expandedLayout] using allBare_alternativeLayouts

@[simp]
theorem allBare_compareLayout {operator : Comparison} {left right : Expression} :
    AllBare (c.compareLayout operator left right) := by
  have hmixed {elements : Nat} {left right : Expression} :
      AllBare (c.mixedLayout elements operator left right) := by
    unfold mixedLayout
    split
    · simp
    · exact allBare_requiringLayout (by simp [comparisonLayout])
  unfold compareLayout
  split
  · unfold rowLayout
    split
    · simp
    · split <;> simp [comparisonLayout]
  · exact hmixed
  · exact hmixed
  · simp [comparisonLayout]

theorem allBare_memberLayout {operand : Expression} {slots : List Slot} (h : AllBare slots) :
    AllBare (c.memberLayout operand slots) := by
  unfold memberLayout
  split
  · exact allBare_requiringLayout h
  · exact allBare_requiringLayout h
  · exact h

@[simp]
theorem allBare_sideLayout {isLowered : Bool} {e : Expression} :
    AllBare (c.sideLayout isLowered e) := by
  unfold sideLayout
  split <;> simp

@[simp]
theorem allBare_operandLayout {p : Condition} : AllBare (operandLayout p) := by
  unfold operandLayout
  split <;> simp

@[simp]
theorem allBare_keyLayout {key : SortKey Expression} : AllBare (c.keyLayout key) := by
  unfold keyLayout
  split <;> simp

@[simp]
theorem allBare_prefixLayout {isDistinct : Bool} {limit : Option Expression} :
    AllBare (c.prefixLayout isDistinct limit) := by
  unfold prefixLayout
  dsimp only
  split <;> simp

@[simp]
theorem allBare_paginationLayout {hasOrder : Bool} {limit offset : Option Expression} :
    AllBare (c.paginationLayout hasOrder limit offset) := by
  unfold paginationLayout
  split
  · simp
  · split
    · simp
    · simp
    · simp
    · cases limit <;> cases offset <;> simp
    · cases limit <;> cases offset <;> simp

@[simp]
theorem allBare_endLayout {keys : List (SortKey Expression)} {limit offset : Option Expression} :
    AllBare (c.endLayout keys limit offset) := by
  unfold endLayout
  split <;> simp

@[simp]
theorem allBare_operandQueryLayout {q : Query} : AllBare (operandQueryLayout q) := by
  unfold operandQueryLayout
  split <;> simp

@[simp]
theorem allBare_itemLayout {item : SelectItem Expression} : AllBare (itemLayout item) := by
  obtain ⟨e, a⟩ := item
  cases a <;> simp [itemLayout]

end Context

/-- Only a parameter node puts something into a rendering itself. -/
theorem Expression.allBare_layout {c : Context} {e : Expression}
    (h : ∀ bound, e ≠ .parameter bound) : Slot.AllBare (e.layout c) := by
  cases e with
  | parameter bound => exact absurd rfl (h bound)
  | column | literal | star | aggregate | binary | negate | subquery => simp [layout]
  | call name arguments =>
    refine Context.allBare_functionLayout fun slot hs => ?_
    obtain ⟨e, -, rfl⟩ := List.mem_map.1 hs
    simp
  | extract unit source => exact Context.allBare_extractLayout (by simp)
  | timestampAdd | timestampDiff => exact Context.allBare_timestampLayout (by simp)
  | format source pattern => exact Context.allBare_functionLayout (by simp)
  | case branches otherwise =>
    simp only [layout, Context.caseLayout]
    split
    · simp
    · cases otherwise <;> simp [Context.branchLayout]
  | cast source target =>
    simp only [layout, Context.castLayout]
    split <;> simp
  | tuple items =>
    simp only [layout, Context.tupleLayout]
    split <;> simp

theorem Condition.allBare_layout {c : Context} {p : Condition} : Slot.AllBare (p.layout c) := by
  cases p with
  | compare | not | isNull | between | holds | «exists» => simp [layout]
  | all | any =>
    simp only [layout]
    split <;> simp
  | inList operand items isNegated =>
    simp only [layout, Context.inListLayout]
    split
    · simp
    · exact Context.allBare_memberLayout (by simp)
  | inQuery => exact Context.allBare_memberLayout (by simp)
  | like operand pattern escape _ _ => cases escape <;> simp [layout, Context.likeLayout]

/-! ## The tables of a query -/

namespace Context

open Slot (AllBare)

theorem table_carries {t : TableReference} {f : Fragment} (h : table t = .ok f) {mark : Mark} :
    f.Carries mark ↔ mark = .table t.table := by
  obtain rfl : ⟨[.name t.table] ++ if t.aliasName != "" then [.text (" " ++ t.aliasName)] else [],
      [t.table], []⟩ = f := by
    refine Except.ok.inj (Eq.trans ?_ h)
    unfold table Rendered.textIf
    split <;> rfl
  cases mark with
  | parameter bound =>
    simp only [Fragment.Carries]
    split <;> simp
  | table name => simp [Fragment.Carries]
  | warning w => simp [Fragment.Carries]

/-- The tables of a query, in the order of its layout. -/
theorem own_mem_tableLayouts {hint : String} {items : List FromItem} {r : Rendered}
    {row : List Slot} (hrow : row ∈ tableLayouts hint items) (h : .own r ∈ row) :
    r.IsBare ∨ ∃ t, r = table t ∧
      t.table ∈ items.flatMap fun item => item.root.table :: item.joins.map (·.table.table) := by
  induction items generalizing hint with
  | nil => simp [tableLayouts] at hrow
  | cons item rest ih =>
    rcases List.mem_cons.1 hrow with rfl | hrow
    · simp only [tableLayout, List.mem_cons, Slot.own.injEq, List.mem_flatMap] at h
      rcases h with rfl | rfl | ⟨join, hj, h⟩
      · exact .inr ⟨item.root, rfl, by simp⟩
      · exact .inl (Rendered.isBare_textIf _ _)
      · have hname : join.table.table ∈ (item :: rest).flatMap
            fun item => item.root.table :: item.joins.map (·.table.table) := by
          simp only [List.flatMap_cons, List.mem_append, List.mem_cons]
          exact .inl (.inr (List.mem_map_of_mem hj))
        unfold joinLayout at h
        split at h
        · simp [Slot.text, Slot.condition] at h
          grind [Rendered.isBare_text]
        · split at h
          · simp [Slot.text] at h
            grind [Rendered.isBare_text]
          · simp [Slot.malformed] at h
            grind [Rendered.isBare_malformed]
    · rcases ih hrow with h | ⟨t, ht, hmem⟩
      · exact .inl h
      · exact .inr ⟨t, ht, List.mem_append_right _ hmem⟩

end Context

theorem Slot.own_mem_separated {r : Rendered} {separator : String} {rows : List (List Slot)}
    (h : own r ∈ separated separator rows) : r.IsBare ∨ ∃ row ∈ rows, own r ∈ row := by
  induction rows with
  | nil => simp [separated] at h
  | cons row rest ih =>
    cases rest with
    | nil => exact .inr ⟨row, List.mem_singleton.2 rfl, h⟩
    | cons next rest =>
      rcases List.mem_append.1 h with h | h
      · exact .inr ⟨row, List.mem_cons_self, h⟩
      · rcases List.mem_cons.1 h with h | h
        · exact .inl (Slot.own.inj h ▸ Rendered.isBare_text separator)
        · rcases ih h with h | ⟨row, hrow, h⟩
          · exact .inl h
          · exact .inr ⟨row, List.mem_cons_of_mem _ hrow, h⟩

theorem Context.own_mem_specLayout {c : Context} {hint : String} {spec : QuerySpec} {r : Rendered}
    (h : .own r ∈ c.specLayout hint spec) :
    r.IsBare ∨ ∃ t, r = table t ∧ t.table ∈ spec.tableNames := by
  have hbare {slots : List Slot} (hs : Slot.AllBare slots) (h : .own r ∈ slots) :
      r.IsBare ∨ ∃ t, r = table t ∧ t.table ∈ spec.tableNames :=
    .inl (Slot.isBare_own.1 (hs _ h))
  have hcondition (p : Option Condition) (keyword : String) :
      Slot.AllBare (Slot.clause keyword (p.map fun p => [.condition p])) := by
    cases p <;> simp
  have hgroup : Slot.AllBare (Slot.clause " group by " (groupByLayout spec.groupBy)) := by
    unfold groupByLayout
    split <;> simp
  simp only [specLayout, List.cons_append, List.append_assoc, List.mem_cons, List.mem_append] at h
  rcases h with h | h | h | h | h | h | h | h | h
  · exact .inl (Slot.own.inj h ▸ Rendered.isBare_text _)
  · exact hbare allBare_prefixLayout h
  · exact hbare (by simp) h
  · exact .inl (Slot.own.inj h ▸ Rendered.isBare_text _)
  · rcases Slot.own_mem_separated h with h | ⟨row, hrow, h⟩
    · exact .inl h
    · exact own_mem_tableLayouts hrow h
  · exact hbare (hcondition _ _) h
  · exact hbare hgroup h
  · exact hbare (hcondition _ _) h
  · exact hbare allBare_endLayout h

theorem Query.own_mem_layout {c : Context} {hint : String} {q : Query} {r : Rendered}
    (h : .own r ∈ q.layout c hint) :
    r.IsBare ∨ ∃ spec t, q = .spec spec ∧ r = Context.table t ∧ t.table ∈ spec.tableNames := by
  have hbare {slots : List Slot} (hs : Slot.AllBare slots) (h : .own r ∈ slots) :
      r.IsBare ∨ ∃ spec t, q = .spec spec ∧ r = Context.table t ∧ t.table ∈ spec.tableNames :=
    .inl (Slot.isBare_own.1 (hs _ h))
  cases q with
  | spec body =>
    simp only [layout, QuerySpec.layout] at h
    split at h
    · exact hbare (by simp) h
    · split at h
      · exact hbare (by simp) h
      · split at h
        · exact hbare (by simp) h
        · rcases Context.own_mem_specLayout h with h | ⟨t, ht⟩
          · exact .inl h
          · exact .inr ⟨body, t, rfl, ht⟩
  | group operator parts orderBy limit offset =>
    simp only [layout] at h
    split at h
    · exact hbare (by simp) h
    · exact hbare (by simp) h

/-! ## Nothing is invented -/

namespace Query

variable {c : Context} {hint : String} {q : Query} {mark : Mark}

theorem owns_of_layout {f : Fragment} (h : .own (.ok f) ∈ q.layout c hint) (hf : f.Carries mark)
    (hw : mark.isWarning = false) : (Node.query q).Owns mark := by
  rcases own_mem_layout h with h | ⟨spec, t, rfl, hr, ht⟩
  · exact absurd (h f rfl mark hf) (by simp [hw])
  · obtain rfl := (Context.table_carries hr.symm).1 hf
    exact ht

end Query

namespace Node

variable {c : Context} {n : Node} {f : Fragment} {mark : Mark}

theorem owns_of_layout (h : .own (.ok f) ∈ n.layout c) (hf : f.Carries mark)
    (hw : mark.isWarning = false) : n.Owns mark := by
  have hbare {slots : List Slot} (hs : Slot.AllBare slots) (h : .own (.ok f) ∈ slots) :
      n.Owns mark := absurd (hs _ h f rfl mark hf) (by simp [hw])
  cases n with
  | expression e =>
    by_cases he : ∃ bound, e = .parameter bound
    · obtain ⟨bound, rfl⟩ := he
      obtain rfl : f = { pieces := [.parameter bound] } := by
        simpa [layout, Expression.layout, Rendered.parameter] using h
      cases mark with
      | parameter bound' =>
        exact (Piece.parameter.inj (List.mem_singleton.1 hf)).symm
      | table name => simp [Fragment.Carries] at hf
      | warning w => simp [Mark.isWarning] at hw
    · exact hbare (Expression.allBare_layout (not_exists.1 he)) h
  | condition p => exact hbare Condition.allBare_layout h
  | query q => exact Query.owns_of_layout h hf hw

/-- What the rendering of a node carries comes from the nodes in it. -/
theorem within_of_carries (h : n.render c = .ok f) (hf : f.Carries mark)
    (hw : mark.isWarning = false) : ∃ m : Node, m.Within n ∧ m.Owns mark := by
  induction c, n using layout_induction generalizing f with
  | step c n ih =>
    rw [render_eq_fill] at h
    obtain ⟨slot, hs, g, hg, hmark⟩ := (Slot.fill_carries h).1 hf
    cases slot with
    | own r =>
      obtain rfl : r = .ok g := hg
      exact ⟨n, .refl, owns_of_layout hs hmark hw⟩
    | part b m =>
      obtain ⟨k, hk, howns⟩ := ih b m hs hg hmark
      exact ⟨k, hk.trans (below_of_layout hs).within, howns⟩

end Node

/-- The same for a query with a hint, which is no node. -/
theorem Query.within_of_carries {c : Context} {hint : String} {q : Query} {f : Fragment}
    {mark : Mark} (h : q.render c hint = .ok f) (hf : f.Carries mark)
    (hw : mark.isWarning = false) : ∃ m : Node, m.Within (.query q) ∧ m.Owns mark := by
  rw [render_eq_fill] at h
  obtain ⟨slot, hs, g, hg, hmark⟩ := (Slot.fill_carries h).1 hf
  cases slot with
  | own r =>
    obtain rfl : r = .ok g := hg
    exact ⟨.query q, .refl, owns_of_layout hs hmark hw⟩
  | part b m =>
    obtain ⟨k, hk, howns⟩ := Node.within_of_carries hg hmark hw
    exact ⟨k, hk.tail (child_of_layout hs).2, howns⟩

end SqlDialects.Sql
