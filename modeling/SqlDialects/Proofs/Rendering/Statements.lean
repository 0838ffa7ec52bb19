import SqlDialects.Dialect.Resolve
import SqlDialects.Proofs.Rendering.Kept

/-!
# What a translation takes from its statement

The parameters and tables of a translation are those of the tree: none is invented, and none is
lost where no node loses a part.
-/

namespace SqlDialects

/-! ## Tables in order, and each table once -/

namespace SortedMap

variable {κ ν : Type} [Ord κ] [Std.LawfulEqOrd κ]

theorem mem_keys_insertInto {k k' : κ} {v : ν} {pairs : List (κ × ν)} :
    k' ∈ (insertInto k v pairs).map (·.1) ↔ k' = k ∨ k' ∈ pairs.map (·.1) := by
  induction pairs with
  | nil => simp [insertInto]
  | cons pair rest ih =>
    unfold insertInto
    split
    · simp
    · next h =>
      obtain rfl := Std.LawfulEqOrd.eq_of_compare h
      simp
    · rw [List.map_cons, List.mem_cons, ih]
      simp only [List.map_cons, List.mem_cons]
      tauto

theorem mem_keys_ofList {k : κ} {pairs : List (κ × ν)} :
    k ∈ (ofList pairs).keys ↔ k ∈ pairs.map (·.1) := by
  have hfold (m : SortedMap κ ν) :
      k ∈ (pairs.foldl (fun m p => m.insert p.1 p.2) m).keys ↔
        k ∈ pairs.map (·.1) ∨ k ∈ m.keys := by
    induction pairs generalizing m with
    | nil => simp
    | cons pair rest ih =>
      rw [List.foldl_cons, ih, keys, insert, mem_keys_insertInto]
      simp only [keys, List.map_cons, List.mem_cons]
      tauto
  rw [ofList, hfold]
  simp [empty, keys]

end SortedMap

namespace Sql

namespace Translation

theorem mem_distinct {name : String} {names : List String} :
    name ∈ distinct names ↔ name ∈ names := by
  rw [distinct, SortedMap.mem_keys_ofList]
  simp

variable {config : TranslationConfig} {position : Nat} {pieces : List Piece}

theorem exists_of_mem_parametersFrom {p : SqlParameter}
    (h : p ∈ parametersFrom config position pieces) :
    ∃ bound, .parameter bound ∈ pieces ∧ p.source = bound.source ∧ p.sqlType = bound.sqlType := by
  induction pieces generalizing position with
  | nil => simp [parametersFrom] at h
  | cons piece rest ih =>
    cases piece with
    | parameter bound =>
      rcases List.mem_cons.1 h with rfl | h
      · exact ⟨bound, List.mem_cons_self, rfl, rfl⟩
      · obtain ⟨bound, hb, hp⟩ := ih h
        exact ⟨bound, List.mem_cons_of_mem _ hb, hp⟩
    | _ =>
      obtain ⟨bound, hb, hp⟩ := ih h
      exact ⟨bound, List.mem_cons_of_mem _ hb, hp⟩

theorem exists_mem_parametersFrom {bound : BindParameter} (h : .parameter bound ∈ pieces) :
    ∃ p ∈ parametersFrom config position pieces,
      p.source = bound.source ∧ p.sqlType = bound.sqlType := by
  induction pieces generalizing position with
  | nil => simp at h
  | cons piece rest ih =>
    cases piece with
    | parameter bound' =>
      rcases List.mem_cons.1 h with h | h
      · obtain rfl := Piece.parameter.inj h
        exact ⟨_, List.mem_cons_self, rfl, rfl⟩
      · obtain ⟨p, hp, hs⟩ := ih h
        exact ⟨p, List.mem_cons_of_mem _ hp, hs⟩
    | _ => exact ih (by simpa using h)

end Translation

/-! ## What a statement puts into its rendering -/

namespace Statement

/-- The table that a statement changes. -/
def target? : Statement → Option String
  | select _ _ => none
  | insert table _ _ => some table
  | update target _ _ | delete target _ => some target.table

/-- A statement names a table as its target, or in a from or join of a query at any depth. -/
def NamesTable (statement : Statement) (name : String) : Prop :=
  statement.target? = some name ∨
    ∃ body, statement.Contains (.query (.spec body)) ∧ name ∈ body.tableNames

def HasParameter (statement : Statement) (bound : BindParameter) : Prop :=
  statement.Contains (.expression (.parameter bound))

/-- What a statement and the nodes in it put into a rendering. -/
def Puts (statement : Statement) (mark : Mark) : Prop :=
  (∃ name, statement.target? = some name ∧ mark = .table name) ∨
    ∃ n : Node, statement.Contains n ∧ n.Owns mark

variable {statement : Statement} {mark : Mark}

theorem puts_table {name : String} : statement.Puts (.table name) ↔ statement.NamesTable name := by
  unfold Puts NamesTable
  refine or_congr (by simp) ⟨?_, fun ⟨body, hb, hn⟩ => ⟨_, hb, hn⟩⟩
  rintro ⟨n, hn, ho⟩
  cases n with
  | expression e => cases e <;> exact absurd ho (by simp [Node.Owns])
  | condition p => exact absurd ho (by simp [Node.Owns])
  | query q =>
    cases q with
    | spec body => exact ⟨body, hn, ho⟩
    | group => exact absurd ho (by simp [Node.Owns])

theorem puts_parameter {bound : BindParameter} :
    statement.Puts (.parameter bound) ↔ statement.HasParameter bound := by
  refine ⟨?_, fun h => .inr ⟨_, h, rfl⟩⟩
  rintro (⟨name, -, h⟩ | ⟨n, hn, ho⟩)
  · simp at h
  · cases n with
    | expression e =>
      cases e with
      | parameter bound' =>
        obtain rfl : bound' = bound := ho
        exact hn
      | _ => exact absurd ho (by simp [Node.Owns])
    | condition p => exact absurd ho (by simp [Node.Owns])
    | query q => cases q <;> exact absurd ho (by simp [Node.Owns])

end Statement

/-! ## Locks -/

/-- A lock adds text and warnings to a query. -/
theorem lockedQuery_ok {c : Context} {query : Query} {lock : LockOptions} {f : Fragment}
    (h : lockedQuery c query lock = .ok f) : ∃ hint g, query.render c hint = .ok g ∧
      (∀ mark, g.Carries mark → f.Carries mark) ∧
        ∀ mark : Mark, mark.isWarning = false → f.Carries mark → g.Carries mark := by
  have hoption : (LockOptions.optionWarning c.dialect lock).IsBare := by
    unfold LockOptions.optionWarning
    split
    · split <;> simp
    · simp
  have hbefore {r : Rendered} {hint : String} {f : Fragment} (hr : r.IsBare)
      (h : r.andThen (query.render c hint) = .ok f) :
      ∃ hint g, query.render c hint = .ok g ∧ (∀ mark, g.Carries mark → f.Carries mark) ∧
        ∀ mark : Mark, mark.isWarning = false → f.Carries mark → g.Carries mark := by
    obtain ⟨g, g', hg, hq, rfl⟩ := Rendered.andThen_ok_iff.1 h
    refine ⟨hint, g', hq, fun mark hm => Fragment.carries_append.2 (.inr hm), ?_⟩
    intro mark hw hm
    exact (Fragment.carries_append.1 hm).resolve_left fun hm => by simp [hr g hg mark hm] at hw
  unfold lockedQuery at h
  dsimp only at h
  split at h
  · simp [Context.refuse] at h
  · split at h
    · simp only [Rendered.concat_cons, Rendered.concat_nil, Rendered.andThen_empty,
        ← Rendered.andThen_assoc] at h
      obtain ⟨g, g', hg, ht, rfl⟩ := Rendered.andThen_ok_iff.1 h
      obtain ⟨hint, k, hk, hsub, hsup⟩ := hbefore hoption hg
      refine ⟨hint, k, hk, fun mark hm => Fragment.carries_append.2 (.inl (hsub mark hm)), ?_⟩
      intro mark hw hm
      refine hsup mark hw ((Fragment.carries_append.1 hm).resolve_right fun hm => ?_)
      simp [Rendered.isBare_text _ g' ht mark hm] at hw
    · simp only [Rendered.concat_cons, Rendered.concat_nil, Rendered.andThen_empty] at h
      exact hbefore hoption h
    · simp only [Rendered.concat_cons, Rendered.concat_nil, Rendered.andThen_empty] at h
      exact hbefore (by simp) h

/-! ## Changes -/

namespace Statement

variable {d : Dialect} {statement : Statement} {n : Node} {r : Rendered}

theorem allBare_source {columns : Nat} {source : InsertSource} :
    Slot.AllBare (source.layout columns) := by
  cases source with
  | rows values =>
    simp only [InsertSource.layout]
    split
    · simp
    · simp only [Slot.allBare_cons, Slot.isBare_text, Slot.allBare_separated, true_and]
      intro row hrow
      obtain ⟨i, hi, rfl⟩ := List.mem_mapIdx.1 hrow
      unfold insertRowLayout
      split <;> simp
  | query q => simp [InsertSource.layout]

theorem allBare_condition (keyword : String) (p : Option Condition) :
    Slot.AllBare (Slot.clause keyword (p.map fun p => [.condition p])) := by
  cases p <;> simp

theorem own_mem_layout (hs : statement.isSelect = false) (h : .own r ∈ statement.layout d) :
    r.IsBare ∨ ∃ name, statement.target? = some name ∧ r = .table name := by
  have hbare {slots : List Slot} (hs : Slot.AllBare slots) (h : .own r ∈ slots) : r.IsBare :=
    Slot.isBare_own.1 (hs _ h)
  cases statement with
  | select => simp [isSelect] at hs
  | insert table columns source =>
    simp only [layout] at h
    split at h
    · exact .inl (hbare (by simp) h)
    · simp only [List.cons_append, List.mem_cons, List.mem_append] at h
      rcases h with h | h | h | h | h | h
      · exact .inl (Slot.own.inj h ▸ Rendered.isBare_text _)
      · exact .inr ⟨table, rfl, Slot.own.inj h⟩
      · exact .inl (Slot.own.inj h ▸ Rendered.isBare_text _)
      · exact .inl (hbare (by simp) h)
      · exact .inl (Slot.own.inj h ▸ Rendered.isBare_text _)
      · exact .inl (hbare allBare_source h)
  | update target assignments condition =>
    simp only [layout] at h
    split at h
    · exact .inl (hbare (by simp) h)
    · simp only [List.cons_append, List.mem_cons, List.mem_append] at h
      rcases h with h | h | h | h | h
      · exact .inl (Slot.own.inj h ▸ Rendered.isBare_text _)
      · exact .inr ⟨target.table, rfl, Slot.own.inj h⟩
      · exact .inl (Slot.own.inj h ▸ Rendered.isBare_text _)
      · exact .inl (hbare (by simp [Assignment.layout]) h)
      · exact .inl (hbare (allBare_condition _ _) h)
  | delete target condition =>
    rcases List.mem_cons.1 h with h | h
    · exact .inl (Slot.own.inj h ▸ Rendered.isBare_text _)
    · rcases List.mem_cons.1 h with h | h
      · exact .inr ⟨target.table, rfl, Slot.own.inj h⟩
      · exact .inl (hbare (allBare_condition _ _) h)

open Slot (IsWhole)

theorem part_of_source {columns : Nat} {source : InsertSource}
    (h : IsWhole (source.layout columns)) (hn : n ∈ source.children) :
    ∃ b, .part b n ∈ source.layout columns := by
  cases source with
  | rows values =>
    simp only [InsertSource.layout] at h ⊢
    split at h
    · simp at h
    · next hne =>
      rw [if_neg hne]
      obtain ⟨e, he, rfl⟩ := List.mem_map.1 hn
      obtain ⟨row, hrow, he⟩ := List.mem_flatten.1 he
      obtain ⟨i, hi, rfl⟩ := List.getElem_of_mem hrow
      have hmem : insertRowLayout columns i values[i] ∈
          values.mapIdx fun index row => insertRowLayout columns index row :=
        List.mem_mapIdx.2 ⟨i, hi, rfl⟩
      have hlength : values[i].length = columns := by
        have := h.mono (List.subset_cons_of_subset _ (Slot.subset_separated ", " hmem))
        unfold insertRowLayout at this
        split at this
        · assumption
        · simp at this
      refine ⟨false, List.mem_cons_of_mem _ (Slot.subset_separated _ hmem ?_)⟩
      exact part_mem_insertRow.2 ⟨hlength, rfl, e, he, rfl⟩
  | query q =>
    obtain rfl := List.mem_singleton.1 hn
    exact ⟨true, by simp [InsertSource.layout]⟩

theorem part_of_condition {keyword : String} {p : Option Condition}
    (h : n ∈ p.toList.map Node.condition) :
    .part false n ∈ Slot.clause keyword (p.map fun p => [.condition p]) := by
  obtain ⟨p, hp, rfl⟩ := List.mem_map.1 h
  exact Context.part_mem_conditionClause_iff.2 ⟨rfl, p, Option.mem_toList.1 hp, rfl⟩

theorem part_of_child (hs : statement.isSelect = false) (h : IsWhole (statement.layout d))
    (hn : n ∈ statement.children) : ∃ b, .part b n ∈ statement.layout d := by
  cases statement with
  | select => simp [isSelect] at hs
  | insert table columns source =>
    simp only [layout] at h ⊢
    split at h
    · simp at h
    · next hne =>
      rw [if_neg hne]
      have hsource : IsWhole (source.layout columns.length) :=
        (Slot.isWhole_append.1 h).2.mono (List.subset_cons_self _ _)
      obtain ⟨b, hb⟩ := part_of_source hsource hn
      exact ⟨b, List.mem_append_right _ (List.mem_cons_of_mem _ hb)⟩
  | update target assignments condition =>
    simp only [layout] at h ⊢
    split at h
    · simp at h
    · next hne =>
      rw [if_neg hne]
      rcases List.mem_append.1 hn with hn | hn
      · obtain ⟨a, ha, rfl⟩ := List.mem_map.1 hn
        have hmem : .expression a.value ∈ a.layout := by simp [Assignment.layout]
        have hrow := Slot.subset_separated ", " (List.mem_map_of_mem ha) hmem
        refine ⟨false, List.mem_append_left _ ?_⟩
        exact List.mem_cons_of_mem _ (List.mem_cons_of_mem _ (List.mem_cons_of_mem _ hrow))
      · exact ⟨false, List.mem_append_right _ (part_of_condition hn)⟩
  | delete target condition =>
    exact ⟨false, List.mem_cons_of_mem _ (List.mem_cons_of_mem _ (part_of_condition hn))⟩

/-! ## Whole statements -/

variable {mark : Mark} {f : Fragment}

theorem puts_of_carries (h : statement.render d = .ok f) (mark : Mark) (hf : f.Carries mark)
    (hw : mark.isWarning = false) : statement.Puts mark := by
  cases hs : statement.isSelect with
  | true =>
    cases statement with
    | select query lock =>
      have hquery {hint : String} {g : Fragment}
          (hg : query.render { dialect := d } hint = .ok g) (hm : g.Carries mark) :
          (select query lock).Puts mark := by
        obtain ⟨n, hn, ho⟩ := Query.within_of_carries hg hm hw
        exact .inr ⟨n, ⟨_, List.mem_singleton.2 rfl, hn⟩, ho⟩
      cases lock with
      | none => exact hquery h hf
      | some lock =>
        obtain ⟨hint, g, hg, -, hsup⟩ := lockedQuery_ok h
        exact hquery hg (hsup mark hw hf)
    | _ => simp [isSelect] at hs
  | false =>
    rw [render_eq_fill] at h
    obtain ⟨slot, hslot, g, hg, hmark⟩ := (Slot.fill_carries h).1 hf
    cases slot with
    | own r =>
      rcases own_mem_layout hs hslot with hr | ⟨name, ht, rfl⟩
      · exact absurd (hr g hg mark hmark) (by simp [hw])
      · refine .inl ⟨name, ht, ?_⟩
        obtain rfl : ⟨[.name name], [name], []⟩ = g := Except.ok.inj hg
        cases mark <;> simp_all [Fragment.Carries]
    | part b n =>
      obtain ⟨m, hm, ho⟩ := Node.within_of_carries hg hmark hw
      exact .inr ⟨m, ⟨n, (child_of_layout hs hslot).1, hm⟩, ho⟩

theorem target_mem_layout {name : String} (h : IsWhole (statement.layout d))
    (ht : statement.target? = some name) : .own (.table name) ∈ statement.layout d := by
  cases statement with
  | select => simp [target?] at ht
  | insert table columns source | update target assignments condition =>
    obtain rfl := Option.some.inj ht
    simp only [layout] at h ⊢
    split at h
    · simp at h
    · next hne => simp [hne]
  | delete target condition =>
    obtain rfl := Option.some.inj ht
    simp [layout]

theorem carries_of_puts (h : statement.render d = .ok f)
    (hf : ¬ f.Carries (.warning .subqueryOrderByRemoved))
    (hk : ∀ n, statement.Contains n → n.IsKept d) (hp : statement.Puts mark) :
    f.Carries mark := by
  cases hs : statement.isSelect with
  | true =>
    cases statement with
    | select query lock =>
      obtain ⟨n, ⟨m, hm, hn⟩, ho⟩ : ∃ n, (select query lock).Contains n ∧ n.Owns mark := by
        simpa [Puts, target?] using hp
      obtain rfl := List.mem_singleton.1 hm
      have hkeeps (k : Node) (hkq : k.Within (.query query)) : k.IsKept d :=
        hk k ⟨_, List.mem_singleton.2 rfl, hkq⟩
      cases lock with
      | none => exact Query.carries_of_within h hf hkeeps hn ho
      | some lock =>
        obtain ⟨hint, g, hg, hsub, -⟩ := lockedQuery_ok h
        exact hsub mark (Query.carries_of_within hg (fun hw => hf (hsub _ hw)) hkeeps hn ho)
    | _ => simp [isSelect] at hs
  | false =>
    rw [render_eq_fill] at h
    have hw := Slot.isWhole_of_fill h hf
    rcases hp with ⟨name, ht, rfl⟩ | ⟨m, ⟨n, hn, hm⟩, ho⟩
    · exact Slot.carries_of_own h (target_mem_layout hw ht) rfl (List.mem_singleton.2 rfl)
    · obtain ⟨b, hslot⟩ := part_of_child hs hw hn
      obtain ⟨g, hg, hsub⟩ := Slot.part_renders h hslot
      refine hsub mark (Node.carries_of_within hg (fun hw => hf (hsub _ hw)) ?_ hm ho)
      intro k hkn
      have hd : (if b then (statement.context d).nested else statement.context d).dialect = d := by
        cases b <;> cases statement <;> rfl
      rw [hd]
      exact hk k ⟨n, hn, hkn⟩

/-- The parameters and tables of a translation are those of its statement. None is invented, and if
no order is removed, no list that a value has to be in is empty and no pattern leaves out an
argument, none is lost. -/
theorem translate_ok_contents {config : TranslationConfig} {t : Translation}
    (h : statement.translate d config = .ok t) :
    (∀ p ∈ t.parameters, ∃ bound, statement.HasParameter bound ∧
        p.source = bound.source ∧ p.sqlType = bound.sqlType) ∧
      (∀ name ∈ t.tables, statement.NamesTable name) ∧
      (.subqueryOrderByRemoved ∉ t.warnings →
        (∀ operand items isNegated,
          statement.Contains (.condition (.inList operand items isNegated)) → items ≠ []) →
        (∀ e, statement.Contains (.expression e) → e.MentionsArguments d) →
          (∀ bound, statement.HasParameter bound →
            ∃ p ∈ t.parameters, p.source = bound.source ∧ p.sqlType = bound.sqlType) ∧
          ∀ name, statement.NamesTable name → name ∈ t.tables) := by
  obtain ⟨f, hf, rfl⟩ : ∃ f, statement.render d = .ok f ∧ .ofFragment d config f = t := by
    unfold translate at h
    cases hr : statement.render d with
    | error e => simp [hr, bind, Except.bind] at h
    | ok f => exact ⟨f, rfl, by simpa [hr, bind, Except.bind, pure, Except.pure] using h⟩
  refine ⟨fun p hp => ?_, fun name hname => ?_, fun hremoved hitems hmentions => ?_⟩
  · obtain ⟨bound, hb, hp⟩ := Translation.exists_of_mem_parametersFrom hp
    exact ⟨bound, puts_parameter.1 (puts_of_carries hf (.parameter bound) hb rfl), hp⟩
  · have hname : name ∈ f.tables := Translation.mem_distinct.1 hname
    exact puts_table.1 (puts_of_carries hf (.table name) hname rfl)
  · have hk (n : Node) (hn : statement.Contains n) : n.IsKept d := by
      refine ⟨fun e he => hmentions e (he ▸ hn), fun p hp => ?_⟩
      cases p with
      | inList operand items isNegated => exact hitems operand items isNegated (hp ▸ hn)
      | _ => trivial
    refine ⟨fun bound hb => ?_, fun name hname => ?_⟩
    · exact Translation.exists_mem_parametersFrom
        (carries_of_puts hf hremoved hk (puts_parameter.2 hb))
    · exact Translation.mem_distinct.2 (carries_of_puts hf hremoved hk (puts_table.2 hname))

/-- Deletes the persons with a name. -/
def deleteByName : Statement :=
  .delete ⟨"person", "t0"⟩
    (some (.equal (.of "t0" "name") (.parameter ⟨.named "name", some .varchar⟩)))

theorem nodes_of_deleteByName {n : Node} (h : deleteByName.Contains n) :
    n = .condition (.equal (.of "t0" "name") (.parameter ⟨.named "name", some .varchar⟩)) ∨
      n = .expression (.of "t0" "name") ∨
        n = .expression (.parameter ⟨.named "name", some .varchar⟩) := by
  obtain ⟨m, hm, h⟩ := h
  obtain rfl := List.mem_singleton.1 hm
  rcases Node.within_cases h with rfl | ⟨k, hk, h⟩
  · exact .inl rfl
  · right
    rcases Node.within_cases h with rfl | ⟨j, hj, h⟩
    · simpa [Node.children, Condition.children, Condition.equal] using hk
    · simp only [Node.children, Condition.children, Condition.equal, List.mem_cons,
        List.not_mem_nil, or_false] at hk
      rcases hk with rfl | rfl <;> simp [Node.children, Expression.children, Expression.of] at hj

theorem deleteByName_contents : ∃ t,
    deleteByName.translate (Dialect.ofProduct .postgreSql ⟨16, 0, 0⟩)
      (.ofDialect (Dialect.ofProduct .postgreSql ⟨16, 0, 0⟩)) = .ok t ∧
      "person" ∈ t.tables ∧ ∃ p ∈ t.parameters, p.source = .named "name" := by
  obtain ⟨t, h, hw⟩ : ∃ t, deleteByName.translate (Dialect.ofProduct .postgreSql ⟨16, 0, 0⟩)
      (.ofDialect (Dialect.ofProduct .postgreSql ⟨16, 0, 0⟩)) = .ok t ∧ t.warnings = [] :=
    ⟨_, rfl, rfl⟩
  have hparameter : deleteByName.HasParameter ⟨.named "name", some .varchar⟩ :=
    ⟨_, List.mem_singleton.2 rfl, .single (List.mem_cons_of_mem _ List.mem_cons_self)⟩
  obtain ⟨-, -, hkept⟩ := translate_ok_contents h
  obtain ⟨hparameters, htables⟩ := hkept (by simp [hw])
    (fun _ _ _ hc => by simpa [Condition.equal] using nodes_of_deleteByName hc)
    (fun e he template arguments ht => by
      rcases nodes_of_deleteByName he with he | he | he
      · simp at he
      · obtain rfl := Node.expression.inj he
        simp [Expression.template?, Expression.of] at ht
      · obtain rfl := Node.expression.inj he
        simp [Expression.template?] at ht)
  obtain ⟨p, hp, hs, -⟩ := hparameters _ hparameter
  exact ⟨t, h, htables "person" (.inl rfl), p, hp, hs⟩

end Statement

end Sql

end SqlDialects
