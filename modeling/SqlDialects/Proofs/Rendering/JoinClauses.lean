import SqlDialects.Proofs.Rendering.Limits

/-!
# Join clauses

A from clause joins tables to each of its tables, and writes the conditions of a join behind it.
-/

namespace SqlDialects.Sql

open Context (tableLayouts tableLayout joinLayout)

/-- A table that is joined, and the conditions that follow it. -/
structure JoinClause where
  kind : JoinKind
  table : TableReference
  conditions : List Condition

namespace JoinClause

def layout (clause : JoinClause) : List Slot :=
  .text (" " ++ clause.kind.sql ++ " ") :: .own (Context.table clause.table) ::
    clause.conditions.flatMap fun p => [.text " on ", .condition p]

/-- No condition follows a cross join, and exactly one follows each other join. -/
def IsWellFormed (clause : JoinClause) : Prop :=
  clause.conditions.length = if clause.kind = .cross then 0 else 1

end JoinClause

def Join.clause (join : Join) : JoinClause := ⟨join.kind, join.table, join.on.toList⟩

def QuerySpec.joinClauses (body : QuerySpec) : List JoinClause := body.joins.map Join.clause

/-- The tables of a from clause, each with its join clauses. The hint is that of the first one. -/
def FromItem.clauseLayouts (hint : String) : List FromItem → List (List Slot)
  | [] => []
  | item :: rest =>
    (.own (Context.table item.root) :: .own (.textIf (hint != "") hint) ::
      item.joins.flatMap (·.clause.layout)) :: FromItem.clauseLayouts "" rest

theorem Join.clause_isWellFormed_iff {join : Join} :
    join.clause.IsWellFormed ↔ (join.kind = .cross ↔ join.on = none) := by
  obtain ⟨kind, table, on⟩ := join
  unfold JoinClause.IsWellFormed Join.clause
  by_cases hk : kind = .cross <;> cases on <;> simp [hk]

variable {c : Context} {hint : String} {items : List FromItem} {f : Fragment}

theorem joinLayout_eq {join : Join} (h : join.kind = .cross ∨ join.on ≠ none) :
    joinLayout join = join.clause.layout := by
  obtain ⟨kind, table, on⟩ := join
  cases on with
  | some p => rfl
  | none =>
    obtain rfl : kind = .cross := h.resolve_right fun hn => hn rfl
    rfl

theorem tableLayouts_eq : ∀ {items : List FromItem} {hint : String},
    (∀ join ∈ items.flatMap FromItem.joins, join.kind = .cross ∨ join.on ≠ none) →
      tableLayouts hint items = FromItem.clauseLayouts hint items
  | [], _, _ => rfl
  | item :: rest, hint, h => by
    rw [List.flatMap_cons, List.forall_mem_append] at h
    rw [tableLayouts, FromItem.clauseLayouts, tableLayouts_eq h.2, tableLayout]
    congr 3
    exact List.flatMap_congr fun join hj => joinLayout_eq (h.1 join hj)

theorem subset_tableLayouts {join : Join} : ∀ {items : List FromItem} {hint : String},
    join ∈ items.flatMap FromItem.joins → ∃ row ∈ tableLayouts hint items, joinLayout join ⊆ row
  | item :: rest, hint, h => by
    rw [List.flatMap_cons, List.mem_append] at h
    rcases h with h | h
    · refine ⟨_, List.mem_cons_self, fun slot hs => ?_⟩
      exact List.mem_cons_of_mem _ (List.mem_cons_of_mem _ (List.mem_flatMap.2 ⟨join, h, hs⟩))
    · obtain ⟨row, hrow, hs⟩ := subset_tableLayouts h
      exact ⟨row, List.mem_cons_of_mem _ hrow, hs⟩

/-- A join without a condition is refused, unless it is a cross join. -/
theorem joins_of_fill (h : Slot.fill c (Slot.separated ", " (tableLayouts hint items)) = .ok f) :
    ∀ join ∈ items.flatMap FromItem.joins, join.kind = .cross ∨ join.on ≠ none := by
  intro join hj
  by_contra hbare
  obtain ⟨hkind, hon⟩ := not_or.1 hbare
  obtain ⟨row, hrow, hs⟩ := subset_tableLayouts hj
  rw [joinLayout, not_not.1 hon] at hs
  simp only [if_neg hkind] at hs
  exact Slot.not_error_mem h (Slot.subset_separated _ hrow (hs (List.mem_singleton.2 rfl)))

/-- A query that is written has the from clause behind its select list. -/
theorem QuerySpec.exists_from {body : QuerySpec} (h : (Query.spec body).render c hint = .ok f) :
    ∃ before tables after, f = before ++ .ofText " from " ++ tables ++ after ∧
      Slot.fill c (Slot.separated ", " (FromItem.clauseLayouts hint body.tables)) = .ok tables := by
  rw [Query.render_eq_fill] at h
  obtain ⟨-, -, -, hspec⟩ := QuerySpec.fill_layout_ok_iff.1 h
  obtain ⟨front, _, back, -, hmiddle, -, rfl⟩ := Context.fill_specLayout_ok_iff.1 hspec
  obtain ⟨_, having, hgrouped, -, rfl⟩ := Slot.fill_append_ok_iff.1 hmiddle
  obtain ⟨_, groups, hkept, -, rfl⟩ := Slot.fill_append_ok_iff.1 hgrouped
  obtain ⟨_, condition, hjoined, -, rfl⟩ := Slot.fill_append_ok_iff.1 hkept
  obtain ⟨select, _, -, hfrom, rfl⟩ := Slot.fill_append_ok_iff.1 hjoined
  obtain ⟨tables, htables, rfl⟩ := Slot.fill_text_cons_ok_iff.1 hfrom
  rw [tableLayouts_eq (joins_of_fill htables)] at htables
  refine ⟨.ofText "select " ++ front ++ select, tables, condition ++ groups ++ having ++ back, ?_,
    htables⟩
  simp only [Fragment.append_assoc]

end SqlDialects.Sql
