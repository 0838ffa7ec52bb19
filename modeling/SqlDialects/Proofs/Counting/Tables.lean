import SqlDialects.Proofs.Counting.Spread

/-!
# Tables with counted collections

The tables of a query that counts collections by joins are those of the query that counts them in
subqueries, with a join for each count. After the first of these there are only joins of paths.
-/

namespace SqlDialects.Sql

open Entity (equiJoin HangsOn)

/-! ## Joins for counts -/

/-- The first joins are the second ones with a join for each count. All of them start from a table
that is seen on both sides. -/
inductive AddsCounts : List String → List Count → List Join → List Join → Prop
  | nil {seen : List String} : AddsCounts seen [] [] []
  | path {seen : List String} {counts : List Count} {joins joins' : List Join}
      {table a column other otherColumn : String} (ho : other ∈ seen)
      (h : AddsCounts (a :: seen) counts joins joins') :
      AddsCounts seen counts (equiJoin .inner table a column (.of other otherColumn) :: joins)
        (equiJoin .inner table a column (.of other otherColumn) :: joins')
  | count {seen : List String} {counts : List Count} {joins joins' : List Join} {k : Count}
      (ho : k.owner.1 ∈ seen) (h : AddsCounts seen counts joins joins') :
      AddsCounts seen (k :: counts) (k.join :: joins) joins'

namespace AddsCounts

variable {seen : List String} {counts : List Count} {joins joins' : List Join}

theorem eq_of_nil (h : AddsCounts seen [] joins joins') : joins = joins' := by
  generalize hc : ([] : List Count) = counts at h
  induction h with
  | nil => rfl
  | path _ _ ih => rw [ih hc]
  | count => cases hc

theorem names_perm (h : AddsCounts seen counts joins joins') :
    (joins.map (·.table.aliasName)).Perm
      (counts.map (·.aliasName) ++ joins'.map (·.table.aliasName)) := by
  induction h with
  | nil => exact .refl _
  | path _ _ ih => exact (ih.cons _).trans List.perm_middle.symm
  | count _ _ ih => exact ih.cons _

theorem concat_path {table a column other otherColumn : String}
    (h : AddsCounts seen counts joins joins')
    (ho : other ∈ joins'.map (·.table.aliasName) ∨ other ∈ seen) :
    AddsCounts seen counts (joins ++ [equiJoin .inner table a column (.of other otherColumn)])
      (joins' ++ [equiJoin .inner table a column (.of other otherColumn)]) := by
  induction h with
  | nil => exact .path (ho.resolve_left List.not_mem_nil) .nil
  | path h₁ _ ih =>
    refine .path h₁ (ih ?_)
    simp only [List.map_cons, List.mem_cons] at ho ⊢
    exact or_assoc.1 (ho.imp_left Or.symm)
  | count h₁ _ ih => exact .count h₁ (ih ho)

theorem concat_count {k : Count} (h : AddsCounts seen counts joins joins')
    (ho : k.owner.1 ∈ joins'.map (·.table.aliasName) ∨ k.owner.1 ∈ seen) :
    AddsCounts seen (counts ++ [k]) (joins ++ [k.join]) joins' := by
  induction h with
  | nil => exact .count (ho.resolve_left List.not_mem_nil) .nil
  | path h₁ _ ih =>
    refine .path h₁ (ih ?_)
    simp only [List.map_cons, List.mem_cons] at ho ⊢
    exact or_assoc.1 (ho.imp_left Or.symm)
  | count h₁ _ ih => exact .count h₁ (ih ho)

end AddsCounts

/-! ## Tables with their joins -/

/-- The joins that the query asks for are the same on both sides and come first. -/
def FromItem.AddsCounts (counts : List Count) (item item' : FromItem) : Prop :=
  ∃ root explicit joins joins', item = ⟨root, explicit ++ joins⟩ ∧
    item' = ⟨root, explicit ++ joins'⟩ ∧
    Sql.AddsCounts (root.aliasName :: explicit.map (·.table.aliasName)) counts joins joins'

namespace FromItem.AddsCounts

variable {counts : List Count} {item item' : FromItem}

theorem refl : ∀ item : FromItem, FromItem.AddsCounts [] item item
  | ⟨root, joins⟩ =>
    ⟨root, joins, [], [], by rw [List.append_nil], by rw [List.append_nil], .nil⟩

theorem eq_of_nil (h : FromItem.AddsCounts [] item item') : item = item' := by
  obtain ⟨root, explicit, joins, joins', rfl, rfl, h⟩ := h
  rw [h.eq_of_nil]

theorem names_perm (h : FromItem.AddsCounts counts item item') :
    item.names.Perm (counts.map (·.aliasName) ++ item'.names) := by
  obtain ⟨root, explicit, joins, joins', rfl, rfl, h⟩ := h
  simp only [FromItem.names, List.map_append]
  refine .trans (.cons _ (h.names_perm.append_left _)) ?_
  rw [← List.append_assoc, ← List.cons_append, ← List.cons_append]
  refine (List.perm_append_comm.append_right _).trans ?_
  rw [List.append_assoc, List.cons_append]

theorem extend_path {table a column other otherColumn : String}
    (h : FromItem.AddsCounts counts item item') (ho : other ∈ item'.names) :
    FromItem.AddsCounts counts
      (item.extend [equiJoin .inner table a column (.of other otherColumn)])
      (item'.extend [equiJoin .inner table a column (.of other otherColumn)]) := by
  obtain ⟨root, explicit, joins, joins', rfl, rfl, h⟩ := h
  refine ⟨root, explicit, _, _, by rw [extend, List.append_assoc],
    by rw [extend, List.append_assoc], h.concat_path ?_⟩
  simp only [names, List.map_append, List.mem_cons, List.mem_append] at ho ⊢
  tauto

theorem extend_count {k : Count} (h : FromItem.AddsCounts counts item item')
    (ho : k.owner.1 ∈ item'.names) :
    FromItem.AddsCounts (counts ++ [k]) (item.extend [k.join]) item' := by
  obtain ⟨root, explicit, joins, joins', rfl, rfl, h⟩ := h
  refine ⟨root, explicit, _, _, by rw [extend, List.append_assoc], rfl, h.concat_count ?_⟩
  simp only [names, List.map_append, List.mem_cons, List.mem_append] at ho ⊢
  tauto

end FromItem.AddsCounts

/-- The tables of two queries, one with joins for these counts. -/
inductive TablesAdd : List Count → List FromItem → List FromItem → Prop
  | nil : TablesAdd [] [] []
  | cons {counts counts' : List Count} {item item' : FromItem} {tables tables' : List FromItem}
      (h : FromItem.AddsCounts counts item item') (hs : TablesAdd counts' tables tables') :
      TablesAdd (counts ++ counts') (item :: tables) (item' :: tables')

namespace TablesAdd

variable {counts : List Count} {tables tables' : List FromItem}

theorem refl : ∀ tables : List FromItem, TablesAdd [] tables tables
  | [] => .nil
  | item :: tables => .cons (.refl item) (refl tables)

theorem eq_of_nil (h : TablesAdd [] tables tables') : tables = tables' := by
  generalize hc : ([] : List Count) = counts at h
  induction h with
  | nil => rfl
  | cons h _ ih =>
    obtain ⟨rfl, rfl⟩ := List.nil_eq_append_iff.1 hc
    rw [h.eq_of_nil, ih rfl]

theorem names_perm (h : TablesAdd counts tables tables') :
    (tables.flatMap FromItem.names).Perm
      (counts.map (·.aliasName) ++ tables'.flatMap FromItem.names) := by
  induction h with
  | nil => exact .refl _
  | cons h _ ih =>
    rw [List.flatMap_cons, List.flatMap_cons, List.map_append, List.append_assoc]
    refine (h.names_perm.append ih).trans ?_
    rw [List.append_assoc]
    refine .append_left _ ?_
    rw [← List.append_assoc, ← List.append_assoc]
    exact List.perm_append_comm.append_right _

theorem length_eq (h : TablesAdd counts tables tables') : tables.length = tables'.length := by
  induction h with
  | nil => rfl
  | cons _ _ ih => rw [List.length_cons, List.length_cons, ih]

/-- The same change on both sides of one table. -/
theorem modify {f g : FromItem → FromItem} (h : TablesAdd counts tables tables') :
    ∀ {i : Nat} {item' : FromItem}, tables'[i]? = some item' →
      (∀ counts item, FromItem.AddsCounts counts item item' →
        FromItem.AddsCounts counts (f item) (g item')) →
      TablesAdd counts (tables.modify i f) (tables'.modify i g) := by
  induction h with
  | nil => simp
  | cons h hs ih =>
    intro i item' hi hfg
    cases i with
    | zero =>
      obtain rfl : _ = item' := by simpa using hi
      exact .cons (hfg _ _ h) hs
    | succ i => exact .cons h (ih (by simpa using hi) hfg)

/-- A count more on one side. -/
theorem modify_count {k : Count} (h : TablesAdd counts tables tables') :
    ∀ {i : Nat} {item' : FromItem}, tables'[i]? = some item' → k.owner.1 ∈ item'.names →
      ∃ counts', TablesAdd counts' (tables.modify i (·.extend [k.join])) tables' ∧
        counts'.Perm (counts ++ [k]) := by
  induction h with
  | nil => simp
  | @cons counts counts' item item' tables tables' h hs ih =>
    intro i item₀ hi ho
    cases i with
    | zero =>
      obtain rfl : item' = item₀ := by simpa using hi
      refine ⟨_, .cons (h.extend_count ho) hs, ?_⟩
      rw [List.append_assoc, List.append_assoc]
      exact List.perm_append_comm.append_left _
    | succ i =>
      obtain ⟨counts'', hs', hp⟩ := ih (by simpa using hi) ho
      refine ⟨_, .cons h hs', ?_⟩
      rw [List.append_assoc]
      exact hp.append_left _

end TablesAdd

/-! ## Their frames -/

variable {σ : Type} [DecidableEq σ] {db : Database σ} {hidden : List String}

theorem AddsCounts.spread {seen : List String} {counts : List Count} {joins joins' : List Join}
    {outer outer' : Frame σ} (h : AddsCounts seen counts joins joins') :
    ∀ {done : List Count} {aliases : List String} {nulls nulls' : Frame σ}
      {frames frames' : List (Frame σ)}, Spread db hidden done aliases frames frames' →
      seen ⊆ aliases → (∀ a ∈ seen, a ∉ hidden) →
      (aliases ++ joins.map (·.table.aliasName)).Nodup →
      (∀ k ∈ counts, k.aliasName ∈ hidden) → (∀ join ∈ joins', join.table.aliasName ∉ hidden) →
      Spread db hidden (done ++ counts) (aliases ++ joins.map (·.table.aliasName))
        (Join.frames db joins outer nulls frames)
        (Join.frames db joins' outer' nulls' frames') := by
  induction h with
  | nil =>
    intro done aliases nulls nulls' frames frames' hs _ _ _ _ _
    simpa [Join.frames] using hs
  | @path seen counts joins joins' table a column other otherColumn ho _ ih =>
    intro done aliases nulls nulls' frames frames' hs hseen hvisible hnodup hcounts hjoins
    obtain ⟨ha, hjoins⟩ := List.forall_mem_cons.1 hjoins
    have hnew : a ∉ aliases := fun hmem =>
      (List.nodup_append'.1 hnodup).2.2 hmem List.mem_cons_self
    have hother := hvisible other ho
    rw [Join.frames_cons, Join.frames_cons, joinFrames_inner db rfl hs.names hnew (hseen ho),
      joinFrames_inner db rfl (fun g hg => hs.names_plain hg)]
    · have hs' := hs.inner a other (fun record =>
        (db.table table).matching column (record.bind (·.cell otherColumn))) ha hother
      rw [List.map_cons, List.append_cons] at hnodup ⊢
      refine ih hs' (List.cons_subset.2 ⟨List.mem_append_right _ (List.mem_singleton.2 rfl), ?_⟩)
        (List.forall_mem_cons.2 ⟨ha, hvisible⟩) hnodup hcounts hjoins
      exact List.Subset.trans hseen (List.subset_append_left _ _)
    · exact fun hmem => hnew (List.mem_of_mem_filter hmem)
    · exact List.mem_filter.2 ⟨hseen ho, by simpa using hother⟩
  | @count seen counts joins joins' k ho _ ih =>
    intro done aliases nulls nulls' frames frames' hs hseen hvisible hnodup hcounts hjoins
    obtain ⟨hk, hcounts⟩ := List.forall_mem_cons.1 hcounts
    have hnew : k.aliasName ∉ aliases := fun hmem =>
      (List.nodup_append'.1 hnodup).2.2 hmem List.mem_cons_self
    rw [Join.frames_cons, joinFrames_count db hs.names hnew (hseen ho)]
    have hs' := hs.count hk hnew (hseen ho) (hvisible _ ho)
    rw [List.map_cons, List.append_cons] at hnodup
    rw [List.map_cons, List.append_cons done, List.append_cons aliases]
    exact ih hs' (List.Subset.trans hseen (List.subset_append_left _ _)) hvisible hnodup hcounts
      hjoins

theorem FromItem.AddsCounts.spread {counts : List Count} {item item' : FromItem}
    {outer outer' : Frame σ} {visible : List String} (h : FromItem.AddsCounts counts item item')
    (hj : HangsOn (item'.root.aliasName :: visible) item'.joins)
    (hv : Frame.Agree visible outer outer') (hnodup : item.names.Nodup)
    (hcounts : ∀ k ∈ counts, k.aliasName ∈ hidden) (hnames : ∀ a ∈ item'.names, a ∉ hidden) :
    Spread db hidden counts item.names
      (Join.frames db item.joins outer
        [(item.root.aliasName, (db.table item.root.table).nullRecord)]
        ((db.table item.root.table).records.map fun record => [(item.root.aliasName, record)]))
      (Join.frames db item'.joins outer'
        [(item'.root.aliasName, (db.table item'.root.table).nullRecord)]
        ((db.table item'.root.table).records.map fun record =>
          [(item'.root.aliasName, record)])) := by
  obtain ⟨root, explicit, joins, joins', rfl, rfl, h⟩ := h
  let nulls : Frame σ := [(root.aliasName, (db.table root.table).nullRecord)]
  let frames := (db.table root.table).records.map fun record => [(root.aliasName, record)]
  have hroot : ∀ f ∈ frames, Frame.names f = [root.aliasName] := by
    intro f hf
    obtain ⟨record, -, rfl⟩ := List.mem_map.1 hf
    rfl
  have hexplicit : ∀ a ∈ root.aliasName :: explicit.map (·.table.aliasName), a ∉ hidden := by
    intro a ha
    refine hnames a ?_
    rw [FromItem.names, List.map_append, ← List.cons_append]
    exact List.mem_append_left _ ha
  have hframes : Join.frames db explicit outer nulls frames =
      Join.frames db explicit outer' nulls frames :=
    joins_congr db rfl hroot hj.left fun a ha =>
      (List.mem_cons.1 ha).imp List.mem_singleton.2 (hv a)
  have hstart : Spread db hidden [] (root.aliasName :: explicit.map (·.table.aliasName))
      (Join.frames db explicit outer' nulls frames)
      (Join.frames db explicit outer' nulls frames) :=
    Spread.start (names_of_mem_joins db rfl hroot) hexplicit
  rw [FromItem.names, List.map_append, ← List.cons_append] at hnodup ⊢
  rw [Join.frames_append, Join.frames_append]
  show Spread db hidden counts _ (Join.frames db joins outer _ (Join.frames db explicit outer nulls
    frames)) (Join.frames db joins' outer' _ (Join.frames db explicit outer' nulls frames))
  rw [hframes]
  refine h.spread hstart (List.Subset.refl _) hexplicit hnodup hcounts fun join hjoin => ?_
  refine hnames _ (List.mem_cons_of_mem _ ?_)
  rw [List.map_append]
  exact List.mem_append_right _ (List.mem_map.2 ⟨join, hjoin, rfl⟩)

/-- Joins for counts spread the frames of a query. -/
theorem TablesAdd.spread {counts : List Count} {tables tables' : List FromItem}
    {outer outer' : Frame σ} {visible : List String} (h : TablesAdd counts tables tables')
    (hj : ∀ item ∈ tables', HangsOn (item.root.aliasName :: visible) item.joins)
    (hv : Frame.Agree visible outer outer') (hnodup : (tables.flatMap FromItem.names).Nodup)
    (hcounts : ∀ k ∈ counts, k.aliasName ∈ hidden)
    (hnames : ∀ a ∈ tables'.flatMap FromItem.names, a ∉ hidden) :
    Spread db hidden counts (tables.flatMap FromItem.names) (FromItem.frames db tables outer)
      (FromItem.frames db tables' outer') := by
  induction h with
  | nil =>
    refine Spread.start (fun frame hf => ?_) (by simp)
    obtain rfl := List.mem_singleton.1 hf
    rfl
  | cons h _ ih =>
    obtain ⟨hj, hjs⟩ := List.forall_mem_cons.1 hj
    rw [List.flatMap_cons] at hnodup hnames
    obtain ⟨hitem, htables, hdisjoint⟩ := List.nodup_append'.1 hnodup
    obtain ⟨hk, hks⟩ := List.forall_mem_append.1 hcounts
    obtain ⟨hn, hns⟩ := List.forall_mem_append.1 hnames
    rw [FromItem.frames_cons, FromItem.frames_cons, List.flatMap_cons]
    exact (h.spread hj hv hitem hk hn).product (ih hjs htables hks hns) hdisjoint

end SqlDialects.Sql
