import SqlDialects.Proofs.Counting.Values

/-!
# Rows of both forms

A query that counts collections by joins has a group for each of its keys, and the form with
subqueries has a row for each frame. Both have the same rows if the keys tell the frames apart.
-/

namespace SqlDialects.Sql

open Entity (HangsOn groupByOwners)

variable {σ : Type} [DecidableEq σ] (db : Database σ)

/-! ## Keys of the groups -/

theorem valueAll_eq_map (es : List Expression) (view : View σ) :
    Expression.valueAll db es view = es.map fun e => e.value db view := by
  induction es with
  | nil => rfl
  | cons e es ih => rw [List.map_cons, ← ih]; rfl

theorem valueAll_eq_iff {es : List Expression} {view view' : View σ} :
    Expression.valueAll db es view = Expression.valueAll db es view' ↔
      ∀ e ∈ es, e.value db view = e.value db view' := by
  rw [valueAll_eq_map, valueAll_eq_map, List.map_inj_left]

/-- A key is left out only if it is the same as one that is there. -/
theorem forall_mem_groupByOwners {p : Expression → Prop}
    (hp : ∀ e e' : Expression, e.same e' = true → p e → p e') {owners : List (String × String)}
    {plain : List Expression} :
    (∀ e ∈ groupByOwners owners plain, p e) ↔
      (∀ owner ∈ owners, p (.of owner.1 owner.2)) ∧ ∀ e ∈ plain, p e := by
  suffices h : ∀ keys : List Expression, (∀ e ∈ plain.foldl
      (fun keys e => if keys.any (·.same e) then keys else keys ++ [e]) keys, p e) ↔
        (∀ e ∈ keys, p e) ∧ ∀ e ∈ plain, p e by
    rw [groupByOwners, h, List.forall_mem_map]
  induction plain with
  | nil => simp
  | cons e plain ih =>
    intro keys
    rw [List.foldl_cons, ih, List.forall_mem_cons, ← and_assoc]
    refine and_congr_left fun _ => ?_
    split
    case isTrue hany =>
      obtain ⟨key, hkey, hsame⟩ := List.any_eq_true.1 hany
      exact ⟨fun hkeys => ⟨hkeys, hp key e hsame (hkeys key hkey)⟩, And.left⟩
    case isFalse => rw [List.forall_mem_append, List.forall_mem_singleton]

theorem groupByOwners_eq_iff {owners : List (String × String)} {plain : List Expression}
    {view view' : View σ} :
    Expression.valueAll db (groupByOwners owners plain) view =
        Expression.valueAll db (groupByOwners owners plain) view' ↔
      (∀ owner ∈ owners, (Expression.of owner.1 owner.2).value db view =
        (Expression.of owner.1 owner.2).value db view') ∧
      Expression.valueAll db plain view = Expression.valueAll db plain view' := by
  rw [valueAll_eq_iff, valueAll_eq_iff]
  refine forall_mem_groupByOwners fun e e' hsame he => ?_
  rw [← (Expression.meaning_of_same db e e' hsame).1]
  exact he

/-! ## Two forms of a query -/

def QuerySpec.names (spec : QuerySpec) : List String := spec.tables.flatMap FromItem.names

theorem specsChosen_everyKey (select : List (SelectItem Expression)) (keys : List Expression) :
    Expression.specsChosen everyKey select keys = Expression.specsAll everyKey keys := by
  induction keys with
  | nil => rfl
  | cons key keys ih =>
    simp only [Expression.specsChosen, Expression.specsAll, ih, everyKey, if_true]

/-- What the queries inside a query have in common, by its clauses. -/
theorem QuerySpec.forall_inner {spec : QuerySpec} {p : QuerySpec → Prop}
    (h : ∀ s ∈ (spec.specs everyKey).tail, p s) :
    (∀ s ∈ SelectItem.specsAll everyKey spec.select, p s) ∧
      (∀ s ∈ Condition.specsOption everyKey spec.condition, p s) ∧
      (∀ s ∈ Expression.specsAll everyKey spec.groupBy, p s) ∧
      (∀ s ∈ Condition.specsOption everyKey spec.having, p s) ∧
      (∀ s ∈ SortKey.specsAll everyKey spec.orderBy, p s) ∧
      (∀ s ∈ Expression.specsOption everyKey spec.limit, p s) ∧
      ∀ s ∈ Expression.specsOption everyKey spec.offset, p s := by
  cases spec
  simp only [QuerySpec.specs, specsChosen_everyKey, List.tail_cons, List.forall_mem_append] at h
  exact h.2

/-- The first form of a query counts collections by joins and the second one by subqueries. The
names in `outer` are seen around both. -/
structure QuerySpec.Forms (outer : List String) (counts : List Count) (spec spec' : QuerySpec) :
    Prop where
  isDistinct : spec.isDistinct = spec'.isDistinct
  tables : ∃ counts', TablesAdd counts' spec.tables spec'.tables ∧ counts'.Perm counts
  nodup : (spec.names ++ outer).Nodup
  hangs : ∀ item ∈ spec'.tables, HangsOn (item.root.aliasName :: outer) item.joins
  distinct : ∀ k ∈ counts, k.Distinct db
  select : Agrees db true (spec'.names ++ outer) counts (spec.select.flatMap (·.expression.parts))
    (spec'.select.flatMap (·.expression.parts)) (SelectItem.specsAll everyKey spec'.select)
    (SelectItem.valueAll db spec.select) (SelectItem.valueAll db spec'.select)
  condition : Condition.OptionAgree db false (spec'.names ++ outer) [] spec.condition
    spec'.condition
  having : Condition.OptionAgree db false (spec'.names ++ outer) [] spec.having spec'.having
  orderBy : SortKey.AllAgree db false (spec'.names ++ outer) [] spec.orderBy spec'.orderBy
  limit : Expression.OptionAgree db false (spec'.names ++ outer) [] spec.limit spec'.limit
  offset : Expression.OptionAgree db false (spec'.names ++ outer) [] spec.offset spec'.offset
  uncounted : counts = [] →
    Expression.AllAgree db false (spec'.names ++ outer) [] spec.groupBy spec'.groupBy
  counted : counts ≠ [] → spec'.groupBy = [] ∧ spec'.having = none ∧
    ∃ owners plain, spec.groupBy = groupByOwners owners plain ∧
      (∀ owner, owner ∈ owners ↔ ∃ k ∈ counts, k.owner = owner) ∧
      Agrees db false (spec'.names ++ outer) [] (Expression.partsAll plain)
        (Expression.partsAll (plainItems spec'.select))
        (SelectItem.specsAll everyKey spec'.select) (Expression.valueAll db plain)
        (Expression.valueAll db (plainItems spec'.select))

namespace QuerySpec.Forms

variable {db} {names : List String} {counts : List Count} {spec spec' : QuerySpec}
  {outer outer' : Frame σ}

/-- The joins for counts have names of their own. -/
theorem names_perm (h : spec.Forms db names counts spec') :
    spec.names.Perm (counts.map (·.aliasName) ++ spec'.names) := by
  obtain ⟨counts', htables, hperm⟩ := h.tables
  exact htables.names_perm.trans ((hperm.map _).append_right _)

theorem visible (h : spec.Forms db names counts spec') {a : String}
    (ha : a ∈ spec'.names ++ names) : a ∉ counts.map (·.aliasName) := by
  have hnodup : ((counts.map (·.aliasName) ++ spec'.names) ++ names).Nodup :=
    (h.names_perm.append_right names).nodup_iff.1 h.nodup
  rw [List.append_assoc] at hnodup
  exact fun hk => (List.nodup_append'.1 hnodup).2.2 hk ha

/-- Frames of both forms that differ only in the joins for counts. -/
theorem agree (h : spec.Forms db names counts spec') (ho : Frame.Agree names outer outer')
    {f : Frame σ} (hf : Frame.names f = spec.names) :
    Frame.Agree (spec'.names ++ names) (f ++ outer)
      (f.without (counts.map (·.aliasName)) ++ outer') := by
  intro a ha
  have hsame := Frame.lookup_without (h.visible ha) f
  rw [List.lookup_append, List.lookup_append, hsame]
  rcases List.mem_append.1 ha with ha | ha
  · have hmem : a ∈ Frame.names f := by
      rw [hf]
      exact h.names_perm.mem_iff.2 (List.mem_append_right _ ha)
    cases hl : f.lookup a with
    | none => exact absurd hmem (Frame.lookup_eq_none.1 hl)
    | some record => rfl
  · rw [ho a ha]

/-! ### Values that do not depend on the rows -/

theorem comparable_empty (names : List String) (aggregates : Bool) :
    Comparable db names [] aggregates {} {} :=
  ⟨fun _ _ => rfl, fun _ => ⟨rfl, .nil⟩, by simp⟩

/-- Both forms finish in the same way. -/
theorem finish_eq (h : spec.Forms db names counts spec')
    (hspecs : ∀ s ∈ (spec'.specs everyKey).tail, s.CountsApart db)
    (rows : List (Value σ × List (Value σ))) :
    db.finish spec.isDistinct spec.orderBy (Expression.valueOption db spec.limit {})
        (Expression.valueOption db spec.offset {}) rows =
      db.finish spec'.isDistinct spec'.orderBy (Expression.valueOption db spec'.limit {})
        (Expression.valueOption db spec'.offset {}) rows := by
  obtain ⟨-, -, -, -, -, hlimit, hoffset⟩ := QuerySpec.forall_inner hspecs
  rw [h.isDistinct, h.limit.agrees.value hlimit {} {} (comparable_empty _ _),
    h.offset.agrees.value hoffset {} {} (comparable_empty _ _)]
  simp only [Database.finish, db.sort_congr h.orderBy.orders]

end QuerySpec.Forms

omit [DecidableEq σ] in
theorem names_nullFrame (tables : List FromItem) :
    Frame.names (db.nullFrame tables) = tables.flatMap FromItem.names := by
  simp only [Database.nullFrame, Frame.names, List.map_flatMap, List.map_map]
  refine List.flatMap_congr fun item _ => ?_
  rw [FromItem.names, List.map_cons, List.map_map]
  rfl

theorem map_filter_of_forall₂ {α β γ : Type} {R : α → β → Prop} {l : List α} {l' : List β}
    {p : α → Bool} {q : β → Bool} {f : α → γ} {g : β → γ} (h : List.Forall₂ R l l')
    (hp : ∀ a b, R a b → p a = q b) (hf : ∀ a b, R a b → f a = g b) :
    (l.filter p).map f = (l'.filter q).map g := by
  induction h with
  | nil => rfl
  | cons hab _ ih =>
    rw [List.filter_cons, List.filter_cons, hp _ _ hab]
    split
    · rw [List.map_cons, List.map_cons, hf _ _ hab, ih]
    · exact ih

namespace QuerySpec.Forms

variable {db} {names : List String} {counts : List Count} {spec spec' : QuerySpec}
  {outer outer' : Frame σ}

/-! ### Without counts -/

theorem agree_same (h : spec.Forms db names [] spec') (ho : Frame.Agree names outer outer')
    {f : Frame σ} (hf : Frame.names f = spec.names) :
    Frame.Agree (spec'.names ++ names) (f ++ outer) (f ++ outer') := by
  have hagree := h.agree ho hf
  rwa [List.map_nil, Frame.without_eq_self (by simp)] at hagree

/-- Without counts, both forms have the same frames. -/
theorem kept_eq (h : spec.Forms db names [] spec') (ho : Frame.Agree names outer outer')
    (hspecs : ∀ s ∈ (spec'.specs everyKey).tail, s.CountsApart db) :
    spec.kept db outer = spec'.kept db outer' := by
  obtain ⟨counts', htables, hperm⟩ := h.tables
  obtain rfl := List.perm_nil.1 hperm
  have htables := htables.eq_of_nil
  obtain ⟨-, hcondition, -⟩ := QuerySpec.forall_inner hspecs
  have hframes : FromItem.frames db spec.tables outer = FromItem.frames db spec'.tables outer' := by
    rw [htables]
    exact frames_congr db h.hangs ho
  rw [QuerySpec.kept, QuerySpec.kept, ← hframes]
  refine List.filter_congr fun f hf => ?_
  exact h.condition.agrees.value hcondition _ _
    (.single _ (h.agree_same ho (names_of_mem_frames db hf)))

theorem isEmpty_groupBy (h : spec.Forms db names [] spec') :
    spec.groupBy.isEmpty = spec'.groupBy.isEmpty := by
  rw [Bool.eq_iff_iff, List.isEmpty_iff_length_eq_zero, List.isEmpty_iff_length_eq_zero,
    (h.uncounted rfl).length_eq]

theorem isGrouped_eq (h : spec.Forms db names [] spec') : spec.isGrouped = spec'.isGrouped := by
  unfold QuerySpec.isGrouped
  rw [h.isEmpty_groupBy, h.having.isSome_eq, h.select.aggregates rfl,
    h.orderBy.agrees.aggregates rfl]

/-- The same group, seen from two sides. -/
theorem comparable_group (h : spec.Forms db names [] spec') (ho : Frame.Agree names outer outer')
    {nulls : Frame σ} (hn : Frame.names nulls = spec.names) {group : List (Frame σ)}
    (hg : ∀ f ∈ group, Frame.names f = spec.names) (aggregates : Bool) :
    Comparable db (spec'.names ++ names) [] aggregates (.ofGroup outer nulls group)
      (.ofGroup outer' nulls group) where
  seen := by
    cases group with
    | nil => exact h.agree_same ho hn
    | cons f group => exact h.agree_same ho (hg f List.mem_cons_self)
  groups _ := ⟨rfl, List.forall₂_same.2 fun f hf => h.agree_same ho (hg f hf)⟩
  counted := by simp

theorem views_comparable (h : spec.Forms db names [] spec') (ho : Frame.Agree names outer outer')
    (hspecs : ∀ s ∈ (spec'.specs everyKey).tail, s.CountsApart db) :
    List.Forall₂ (fun view view' => ∀ aggregates,
        Comparable db (spec'.names ++ names) [] aggregates view view')
      (viewsOf spec.isGrouped (!spec.groupBy.isEmpty)
        (fun frame => Expression.valueAll db spec.groupBy (.single outer frame)) outer
        (db.nullFrame spec.tables) (spec.kept db outer))
      (viewsOf spec'.isGrouped (!spec'.groupBy.isEmpty)
        (fun frame => Expression.valueAll db spec'.groupBy (.single outer' frame)) outer'
        (db.nullFrame spec'.tables) (spec'.kept db outer')) := by
  have htables : spec.tables = spec'.tables := by
    obtain ⟨counts', htables, hperm⟩ := h.tables
    obtain rfl := List.perm_nil.1 hperm
    exact htables.eq_of_nil
  obtain ⟨-, -, hgroup, -⟩ := QuerySpec.forall_inner hspecs
  have hnulls : Frame.names (db.nullFrame spec.tables) = spec.names := names_nullFrame db _
  have hkept : ∀ f ∈ spec.kept db outer, Frame.names f = spec.names := fun f hf =>
    names_of_mem_frames db (List.mem_of_mem_filter hf)
  have hkey : ∀ f ∈ spec.kept db outer,
      Expression.valueAll db spec.groupBy (.single outer f) =
        Expression.valueAll db spec'.groupBy (.single outer' f) := fun f hf =>
    (h.uncounted rfl).agrees.value hgroup _ _ (.single _ (h.agree_same ho (hkept f hf)))
  rw [← h.isGrouped_eq, ← h.isEmpty_groupBy, ← htables, ← h.kept_eq ho hspecs]
  unfold viewsOf
  split
  · split
    · rw [groupsBy_congr fun f hf g hg => by rw [hkey f hf, hkey g hg]]
      refine List.forall₂_map_left_iff.2 (List.forall₂_map_right_iff.2 (List.forall₂_same.2 ?_))
      intro group hmem
      obtain ⟨key, -, rfl⟩ := List.mem_map.1 hmem
      exact h.comparable_group ho hnulls fun f hf => hkept f (List.mem_of_mem_filter hf)
    · exact .cons (h.comparable_group ho hnulls hkept) .nil
  · refine List.forall₂_map_left_iff.2 (List.forall₂_map_right_iff.2 (List.forall₂_same.2 ?_))
    exact fun f hf aggregates => .single aggregates (h.agree_same ho (hkept f hf))

/-- Without counts, both forms have the same rows. -/
theorem rows_eq_of_uncounted (h : spec.Forms db names [] spec')
    (ho : Frame.Agree names outer outer')
    (hspecs : ∀ s ∈ (spec'.specs everyKey).tail, s.CountsApart db) :
    spec.rows db outer = spec'.rows db outer' := by
  obtain ⟨hselect, -, -, hhaving, horder, -, -⟩ := QuerySpec.forall_inner hspecs
  rw [QuerySpec.rows_eq, QuerySpec.rows_eq, h.finish_eq hspecs]
  congr 1
  refine map_filter_of_forall₂ (h.views_comparable ho hspecs) (fun view view' hv => ?_)
    fun view view' hv => ?_
  · exact h.having.agrees.value hhaving view view' (hv _)
  · rw [h.select.value hselect view view' (hv _), h.orderBy.agrees.value horder view view' (hv _)]

/-! ### With counts -/

/-- The frames of the first form are those of the second one, spread by the joins for counts. -/
theorem kept_spread (h : spec.Forms db names counts spec') (ho : Frame.Agree names outer outer')
    (hspecs : ∀ s ∈ (spec'.specs everyKey).tail, s.CountsApart db) :
    Spread db (counts.map (·.aliasName)) counts spec.names (spec.kept db outer)
      (spec'.kept db outer') := by
  obtain ⟨counts', htables, hperm⟩ := h.tables
  obtain ⟨-, hcondition, -⟩ := QuerySpec.forall_inner hspecs
  have hframes : Spread db (counts.map (·.aliasName)) counts' spec.names
      (FromItem.frames db spec.tables outer) (FromItem.frames db spec'.tables outer') := by
    have hnodup := (List.nodup_append'.1 h.nodup).1
    refine htables.spread h.hangs ho hnodup (fun k hk => ?_) fun a ha => ?_
    · exact List.mem_map.2 ⟨k, hperm.mem_iff.1 hk, rfl⟩
    · exact h.visible (List.mem_append_left _ ha)
  refine (hframes.mono hperm.symm.subset).filter fun f hf => ?_
  exact h.condition.agrees.value hcondition _ _ (.single _ (h.agree ho (hframes.names f hf)))

/-- Frames have the same key in the first form if what the second form selects for them, counts
apart, is the same. -/
theorem key_eq_iff (h : spec.Forms db names counts spec') (hc : counts ≠ [])
    (ho : Frame.Agree names outer outer')
    (hspecs : ∀ s ∈ (spec'.specs everyKey).tail, s.CountsApart db) {f g : Frame σ}
    (hf : f ∈ spec.kept db outer) (hg : g ∈ spec.kept db outer) :
    Expression.valueAll db spec.groupBy (.single outer f) =
        Expression.valueAll db spec.groupBy (.single outer g) ↔
      spec'.rowKey db outer' (f.without (counts.map (·.aliasName))) =
        spec'.rowKey db outer' (g.without (counts.map (·.aliasName))) := by
  have hs := h.kept_spread ho hspecs
  obtain ⟨-, -, owners, plain, hkeys, howners, hplain⟩ := h.counted hc
  obtain ⟨hselect, -⟩ := QuerySpec.forall_inner hspecs
  have hagree {f : Frame σ} (hf : f ∈ spec.kept db outer) := h.agree ho (hs.names f hf)
  have hcounted : spec'.countedOwners = counts.map Count.ownerId := h.select.owners rfl
  have howner {f : Frame σ} (hf : f ∈ spec.kept db outer) {k : Count} (hk : k ∈ counts) :
      k.ownerId.value db (.single outer f) =
        k.ownerId.value db (.single outer' (f.without (counts.map (·.aliasName)))) := by
    have hmem : k.owner.1 ∈ spec'.names ++ names := by
      obtain ⟨hin, hnot⟩ := hs.owners k hk
      exact List.mem_append_left _
        ((List.mem_append.1 (h.names_perm.mem_iff.1 hin)).resolve_left hnot)
    show [((f ++ outer).lookup k.owner.1).bind _] = [List.lookup k.owner.1 _ >>= _]
    rw [hagree hf _ hmem]
    rfl
  have hvalues {f : Frame σ} (hf : f ∈ spec.kept db outer) :
      Expression.valueAll db plain (.single outer f) =
        Expression.valueAll db (plainItems spec'.select)
          (.single outer' (f.without (counts.map (·.aliasName)))) :=
    hplain.value hselect _ _ (.single _ (hagree hf))
  have hrow (view view' : View σ) : Expression.valueAll db
      (spec'.countedOwners ++ plainItems spec'.select) view = Expression.valueAll db
        (spec'.countedOwners ++ plainItems spec'.select) view' ↔
      (∀ k ∈ counts, k.ownerId.value db view = k.ownerId.value db view') ∧
        Expression.valueAll db (plainItems spec'.select) view =
          Expression.valueAll db (plainItems spec'.select) view' := by
    rw [valueAll_eq_iff, hcounted, List.forall_mem_append, List.forall_mem_map, ← valueAll_eq_iff]
  rw [hkeys, groupByOwners_eq_iff, hvalues hf, hvalues hg, QuerySpec.rowKey, QuerySpec.rowKey, hrow]
  refine and_congr_left fun _ => ?_
  constructor
  · intro he k hk
    rw [← howner hf hk, ← howner hg hk]
    exact he k.owner ((howners _).2 ⟨k, hk, rfl⟩)
  · intro he owner hmem
    obtain ⟨k, hk, rfl⟩ := (howners owner).1 hmem
    have := he k hk
    rwa [← howner hf hk, ← howner hg hk] at this

theorem groups_eq (h : spec.Forms db names counts spec') (hc : counts ≠ [])
    (ho : Frame.Agree names outer outer')
    (hspecs : ∀ s ∈ (spec'.specs everyKey).tail, s.CountsApart db) :
    groupsBy (fun frame => Expression.valueAll db spec.groupBy (.single outer frame))
        (spec.kept db outer) =
      groupsBy (fun frame => spec'.rowKey db outer' (frame.without (counts.map (·.aliasName))))
        (spec.kept db outer) :=
  groupsBy_congr fun _ hf _ hg => h.key_eq_iff hc ho hspecs hf hg

/-- The first form has a group for each row of the second one, if those are told apart. -/
theorem groups_of_apart (h : spec.Forms db names counts spec') (hc : counts ≠ [])
    (ho : Frame.Agree names outer outer')
    (hspecs : ∀ s ∈ (spec'.specs everyKey).tail, s.CountsApart db) (ha : spec'.Apart db outer') :
    groupsBy (fun frame => Expression.valueAll db spec.groupBy (.single outer frame))
        (spec.kept db outer) =
      (spec'.kept db outer').map fun g => (spec.kept db outer).filter fun f =>
        f.without (counts.map (·.aliasName)) == g := by
  have hs := h.kept_spread ho hspecs
  have hinj := List.inj_on_of_nodup_map ha
  have hgroups : groupsBy (fun frame =>
      spec'.rowKey db outer' (frame.without (counts.map (·.aliasName)))) (spec.kept db outer) =
        groupsBy (Frame.without (counts.map (·.aliasName))) (spec.kept db outer) :=
    groupsBy_congr fun f hf g hg =>
      ⟨hinj (hs.without_mem hf) (hs.without_mem hg), fun he => by rw [he]⟩
  rw [h.groups_eq hc ho hspecs, hgroups, groupsBy, hs.firsts,
    eraseDups_of_nodup (List.Nodup.of_map _ ha)]

theorem length_groups (h : spec.Forms db names counts spec') (hc : counts ≠ [])
    (ho : Frame.Agree names outer outer')
    (hspecs : ∀ s ∈ (spec'.specs everyKey).tail, s.CountsApart db) :
    (groupsBy (fun frame => Expression.valueAll db spec.groupBy (.single outer frame))
      (spec.kept db outer)).length =
        ((spec'.kept db outer').map (spec'.rowKey db outer')).eraseDups.length := by
  have hs := h.kept_spread ho hspecs
  rw [h.groups_eq hc ho hspecs, length_groupsBy, ← hs.firsts.map, List.map_map]
  rfl

/-- The frames that one frame has been spread to count its collections. -/
theorem comparable_spread (h : spec.Forms db names counts spec')
    (ho : Frame.Agree names outer outer')
    (hspecs : ∀ s ∈ (spec'.specs everyKey).tail, s.CountsApart db) {g : Frame σ}
    (hg : g ∈ spec'.kept db outer') (nulls : Frame σ) :
    Comparable db (spec'.names ++ names) counts false
      (.ofGroup outer nulls ((spec.kept db outer).filter fun f =>
        f.without (counts.map (·.aliasName)) == g)) (.single outer' g) := by
  have hs := h.kept_spread ho hspecs
  have hgroup {f : Frame σ} : (f ∈ (spec.kept db outer).filter fun f =>
      f.without (counts.map (·.aliasName)) == g) ↔
        f ∈ spec.kept db outer ∧ f.without (counts.map (·.aliasName)) = g := by
    rw [List.mem_filter, beq_iff_eq]
  refine ⟨?_, nofun, fun k hk => ?_⟩
  · obtain ⟨f, hf, hfg⟩ := hs.exists_of_mem hg
    obtain ⟨f₀, rest, hcons⟩ := List.exists_cons_of_ne_nil (List.ne_nil_of_mem (hgroup.2 ⟨hf, hfg⟩))
    obtain ⟨hf₀, rfl⟩ := hgroup.1 (hcons ▸ List.mem_cons_self)
    rw [hcons]
    exact h.agree ho (hs.names f₀ hf₀)
  · have hne : k.aliasName ≠ k.owner.1 := fun he =>
      (hs.owners k hk).2 (he ▸ List.mem_map.2 ⟨k, hk, rfl⟩)
    rw [Count.subquery_value hne, seen_single, Count.ownerValue_append (hs.owner_mem_plain hk hg)]
    refine Count.aggregate_value (h.distinct k hk) (fun f hf => ?_) fun r hr => ?_
    · obtain ⟨hmem, hfg⟩ := hgroup.1 hf
      rw [← hfg, Count.ownerValue_without (hs.owners k hk).2]
      exact hs.chosen f hmem k hk
    · obtain ⟨f, hf, hfg, hl⟩ := hs.reached g hg k hk r hr
      exact ⟨f, hgroup.2 ⟨hf, hfg⟩, hl⟩

/-- A query that counts collections by joins has a view for each group. -/
theorem views_of_counted (h : spec.Forms db names counts spec') (hc : counts ≠ []) :
    spec.views db outer = (groupsBy (fun frame =>
      Expression.valueAll db spec.groupBy (.single outer frame)) (spec.kept db outer)).map
        (.ofGroup outer (db.nullFrame spec.tables)) := by
  obtain ⟨-, hnone, owners, plain, hkeys, howners, -⟩ := h.counted hc
  have hhaving : spec.having = none := by
    have := h.having.isSome_eq
    rwa [hnone, Option.isSome_none, Option.isSome_eq_false_iff, Option.isNone_iff_eq_none] at this
  have hempty : spec.groupBy.isEmpty = false := by
    obtain ⟨k, hk⟩ := List.exists_mem_of_ne_nil _ hc
    rw [List.isEmpty_eq_false_iff]
    intro hnil
    have hfalse := (forall_mem_groupByOwners (p := fun _ => False) (fun _ _ _ => id)).1
      (by simp [← hkeys, hnil] : ∀ e ∈ groupByOwners owners plain, False)
    exact hfalse.1 k.owner ((howners _).2 ⟨k, hk, rfl⟩)
  have hgrouped : spec.isGrouped = true := by simp [QuerySpec.isGrouped, hempty]
  rw [QuerySpec.views, viewsOf, hgrouped, hempty, hhaving]
  exact List.filter_eq_self.2 fun _ _ => rfl

theorem views_of_not_grouped (h : spec.Forms db names counts spec') (hc : counts ≠ [])
    (hg : spec'.isGrouped = false) :
    spec'.views db outer' = (spec'.kept db outer').map (.single outer') := by
  obtain ⟨-, hnone, -⟩ := h.counted hc
  rw [QuerySpec.views, viewsOf, hg, hnone]
  exact List.filter_eq_self.2 fun _ _ => rfl

/-- With counts, both forms have the same rows if the second one tells them apart. -/
theorem rows_eq_of_apart (h : spec.Forms db names counts spec') (hc : counts ≠ [])
    (ho : Frame.Agree names outer outer')
    (hspecs : ∀ s ∈ (spec'.specs everyKey).tail, s.CountsApart db)
    (hg : spec'.isGrouped = false) (ha : spec'.Apart db outer') :
    spec.rows db outer = spec'.rows db outer' := by
  obtain ⟨hselect, -, -, -, horder, -, -⟩ := QuerySpec.forall_inner hspecs
  have haggregates : anyAggregate (spec'.select.flatMap (·.expression.parts)) = false ∧
      anyAggregate (spec'.orderBy.flatMap (·.expression.parts)) = false := by
    simp only [QuerySpec.isGrouped, Bool.or_eq_false_iff] at hg
    exact ⟨hg.1.2, hg.2⟩
  rw [QuerySpec.rows_eq, QuerySpec.rows_eq, h.finish_eq hspecs, h.views_of_counted hc,
    h.views_of_not_grouped hc hg, h.groups_of_apart hc ho hspecs ha, List.map_map, List.map_map,
    List.map_map]
  refine congrArg _ (List.map_congr_left fun g hmem => ?_)
  have hview := h.comparable_spread ho hspecs hmem (db.nullFrame spec.tables)
  have hvalues := h.select.value hselect _ _ (haggregates.1.symm ▸ hview)
  have hkeys := h.orderBy.agrees.value horder _ _
    (haggregates.2.symm ▸ hview.mono (List.Subset.refl _) (List.nil_subset _) id)
  simp only [Function.comp_apply]
  rw [hvalues, hkeys]

/-- Both forms have as many rows only if the second one tells them apart. -/
theorem apart_of_length_rows (h : spec.Forms db names counts spec') (hc : counts ≠ [])
    (ho : Frame.Agree names outer outer')
    (hspecs : ∀ s ∈ (spec'.specs everyKey).tail, s.CountsApart db)
    (hp : spec'.IsPlain)
    (hrows : (spec.rows db outer).length = (spec'.rows db outer').length) :
    spec'.Apart db outer' := by
  have hfinish (rows : List (Value σ × List (Value σ))) :
      (db.finish spec'.isDistinct spec'.orderBy (Expression.valueOption db spec'.limit {})
        (Expression.valueOption db spec'.offset {}) rows).length = rows.length := by
    rw [hp.isDistinct, hp.limit, hp.offset]
    simp [Database.finish, Database.page, Database.sort, Expression.valueOption,
      List.length_insertionSort]
  rw [QuerySpec.rows_eq, QuerySpec.rows_eq, h.finish_eq hspecs, hfinish, hfinish,
    h.views_of_counted hc, h.views_of_not_grouped hc hp.isGrouped, List.length_map,
    List.length_map, List.length_map, List.length_map, h.length_groups hc ho hspecs] at hrows
  refine nodup_iff_length_eraseDups.2 ?_
  rw [hrows, List.length_map]

/-- Unless something else leaves rows out or puts them together, both forms have the same rows just
if the second one tells them apart. -/
theorem perm_iff_apart (h : spec.Forms db names counts spec') (hc : counts ≠ [])
    (ho : Frame.Agree names outer outer')
    (hspecs : ∀ s ∈ (spec'.specs everyKey).tail, s.CountsApart db) (hp : spec'.IsPlain) :
    (spec.rows db outer).Perm (spec'.rows db outer') ↔ spec'.Apart db outer' := by
  constructor
  · intro hperm
    exact h.apart_of_length_rows hc ho hspecs hp hperm.length_eq
  · intro ha
    rw [h.rows_eq_of_apart hc ho hspecs hp.isGrouped ha]

/-! ### Both cases -/

theorem agrees (h : spec.Forms db names counts spec') :
    (Query.spec spec).Agrees db names (.spec spec') := by
  intro hspecs outer outer' ho
  have hself : spec' ∈ spec'.specs everyKey := by
    cases spec'
    exact List.mem_cons_self
  have hinner : ∀ s ∈ (spec'.specs everyKey).tail, s.CountsApart db := fun s hs =>
    hspecs s (List.mem_of_mem_tail hs)
  show spec.rows db outer = spec'.rows db outer'
  by_cases hc : counts = []
  · subst hc
    exact h.rows_eq_of_uncounted ho hinner
  · have hcounted : spec'.countedOwners ≠ [] := by
      rw [QuerySpec.countedOwners, h.select.owners rfl]
      simpa using hc
    obtain ⟨hg, ha⟩ := hspecs spec' hself hcounted
    exact h.rows_eq_of_apart hc ho hinner hg (ha outer')

end QuerySpec.Forms

/-! ## Set operations -/

/-- Queries have the same rows one by one, as far as `Query.Agrees` promises it. -/
def Query.AllAgree (names : List String) (queries queries' : List Query) : Prop :=
  (∀ spec ∈ Query.specsAll everyKey queries', spec.CountsApart db) →
    ∀ outer outer', Frame.Agree names outer outer' →
      Query.rowsAll db queries outer = Query.rowsAll db queries' outer'

namespace Query.AllAgree

variable {db} {names : List String} {query query' : Query} {queries queries' : List Query}

theorem nil : Query.AllAgree db names [] [] := fun _ _ _ _ => rfl

theorem cons (h : query.Agrees db names query') (hs : Query.AllAgree db names queries queries') :
    Query.AllAgree db names (query :: queries) (query' :: queries') := by
  intro hspecs outer outer' ho
  obtain ⟨hfirst, hrest⟩ := List.forall_mem_append.1 hspecs
  simp only [Query.rowsAll, h hfirst outer outer' ho, hs hrest outer outer' ho]

theorem group {operator : SetOperator} {orderBy orderBy' : List (SortKey Expression)}
    {limit limit' offset offset' : Option Expression}
    (h : Query.AllAgree db names queries queries')
    (horder : SortKey.AllAgree db false names [] orderBy orderBy')
    (hlimit : Expression.OptionAgree db false names [] limit limit')
    (hoffset : Expression.OptionAgree db false names [] offset offset') :
    (Query.group operator queries orderBy limit offset).Agrees db names
      (.group operator queries' orderBy' limit' offset') := by
  intro hspecs outer outer' ho
  simp only [Query.specs, List.forall_mem_append] at hspecs
  obtain ⟨hqueries, hkeys, hlimits, hoffsets⟩ := hspecs
  have hview : Comparable db names [] (anyAggregate (orderBy'.flatMap (·.expression.parts)))
      { outer } { outer := outer' } := ⟨ho, fun _ => ⟨rfl, .nil⟩, by simp⟩
  simp only [Query.rows, Database.finish, h hqueries outer outer' ho, db.sort_congr horder.orders,
    horder.agrees.value hkeys _ _ hview,
    hlimit.agrees.value hlimits {} {} (QuerySpec.Forms.comparable_empty _ _),
    hoffset.agrees.value hoffsets {} {} (QuerySpec.Forms.comparable_empty _ _)]

end Query.AllAgree

/-- Two forms of a query, which have the same rows as far as `Query.Agrees` promises it. -/
structure Query.Forms (names : List String) (query query' : Query) : Prop where
  agrees : query.Agrees db names query'
  spec : ∀ spec', query' = .spec spec' → ∃ spec outer counts, query = .spec spec ∧
    outer ⊆ names ∧ spec.Forms db outer counts spec'

end SqlDialects.Sql
