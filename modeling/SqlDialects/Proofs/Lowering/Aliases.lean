import Mathlib.Data.List.Flatten
import SqlDialects.Dialect.Resolve
import SqlDialects.Proofs.Lowering.Scopes

/-!
# Lowered statements are scoped

No alias is given to two tables of a statement, and every column is of a table that is seen where
the column stands. A query that counts collections by a join repeats some of its select list in its
groups, and a table in such an item stands in the statement twice.
-/

namespace SqlDialects.Entity

open Sql (FromItem everyKey newKeys tableNames)

variable {c : LoweringContext} {s t u : LoweringState}

/-! ## What a step yields -/

theorem tableNames_append (specs specs' : List Sql.QuerySpec) :
    tableNames (specs ++ specs') = tableNames specs ++ tableNames specs' :=
  List.flatMap_append

/-- A state in which a tree can be lowered. Select items are items of the innermost query. -/
structure Ready (c : LoweringContext) (s : LoweringState) : Prop where
  sound : s.Sound
  inQuery : c.isInSelect = true → s.InQuery

theorem Ready.keeps (h : Ready c s) (hk : Keeps s t) : Ready c t :=
  ⟨hk.sound, fun hc => hk.grows.inQuery (h.inQuery hc)⟩

theorem Ready.outsideSelect (h : Ready c s) : Ready c.outsideSelect s := ⟨h.sound, nofun⟩

/-- A tree has been made with these queries in it. Their aliases are new and are not in the open
scopes, and the columns of the tree are scoped wherever the open scopes are seen. -/
structure Yields (s t : LoweringState) (specs : List Sql.QuerySpec)
    (holds : List String → Prop) : Prop extends Keeps s t where
  nodup : (tableNames specs).Nodup
  fresh : ∀ a ∈ tableNames specs, Allotted s.nextAlias t.nextAlias a ∧ a ∉ t.names
  seen : ∀ visible, t.names ⊆ visible → holds visible

namespace Yields

variable {as bs : List Sql.QuerySpec} {p q : List String → Prop}

/-- A tree without tables. -/
theorem leaf (h : Keeps s t) (hp : ∀ visible, t.names ⊆ visible → p visible) : Yields s t [] p :=
  ⟨h, List.nodup_nil, fun _ ha => absurd ha List.not_mem_nil, hp⟩

theorem and (h : Yields s t as p) (h' : Yields t u bs q) :
    Yields s u (as ++ bs) fun visible => p visible ∧ q visible where
  toKeeps := h.toKeeps.trans h'.toKeeps
  nodup := by
    rw [tableNames_append]
    exact List.nodup_append'.2 ⟨h.nodup, h'.nodup, fun a ha hb =>
      (h.fresh a ha).1.ne (h'.fresh a hb).1 rfl⟩
  fresh := by
    intro a ha
    rw [tableNames_append] at ha
    rcases List.mem_append.1 ha with ha | ha
    · obtain ⟨hnew, hnot⟩ := h.fresh a ha
      refine ⟨hnew.mono (Nat.le_refl _) h'.grows.nextAlias, fun hin => ?_⟩
      rcases h'.grows.mem_names hin with hin | hin
      · exact hnot hin
      · exact hnew.ne hin rfl
    · obtain ⟨hnew, hnot⟩ := h'.fresh a ha
      exact ⟨hnew.mono h.grows.nextAlias (Nat.le_refl _), hnot⟩
  seen visible hv :=
    ⟨h.seen visible (List.Subset.trans h'.grows.names_subset hv), h'.seen visible hv⟩

/-- Steps that make nothing may come first. -/
theorem after (h : Yields t u as p) (h' : Keeps s t) : Yields s u as p := by
  simpa using (leaf h' fun _ _ => trivial).and h

theorem of_column {e : Sql.Expression} (h : Keeps s t ∧ IsOpenColumn t e) :
    Yields s t (e.specs newKeys) e.Scoped := by
  obtain ⟨hk, a, ha, column, rfl⟩ := h
  exact leaf hk fun visible hv => ⟨a, hv ha, rfl⟩

end Yields

theorem lowerSize_yields {path : Path} {e : Sql.Expression} (hs : Ready c s)
    (h : lowerSize c path s = .ok (e, t)) : Yields s t (e.specs newKeys) e.Scoped := by
  obtain ⟨_, place, u, collection, element, -, hn, -, -, h⟩ := lowerSize_ok_iff.1 h
  obtain ⟨hk, hp⟩ := navigate_keeps hs.sound hn
  split at h
  case isTrue hc =>
    have hq := hs.inQuery (Bool.and_eq_true_iff.1 hc).1
    obtain ⟨hk', _, hc, rfl⟩ := countJoined_keeps hk.sound (hk.grows.inQuery hq) hp h
    exact (Yields.of_column ⟨hk', hc⟩).after hk
  case isFalse =>
    obtain ⟨rfl, rfl⟩ := h
    have hfresh := u.fresh_allotted
    have hnames : u.fresh ∉ u.names := fun hin => (hk.sound.allotted _ hin).ne hfresh rfl
    refine Yields.after ⟨Keeps.skip hk.sound (Nat.le_succ _), List.nodup_singleton u.fresh, ?_, ?_⟩
      hk
    · exact List.forall_mem_singleton.2 ⟨hfresh, hnames⟩
    · intro visible hv
      have hplace := hv hp.mem_names
      refine ⟨⟨trivial, trivial⟩, ⟨trivial, trivial⟩, ⟨⟨_, ?_, rfl⟩, ⟨_, ?_, rfl⟩⟩, ?_⟩
      · simp [FromItem.names]
      · simp [hplace]
      · exact ⟨trivial, trivial, trivial, trivial, trivial⟩

/-! ## Parts of queries -/

theorem scopedAll_append {visible : List String} (items items' : List (SelectItem Sql.Expression)) :
    Sql.SelectItem.ScopedAll visible (items ++ items') ↔
      Sql.SelectItem.ScopedAll visible items ∧ Sql.SelectItem.ScopedAll visible items' := by
  induction items with
  | nil => simp [Sql.SelectItem.ScopedAll]
  | cons item rest ih => simp [Sql.SelectItem.ScopedAll, ih, and_assoc]

theorem scoped_of_mem {visible : List String} {items : List (SelectItem Sql.Expression)}
    {item : SelectItem Sql.Expression} (h : Sql.SelectItem.ScopedAll visible items)
    (hi : item ∈ items) : item.expression.Scoped visible := by
  induction items with
  | nil => simp at hi
  | cons first rest ih =>
    rcases List.mem_cons.1 hi with rfl | hi
    · exact h.1
    · exact ih h.2 hi

/-- The items of a longer select list. -/
theorem Yields.append {r r' : LoweredSelect}
    (h : Yields s t (Sql.SelectItem.specsAll newKeys r.items)
      (Sql.SelectItem.ScopedAll · r.items))
    (h' : Yields t u (Sql.SelectItem.specsAll newKeys r'.items)
      (Sql.SelectItem.ScopedAll · r'.items)) :
    Yields s u (Sql.SelectItem.specsAll newKeys (r.append r').items)
      (Sql.SelectItem.ScopedAll · (r.append r').items) := by
  simp only [LoweredSelect.append, Sql.SelectItem.specsAll_append, scopedAll_append]
  exact h.and h'

theorem ofColumns_yields (ht : t.Sound) : ∀ {columns : List Sql.Expression},
    (∀ e ∈ columns, IsOpenColumn t e) →
      Yields t t (Sql.SelectItem.specsAll newKeys (LoweredSelect.ofColumns columns).items)
        (Sql.SelectItem.ScopedAll · (LoweredSelect.ofColumns columns).items)
  | [], _ => Yields.leaf (Keeps.refl ht) fun _ _ => trivial
  | _ :: _, h =>
    have h := List.forall_mem_cons.1 h
    (Yields.of_column ⟨Keeps.refl ht, h.1⟩).and (ofColumns_yields ht h.2)

theorem joins_scoped : ∀ {joins : List Sql.Join} {visible : List String}, HangsOn visible joins →
    Sql.Join.specsAll newKeys joins = [] ∧ Sql.Join.ScopedAll visible joins
  | [], _, _ => ⟨rfl, trivial⟩
  | _ :: _, _, ⟨⟨_, _, _, _, _, _, hother, rfl⟩, h⟩ => by
    obtain ⟨ha, hv⟩ := joins_scoped h
    refine ⟨ha, ⟨⟨_, List.mem_cons_self, rfl⟩, ?_⟩, hv⟩
    exact ⟨_, List.mem_cons_of_mem _ hother, rfl⟩

theorem tables_scoped {outer : List String} : ∀ {tables : List FromItem},
    (∀ table ∈ tables, HangsOn (table.root.aliasName :: outer) table.joins) →
      Sql.FromItem.specsAll newKeys tables = [] ∧ Sql.FromItem.ScopedAll outer tables
  | [], _ => ⟨rfl, trivial⟩
  | ⟨root, joins⟩ :: _, h => by
    obtain ⟨hfirst, hrest⟩ := List.forall_mem_cons.1 h
    obtain ⟨ha, hv⟩ := joins_scoped hfirst
    obtain ⟨has, hvs⟩ := tables_scoped hrest
    exact ⟨by simp [Sql.FromItem.specsAll, ha, has], hv, hvs⟩

/-! ## Keys of a group -/

theorem specsChosen_sublist {keys : Sql.KeyChoice} {items : List (SelectItem Sql.Expression)} :
    ∀ groupBy : List Sql.Expression, (Sql.Expression.specsChosen keys items groupBy).Sublist
      (Sql.Expression.specsAll keys groupBy)
  | [] => .slnil
  | key :: rest => by
    refine List.Sublist.append ?_ (specsChosen_sublist rest)
    split
    · exact List.Sublist.refl _
    · exact List.nil_sublist _

theorem mem_groupByOwners {owners : List (String × String)} {plain : List Sql.Expression}
    {key : Sql.Expression} (h : key ∈ groupByOwners owners plain) :
    key ∈ plain ∨ ∃ owner ∈ owners, key = .of owner.1 owner.2 := by
  have hfold : ∀ (es keys : List Sql.Expression),
      key ∈ es.foldl (fun keys e => if keys.any (·.same e) then keys else keys ++ [e]) keys →
        key ∈ es ∨ key ∈ keys := by
    intro es
    induction es with
    | nil => exact fun _ h => .inr h
    | cons e rest ih =>
      intro keys h
      rcases ih _ h with h | h
      · exact .inl (List.mem_cons_of_mem _ h)
      · dsimp only at h
        split at h <;> grind
  rcases hfold _ _ h with h | h
  · exact .inl h
  · obtain ⟨owner, ho, rfl⟩ := List.mem_map.1 h
    exact .inr ⟨owner, ho, rfl⟩

/-- The keys that stand for owners have no tables, and the others are selected expressions. -/
theorem specsChosen_groupByOwners {owners : List (String × String)} {r : LoweredSelect}
    (h : r.plain ⊆ r.items.map (·.expression)) :
    Sql.Expression.specsChosen newKeys r.items (groupByOwners owners r.plain) = [] := by
  have hkeys : ∀ keys : List Sql.Expression,
      (∀ key ∈ keys, newKeys r.items key = false ∨ key.specs newKeys = []) →
        Sql.Expression.specsChosen newKeys r.items keys = [] := by
    intro keys hkeys
    induction keys with
    | nil => rfl
    | cons key rest ih =>
      obtain ⟨hkey, hrest⟩ := List.forall_mem_cons.1 hkeys
      simp only [Sql.Expression.specsChosen, ih hrest, List.append_nil]
      rcases hkey with hkey | hkey <;> simp [hkey]
  refine hkeys _ fun key hkey => ?_
  rcases mem_groupByOwners hkey with hkey | ⟨owner, -, rfl⟩
  · exact .inl (by simpa [newKeys] using List.mem_map.1 (h hkey))
  · exact .inr rfl

theorem groupKeys_specs (scope : Scope) {r : LoweredSelect} (groupBy : List Sql.Expression)
    (h : r.plain ⊆ r.items.map (·.expression)) :
    (Sql.Expression.specsChosen newKeys r.items (scope.groupKeys groupBy r.plain)).Sublist
      (Sql.Expression.specsAll newKeys groupBy) := by
  unfold Scope.groupKeys
  split
  · exact specsChosen_sublist groupBy
  · rw [specsChosen_groupByOwners h]
    exact List.nil_sublist _

theorem scopedAll_iff {visible : List String} (es : List Sql.Expression) :
    Sql.Expression.ScopedAll visible es ↔ ∀ e ∈ es, e.Scoped visible := by
  induction es with
  | nil => simp [Sql.Expression.ScopedAll]
  | cons e rest ih => simp [Sql.Expression.ScopedAll, ih]

theorem groupKeys_scoped {scope : Scope} {r : LoweredSelect} {groupBy : List Sql.Expression}
    {visible : List String} (h : r.plain ⊆ r.items.map (·.expression))
    (howners : ∀ owner ∈ scope.owners, owner.1 ∈ visible)
    (hselect : Sql.SelectItem.ScopedAll visible r.items)
    (hgroup : Sql.Expression.ScopedAll visible groupBy) :
    Sql.Expression.ScopedAll visible (scope.groupKeys groupBy r.plain) := by
  unfold Scope.groupKeys
  split
  · exact hgroup
  · refine (scopedAll_iff _).2 fun key hkey => ?_
    rcases mem_groupByOwners hkey with hkey | ⟨owner, ho, rfl⟩
    · obtain ⟨item, hitem, rfl⟩ := List.mem_map.1 (h hkey)
      exact scoped_of_mem hselect hitem
    · exact ⟨owner.1, howners owner ho, rfl⟩

theorem Yields.imp {as bs : List Sql.QuerySpec} {p q : List String → Prop} (h : Yields s t as p)
    (hsub : bs.Sublist as) (hpq : ∀ visible, t.names ⊆ visible → p visible → q visible) :
    Yields s t bs q :=
  have hnames : (tableNames bs).Sublist (tableNames as) := hsub.flatMap _
  ⟨h.toKeeps, h.nodup.sublist hnames, fun a ha => h.fresh a (hnames.subset ha),
    fun visible hv => hpq visible hv (h.seen visible hv)⟩

/-- A query is left. Its own tables are no longer open, so they count with the tree. -/
theorem Yields.leave {isGrouped : Bool} {scope : Scope} {as : List Sql.QuerySpec}
    {p : List String → Prop} (hy : Yields u { t with scopes := scope :: t.scopes } as p)
    (hk : Keeps (s.enter isGrouped) u) (spec : Sql.QuerySpec) (ht : spec.tables = scope.tables) :
    Yields s t (spec :: as) fun visible => p (scope.names ++ visible) := by
  have hcons : tableNames (spec :: as) = scope.names ++ tableNames as := by
    rw [tableNames, List.flatMap_cons, ht]
    rfl
  have hkeeps := hk.trans hy.toKeeps
  have hdisjoint := (List.nodup_append'.1 hy.sound.nodup).2.2
  refine ⟨hkeeps.leave, ?_, ?_, ?_⟩
  · rw [hcons]
    refine List.nodup_append'.2 ⟨(List.nodup_append'.1 hy.sound.nodup).1, hy.nodup, ?_⟩
    exact fun a ha ha' => (hy.fresh a ha').2 (List.mem_append_left _ ha)
  · intro a ha
    rw [hcons] at ha
    rcases List.mem_append.1 ha with ha | ha
    · exact ⟨(hkeeps.grows_head.gained a ha).resolve_left (by simp [Scope.names]), hdisjoint ha⟩
    · obtain ⟨hnew, hnot⟩ := hy.fresh a ha
      exact ⟨hnew.mono hk.grows.nextAlias (Nat.le_refl _),
        fun hin => hnot (List.mem_append_right _ hin)⟩
  · exact fun visible hv => hy.seen _
      (List.append_subset.2 ⟨List.subset_append_left _ _, List.subset_append_of_subset_right _ hv⟩)

/-! ## Trees -/

mutual

theorem Expression.lower_yields : ∀ (e : Expression) {c : LoweringContext} {s t : LoweringState}
    {r : Sql.Expression}, Ready c s → e.lower c s = .ok (r, t) →
      Yields s t (r.specs newKeys) r.Scoped
  | .path path, c, s, t, r, hs, h => Yields.of_column (resolve_keeps hs.sound h)
  | .literal value, c, s, t, r, hs, h => by
    obtain ⟨rfl, rfl⟩ := Prod.mk.inj (Lower.pure_ok_iff.1 h)
    exact Yields.leaf (Keeps.refl hs.sound) fun _ _ => trivial
  | .parameter value, c, s, t, r, hs, h => by
    obtain ⟨rfl, rfl⟩ := Prod.mk.inj (Lower.pure_ok_iff.1 h)
    exact Yields.leaf (Keeps.refl hs.sound) fun _ _ => trivial
  | .call name arguments, c, s, t, r, hs, h => by
    simp only [Expression.lower, Lower.bind_ok_iff, Lower.pure_ok_iff, Prod.mk.injEq] at h
    obtain ⟨_, _, hc, as, _, h, rfl, rfl⟩ := h
    obtain rfl := checkCall_ok hc
    exact Expression.lowerAll_yields arguments hs h
  | .aggregate function isDistinct argument, c, s, t, r, hs, h => by
    simp only [Expression.lower, Lower.bind_ok_iff, Lower.pure_ok_iff, Prod.mk.injEq] at h
    obtain ⟨a, _, h, rfl, rfl⟩ := h
    exact Expression.lowerOption_yields argument hs h
  | .extract unit source, c, s, t, r, hs, h => by
    simp only [Expression.lower, Lower.bind_ok_iff, Lower.pure_ok_iff, Prod.mk.injEq] at h
    obtain ⟨_, _, h, rfl, rfl⟩ := h
    have h := source.lower_yields hs h
    exact h
  | .timestampAdd unit magnitude timestamp, c, s, t, r, hs, h => by
    simp only [Expression.lower, Lower.bind_ok_iff, Lower.pure_ok_iff, Prod.mk.injEq] at h
    obtain ⟨_, _, h₁, _, _, h₂, rfl, rfl⟩ := h
    have h₁ := magnitude.lower_yields hs h₁
    exact h₁.and (timestamp.lower_yields (hs.keeps h₁.toKeeps) h₂)
  | .timestampDiff unit start finish, c, s, t, r, hs, h => by
    simp only [Expression.lower, Lower.bind_ok_iff, Lower.pure_ok_iff, Prod.mk.injEq] at h
    obtain ⟨_, _, h₁, _, _, h₂, rfl, rfl⟩ := h
    have h₁ := start.lower_yields hs h₁
    exact h₁.and (finish.lower_yields (hs.keeps h₁.toKeeps) h₂)
  | .format source pattern, c, s, t, r, hs, h => by
    simp only [Expression.lower, Lower.bind_ok_iff, Lower.pure_ok_iff, Prod.mk.injEq] at h
    obtain ⟨_, _, h, rfl, rfl⟩ := h
    have h := source.lower_yields hs h
    exact h
  | .binary left operator right, c, s, t, r, hs, h => by
    simp only [Expression.lower, Lower.bind_ok_iff, Lower.pure_ok_iff, Prod.mk.injEq] at h
    obtain ⟨_, _, h₁, _, _, h₂, rfl, rfl⟩ := h
    have h₁ := left.lower_yields hs h₁
    exact h₁.and (right.lower_yields (hs.keeps h₁.toKeeps) h₂)
  | .negate operand, c, s, t, r, hs, h => by
    simp only [Expression.lower, Lower.bind_ok_iff, Lower.pure_ok_iff, Prod.mk.injEq] at h
    obtain ⟨_, _, h, rfl, rfl⟩ := h
    have h := operand.lower_yields hs h
    exact h
  | .case branches otherwise, c, s, t, r, hs, h => by
    simp only [Expression.lower, Lower.bind_ok_iff, Lower.pure_ok_iff, Prod.mk.injEq] at h
    obtain ⟨_, _, h₁, _, _, h₂, rfl, rfl⟩ := h
    have h₁ := CaseBranch.lowerAll_yields branches hs h₁
    exact h₁.and (Expression.lowerOption_yields otherwise (hs.keeps h₁.toKeeps) h₂)
  | .cast source target, c, s, t, r, hs, h => by
    simp only [Expression.lower, Lower.bind_ok_iff, Lower.pure_ok_iff, Prod.mk.injEq] at h
    obtain ⟨_, _, h, rfl, rfl⟩ := h
    have h := source.lower_yields hs h
    exact h
  | .subquery query, c, s, t, r, hs, h => by
    simp only [Expression.lower, Lower.bind_ok_iff, Lower.pure_ok_iff, Prod.mk.injEq] at h
    obtain ⟨_, _, hc, _, _, h, rfl, rfl⟩ := h
    obtain ⟨-, rfl⟩ := checkSubquery_ok hc
    exact query.lower_yields hs.outsideSelect h
  | .tuple items, c, s, t, r, hs, h => by
    simp only [Expression.lower, Lower.bind_ok_iff, Lower.pure_ok_iff, Prod.mk.injEq] at h
    obtain ⟨_, _, h, rfl, rfl⟩ := h
    exact Expression.lowerAll_yields items hs h
  | .size path, c, s, t, r, hs, h => lowerSize_yields hs h

theorem Expression.lowerAll_yields : ∀ (es : List Expression) {c : LoweringContext}
    {s t : LoweringState} {rs : List Sql.Expression}, Ready c s →
      Expression.lowerAll c es s = .ok (rs, t) →
      Yields s t (Sql.Expression.specsAll newKeys rs) (Sql.Expression.ScopedAll · rs)
  | [], c, s, t, rs, hs, h => by
    obtain ⟨rfl, rfl⟩ := Prod.mk.inj (Lower.pure_ok_iff.1 h)
    exact Yields.leaf (Keeps.refl hs.sound) fun _ _ => trivial
  | e :: rest, c, s, t, rs, hs, h => by
    simp only [Expression.lowerAll, Lower.bind_ok_iff, Lower.pure_ok_iff, Prod.mk.injEq] at h
    obtain ⟨_, _, h₁, _, _, h₂, rfl, rfl⟩ := h
    have h₁ := e.lower_yields hs h₁
    exact h₁.and (Expression.lowerAll_yields rest (hs.keeps h₁.toKeeps) h₂)

theorem Expression.lowerOption_yields : ∀ (e : Option Expression) {c : LoweringContext}
    {s t : LoweringState} {r : Option Sql.Expression}, Ready c s →
      Expression.lowerOption c e s = .ok (r, t) →
      Yields s t (Sql.Expression.specsOption newKeys r) (Sql.Expression.ScopedOption · r)
  | none, c, s, t, r, hs, h => by
    obtain ⟨rfl, rfl⟩ := Prod.mk.inj (Lower.pure_ok_iff.1 h)
    exact Yields.leaf (Keeps.refl hs.sound) fun _ _ => trivial
  | some e, c, s, t, r, hs, h => by
    simp only [Expression.lowerOption, Lower.bind_ok_iff, Lower.pure_ok_iff, Prod.mk.injEq] at h
    obtain ⟨_, _, h, rfl, rfl⟩ := h
    exact e.lower_yields hs h

theorem CaseBranch.lowerAll_yields : ∀ (branches : List (CaseBranch Condition Expression))
    {c : LoweringContext} {s t : LoweringState}
    {rs : List (CaseBranch Sql.Condition Sql.Expression)}, Ready c s →
      CaseBranch.lowerAll c branches s = .ok (rs, t) →
      Yields s t (Sql.CaseBranch.specsAll newKeys rs) (Sql.CaseBranch.ScopedAll · rs)
  | [], c, s, t, rs, hs, h => by
    obtain ⟨rfl, rfl⟩ := Prod.mk.inj (Lower.pure_ok_iff.1 h)
    exact Yields.leaf (Keeps.refl hs.sound) fun _ _ => trivial
  | ⟨condition, result⟩ :: rest, c, s, t, rs, hs, h => by
    simp only [CaseBranch.lowerAll, Lower.bind_ok_iff, Lower.pure_ok_iff, Prod.mk.injEq] at h
    obtain ⟨_, _, h₁, _, _, h₂, _, _, h₃, rfl, rfl⟩ := h
    have h₁ := condition.lower_yields hs h₁
    have h₂ := h₁.and (result.lower_yields (hs.keeps h₁.toKeeps) h₂)
    exact h₂.and (CaseBranch.lowerAll_yields rest (hs.keeps h₂.toKeeps) h₃)

theorem Condition.lower_yields : ∀ (p : Condition) {c : LoweringContext} {s t : LoweringState}
    {r : Sql.Condition}, Ready c s → p.lower c s = .ok (r, t) →
      Yields s t (r.specs newKeys) r.Scoped
  | .compare left operator right, c, s, t, r, hs, h => by
    simp only [Condition.lower, Lower.bind_ok_iff, Lower.pure_ok_iff, Prod.mk.injEq] at h
    obtain ⟨_, _, h₁, _, _, h₂, rfl, rfl⟩ := h
    have h₁ := left.lower_yields hs h₁
    exact h₁.and (right.lower_yields (hs.keeps h₁.toKeeps) h₂)
  | .all items, c, s, t, r, hs, h => by
    simp only [Condition.lower, Lower.bind_ok_iff, Lower.pure_ok_iff, Prod.mk.injEq] at h
    obtain ⟨_, _, h, rfl, rfl⟩ := h
    exact Condition.lowerAll_yields items hs h
  | .any items, c, s, t, r, hs, h => by
    simp only [Condition.lower, Lower.bind_ok_iff, Lower.pure_ok_iff, Prod.mk.injEq] at h
    obtain ⟨_, _, h, rfl, rfl⟩ := h
    exact Condition.lowerAll_yields items hs h
  | .not operand, c, s, t, r, hs, h => by
    simp only [Condition.lower, Lower.bind_ok_iff, Lower.pure_ok_iff, Prod.mk.injEq] at h
    obtain ⟨_, _, h, rfl, rfl⟩ := h
    have h := operand.lower_yields hs h
    exact h
  | .isNull operand isNegated, c, s, t, r, hs, h => by
    simp only [Condition.lower, Lower.bind_ok_iff, Lower.pure_ok_iff, Prod.mk.injEq] at h
    obtain ⟨_, _, h, rfl, rfl⟩ := h
    have h := operand.lower_yields hs h
    exact h
  | .inList operand items isNegated, c, s, t, r, hs, h => by
    simp only [Condition.lower, Lower.bind_ok_iff, Lower.pure_ok_iff, Prod.mk.injEq] at h
    obtain ⟨_, _, hc, _, _, h₁, _, _, h₂, rfl, rfl⟩ := h
    obtain rfl := checkMember_ok hc
    have h₁ := operand.lower_yields hs h₁
    exact h₁.and (Expression.lowerAll_yields items (hs.keeps h₁.toKeeps) h₂)
  | .inQuery operand query isNegated, c, s, t, r, hs, h => by
    simp only [Condition.lower, Lower.bind_ok_iff, Lower.pure_ok_iff, Prod.mk.injEq] at h
    obtain ⟨_, _, hc, _, _, h₁, _, _, h₂, rfl, rfl⟩ := h
    obtain rfl := checkMember_ok hc
    have h₁ := operand.lower_yields hs h₁
    exact h₁.and (query.lower_yields (hs.keeps h₁.toKeeps).outsideSelect h₂)
  | .exists query isNegated, c, s, t, r, hs, h => by
    simp only [Condition.lower, Lower.bind_ok_iff, Lower.pure_ok_iff, Prod.mk.injEq] at h
    obtain ⟨_, _, h, rfl, rfl⟩ := h
    exact query.lower_yields hs.outsideSelect h
  | .like operand pattern escape ignoresCase isNegated, c, s, t, r, hs, h => by
    simp only [Condition.lower, Lower.bind_ok_iff, Lower.pure_ok_iff, Prod.mk.injEq] at h
    obtain ⟨_, _, h₁, _, _, h₂, rfl, rfl⟩ := h
    have h₁ := operand.lower_yields hs h₁
    exact h₁.and (pattern.lower_yields (hs.keeps h₁.toKeeps) h₂)
  | .between operand low high isNegated, c, s, t, r, hs, h => by
    simp only [Condition.lower, Lower.bind_ok_iff, Lower.pure_ok_iff, Prod.mk.injEq] at h
    obtain ⟨_, _, h₁, _, _, h₂, _, _, h₃, rfl, rfl⟩ := h
    have h₁ := operand.lower_yields hs h₁
    have hs₁ := hs.keeps h₁.toKeeps
    have h₂ := low.lower_yields hs₁ h₂
    exact h₁.and (h₂.and (high.lower_yields (hs₁.keeps h₂.toKeeps) h₃))
  | .holds operand, c, s, t, r, hs, h => by
    simp only [Condition.lower, Lower.bind_ok_iff, Lower.pure_ok_iff, Prod.mk.injEq] at h
    obtain ⟨_, _, h, rfl, rfl⟩ := h
    have h := operand.lower_yields hs h
    exact h

theorem Condition.lowerAll_yields : ∀ (ps : List Condition) {c : LoweringContext}
    {s t : LoweringState} {rs : List Sql.Condition}, Ready c s →
      Condition.lowerAll c ps s = .ok (rs, t) →
      Yields s t (Sql.Condition.specsAll newKeys rs) (Sql.Condition.ScopedAll · rs)
  | [], c, s, t, rs, hs, h => by
    obtain ⟨rfl, rfl⟩ := Prod.mk.inj (Lower.pure_ok_iff.1 h)
    exact Yields.leaf (Keeps.refl hs.sound) fun _ _ => trivial
  | p :: rest, c, s, t, rs, hs, h => by
    simp only [Condition.lowerAll, Lower.bind_ok_iff, Lower.pure_ok_iff, Prod.mk.injEq] at h
    obtain ⟨_, _, h₁, _, _, h₂, rfl, rfl⟩ := h
    have h₁ := p.lower_yields hs h₁
    exact h₁.and (Condition.lowerAll_yields rest (hs.keeps h₁.toKeeps) h₂)

theorem Condition.lowerOption_yields : ∀ (p : Option Condition) {c : LoweringContext}
    {s t : LoweringState} {r : Option Sql.Condition}, Ready c s →
      Condition.lowerOption c p s = .ok (r, t) →
      Yields s t (Sql.Condition.specsOption newKeys r) (Sql.Condition.ScopedOption · r)
  | none, c, s, t, r, hs, h => by
    obtain ⟨rfl, rfl⟩ := Prod.mk.inj (Lower.pure_ok_iff.1 h)
    exact Yields.leaf (Keeps.refl hs.sound) fun _ _ => trivial
  | some p, c, s, t, r, hs, h => by
    simp only [Condition.lowerOption, Lower.bind_ok_iff, Lower.pure_ok_iff, Prod.mk.injEq] at h
    obtain ⟨_, _, h, rfl, rfl⟩ := h
    exact p.lower_yields hs h

theorem Query.lower_yields : ∀ (q : Query) {c : LoweringContext} {isNested : Bool}
    {s t : LoweringState} {r : Sql.Query}, Ready c s → q.lower c isNested s = .ok (r, t) →
      Yields s t (r.specs newKeys) r.Scoped
  | .spec spec, c, isNested, s, t, r, hs, h => by
    simp only [Query.lower, Lower.bind_ok_iff, Lower.pure_ok_iff, Prod.mk.injEq] at h
    obtain ⟨_, _, hc, _, _, h, rfl, rfl⟩ := h
    obtain rfl := checkOrder_ok hc
    exact spec.lower_yields hs h
  | .group operator parts orderBy limit offset, c, isNested, s, t, r, hs, h => by
    simp only [Query.lower, Lower.bind_ok_iff, Lower.pure_ok_iff, Prod.mk.injEq] at h
    obtain ⟨_, _, hc, _, _, hc', _, _, h₁, _, _, h₂, _, _, h₃, _, _, h₄, rfl, rfl⟩ := h
    obtain rfl := checkOrder_ok hc
    obtain rfl := checkGroup_ok hc'
    have h₁ := Query.lowerAll_yields parts hs h₁
    have hs₁ := hs.keeps h₁.toKeeps
    have h₂ := SortKey.lowerAll_yields orderBy hs₁ h₂
    have hs₂ := hs₁.keeps h₂.toKeeps
    have h₃ := Expression.lowerOption_yields limit hs₂ h₃
    have h₄ := Expression.lowerOption_yields offset (hs₂.keeps h₃.toKeeps) h₄
    exact h₁.and (h₂.and (h₃.and h₄))

theorem Query.lowerAll_yields : ∀ (qs : List Query) {c : LoweringContext} {isNested : Bool}
    {s t : LoweringState} {rs : List Sql.Query}, Ready c s →
      Query.lowerAll c isNested qs s = .ok (rs, t) →
      Yields s t (Sql.Query.specsAll newKeys rs) (Sql.Query.ScopedAll · rs)
  | [], c, isNested, s, t, rs, hs, h => by
    obtain ⟨rfl, rfl⟩ := Prod.mk.inj (Lower.pure_ok_iff.1 h)
    exact Yields.leaf (Keeps.refl hs.sound) fun _ _ => trivial
  | q :: rest, c, isNested, s, t, rs, hs, h => by
    simp only [Query.lowerAll, Lower.bind_ok_iff, Lower.pure_ok_iff, Prod.mk.injEq] at h
    obtain ⟨_, _, h₁, _, _, h₂, rfl, rfl⟩ := h
    have h₁ := q.lower_yields hs h₁
    exact h₁.and (Query.lowerAll_yields rest (hs.keeps h₁.toKeeps) h₂)

theorem QuerySpec.lower_yields : ∀ (spec : QuerySpec) {c : LoweringContext} {s t : LoweringState}
    {r : Sql.QuerySpec}, Ready c s → spec.lower c s = .ok (r, t) →
      Yields s t (r.specs newKeys) r.Scoped
  | ⟨isDistinct, select, roots, condition, groupBy, having, orderBy, limit, offset⟩,
      c, s, t, r, hs, h => by
    obtain ⟨s₀, _, s₁, _, s₂, _, s₃, _, s₄, _, s₅, _, s₆, _, s₇, scope, -, h₀, h₁, h₂, h₃, h₄, h₅,
      h₆, h₇, rfl, hr⟩ := QuerySpec.lower_ok_iff.1 h
    have hk := lowerRoots_keeps (hs.sound.enter _) ⟨_, rfl, rfl⟩ rfl h₀
    have hq : s₀.InQuery := hk.grows.inQuery ⟨_, rfl, rfl⟩
    obtain ⟨h₁, hplain⟩ := SelectItem.lowerAll_yields select ⟨hk.sound, fun _ => hq⟩ h₁
    have hs₁ : Ready c s₁ := ⟨h₁.sound, fun _ => h₁.grows.inQuery hq⟩
    have h₂ := Condition.lowerOption_yields condition hs₁ h₂
    have hs₂ := hs₁.keeps h₂.toKeeps
    have h₃ := Expression.lowerAll_yields groupBy hs₂ h₃
    have hs₃ := hs₂.keeps h₃.toKeeps
    have h₄ := Condition.lowerOption_yields having hs₃ h₄
    have hs₄ := hs₃.keeps h₄.toKeeps
    have h₅ := SortKey.lowerAll_yields orderBy hs₄ h₅
    have hs₅ := hs₄.keeps h₅.toKeeps
    have h₆ := Expression.lowerOption_yields limit hs₅ h₆
    have h₇ := Expression.lowerOption_yields offset (hs₅.keeps h₆.toKeeps) h₇
    have hy := (h₁.and (h₂.and (h₃.and (h₄.and (h₅.and (h₆.and h₇)))))).leave hk r (by rw [hr])
    have hscope := h₇.sound.scopes.1
    subst hr
    refine hy.imp ?_ ?_
    · simp only [Sql.QuerySpec.specs, (tables_scoped hscope.joins).1, List.nil_append]
      exact .cons_cons _ ((List.Sublist.refl _).append ((List.Sublist.refl _).append
        ((groupKeys_specs scope _ hplain).append (List.Sublist.refl _))))
    · rintro visible hv ⟨hselect, hcondition, hgroup, hrest⟩
      refine ⟨(tables_scoped (hscope.mono hv).joins).2, hselect, hcondition, ?_, hrest⟩
      exact groupKeys_scoped hplain
        (fun owner ho => List.mem_append_left _ (hscope.owners owner ho)) hselect hgroup

theorem SelectItem.lowerAll_yields : ∀ (items : List (SelectItem Expression))
    {c : LoweringContext} {s t : LoweringState} {r : LoweredSelect}, Ready c s →
      SelectItem.lowerAll c items s = .ok (r, t) →
      Yields s t (Sql.SelectItem.specsAll newKeys r.items) (Sql.SelectItem.ScopedAll · r.items) ∧
        r.plain ⊆ r.items.map (·.expression)
  | [], c, s, t, rs, hs, h => by
    obtain ⟨rfl, rfl⟩ := Prod.mk.inj (Lower.pure_ok_iff.1 h)
    exact ⟨Yields.leaf (Keeps.refl hs.sound) fun _ _ => trivial, by simp⟩
  | ⟨e, aliasName⟩ :: rest, c, s, t, rs, hs, h => by
    rcases SelectItem.lowerAll_cons_ok_iff.1 h with ⟨_, _, _, _, rfl, hc, hr, rfl⟩ |
      ⟨_, _, _, _, _, -, he, -, -, hr, rfl⟩
    · obtain ⟨hk, hc⟩ := entityColumns_keeps hs.sound hc
      obtain ⟨hy, hplain⟩ := SelectItem.lowerAll_yields rest (hs.keeps hk) hr
      refine ⟨((ofColumns_yields hk.sound hc).after hk).append hy, ?_⟩
      simp only [LoweredSelect.append, LoweredSelect.ofColumns, List.map_append, List.map_map]
      refine List.append_subset.2 ⟨List.subset_append_of_subset_left _ ?_,
        List.subset_append_of_subset_right _ hplain⟩
      exact fun e he => List.mem_map.2 ⟨e, he, rfl⟩
    · have he := e.lower_yields hs he
      obtain ⟨hy, hplain⟩ := SelectItem.lowerAll_yields rest (hs.keeps he.toKeeps) hr
      refine ⟨he.and hy, ?_⟩
      split
      · exact List.cons_subset_cons _ hplain
      · exact List.subset_cons_of_subset _ hplain

theorem SortKey.lowerAll_yields : ∀ (keys : List (SortKey Expression)) {c : LoweringContext}
    {s t : LoweringState} {rs : List (SortKey Sql.Expression)}, Ready c s →
      SortKey.lowerAll c keys s = .ok (rs, t) →
      Yields s t (Sql.SortKey.specsAll newKeys rs) (Sql.SortKey.ScopedAll · rs)
  | [], c, s, t, rs, hs, h => by
    obtain ⟨rfl, rfl⟩ := Prod.mk.inj (Lower.pure_ok_iff.1 h)
    exact Yields.leaf (Keeps.refl hs.sound) fun _ _ => trivial
  | ⟨e, isDescending, nulls⟩ :: rest, c, s, t, rs, hs, h => by
    simp only [SortKey.lowerAll, Lower.bind_ok_iff, Lower.pure_ok_iff, Prod.mk.injEq] at h
    obtain ⟨_, _, h₁, _, _, h₂, rfl, rfl⟩ := h
    have h₁ := e.lower_yields hs h₁
    exact h₁.and (SortKey.lowerAll_yields rest (hs.keeps h₁.toKeeps) h₂)

end

/-! ## Statements -/

theorem lowerAssignments_yields {entity : Mapping.Entity} : ∀ {assignments : List Assignment}
    {s t : LoweringState} {rs : List Sql.Assignment}, Ready c s →
      lowerAssignments c entity assignments s = .ok (rs, t) →
      Yields s t (Sql.Assignment.specsAll newKeys rs) (Sql.Assignment.ScopedAll · rs)
  | [], s, t, rs, hs, h => by
    obtain ⟨rfl, rfl⟩ := Prod.mk.inj (Lower.pure_ok_iff.1 h)
    exact Yields.leaf (Keeps.refl hs.sound) fun _ _ => trivial
  | a :: rest, s, t, rs, hs, h => by
    simp only [lowerAssignments, Lower.bind_ok_iff, Lower.pure_ok_iff, Prod.mk.injEq] at h
    obtain ⟨_, _, hc, _, _, h₁, _, _, h₂, rfl, rfl⟩ := h
    obtain rfl := assignedColumn_ok hc
    have h₁ := a.value.lower_yields hs h₁
    exact h₁.and (lowerAssignments_yields (hs.keeps h₁.toKeeps) h₂)

theorem ofTarget_sound (variableName : String) (entity : Mapping.Entity) :
    (LoweringState.mk 1 [Scope.ofTarget variableName entity "t0"]).Sound where
  allotted := List.forall_mem_singleton.2 ⟨0, Nat.le_refl _, Nat.one_pos, rfl⟩
  nodup := List.nodup_singleton _
  scopes := by
    refine ⟨⟨?_, by simp [Scope.ofTarget], ?_, by simp [Scope.ofTarget]⟩, trivial⟩
    · exact List.forall_mem_singleton.2 ⟨_, rfl, List.mem_singleton.2 rfl⟩
    · exact List.forall_mem_singleton.2 trivial

/-- Nothing is joined to the target of an update or delete, so it is all that is seen. -/
theorem Yields.ofTarget {variableName : String} {entity : Mapping.Entity}
    {as : List Sql.QuerySpec} {p : List String → Prop}
    (h : Yields ⟨1, [Scope.ofTarget variableName entity "t0"]⟩ t as p) :
    ("t0" :: tableNames as).Nodup ∧ p ["t0"] := by
  obtain ⟨scope, _, hscope, hnil, ht⟩ := List.forall₂_cons_left_iff.1 h.grows.scopes
  obtain rfl := List.forall₂_nil_left_iff.1 hnil
  have hnames : t.names = scope.names := by simp [LoweringState.names, ht]
  refine ⟨List.nodup_cons.2 ⟨fun ha => ?_, h.nodup⟩, h.seen _ ?_⟩
  · exact (h.fresh _ ha).2 (hnames ▸ hscope.subset (List.mem_singleton.2 rfl))
  · exact hnames ▸ hscope.closed rfl

def peopleModel : Mapping.Model :=
  .ofList
    [{ Mapping.Entity.ofName "Person" with
        attributes := [.ofType "name" .varchar]
        toMany :=
          [⟨"nicknames", "Nickname", .joinTable "person_nicknames" "person_id" "nickname_id"⟩,
            ⟨"tags", "Tag", .foreignKey "person_id"⟩] },
      .ofName "Nickname", .ofName "Tag"]

theorem exists_lowered {α : Type} {statement : Statement} {d : Dialect} {model : Mapping.Model}
    {f : Sql.Statement → α} {a : α} (h : (statement.lower d model).toOption.map f = some a) :
    ∃ lowered, statement.lower d model = .ok lowered ∧ f lowered = a := by
  cases hl : statement.lower d model with
  | error e => simp [hl, Except.toOption] at h
  | ok lowered => exact ⟨lowered, rfl, by simpa [hl, Except.toOption] using h⟩

theorem exists_run {α β : Type} {x : Lower α} {s : LoweringState} {f : α × LoweringState → β}
    {b : β} (h : (x s).toOption.map f = some b) : ∃ r, x s = .ok r ∧ f r = b := by
  cases hx : x s with
  | error e => simp [hx, Except.toOption] at h
  | ok r => exact ⟨r, rfl, by simpa [hx, Except.toOption] using h⟩

end SqlDialects.Entity
